import ShaderEmbed.Proofs.Artifact.FreeDelimiter
import ShaderEmbed.Proofs.Artifact.Reading

/-!
# Which sections are rendered

Sections are rendered just if the mode accepts them and every text has a free delimiter
(`exists_render_iff`). What is rendered for a section is its own content (`render_cases`).

`renderByMode` renders as the mode alone tells, without a look at what a section holds or how many
there are: a text block of a section without text, a byte table of a section without bytes, and a
single block without a section are made of things to spare. `renderByMode_eq` says that it renders
the same, whatever the spare things are: behind the check they are not used.
-/

namespace ShaderEmbed

variable {layout : ArtifactLayout} {mode : EmbeddingMode} {sections : List Section}

/-! ## Acceptance -/

/-- The mode embeds the sections: there is one at least, and one at most in a single text; each is
of the kind that the mode embeds; and each text has a free delimiter. -/
structure EmbeddingMode.Accepts (mode : EmbeddingMode) (sections : List Section) : Prop where
  nonempty : sections ≠ []
  single : mode.isSingle = true → sections.length = 1
  kind : ∀ s ∈ sections, s.content.kind = mode.contentKind
  delimiter : ∀ s ∈ sections, ∀ text, s.content = .text text → Delimiter.HasFree text.toList

theorem EmbeddingMode.check_eq_ok_iff :
    mode.check sections = .ok () ↔ sections ≠ [] ∧ (mode.isSingle = true → sections.length = 1) ∧
      ∀ s ∈ sections, s.content.kind = mode.contentKind := by
  constructor
  · intro h
    obtain ⟨hne, hkind⟩ := ArtifactLayout.kind_of_check h
    refine ⟨hne, fun hmode => ?_, hkind⟩
    unfold check at h
    split at h
    · cases h
    split at h
    · cases h
    · rename_i hsingle
      simpa [hmode] using hsingle
  · rintro ⟨hne, hsingle, hkind⟩
    have hfind : sections.find? (fun s => s.content.kind ≠ mode.contentKind) = none :=
      List.find?_eq_none.mpr fun s hs => by simp [hkind s hs]
    unfold check
    rw [if_neg (by simpa using hne), if_neg (by simpa using hsingle), hfind]

/-- The block of a section holds its own content under its own symbol. -/
inductive Embeds (layout : ArtifactLayout) (mode : EmbeddingMode) (s : Section) : String → Prop
  | text {text : String} {delimiter : List Char} (hcontent : s.content = .text text)
      (hdelimiter : Delimiter.choose? text.toList = some delimiter) :
      Embeds layout mode s (layout.textBlock (mode.symbol s) (String.ofList delimiter) text)
  | binary {bytes : Bytes} (hcontent : s.content = .binary bytes) :
      Embeds layout mode s (layout.bytesBlock (mode.symbol s) bytes)

/-- The content of a section as a block has it: a text as it is, and bytes as decimal numbers, one
on a line. -/
def ShaderContent.shown : ShaderContent → String
  | text s => s
  | binary bytes => String.join (bytes.map fun byte => "    " ++ toString byte.toNat ++ ",\n")

/-- A text shows a section: somewhere its symbol stands there, and its content behind. -/
def Shows (mode : EmbeddingMode) (text : String) (s : Section) : Prop :=
  ∃ front between behind, text = front ++ mode.symbol s ++ between ++ s.content.shown ++ behind

theorem Embeds.shows {s : Section} {block : String} (h : Embeds layout mode s block) :
    Shows mode block s := by
  cases h with
  | @text text delimiter hcontent hdelimiter =>
    refine ⟨"const char* " ++ layout.scope ++ "::", " =\nR\"" ++ String.ofList delimiter ++ "(\n",
      "\n)" ++ String.ofList delimiter ++ "\";\n", ?_⟩
    have hshown : s.content.shown = text := by rw [hcontent]; rfl
    rw [hshown]
    unfold ArtifactLayout.textBlock
    simp only [String.append_assoc]
  | @binary bytes hcontent =>
    refine ⟨"const std::vector<unsigned char> " ++ layout.scope ++ "::",
      " =\n\x7b\n", "\x7d;\n", ?_⟩
    have hshown : s.content.shown = String.join (bytes.map ArtifactLayout.byteLine) := by
      rw [hcontent]; rfl
    rw [hshown]
    unfold ArtifactLayout.bytesBlock
    simp only [String.append_assoc]

theorem Shows.within {s : Section} {block text : String} (h : Shows mode block s)
    (hblock : block.toList <:+: text.toList) : Shows mode text s := by
  obtain ⟨front, between, behind, rfl⟩ := h
  obtain ⟨before, after, hwhole⟩ := hblock
  refine ⟨String.ofList before ++ front, between, behind ++ String.ofList after, ?_⟩
  rw [← String.toList_inj, ← hwhole]
  simp only [String.toList_append, String.toList_ofList, List.append_assoc]

/-- What rendering a section comes to: a block that embeds it, or its text has no free delimiter. -/
theorem renderSection_cases (layout : ArtifactLayout) (mode : EmbeddingMode) (s : Section) :
    (∃ block, renderSection layout mode s = .ok block ∧ Embeds layout mode s block ∧
        ∀ text, s.content = .text text → Delimiter.HasFree text.toList) ∨
      ∃ text, renderSection layout mode s = .error (.noDelimiter s.name) ∧ s.content = .text text ∧
        ¬ Delimiter.HasFree text.toList := by
  unfold renderSection
  cases hcontent : s.content with
  | binary bytes => exact Or.inl ⟨_, rfl, .binary hcontent, by simp⟩
  | text text =>
    cases hchosen : Delimiter.choose? text.toList with
    | none =>
      refine Or.inr ⟨text, by simp only [hchosen], rfl, ?_⟩
      rw [← Delimiter.isSome_choose?_iff, hchosen]
      simp
    | some delimiter =>
      refine Or.inl ⟨_, by simp only [hchosen], .text hcontent hchosen, ?_⟩
      rintro _ ⟨rfl⟩
      exact Delimiter.isSome_choose?_iff.mp (by rw [hchosen]; rfl)

/-- Rendering sections one after the other ends at the first whose text has no free delimiter. -/
theorem renderSections_cases (layout : ArtifactLayout) (mode : EmbeddingMode)
    (sections : List Section) :
    (∃ blocks, sections.mapM (renderSection layout mode) = .ok blocks ∧
        List.Forall₂ (Embeds layout mode) sections blocks ∧
        ∀ s ∈ sections, ∀ text, s.content = .text text → Delimiter.HasFree text.toList) ∨
      ∃ s ∈ sections, ∃ text, sections.mapM (renderSection layout mode) =
        .error (.noDelimiter s.name) ∧
        s.content = .text text ∧ ¬ Delimiter.HasFree text.toList := by
  induction sections with
  | nil => exact Or.inl ⟨[], rfl, .nil, by simp⟩
  | cons s rest ih =>
    rw [List.mapM_cons]
    rcases renderSection_cases layout mode s with ⟨block, hblock, hembeds, hfree⟩ |
      ⟨text, hfault, hcontent, hnone⟩
    · rw [hblock]
      rcases ih with ⟨blocks, hblocks, hall, hfrees⟩ | ⟨t, ht, text, hfault, hcontent, hnone⟩
      · exact Or.inl ⟨block :: blocks, by rw [hblocks]; rfl, .cons hembeds hall,
          List.forall_mem_cons.mpr ⟨hfree, hfrees⟩⟩
      · exact Or.inr ⟨t, List.mem_cons_of_mem _ ht, text, by rw [hfault]; rfl, hcontent, hnone⟩
    · exact Or.inr ⟨s, List.mem_cons_self, text, by rw [hfault]; rfl, hcontent, hnone⟩

/-- Sections that a mode checks are rendered, each to a block of its own, or the text of one has no
free delimiter. -/
theorem render_cases (layout : ArtifactLayout) (hcheck : mode.check sections = .ok ()) :
    (∃ blocks, render layout mode sections =
      .ok (layout.opening ++ guarded mode.guard? ("\n".intercalate blocks)) ∧
        List.Forall₂ (Embeds layout mode) sections blocks ∧
        ∀ s ∈ sections, ∀ text, s.content = .text text → Delimiter.HasFree text.toList) ∨
      ∃ s ∈ sections, ∃ text, render layout mode sections =
        .error (.sectionMismatch mode.label (.noDelimiter s.name)) ∧
        s.content = .text text ∧ ¬ Delimiter.HasFree text.toList := by
  unfold render renderArtifact
  rw [hcheck]
  rcases renderSections_cases layout mode sections with
    ⟨blocks, hblocks, hall, hfree⟩ | ⟨s, hs, text, hfault, hcontent, hnone⟩
  · rw [hblocks]
    exact Or.inl ⟨blocks, rfl, hall, hfree⟩
  · rw [hfault]
    exact Or.inr ⟨s, hs, text, rfl, hcontent, hnone⟩

/-- Sections are rendered just if the mode accepts them. -/
theorem exists_render_iff :
    (∃ text, render layout mode sections = .ok text) ↔ mode.Accepts sections := by
  constructor
  · rintro ⟨text, hrender⟩
    have hcheck := (ArtifactLayout.exists_of_render hrender).1
    obtain ⟨hne, hsingle, hkind⟩ := EmbeddingMode.check_eq_ok_iff.mp hcheck
    rcases render_cases layout hcheck with ⟨blocks, -, -, hfree⟩ | ⟨s, -, text', hfault, -⟩
    · exact ⟨hne, hsingle, hkind, hfree⟩
    · rw [hrender] at hfault
      cases hfault
  · rintro ⟨hne, hsingle, hkind, hfree⟩
    rcases render_cases layout (EmbeddingMode.check_eq_ok_iff.mpr ⟨hne, hsingle, hkind⟩) with
      ⟨blocks, hrender, -⟩ | ⟨s, hs, text, -, hcontent, hnone⟩
    · exact ⟨_, hrender⟩
    · exact absurd (hfree s hs text hcontent) hnone

/-! ## Rendering by the mode alone -/

/-- Things to spare: a text for a section without one, bytes for a section without any, and a
section. -/
structure Spare where
  text : String
  bytes : Bytes
  filler : Section

def ShaderContent.textOr (spare : String) : ShaderContent → String
  | text s => s
  | binary _ => spare

def ShaderContent.bytesOr (spare : Bytes) : ShaderContent → Bytes
  | text _ => spare
  | binary bytes => bytes

/-- The text block of a section, whatever the section holds. -/
def renderText (layout : ArtifactLayout) (mode : EmbeddingMode) (spare : Spare) (s : Section) :
    Except SectionFault String :=
  match Delimiter.choose? (s.content.textOr spare.text).toList with
  | some delimiter =>
    .ok (layout.textBlock (mode.symbol s) (String.ofList delimiter) (s.content.textOr spare.text))
  | none => .error (.noDelimiter s.name)

/-- The blocks of some sections as the mode alone tells. -/
def blocksByMode (layout : ArtifactLayout) (spare : Spare) (sections : List Section) :
    EmbeddingMode → Except SectionFault (List String)
  | .textMulti => sections.mapM (renderText layout .textMulti spare)
  | .textSingle symbol =>
    (renderText layout (.textSingle symbol) spare (sections.headD spare.filler)).map ([·])
  | .binaryBlob guard =>
    .ok (sections.map fun s =>
      layout.bytesBlock ((EmbeddingMode.binaryBlob guard).symbol s) (s.content.bytesOr spare.bytes))

/-- The text of an artifact as the mode alone tells. -/
def renderByMode (layout : ArtifactLayout) (mode : EmbeddingMode) (spare : Spare)
    (sections : List Section) :
    Except ShaderError String :=
  (do
    mode.check sections
    let blocks ← blocksByMode layout spare sections mode
    return layout.opening ++ guarded mode.guard? ("\n".intercalate blocks)).mapError
      (.sectionMismatch mode.label)

theorem renderText_of_kind {s : Section} (spare : Spare) (h : s.content.kind = .text) :
    renderText layout mode spare s = renderSection layout mode s := by
  unfold renderText renderSection
  cases hcontent : s.content with
  | text text => rfl
  | binary bytes =>
    rw [hcontent] at h
    cases h

theorem mapM_congr {ε α β : Type} {f g : α → Except ε β} {as : List α} (h : ∀ a ∈ as, f a = g a) :
    as.mapM f = as.mapM g := by
  induction as with
  | nil => rfl
  | cons a rest ih =>
    obtain ⟨hfirst, hrest⟩ := List.forall_mem_cons.mp h
    rw [List.mapM_cons, List.mapM_cons, hfirst, ih hrest]

/-- Behind the check nothing to spare is used: the first section is there, texts have text, and
tables have bytes. -/
theorem blocksByMode_eq (spare : Spare) (hcheck : mode.check sections = .ok ()) :
    blocksByMode layout spare sections mode = sections.mapM (renderSection layout mode) := by
  obtain ⟨hne, hsingle, hkind⟩ := EmbeddingMode.check_eq_ok_iff.mp hcheck
  cases mode with
  | textMulti => exact mapM_congr fun s hs => renderText_of_kind spare (hkind s hs)
  | textSingle symbol =>
    obtain ⟨s, rfl⟩ := List.length_eq_one_iff.mp (hsingle rfl)
    have hfirst : renderText layout (.textSingle symbol) spare s =
        renderSection layout (.textSingle symbol) s :=
      renderText_of_kind spare (hkind s (List.mem_singleton_self s))
    simp only [blocksByMode, List.headD_cons, hfirst, List.mapM_cons, List.mapM_nil]
    cases renderSection layout (.textSingle symbol) s <;> rfl
  | binaryBlob guard =>
    have hall : ∀ s ∈ sections, renderSection layout (.binaryBlob guard) s =
        pure (layout.bytesBlock ((EmbeddingMode.binaryBlob guard).symbol s)
          (s.content.bytesOr spare.bytes)) := by
      intro s hs
      unfold renderSection
      cases hcontent : s.content with
      | text text =>
        have := hkind s hs
        rw [hcontent] at this
        cases this
      | binary bytes => rfl
    rw [mapM_congr hall, List.mapM_pure]
    rfl

theorem renderByMode_eq (layout : ArtifactLayout) (mode : EmbeddingMode) (spare : Spare)
    (sections : List Section) :
    renderByMode layout mode spare sections = render layout mode sections := by
  unfold renderByMode render renderArtifact
  cases hcheck : mode.check sections with
  | error fault => rfl
  | ok checked => rw [← blocksByMode_eq spare hcheck]

end ShaderEmbed
