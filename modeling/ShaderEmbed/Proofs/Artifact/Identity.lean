import ShaderEmbed.Proofs.Artifact.Acceptance

/-!
# When artifacts are the same

Of its sections an artifact tells the symbols and the contents, in order (`EmbeddingMode.emitted`),
and tells them exactly: two lists of sections are rendered to the same text just if they are emitted
the same (`render_eq_iff`).

The blocks of an artifact can be taken off its text if the symbols are identifiers, as they are when
they are made of names that are. A symbol that is chosen may be anything. Then both texts have the
same symbol in the same place, and the literals behind it are compared.
-/

namespace ShaderEmbed

open ArtifactLayout

/-- What an artifact tells of a section: the symbol and the content. -/
def EmbeddingMode.emitted (mode : EmbeddingMode) (s : Section) : String × ShaderContent :=
  (mode.symbol s, s.content)

theorem ShaderContent.embedded_injective : Function.Injective ShaderContent.embedded := by
  intro first second h
  cases first with
  | text s =>
    cases second with
    | text t =>
      have hframed : "\n" ++ s ++ "\n" = "\n" ++ t ++ "\n" := ShaderContent.text.inj h
      have hlist := congrArg String.toList hframed
      simp only [String.toList_append] at hlist
      have hfront := List.append_cancel_right hlist
      rw [String.toList_inj.mp (List.append_cancel_left hfront)]
    | binary bytes => cases h
  | binary bytes =>
    cases second with
    | text t => cases h
    | binary others => exact h

/-- What an artifact defines under a symbol for a content. -/
def Definition.embedding (told : String × ShaderContent) : Definition := ⟨told.1, told.2.embedded⟩

theorem Definition.embedding_injective : Function.Injective Definition.embedding := by
  intro told other h
  obtain ⟨hsymbol, hcontent⟩ := Definition.mk.inj h
  exact Prod.ext hsymbol (ShaderContent.embedded_injective hcontent)

section Artifact

variable {layout : ArtifactLayout} {mode : EmbeddingMode} {first second : List Section}
  {text : String}

/-! ## What the text tells -/

/-- The text of an artifact is its opening and its blocks, and these are read as what the sections
define. -/
theorem exists_takeBlocks_of_render (hsymbols : ∀ s ∈ first, Text.isIdentifier (mode.symbol s))
    (h : render layout mode first = .ok text) :
    ∃ rest, text.toList = (layout.opening.toList ++ (guardOpening mode.guard?).toList) ++ rest ∧
      layout.takeBlocks mode rest =
        some (first.map mode.definition, (guardEnding mode.guard?).toList) := by
  obtain ⟨hcheck, blocks, hblocks, rfl⟩ := exists_of_render h
  obtain ⟨hne, hkind⟩ := kind_of_check hcheck
  have hrendered := forall₂_of_mapM hblocks
  have hblocksNe : blocks ≠ [] := by
    rintro rfl
    cases hrendered
    exact hne rfl
  have hboth := (List.forall₂_and_left first blocks).mpr
    ⟨fun s hs => And.intro (hsymbols s hs) (hkind s hs), hrendered⟩
  have htakes : List.Forall₂ (fun block definition =>
      Text.Takes (layout.takeBlock mode) block.toList definition)
      blocks (first.map mode.definition) := by
    refine List.forall₂_map_right_iff.mpr (hboth.imp ?_).flip
    rintro s block ⟨⟨hsymbol, hkind⟩, hblock⟩
    exact takes_renderSection hkind hsymbol hblock
  refine ⟨_, ?_, takeBlocks_append hblocksNe htakes (skip_guardEnding mode.guard?)⟩
  simp only [guarded_eq, String.toList_append, List.append_assoc]

theorem emitted_eq_of_identifiers (hfirst : ∀ s ∈ first, Text.isIdentifier (mode.symbol s))
    (hsecond : ∀ s ∈ second, Text.isIdentifier (mode.symbol s))
    (h : render layout mode first = .ok text) (h' : render layout mode second = .ok text) :
    first.map mode.emitted = second.map mode.emitted := by
  obtain ⟨rest, hrest, htaken⟩ := exists_takeBlocks_of_render hfirst h
  obtain ⟨rest', hrest', htaken'⟩ := exists_takeBlocks_of_render hsecond h'
  obtain rfl : rest = rest' := List.append_cancel_left (hrest.symm.trans hrest')
  have hboth := Option.some.inj (htaken.symm.trans htaken')
  have hdefinitions : (first.map mode.emitted).map Definition.embedding =
      (second.map mode.emitted).map Definition.embedding := by
    rw [List.map_map, List.map_map]
    exact congrArg Prod.fst hboth
  exact List.map_injective_iff.mpr Definition.embedding_injective hdefinitions

/-- The artifact of a single text is that text between fixed ones, but for the delimiter. -/
theorem exists_literal_of_render {symbol : String}
    (h : render layout (.textSingle (some symbol)) first = .ok text) :
    ∃ s held delimiter, first = [s] ∧ s.content = .text held ∧
      Delimiter.choose? held.toList = some delimiter ∧
      text.toList =
        (layout.opening.toList ++
          ("const char* " ++ layout.scope ++ "::" ++ symbol ++ " =\nR\"").toList) ++
        (delimiter ++ '(' :: '\n' ::
          (held.toList ++ '\n' :: (Delimiter.closing delimiter ++ ";\n".toList))) := by
  obtain ⟨hcheck, blocks, hblocks, rfl⟩ := exists_of_render h
  obtain ⟨-, hsingle, hkind⟩ := EmbeddingMode.check_eq_ok_iff.mp hcheck
  obtain ⟨s, rfl⟩ := List.length_eq_one_iff.mp (hsingle rfl)
  have hkind' := hkind s (List.mem_singleton_self s)
  cases forall₂_of_mapM hblocks with
  | @cons _ block _ _ hblock hnil =>
    cases hnil
    cases hcontent : s.content with
    | binary bytes =>
      rw [hcontent] at hkind'
      exact absurd hkind' (by simp [ShaderContent.kind, EmbeddingMode.contentKind])
    | text held =>
      obtain ⟨delimiter, hchosen, -⟩ := exists_delimiter_of_renderSection hblock hcontent
      have hwritten : block = layout.textBlock symbol (String.ofList delimiter) held := by
        simpa [renderSection, hcontent, hchosen, EmbeddingMode.symbol, eq_comm] using hblock
      have hguarded : guarded (EmbeddingMode.textSingle (some symbol)).guard?
          ("\n".intercalate [block]) = block := by
        simp [EmbeddingMode.guard?, guarded]
      refine ⟨s, held, delimiter, rfl, hcontent, hchosen, ?_⟩
      rw [hguarded, hwritten]
      unfold textBlock Delimiter.closing
      simp only [String.toList_append, String.toList_ofList, List.append_assoc]
      rfl

theorem emitted_eq_of_chosen {symbol : String}
    (h : render layout (.textSingle (some symbol)) first = .ok text)
    (h' : render layout (.textSingle (some symbol)) second = .ok text) :
    first.map (EmbeddingMode.textSingle (some symbol)).emitted =
      second.map (EmbeddingMode.textSingle (some symbol)).emitted := by
  obtain ⟨s, held, delimiter, rfl, hheld, hchosen, htext⟩ := exists_literal_of_render h
  obtain ⟨t, held', delimiter', rfl, hheld', hchosen', htext'⟩ := exists_literal_of_render h'
  have hliterals := List.append_cancel_left (htext.symm.trans htext')
  have hread := congrArg Delimiter.takeRaw hliterals
  rw [Delimiter.takeRaw_literal hchosen, Delimiter.takeRaw_literal hchosen'] at hread
  have hframed : '\n' :: held.toList ++ ['\n'] = '\n' :: held'.toList ++ ['\n'] :=
    congrArg Prod.fst (Option.some.inj hread)
  have hsame : held = held' :=
    String.toList_inj.mp (List.cons.inj (List.append_cancel_right hframed)).2
  simp [EmbeddingMode.emitted, EmbeddingMode.symbol, hheld, hheld', hsame]

/-! ## What the text is made of -/

theorem block_eq_of_emitted {s t : Section} {block other : String}
    (hsame : mode.emitted s = mode.emitted t) (h : renderSection layout mode s = .ok block)
    (h' : renderSection layout mode t = .ok other) : block = other := by
  obtain ⟨hsymbol, hcontent⟩ : mode.symbol s = mode.symbol t ∧ s.content = t.content :=
    Prod.mk.inj hsame
  unfold renderSection at h h'
  rw [hcontent, hsymbol] at h
  cases hheld : t.content with
  | text held =>
    cases hchosen : Delimiter.choose? held.toList with
    | none => simp [hheld, hchosen] at h
    | some delimiter =>
      simp only [hheld, hchosen, Except.ok.injEq] at h h'
      exact h.symm.trans h'
  | binary bytes =>
    simp only [hheld, Except.ok.injEq] at h h'
    exact h.symm.trans h'

theorem blocks_eq_of_emitted {blocks others : List String}
    (hsame : first.map mode.emitted = second.map mode.emitted)
    (h : List.Forall₂ (fun s block => renderSection layout mode s = .ok block) first blocks)
    (h' : List.Forall₂ (fun s block => renderSection layout mode s = .ok block) second others) :
    blocks = others := by
  induction h generalizing second others with
  | nil =>
    obtain rfl := List.map_eq_nil_iff.mp hsame.symm
    cases h'
    rfl
  | cons hblock _ ih =>
    cases h' with
    | nil => cases hsame
    | cons hblock' hrest' =>
      obtain ⟨hfirst, hrest⟩ := List.cons.inj hsame
      rw [block_eq_of_emitted hfirst hblock hblock', ih hrest hrest']

/-- Two artifacts with the same layout in the same mode are the same just if they tell the same of
their sections. -/
theorem render_eq_iff {other : String} (hfirst : ∀ s ∈ first, Text.isIdentifier s.name)
    (hsecond : ∀ s ∈ second, Text.isIdentifier s.name) (h : render layout mode first = .ok text)
    (h' : render layout mode second = .ok other) :
    text = other ↔ first.map mode.emitted = second.map mode.emitted := by
  constructor
  · rintro rfl
    by_cases hchosen : ∃ symbol, mode = .textSingle (some symbol)
    · obtain ⟨symbol, rfl⟩ := hchosen
      exact emitted_eq_of_chosen h h'
    · have hsymbol (s : Section) (hname : Text.isIdentifier s.name) :
          Text.isIdentifier (mode.symbol s) :=
        isIdentifier_symbol hname fun symbol hmode => absurd ⟨symbol, hmode⟩ hchosen
      have hfirst' (s : Section) (hs : s ∈ first) := hsymbol s (hfirst s hs)
      have hsecond' (s : Section) (hs : s ∈ second) := hsymbol s (hsecond s hs)
      exact emitted_eq_of_identifiers hfirst' hsecond' h h'
  · intro hsame
    obtain ⟨-, blocks, hblocks, rfl⟩ := exists_of_render h
    obtain ⟨-, others, hothers, rfl⟩ := exists_of_render h'
    rw [blocks_eq_of_emitted hsame (forall₂_of_mapM hblocks) (forall₂_of_mapM hothers)]

end Artifact

end ShaderEmbed
