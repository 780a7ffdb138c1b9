import ShaderEmbed.Artifact.Render
import ShaderEmbed.Proofs.Artifact.RawString

/-!
# Reading an artifact back

A reader that knows the layout and the mode, and nothing of the sections. It reads a text block as a
compiler does, a byte table line by line, and accepts nothing in front of the blocks, between them
or behind them but what belongs there.

`takes_textBlock` and `takes_bytesBlock` are about one block, `takes_renderSection` about the block
of a section in a mode, and `readArtifact_render` about a whole artifact: what is read is what was
rendered.
-/

namespace ShaderEmbed

/-- The symbols as they are written: the chosen one if there is one, and otherwise the name of the
section with an ending that tells its kind. -/
theorem EmbeddingMode.symbol_spelled (mode : EmbeddingMode) (s : Section) :
    (∀ symbol, mode = .textSingle (some symbol) → mode.symbol s = symbol) ∧
      (mode.contentKind = .text → (∀ symbol, mode ≠ .textSingle (some symbol)) →
        mode.symbol s = s.name ++ "ShaderSrc") ∧
      (mode.contentKind = .binary → mode.symbol s = s.name ++ "Bin") := by
  refine ⟨fun symbol hmode => by rw [hmode]; rfl, fun hkind hmode => ?_, fun hkind => ?_⟩
  · match mode, hmode with
    | .textMulti, _ | .textSingle none, _ => rfl
    | .textSingle (some symbol), hmode => exact absurd rfl (hmode symbol)
    | .binaryBlob _, _ => cases hkind
  · match mode with
    | .textMulti | .textSingle _ => cases hkind
    | .binaryBlob _ => rfl

/-- A symbol that an artifact defines, and what it holds. -/
structure Definition where
  symbol : String
  content : ShaderContent
deriving DecidableEq, Repr

/-- What an artifact holds for a content: bytes as they are, a text between two line feeds. -/
def ShaderContent.embedded : ShaderContent → ShaderContent
  | .text s => .text ("\n" ++ s ++ "\n")
  | .binary bytes => .binary bytes

/-- What an artifact defines for a section. -/
def EmbeddingMode.definition (mode : EmbeddingMode) (s : Section) : Definition :=
  ⟨mode.symbol s, s.content.embedded⟩

namespace ArtifactLayout

/-! ## The reader -/

def takeText (layout : ArtifactLayout) (s : List Char) : Option (Definition × List Char) := do
  let s ← Text.skip ("const char* " ++ layout.scope ++ "::") s
  let (symbol, s) ← Text.takeIdentifier s
  let s ← Text.skip " =\nR\"" s
  let (content, s) ← Delimiter.takeRaw s
  let s ← Text.skip ";\n" s
  return (⟨symbol, .text (String.ofList content)⟩, s)

def takeByteLine (s : List Char) : Option (UInt8 × List Char) := do
  let s ← Text.skip "    " s
  let (byte, s) ← Text.takeByte s
  let s ← Text.skip ",\n" s
  return (byte, s)

/-- Takes the definition of a byte table off the front. -/
def takeBytes (layout : ArtifactLayout) (s : List Char) : Option (Definition × List Char) := do
  let s ← Text.skip ("const std::vector<unsigned char> " ++ layout.scope ++ "::") s
  let (symbol, s) ← Text.takeIdentifier s
  let s ← Text.skip " =\n\x7b\n" s
  let (bytes, s) := Text.many takeByteLine s
  let s ← Text.skip "\x7d;\n" s
  return (⟨symbol, .binary bytes⟩, s)

def takeBlock (layout : ArtifactLayout) (mode : EmbeddingMode) : List Char →
    Option (Definition × List Char) :=
  match mode.contentKind with
  | .text => layout.takeText
  | .binary => layout.takeBytes

/-- Takes a block off the front, and all that follow behind an empty line. -/
def takeBlocks (layout : ArtifactLayout) (mode : EmbeddingMode) (s : List Char) :
    Option (List Definition × List Char) := do
  let (first, s) ← layout.takeBlock mode s
  let (others, s) := Text.many (fun s => (Text.skip "\n" s).bind (layout.takeBlock mode)) s
  return (first :: others, s)

def guardOpening : Option String → String
  | some guard => "#if " ++ guard ++ "\n"
  | none => ""

def guardEnding : Option String → String
  | some _ => "#endif\n"
  | none => ""

/-- Reads an artifact from its first character to its last. -/
def readArtifact (layout : ArtifactLayout) (mode : EmbeddingMode)
    (text : String) : Option (List Definition) := do
  let s ← Text.skip layout.opening text.toList
  let s ← Text.skip (guardOpening mode.guard?) s
  let (definitions, s) ← layout.takeBlocks mode s
  if s = (guardEnding mode.guard?).toList then some definitions else none

/-! ## Blocks -/

section

variable {layout : ArtifactLayout} {symbol : String}

theorem takes_textBlock {text : String} {delimiter : List Char} (hsymbol : Text.isIdentifier symbol)
    (h : Delimiter.choose? text.toList = some delimiter) :
    Text.Takes layout.takeText (layout.textBlock symbol (String.ofList delimiter) text).toList
      ⟨symbol, .text ("\n" ++ text ++ "\n")⟩ := by
  constructor
  · unfold textBlock
    simp
  intro rest
  have hwritten : (layout.textBlock symbol (String.ofList delimiter) text).toList ++ rest =
      ("const char* " ++ layout.scope ++ "::").toList ++ (symbol.toList ++ (" =\nR\"".toList ++
        (delimiter ++ '(' :: '\n' :: (text.toList ++ '\n' :: (Delimiter.closing delimiter ++
          (";\n".toList ++ rest)))))) := by
    unfold textBlock Delimiter.closing
    simp only [String.toList_append, String.toList_ofList, List.append_assoc]
    rfl
  have hname (s : List Char) : Text.takeIdentifier (symbol.toList ++ (" =\nR\"".toList ++ s)) =
      some (symbol, " =\nR\"".toList ++ s) :=
    Text.takeIdentifier_append hsymbol (c := ' ') (by decide) _
  have hcontent : String.ofList ('\n' :: text.toList ++ ['\n']) = "\n" ++ text ++ "\n" := by
    simp [← String.toList_inj]
  unfold takeText
  simp only [hwritten, Text.skip_append, hname, Delimiter.takeRaw_literal h,
    hcontent, Option.bind_eq_bind, Option.bind_some, Option.pure_def]

theorem takes_byteLine (byte : UInt8) : Text.Takes takeByteLine (byteLine byte).toList byte := by
  constructor
  · unfold byteLine
    simp
  intro rest
  have hwritten : (byteLine byte).toList ++ rest =
      "    ".toList ++ ((toString byte.toNat).toList ++ (",\n".toList ++ rest)) := by
    unfold byteLine
    simp only [String.toList_append, List.append_assoc]
  have hbyte : Text.takeByte ((toString byte.toNat).toList ++ (",\n".toList ++ rest)) =
      some (byte, ",\n".toList ++ rest) :=
    Text.takeByte_append byte (c := ',') (by decide) _
  unfold takeByteLine
  simp only [hwritten, Text.skip_append, hbyte, Option.bind_eq_bind,
    Option.bind_some, Option.pure_def]

theorem takes_bytesBlock (bytes : Bytes) (hsymbol : Text.isIdentifier symbol) :
    Text.Takes layout.takeBytes (layout.bytesBlock symbol bytes).toList
      ⟨symbol, .binary bytes⟩ := by
  constructor
  · unfold bytesBlock
    simp
  intro rest
  have hwritten : (layout.bytesBlock symbol bytes).toList ++ rest =
      ("const std::vector<unsigned char> " ++ layout.scope ++ "::").toList ++ (symbol.toList ++
        (" =\n\x7b\n".toList ++ ((bytes.map fun byte => (byteLine byte).toList).flatten ++
          ("\x7d;\n".toList ++ rest)))) := by
    unfold bytesBlock
    simp only [String.toList_append, String.toList_join, List.flatMap_def,
      List.map_map, Function.comp_def, List.append_assoc]
  have hname (s : List Char) : Text.takeIdentifier (symbol.toList ++ (" =\n\x7b\n".toList ++ s)) =
      some (symbol, " =\n\x7b\n".toList ++ s) :=
    Text.takeIdentifier_append hsymbol (c := ' ') (by decide) _
  have hlines : List.Forall₂ (Text.Takes takeByteLine)
      (bytes.map fun byte => (byteLine byte).toList) bytes :=
    List.forall₂_map_left_iff.mpr (List.forall₂_same.mpr fun byte _ => takes_byteLine byte)
  have hstop : takeByteLine ("\x7d;\n".toList ++ rest) = none := rfl
  have htable := Text.many_flatten hlines hstop
  unfold takeBytes
  simp only [hwritten, Text.skip_append, hname, htable, Option.bind_eq_bind,
    Option.bind_some, Option.pure_def]

end

/-! ## Sections -/

theorem isIdentifier_append {name suffix : String} (h : Text.isIdentifier name)
    (hsuffix : suffix.toList.all Text.followsInIdentifier) :
    Text.isIdentifier (name ++ suffix) := by
  unfold Text.isIdentifier at h ⊢
  rw [String.toList_append]
  cases hname : name.toList with
  | nil =>
    rw [hname] at h
    cases h
  | cons c rest =>
    rw [hname, Text.spellsIdentifier, Bool.and_eq_true] at h
    rw [List.cons_append, Text.spellsIdentifier, List.all_append, h.1, h.2, hsuffix]
    rfl

theorem isIdentifier_symbol {mode : EmbeddingMode} {s : Section} (hname : Text.isIdentifier s.name)
    (hsymbol : ∀ symbol, mode = .textSingle (some symbol) → Text.isIdentifier symbol) :
    Text.isIdentifier (mode.symbol s) := by
  cases mode with
  | textMulti => exact isIdentifier_append hname (by decide)
  | textSingle symbol =>
    cases symbol with
    | none => exact isIdentifier_append hname (by decide)
    | some symbol => exact hsymbol symbol rfl
  | binaryBlob guard => exact isIdentifier_append hname (by decide)

variable {layout : ArtifactLayout} {mode : EmbeddingMode}

/-- The block of a section is read as what the section defines. -/
theorem takes_renderSection {s : Section} {block : String}
    (hkind : s.content.kind = mode.contentKind) (hsymbol : Text.isIdentifier (mode.symbol s))
    (h : renderSection layout mode s = .ok block) :
    Text.Takes (layout.takeBlock mode) block.toList (mode.definition s) := by
  unfold takeBlock
  rw [← hkind]
  unfold renderSection at h
  unfold EmbeddingMode.definition
  split at h
  · rename_i text hcontent
    rw [hcontent]
    split at h
    · rename_i delimiter hdelimiter
      cases h
      exact takes_textBlock hsymbol hdelimiter
    · cases h
  · rename_i bytes hcontent
    rw [hcontent]
    cases h
    exact takes_bytesBlock bytes hsymbol

theorem kind_of_check {sections : List Section} (h : mode.check sections = .ok ()) :
    sections ≠ [] ∧ ∀ s ∈ sections, s.content.kind = mode.contentKind := by
  unfold EmbeddingMode.check at h
  split at h
  · cases h
  rename_i hne
  split at h
  · cases h
  split at h
  · cases h
  rename_i hfind
  refine ⟨by simpa using hne, fun s hs => ?_⟩
  simpa using List.find?_eq_none.mp hfind s hs

/-! ## Artifacts -/

theorem forall₂_of_mapM {ε α β : Type} {f : α → Except ε β} {as : List α} {bs : List β}
    (h : as.mapM f = .ok bs) :
    List.Forall₂ (fun a b => f a = .ok b) as bs := by
  induction as generalizing bs with
  | nil =>
    cases h
    exact .nil
  | cons a as ih =>
    rw [List.mapM_cons] at h
    cases ha : f a with
    | error e => rw [ha] at h; cases h
    | ok b =>
      cases has : as.mapM f with
      | error e => rw [ha, has] at h; cases h
      | ok bs =>
        rw [ha, has] at h
        cases h
        exact .cons ha (ih has)

theorem exists_of_mem_forall₂ {α β : Type} {r : α → β → Prop} {as : List α} {bs : List β}
    (h : List.Forall₂ r as bs) {a : α} (ha : a ∈ as) : ∃ b ∈ bs, r a b := by
  induction h with
  | nil => cases ha
  | @cons a b as bs hhead _ ih =>
    rcases List.mem_cons.mp ha with rfl | ha
    · exact ⟨b, List.mem_cons_self, hhead⟩
    · obtain ⟨c, hc, hrelated⟩ := ih ha
      exact ⟨c, List.mem_cons_of_mem _ hc, hrelated⟩

theorem toList_intercalate_cons (block : String) (blocks : List String) :
    ("\n".intercalate (block :: blocks)).toList =
      block.toList ++ (blocks.map fun block => '\n' :: block.toList).flatten := by
  induction blocks generalizing block with
  | nil => simp
  | cons next blocks ih =>
    rw [String.intercalate_cons_cons, String.toList_append, String.toList_append, ih]
    simp

/-- Blocks are read one after the other, up to where no empty line with a block behind it
follows. -/
theorem takeBlocks_append {blocks : List String} {definitions : List Definition} (hne : blocks ≠ [])
    (h : List.Forall₂ (fun block definition =>
      Text.Takes (layout.takeBlock mode) block.toList definition) blocks
      definitions) {rest : List Char} (hrest : Text.skip "\n" rest = none) :
    layout.takeBlocks mode (("\n".intercalate blocks).toList ++ rest) =
      some (definitions, rest) := by
  cases h with
  | nil => exact absurd rfl hne
  | @cons block first blocks others hfirst hothers =>
    have hlater : List.Forall₂ (Text.Takes fun s => (Text.skip "\n" s).bind (layout.takeBlock mode))
        (blocks.map fun block => '\n' :: block.toList) others := by
      refine List.forall₂_map_left_iff.mpr (hothers.imp ?_)
      rintro block definition ⟨-, htakes⟩
      refine ⟨by simp, fun rest => ?_⟩
      have hskip : Text.skip "\n" ('\n' :: block.toList ++ rest) = some (block.toList ++ rest) :=
        Text.skip_append "\n" (block.toList ++ rest)
      simp only [hskip, Option.bind_some, htakes]
    have hstop : (Text.skip "\n" rest).bind (layout.takeBlock mode) = none := by
      rw [hrest]
      rfl
    have hmany := Text.many_flatten hlater hstop
    rw [toList_intercalate_cons, List.append_assoc]
    unfold takeBlocks
    simp only [hfirst.2, hmany, Option.bind_eq_bind, Option.bind_some, Option.pure_def]

theorem guarded_eq (guard : Option String) (blocks : String) :
    guarded guard blocks = guardOpening guard ++ blocks ++ guardEnding guard := by
  cases guard <;> simp [guarded, guardOpening, guardEnding]

theorem exists_of_render {sections : List Section} {text : String}
    (h : render layout mode sections = .ok text) :
    mode.check sections = .ok () ∧
    ∃ blocks, sections.mapM (renderSection layout mode) = .ok blocks ∧
      text = layout.opening ++ guarded mode.guard? ("\n".intercalate blocks) := by
  unfold render renderArtifact at h
  cases hcheck : mode.check sections with
  | error e => rw [hcheck] at h; cases h
  | ok checked =>
    cases hblocks : sections.mapM (renderSection layout mode) with
    | error e => rw [hcheck, hblocks] at h; cases h
    | ok blocks =>
      rw [hcheck, hblocks] at h
      exact ⟨rfl, blocks, rfl, (Except.ok.inj h).symm⟩

theorem skip_guardEnding (guard : Option String) :
    Text.skip "\n" (guardEnding guard).toList = none := by
  cases guard with
  | none => rfl
  | some guard =>
    change Text.skip "\n" "#endif\n".toList = none
    rfl

theorem exists_delimiter_of_renderSection {s : Section} {block text : String}
    (h : renderSection layout mode s = .ok block) (htext : s.content = .text text) :
    ∃ delimiter, Delimiter.choose? text.toList = some delimiter ∧ Delimiter.isLegal delimiter := by
  unfold renderSection at h
  rw [htext] at h
  cases hdelimiter : Delimiter.choose? text.toList with
  | none => simp only [hdelimiter] at h; cases h
  | some delimiter => exact ⟨delimiter, rfl, Delimiter.isLegal_of_choose? hdelimiter⟩

/-- Over names, and a chosen symbol if there is one, that are identifiers, an artifact that was
rendered is read back as the symbols and the contents of its sections, in order and with nothing
left over. Each text stands in a literal with a delimiter that a compiler takes. A symbol is the
chosen one, or the name of its section with an ending. -/
theorem readArtifact_render {sections : List Section} {text : String}
    (hnames : ∀ s ∈ sections, Text.isIdentifier s.name)
    (hsymbol : ∀ symbol, mode = .textSingle (some symbol) → Text.isIdentifier symbol)
    (h : render layout mode sections = .ok text) :
    layout.readArtifact mode text = some (sections.map mode.definition) ∧
      (∀ s ∈ sections, ∀ held, s.content = .text held →
        ∃ delimiter, Delimiter.choose? held.toList = some delimiter ∧ Delimiter.isLegal delimiter) ∧
      ∀ s ∈ sections, (∀ symbol, mode = .textSingle (some symbol) → mode.symbol s = symbol) ∧
        (mode.contentKind = .text → (∀ symbol, mode ≠ .textSingle (some symbol)) →
          mode.symbol s = s.name ++ "ShaderSrc") ∧
        (mode.contentKind = .binary → mode.symbol s = s.name ++ "Bin") := by
  obtain ⟨hcheck, blocks, hblocks, rfl⟩ := exists_of_render h
  obtain ⟨hne, hkind⟩ := kind_of_check hcheck
  have hrendered := forall₂_of_mapM hblocks
  refine ⟨?_, ?_, fun s _ => mode.symbol_spelled s⟩
  · have hblocksNe : blocks ≠ [] := by
      rintro rfl
      cases hrendered
      exact hne rfl
    -- each block is read as what its section defines, whatever comes after it
    have htakes : List.Forall₂ (fun block definition =>
        Text.Takes (layout.takeBlock mode) block.toList definition)
        blocks (sections.map mode.definition) := by
      have hboth := (List.forall₂_and_left sections blocks).mpr
        ⟨fun s hs => And.intro (hnames s hs) (hkind s hs), hrendered⟩
      refine List.forall₂_map_right_iff.mpr (hboth.imp ?_).flip
      rintro s block ⟨⟨hname, hkind⟩, hblock⟩
      exact takes_renderSection hkind (isIdentifier_symbol hname hsymbol) hblock
    have hread := takeBlocks_append hblocksNe htakes (skip_guardEnding mode.guard?)
    unfold readArtifact
    simp only [guarded_eq, String.toList_append, List.append_assoc, Text.skip_append,
      hread, Option.bind_eq_bind, Option.bind_some, if_true]
  · intro s hs held hheld
    obtain ⟨block, -, hblock⟩ := exists_of_mem_forall₂ hrendered hs
    exact exists_delimiter_of_renderSection hblock hheld

/-- A text that would end a plain literal and go on with a definition of its own is read back as a
text. -/
theorem readArtifact_render_disguised :
    ∃ text, render .standard .textMulti [⟨"a", .text ")\";\nconst char* Renderer::b =\nR\"("⟩] =
      .ok text ∧
      readArtifact .standard .textMulti text =
        some [⟨"aShaderSrc", .text "\n)\";\nconst char* Renderer::b =\nR\"(\n"⟩] := by
  have hrender : render .standard .textMulti
      [⟨"a", .text ")\";\nconst char* Renderer::b =\nR\"("⟩] =
      .ok ("#include <TracerX/Renderer.h>\n\nusing namespace TracerX;\n\n" ++
        "const char* Renderer::aShaderSrc =\nR\"shader(\n)\";\nconst char* Renderer::b =\nR\"(\n)shader\";\n") := by
    decide +kernel
  have hread := readArtifact_render (by decide +kernel) (by simp) hrender
  refine ⟨_, hrender, hread.1.trans ?_⟩
  decide +kernel

end ArtifactLayout

end ShaderEmbed
