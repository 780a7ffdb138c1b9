import Mathlib
import ShaderEmbed.Proofs.Fragment.Derivation
import ShaderEmbed.Proofs.Fragment.Reads

/-!
# Where fragments are joined

The lines that an expansion copies are ordinary, but they are joined without a separator. Where an
included fragment does not end its last line, that line goes on with whatever comes behind the
fragment, and what is joined so may read like a directive (`flatten_splitDirective`).

* `Text.mem_cutLines_flatten`: a line of a joined text is a piece of it, or begins with a piece that
  does not end its line.
* `exists_pieces_of_derives`: what a fragment stands for is joined from ordinary lines, and each of
  them but the last ends, or is the last line of an included fragment.
* `ordinary_or_glued_of_flatten`: so a directive in a flattened text begins with such a last line,
  and a text without directives is flattened to itself.
-/

namespace ShaderEmbed

/-! ## Pieces of a text -/

namespace Text

/-- A line with the line feed that ends it. -/
def Ended (piece : List Char) : Prop := ∃ line, '\n' ∉ line ∧ piece = line ++ ['\n']

/-- The beginning of a line. -/
def Unended (piece : List Char) : Prop := piece ≠ [] ∧ '\n' ∉ piece

theorem CutsInto.ended_or_unended {s piece : List Char} {pieces : List (List Char)}
    (h : CutsInto s pieces) (hmem : piece ∈ pieces) : Ended piece ∨ Unended piece := by
  induction h with
  | nil => cases hmem
  | unterminated hne hline =>
    obtain rfl := List.mem_singleton.mp hmem
    exact Or.inr ⟨hne, hline⟩
  | terminated hline _ ih =>
    rcases List.mem_cons.mp hmem with rfl | hmem
    · exact Or.inl ⟨_, hline, rfl⟩
    · exact ih hmem

/-- Only the last line of a text may be without its end. -/
theorem CutsInto.ended_of_mem_dropLast {s piece : List Char} {pieces : List (List Char)}
    (h : CutsInto s pieces) (hmem : piece ∈ pieces.dropLast) : Ended piece := by
  induction h with
  | nil => cases hmem
  | unterminated _ _ => cases hmem
  | @terminated line rest pieces hline hrest ih =>
    cases pieces with
    | nil => cases hmem
    | cons next others =>
      rw [List.dropLast_cons_cons] at hmem
      rcases List.mem_cons.mp hmem with rfl | hmem
      · exact ⟨_, hline, rfl⟩
      · exact ih hmem

theorem CutsInto.suffix_of_unended {s piece : List Char} {pieces : List (List Char)}
    (h : CutsInto s pieces) (hmem : piece ∈ pieces) (hunended : '\n' ∉ piece) : piece <:+ s := by
  induction h with
  | nil => cases hmem
  | unterminated _ _ =>
    obtain rfl := List.mem_singleton.mp hmem
    exact List.suffix_rfl
  | @terminated line rest pieces hline hrest ih =>
    rcases List.mem_cons.mp hmem with rfl | hmem
    · simp at hunended
    · have hsuffix := ih hmem
      exact hsuffix.trans ((List.suffix_cons _ _).trans (List.suffix_append _ _))

/-- The beginning of a line in front of a text becomes part of its first line. -/
theorem cutLines_append_of_notMem {front rest first : List Char} {others : List (List Char)}
    (hfront : '\n' ∉ front) (h : cutLines rest = first :: others) :
    cutLines (front ++ rest) = (front ++ first) :: others := by
  induction front with
  | nil => exact h
  | cons c front ih =>
    simp only [List.mem_cons, not_or] at hfront
    rw [List.cons_append, cutLines, if_neg (Ne.symm hfront.1), ih hfront.2]
    rfl

theorem map_toList_terminatedLines (s : String) :
    (terminatedLines s).map String.toList = cutLines s.toList := by
  rw [terminatedLines, List.map_map]
  exact (List.map_congr_left fun piece _ => String.toList_ofList).trans (List.map_id _)

theorem mem_terminatedLines_iff {s line : String} :
    line ∈ terminatedLines s ↔ line.toList ∈ cutLines s.toList := by
  rw [← map_toList_terminatedLines]
  constructor
  · exact fun h => List.mem_map_of_mem h
  · intro h
    obtain ⟨other, hmem, hother⟩ := List.mem_map.mp h
    rwa [← String.toList_injective hother]

theorem ended_of_terminatedLines {s line : String} {before rest : List String}
    (h : terminatedLines s = before ++ line :: rest) (hrest : rest ≠ []) : Ended line.toList := by
  have hcut : cutLines s.toList = before.map String.toList ++ line.toList ::
      rest.map String.toList := by
    rw [← map_toList_terminatedLines, h, List.map_append, List.map_cons]
  refine (cutsInto_cutLines s.toList).ended_of_mem_dropLast ?_
  rw [hcut, List.dropLast_append_of_ne_nil (by simp),
    List.dropLast_cons_of_ne_nil (by simpa using hrest)]
  simp

/-- A line of a joined text is one of the pieces, or begins with a piece that does not end and is
not the last. -/
theorem mem_cutLines_flatten {pieces : List (List Char)} {line : List Char}
    (hpieces : ∀ piece ∈ pieces, Ended piece ∨ Unended piece)
    (hline : line ∈ cutLines pieces.flatten) :
    line ∈ pieces ∨ ∃ front rest, front ∈ pieces.dropLast ∧ Unended front ∧ rest ≠ [] ∧
    line = front ++ rest := by
  induction pieces with
  | nil => cases hline
  | cons piece rest ih =>
    obtain ⟨hpiece, hrest⟩ := List.forall_mem_cons.mp hpieces
    have hlater (hlate : line ∈ cutLines rest.flatten) : line ∈ piece :: rest ∨
        ∃ front more, front ∈ (piece :: rest).dropLast ∧ Unended front ∧ more ≠ [] ∧
        line = front ++ more := by
      rcases ih hrest hlate with hmem | ⟨front, more, hmem, hunended, hmore, rfl⟩
      · exact Or.inl (List.mem_cons_of_mem _ hmem)
      · refine Or.inr ⟨front, more, ?_, hunended, hmore, rfl⟩
        rw [List.dropLast_cons_of_ne_nil (List.ne_nil_of_mem (List.mem_of_mem_dropLast hmem))]
        exact List.mem_cons_of_mem _ hmem
    rw [List.flatten_cons] at hline
    rcases hpiece with ⟨ended, hended, rfl⟩ | hunended
    · rw [List.append_assoc, List.singleton_append, cutLines_append_newline _ hended] at hline
      rcases List.mem_cons.mp hline with rfl | hlate
      · exact Or.inl List.mem_cons_self
      · exact hlater hlate
    · cases hcut : cutLines rest.flatten with
      | nil =>
        -- nothing comes behind the piece, so it is a line
        have hempty : rest.flatten = [] := by
          rw [← flatten_cutLines rest.flatten, hcut, List.flatten_nil]
        rw [hempty, List.append_nil, cutLines_of_notMem hunended.1 hunended.2,
          List.mem_singleton] at hline
        exact Or.inl (hline ▸ List.mem_cons_self)
      | cons first others =>
        rw [cutLines_append_of_notMem hunended.2 hcut] at hline
        rcases List.mem_cons.mp hline with rfl | hlate
        · have hfirst : first ≠ [] := by
            have hmem : first ∈ cutLines rest.flatten := hcut ▸ List.mem_cons_self
            rcases (cutsInto_cutLines _).ended_or_unended hmem with ⟨line, -, rfl⟩ | hfirst
            · simp
            · exact hfirst.1
          have hne : rest ≠ [] := by
            rintro rfl
            cases hcut
          refine Or.inr ⟨piece, first, ?_, hunended, hfirst, rfl⟩
          rw [List.dropLast_cons_of_ne_nil hne]
          exact List.mem_cons_self
        · exact hlater (hcut ▸ List.mem_cons_of_mem _ hlate)

end Text

namespace FragmentMap

variable {fragments : FragmentMap} {marker : String} {p entry : Path}
  {text : String} {sources : List Path}

/-! ## Lines that go on -/

/-- The fragment at a path has an ordinary last line that it does not end. -/
def Overhangs (fragments : FragmentMap) (marker : String) (p : Path) (front : String) : Prop :=
  ∃ content, fragments.get? p = some content ∧ front ∈ Text.terminatedLines content ∧
    '\n' ∉ front.toList ∧
    Line.classify marker front = .ordinary

/-- A line that begins with the last line of a fragment, and goes on behind it. -/
def IsGlued (fragments : FragmentMap) (marker : String) (sources : List Path)
    (line : String) : Prop :=
  ∃ p ∈ sources, ∃ front rest, fragments.Overhangs marker p front ∧ rest ≠ "" ∧ line = front ++ rest

/-- The fragment at a path is empty, or ends with a line feed. -/
def EndsLines (fragments : FragmentMap) (p : Path) : Prop :=
  ∀ content, fragments.get? p = some content → ∀ c ∈ content.toList.getLast?, c = '\n'

theorem EndsLines.not_overhangs {front : String} (h : fragments.EndsLines p) :
    ¬ fragments.Overhangs marker p front := by
  rintro ⟨content, hget, hmem, hfeed, -⟩
  obtain ⟨piece, hpiece, rfl⟩ := List.mem_map.mp hmem
  rw [String.toList_ofList] at hfeed
  have hcut := Text.cutsInto_cutLines content.toList
  obtain ⟨before, hcontent⟩ := hcut.suffix_of_unended hpiece hfeed
  rcases hcut.ended_or_unended hpiece with ⟨line, -, rfl⟩ | ⟨hne, -⟩
  · simp at hfeed
  · have hlast : content.toList.getLast? = some (piece.getLast hne) := by
      rw [← hcontent, List.getLast?_append, List.getLast?_eq_some_getLast hne]
      rfl
    have hc := h content hget _ hlast
    exact hfeed (hc ▸ List.getLast_mem hne)

/-! ## What a text is joined from -/

/-- A text that is joined from ordinary lines. The last may be an unended line of one of `within`,
each other ends or is an unended line of one of `inside`. -/
structure Joins (fragments : FragmentMap) (marker : String) (within inside : List Path)
    (text : String) (pieces : List (List Char)) : Prop where
  flatten : pieces.flatten = text.toList
  piece : ∀ piece ∈ pieces, Text.Ended piece ∨ Text.Unended piece
  ordinary : ∀ piece ∈ pieces, Line.classify marker (String.ofList piece) = .ordinary
  overhangs : ∀ piece ∈ pieces, Text.Unended piece →
    ∃ q ∈ within, fragments.Overhangs marker q (String.ofList piece)
  seam : ∀ piece ∈ pieces.dropLast, Text.Unended piece →
    ∃ q ∈ inside, fragments.Overhangs marker q (String.ofList piece)

theorem Joins.nil {within inside : List Path} : fragments.Joins marker within inside "" [] where
  flatten := rfl
  piece _ hmem := absurd hmem List.not_mem_nil
  ordinary _ hmem := absurd hmem List.not_mem_nil
  overhangs _ hmem := absurd hmem List.not_mem_nil
  seam _ hmem := absurd hmem List.not_mem_nil

theorem Joins.eq_nil {within inside : List Path} {pieces : List (List Char)}
    (h : fragments.Joins marker within inside "" pieces) : pieces = [] := by
  cases pieces with
  | nil => rfl
  | cons piece rest =>
    -- no piece is empty
    have hempty : piece = [] := by
      have hflatten := h.flatten
      rw [List.flatten_cons] at hflatten
      exact (List.append_eq_nil_iff.mp hflatten).1
    rcases h.piece piece List.mem_cons_self with ⟨line, -, hline⟩ | hunended
    · rw [hempty] at hline
      simp at hline
    · exact absurd hempty hunended.1

/-- An ordinary line of the fragment at a path in front of others: if it does not end, nothing comes
behind it. -/
theorem Joins.cons {line : String} {pieces : List (List Char)}
    (h : fragments.Joins marker (p :: sources) sources text pieces)
    (hline : Text.Ended line.toList ∨ Text.Unended line.toList)
    (hordinary : Line.classify marker line = .ordinary)
    (hoverhangs : Text.Unended line.toList → fragments.Overhangs marker p line)
    (hlast : pieces ≠ [] → Text.Ended line.toList) :
    fragments.Joins marker (p :: sources) sources (line ++ text) (line.toList :: pieces) where
  flatten := by rw [List.flatten_cons, h.flatten, String.toList_append]
  piece := List.forall_mem_cons.mpr ⟨hline, h.piece⟩
  ordinary := List.forall_mem_cons.mpr ⟨by rwa [String.ofList_toList], h.ordinary⟩
  overhangs := by
    refine List.forall_mem_cons.mpr ⟨fun hunended => ?_, h.overhangs⟩
    rw [String.ofList_toList]
    exact ⟨p, List.mem_cons_self, hoverhangs hunended⟩
  seam := by
    intro piece hpiece hunended
    cases hpieces : pieces with
    | nil =>
      rw [hpieces] at hpiece
      cases hpiece
    | cons next others =>
      have hne : pieces ≠ [] := by simp [hpieces]
      rw [List.dropLast_cons_of_ne_nil hne] at hpiece
      rcases List.mem_cons.mp hpiece with rfl | hpiece
      · obtain ⟨front, -, hfront⟩ := hlast hne
        exact absurd (hfront ▸ hunended.2) (by simp)
      · exact h.seam piece hpiece hunended

/-- What an included fragment stands for, in front of others. -/
theorem Joins.append {restText : String} {restSources : List Path} {pieces more : List (List Char)}
    (h : fragments.Joins marker sources sources.tail text pieces)
    (hmore : fragments.Joins marker (p :: restSources) restSources restText more) :
    fragments.Joins marker (p :: (sources ++ restSources))
      (sources ++ restSources) (text ++ restText) (pieces ++ more) where
  flatten := by rw [List.flatten_append, h.flatten, hmore.flatten, String.toList_append]
  piece := List.forall_mem_append.mpr ⟨h.piece, hmore.piece⟩
  ordinary := List.forall_mem_append.mpr ⟨h.ordinary, hmore.ordinary⟩
  overhangs := by
    refine List.forall_mem_append.mpr ⟨fun piece hpiece hunended => ?_,
      fun piece hpiece hunended => ?_⟩
    · obtain ⟨q, hq, hoverhangs⟩ := h.overhangs piece hpiece hunended
      exact ⟨q, by simp [hq], hoverhangs⟩
    · obtain ⟨q, hq, hoverhangs⟩ := hmore.overhangs piece hpiece hunended
      refine ⟨q, ?_, hoverhangs⟩
      rcases List.mem_cons.mp hq with rfl | hq
      · exact List.mem_cons_self
      · simp [hq]
  seam := by
    intro piece hpiece hunended
    have hplace : piece ∈ pieces ∨ piece ∈ more.dropLast := by
      by_cases hmore : more = []
      · rw [hmore, List.append_nil] at hpiece
        exact Or.inl (List.mem_of_mem_dropLast hpiece)
      · rw [List.dropLast_append_of_ne_nil hmore] at hpiece
        exact List.mem_append.mp hpiece
    rcases hplace with hpiece | hpiece
    · obtain ⟨q, hq, hoverhangs⟩ := h.overhangs piece hpiece hunended
      exact ⟨q, List.mem_append_left _ hq, hoverhangs⟩
    · obtain ⟨q, hq, hoverhangs⟩ := hmore.seam piece hpiece hunended
      exact ⟨q, List.mem_append_right _ hq, hoverhangs⟩

/-- What a fragment stands for is joined from ordinary lines, and it is an included fragment whose
line goes on. -/
theorem exists_pieces_of_derives (h : fragments.Derives marker p text sources) :
    ∃ pieces, fragments.Joins marker sources sources.tail text pieces := by
  -- The induction is on lines up to the end of a fragment: what ends without a line feed is its
  -- last line.
  refine Derives.induct
    (P := fun p text sources => ∃ pieces, fragments.Joins marker sources sources.tail text pieces)
    (Q := fun p lines text sources => ∀ content before, fragments.get? p = some content →
      Text.terminatedLines content = before ++ lines →
      ∃ pieces, fragments.Joins marker (p :: sources) sources text pieces) ?_ ?_ ?_ ?_ h
  · intro p content text pieces sources hget hcut _ ih
    obtain rfl := Text.cutsInto_iff.mp hcut
    exact ih content [] hget rfl
  · intro p content before _ _
    exact ⟨[], .nil⟩
  · intro p line text rest sources hline hrest ih content before hget hlines
    obtain ⟨pieces, hpieces⟩ := ih content (before ++ [line]) hget (by simpa using hlines)
    have hmem : line ∈ Text.terminatedLines content := by simp [hlines]
    have hkind := (Text.cutsInto_cutLines _).ended_or_unended (Text.mem_terminatedLines_iff.mp hmem)
    have hordinary := hline.classify_eq
    refine ⟨line.toList :: pieces,
      hpieces.cons hkind hordinary
        (fun hunended => ⟨content, hget, hmem, hunended.2, hordinary⟩) ?_⟩
    intro hne
    refine Text.ended_of_terminatedLines hlines ?_
    rintro rfl
    cases hrest
    exact hne hpieces.eq_nil
  · intro p line reference text restText rest sources restSources _ _ _ ihsub ihrest
      content before hget hlines
    obtain ⟨pieces, hpieces⟩ := ihsub
    obtain ⟨more, hmore⟩ := ihrest content (before ++ [line]) hget (by simpa using hlines)
    exact ⟨pieces ++ more, hpieces.append hmore⟩

/-! ## Flattened texts -/

theorem derivesLines_of_ordinary {pieces : List (List Char)}
    (h : ∀ piece ∈ pieces, Line.classify marker (String.ofList piece) = .ordinary) :
    fragments.DerivesLines marker p (pieces.map String.ofList)
      (String.ofList pieces.flatten) [] := by
  induction pieces with
  | nil => exact .nil
  | cons piece rest ih =>
    obtain ⟨hpiece, hrest⟩ := List.forall_mem_cons.mp h
    rw [List.map_cons, List.flatten_cons, String.ofList_append]
    exact .ordinary (Line.classify_eq_iff.mp hpiece) (ih hrest)

/-- A fragment without directives stands for its text. -/
theorem flatten_of_ordinary
    (h : ∀ line ∈ Text.terminatedLines text, Line.classify marker line = .ordinary)
    (hget : fragments.get? p.normalize = some text) :
    (fragments.source.flatten marker p).result = .ok ⟨text, [p.normalize]⟩ := by
  have hlines : fragments.DerivesLines marker p.normalize (Text.terminatedLines text)
      (String.ofList (Text.cutLines text.toList).flatten) [] :=
        derivesLines_of_ordinary (List.forall_mem_map.mp h)
  rw [Text.flatten_cutLines, String.ofList_toList] at hlines
  exact flatten_of_derives (derives_iff.mpr ⟨text, [], hget, rfl, hlines⟩)

/-- Every directive in a flattened text begins with the unended last line of an included fragment.
There is none if all included fragments end their lines, and a text without directives is flattened
to itself, wherever it is put. -/
theorem ordinary_or_glued_of_flatten {flat : Flattened}
    (h : (fragments.source.flatten marker entry).result = .ok flat) :
    (∀ line ∈ Text.terminatedLines flat.text,
      Line.classify marker line = .ordinary ∨ fragments.IsGlued marker flat.sources.tail line) ∧
    ((∀ q ∈ flat.sources.tail, fragments.EndsLines q) →
      ∀ line ∈ Text.terminatedLines flat.text, Line.classify marker line = .ordinary) ∧
    ((∀ line ∈ Text.terminatedLines flat.text, Line.classify marker line = .ordinary) →
      ∀ (held : FragmentMap) (p : Path),
        ((held.insert p flat.text).source.flatten marker p).result =
          .ok ⟨flat.text, [p.normalize]⟩) := by
  have hglued : ∀ line ∈ Text.terminatedLines flat.text,
      Line.classify marker line = .ordinary ∨ fragments.IsGlued marker flat.sources.tail line := by
    intro line hline
    obtain ⟨pieces, hpieces⟩ := exists_pieces_of_derives (derives_of_expand h)
    rw [Text.mem_terminatedLines_iff, ← hpieces.flatten] at hline
    rcases Text.mem_cutLines_flatten hpieces.piece hline with
      hmem | ⟨front, rest, hfront, hunended, hrest, hjoined⟩
    · have hordinary := hpieces.ordinary _ hmem
      rw [String.ofList_toList] at hordinary
      exact Or.inl hordinary
    · obtain ⟨q, hq, hoverhangs⟩ := hpieces.seam front hfront hunended
      refine Or.inr ⟨q, hq, String.ofList front, String.ofList rest, hoverhangs, ?_, ?_⟩
      · simpa using hrest
      · rw [← String.ofList_append, ← hjoined, String.ofList_toList]
  refine ⟨hglued, ?_, ?_⟩
  · intro hends line hline
    rcases hglued line hline with hordinary | ⟨q, hq, front, rest, hoverhangs, -⟩
    · exact hordinary
    · exact absurd hoverhangs (hends q hq).not_overhangs
  · intro hordinary held p
    refine flatten_of_ordinary hordinary ?_
    rw [get?_insert, Path.place_normalize, if_pos rfl]

/-- A fragment between two lines of another. -/
def threeLines : FragmentMap := .ofList [(⟨"a"⟩, "A\n#include b\nC\n"), (⟨"b"⟩, "B\n")]

theorem ordinary_or_glued_threeLines :
    (threeLines.source.flatten standardMarker ⟨"a"⟩).result =
      .ok ⟨"A\nB\nC\n", [⟨"a"⟩, ⟨"b"⟩]⟩ ∧
    threeLines.EndsLines ⟨"b"⟩ ∧
    (∀ line ∈ Text.terminatedLines "A\nB\nC\n", Line.classify standardMarker line = .ordinary) ∧
    ((threeLines.insert ⟨"s/t"⟩ "A\nB\nC\n").source.flatten standardMarker ⟨"s/t"⟩).result =
      .ok ⟨"A\nB\nC\n", [⟨"s/t"⟩]⟩ := by
  let a : Path := ⟨"a"⟩
  let b : Path := ⟨"b"⟩
  have hafter : threeLines.source.reader.after standardMarker a 8 =
      .running ⟨[⟨[⟨[.name "a"], a⟩], b⟩], "A\nB\nC\n", [a, b], [], none⟩ := by cbv
  have hflat := FragmentSource.result_flatten_of_after hafter
  have hends : threeLines.EndsLines b := by
    intro content hget
    have hb : threeLines.get? b = some "B\n" := by decide +kernel
    obtain rfl := Option.some.inj (hb.symm.trans hget)
    have hlast : "B\n".toList.getLast? = some '\n' := by decide +kernel
    intro c hc
    rw [hlast] at hc
    exact (Option.some.inj hc).symm
  obtain ⟨-, hordinary, hagain⟩ := ordinary_or_glued_of_flatten hflat
  have hlines := hordinary (List.forall_mem_singleton.mpr hends)
  have hnormal : (Path.mk "s/t").normalize = ⟨"s/t"⟩ := by decide +kernel
  have hsame := hagain hlines threeLines ⟨"s/t"⟩
  rw [hnormal] at hsame
  exact ⟨hflat, hends, hlines, hsame⟩

/-- A directive that is cut in two, and put together again by an include between the parts. -/
def splitDirective : FragmentMap :=
  .ofList [(⟨"a"⟩, "#include b\nlude c\n"), (⟨"b"⟩, "#inc")]

/-- The flattened text is a directive, to a fragment that is not there. -/
theorem flatten_splitDirective :
    (splitDirective.source.flatten standardMarker ⟨"a"⟩).result =
      .ok ⟨"#include c\n", [⟨"a"⟩, ⟨"b"⟩]⟩ ∧
    "#include c\n" ∈ Text.terminatedLines "#include c\n" ∧
    Line.classify standardMarker "#include c\n" = .includes "c" ∧
    ((splitDirective.insert ⟨"t"⟩ "#include c\n").source.flatten standardMarker ⟨"t"⟩).result =
      .error (.notFound ⟨"c"⟩) := by
  let a : Path := ⟨"a"⟩
  let b : Path := ⟨"b"⟩
  let t : Path := ⟨"t"⟩
  have hafter : splitDirective.source.reader.after standardMarker a 7 =
      .running ⟨[⟨[⟨[.name "a"], a⟩], b⟩], "#include c\n", [a, b], [], none⟩ := by cbv
  have hagain : (splitDirective.insert t "#include c\n").source.reader.after standardMarker t 3 =
      .ended ⟨[⟨[⟨[.name "t"], t⟩], ⟨"c"⟩⟩], .error (.notFound ⟨"c"⟩)⟩ := by cbv
  refine ⟨FragmentSource.result_flatten_of_after hafter, by decide +kernel, by decide +kernel, ?_⟩
  rw [FragmentSource.flatten_eq_of_after hagain]

end FragmentMap

end ShaderEmbed
