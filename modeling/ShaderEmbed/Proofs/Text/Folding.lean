import Mathlib.Data.List.Basic
import Mathlib.Logic.Relation
import ShaderEmbed.Proofs.Text.LineCut
import ShaderEmbed.Proofs.Text.Trim

/-!
# Writing many lines on one

What a text adds to a folded one is found line by line: nothing for a blank line, and else the line
without the white space around it (`solidLines_line_append`). So it is the same for a text that is
laid out in another way, with other line ends, other indentation or padding, or more blank lines
(`Relaid.solidLines_eq`).

The lines that are kept are solid: not empty, on one line, with no white space at the ends. Solid
lines that are joined make a solid line (`IsSolid.intercalate`), which is why folding again changes
nothing (`fold_fold`). All that is not kept is white space (`ink_solidLines`).
-/

namespace ShaderEmbed.Text

variable {s t line front back blanks rest : List Char}

/-! ## Line by line -/

/-- A text is a line without an end, which may be empty, or a line in front of a text. -/
@[elab_as_elim]
theorem byLines {motive : List Char → Prop} (unterminated : ∀ line, '\n' ∉ line → motive line)
    (terminated : ∀ line rest, '\n' ∉ line → motive rest → motive (line ++ '\n' :: rest))
    (s : List Char) : motive s := by
  have h := cutsInto_cutLines s
  generalize cutLines s = pieces at h
  induction h with
  | nil => exact unterminated [] List.not_mem_nil
  | unterminated _ hline => exact unterminated _ hline
  | terminated hline _ ih => exact terminated _ _ hline ih

/-- What a line adds to a folded text. -/
def kept (line : List Char) : List (List Char) := if trim line = [] then [] else [trim line]

theorem isBlank_of_mem_feed : ∀ c ∈ ['\n'], isBlank c := List.forall_mem_singleton.mpr (by decide)

theorem trim_dropTerminator (line : List Char) : trim (dropTerminator line) = trim line := by
  have hend {before : List Char} (back : List Char) (h : line.reverse = back.reverse ++ before)
      (hback : ∀ c ∈ back, isBlank c) : trim before.reverse = trim line := by
    have hline : line = before.reverse ++ back := by
      rw [← List.reverse_reverse line, h, List.reverse_append, List.reverse_reverse]
    rw [hline, trim_append_of_blank hback]
  unfold dropTerminator
  split
  · rename_i before h
    exact hend ['\r', '\n'] h (List.forall_mem_cons.mpr ⟨by decide, isBlank_of_mem_feed⟩)
  · rename_i before _ h
    exact hend ['\n'] h isBlank_of_mem_feed
  · rfl

theorem solidLines_eq (s : List Char) : solidLines s = (cutLines s).flatMap kept := by
  rw [solidLines, lines, List.map_map]
  induction cutLines s with
  | nil => rfl
  | cons line others ih =>
    rw [List.map_cons, List.filter_cons, List.flatMap_cons, ih, Function.comp_apply,
      trim_dropTerminator, kept]
    by_cases h : trim line = [] <;> simp [h]

theorem kept_of_blank (h : ∀ c ∈ line, isBlank c) : kept line = [] := if_pos (trim_eq_nil_iff.mpr h)

theorem kept_append_of_blank (h : ∀ c ∈ blanks, isBlank c) : kept (line ++ blanks) = kept line := by
  rw [kept, trim_append_of_blank h, kept]

theorem kept_blank_append (h : ∀ c ∈ blanks, isBlank c) : kept (blanks ++ line) = kept line := by
  rw [kept, trim_blank_append h, kept]

@[simp] theorem solidLines_nil : solidLines [] = [] := rfl

theorem solidLines_of_notMem (h : '\n' ∉ line) : solidLines line = kept line := by
  rcases eq_or_ne line [] with rfl | hne
  · rfl
  · rw [solidLines_eq, cutLines_of_notMem hne h, List.flatMap_singleton]

theorem solidLines_line_append (h : '\n' ∉ line) (rest : List Char) :
    solidLines (line ++ '\n' :: rest) = kept line ++ solidLines rest := by
  rw [solidLines_eq, cutLines_append_newline rest h, List.flatMap_cons,
    kept_append_of_blank isBlank_of_mem_feed, solidLines_eq]

theorem solidLines_append_newline (front back : List Char) :
    solidLines (front ++ '\n' :: back) = solidLines front ++ solidLines back := by
  induction front using byLines with
  | unterminated line hline => rw [solidLines_line_append hline, solidLines_of_notMem hline]
  | terminated line rest hline ih =>
    rw [List.append_assoc, List.cons_append, solidLines_line_append hline, ih,
      solidLines_line_append hline, List.append_assoc]

/-! ## Another layout -/

/-- White space within a line. -/
def IsSpace (blanks : List Char) : Prop := ∀ c ∈ blanks, isBlank c ∧ c ≠ '\n'

instance (blanks : List Char) : Decidable (IsSpace blanks) :=
  List.decidableBAll (fun c => Text.isBlank c ∧ c ≠ '\n') blanks

theorem IsSpace.isBlank (h : IsSpace blanks) : ∀ c ∈ blanks, isBlank c := fun c hc => (h c hc).1

theorem IsSpace.notMem (h : IsSpace blanks) : '\n' ∉ blanks := fun hmem => (h _ hmem).2 rfl

/-- Behind these characters a line begins. -/
def BeginsLine (front : List Char) : Prop := front = [] ∨ ∃ before, front = before ++ ['\n']

/-- In front of these characters a line ends. -/
def EndsLine (back : List Char) : Prop := back = [] ∨ ∃ after, back = '\n' :: after

/-- One change of the layout: a line end is spelled with a carriage return, a line is indented
further or padded, or a blank line is put in. -/
inductive Edit : List Char → List Char → Prop
  | returned (front back : List Char) : Edit (front ++ '\n' :: back) (front ++ '\r' :: '\n' :: back)
  | indented {front blanks : List Char} (back : List Char) (hfront : BeginsLine front)
      (hblanks : IsSpace blanks) :
      Edit (front ++ back) (front ++ (blanks ++ back))
  | padded {blanks back : List Char} (front : List Char) (hback : EndsLine back)
      (hblanks : IsSpace blanks) :
      Edit (front ++ back) (front ++ (blanks ++ back))
  | spaced {front blanks : List Char} (back : List Char) (hfront : BeginsLine front)
      (hblanks : IsSpace blanks) :
      Edit (front ++ back) (front ++ (blanks ++ '\n' :: back))

/-- Two texts that come out of each other by changes of the layout, made or taken back. -/
def Relaid : List Char → List Char → Prop := Relation.EqvGen Edit

theorem BeginsLine.solidLines_append (h : BeginsLine front) (back : List Char) :
    solidLines (front ++ back) = solidLines front ++ solidLines back := by
  rcases h with rfl | ⟨before, rfl⟩
  · rfl
  · have hbefore := solidLines_append_newline before []
    rw [List.append_assoc, List.singleton_append, solidLines_append_newline, hbefore,
      solidLines_nil, List.append_nil]

theorem solidLines_append_of_space (h : IsSpace blanks) :
    solidLines (front ++ blanks) = solidLines front := by
  induction front using byLines with
  | unterminated line hline =>
    have hlonger : '\n' ∉ line ++ blanks :=
      fun hmem => (List.mem_append.mp hmem).elim hline h.notMem
    rw [solidLines_of_notMem hlonger, kept_append_of_blank h.isBlank, solidLines_of_notMem hline]
  | terminated line rest hline ih =>
    rw [List.append_assoc, List.cons_append, solidLines_line_append hline, ih,
      solidLines_line_append hline]

theorem solidLines_space_append (h : IsSpace blanks) :
    solidLines (blanks ++ back) = solidLines back := by
  induction back using byLines with
  | unterminated line hline =>
    have hlonger : '\n' ∉ blanks ++ line :=
      fun hmem => (List.mem_append.mp hmem).elim h.notMem hline
    rw [solidLines_of_notMem hlonger, kept_blank_append h.isBlank, solidLines_of_notMem hline]
  | terminated line rest hline _ =>
    have hlonger : '\n' ∉ blanks ++ line :=
      fun hmem => (List.mem_append.mp hmem).elim h.notMem hline
    rw [← List.append_assoc, solidLines_line_append hlonger, kept_blank_append h.isBlank,
      solidLines_line_append hline]

theorem EndsLine.solidLines_padded (hback : EndsLine back)
    (h : IsSpace blanks) (front : List Char) :
    solidLines (front ++ (blanks ++ back)) = solidLines (front ++ back) := by
  rw [← List.append_assoc]
  rcases hback with rfl | ⟨after, rfl⟩
  · rw [List.append_nil, List.append_nil, solidLines_append_of_space h]
  · rw [solidLines_append_newline, solidLines_append_of_space h, solidLines_append_newline]

theorem Edit.solidLines_eq (h : Edit s t) : solidLines s = solidLines t := by
  cases h with
  | returned front back =>
    have hreturn : IsSpace ['\r'] := by
      rw [IsSpace, List.forall_mem_singleton]
      decide
    exact (EndsLine.solidLines_padded (Or.inr ⟨back, rfl⟩) hreturn front).symm
  | indented back hfront hblanks =>
    rw [hfront.solidLines_append, hfront.solidLines_append, solidLines_space_append hblanks]
  | padded front hback hblanks => exact (hback.solidLines_padded hblanks front).symm
  | spaced back hfront hblanks =>
    rw [hfront.solidLines_append, hfront.solidLines_append, solidLines_line_append hblanks.notMem,
      kept_of_blank hblanks.isBlank, List.nil_append]

theorem Relaid.solidLines_eq (h : Relaid s t) : solidLines s = solidLines t := by
  induction h with
  | rel _ _ hedit => exact hedit.solidLines_eq
  | refl _ => rfl
  | symm _ _ _ ih => exact ih.symm
  | trans _ _ _ _ _ ih ih' => exact ih.trans ih'

/-! ## Solid lines -/

/-- Characters on one line, with no white space at either end. -/
structure IsSolid (line : List Char) : Prop where
  oneLine : '\n' ∉ line
  front : ∃ c rest, line = c :: rest ∧ isBlank c = false
  back : ∃ before c, line = before ++ [c] ∧ isBlank c = false

theorem IsSolid.trim_eq (h : IsSolid line) : trim line = line := by
  obtain ⟨c, rest, hfront, hc⟩ := h.front
  obtain ⟨before, d, hback, hd⟩ := h.back
  exact trim_of_ends hfront hc hback hd

theorem IsSolid.ne_nil (h : IsSolid line) : line ≠ [] := by
  obtain ⟨c, rest, rfl, -⟩ := h.front
  exact List.cons_ne_nil c rest

theorem IsSolid.solidLines_eq (h : IsSolid line) : solidLines line = [line] := by
  rw [solidLines_of_notMem h.oneLine, kept, h.trim_eq, if_neg h.ne_nil]

theorem IsSolid.append (h : IsSolid front) {middle : List Char} (hmiddle : '\n' ∉ middle)
    (h' : IsSolid back) :
    IsSolid (front ++ (middle ++ back)) where
  oneLine hmem := by
    rcases List.mem_append.mp hmem with hmem | hmem
    · exact h.oneLine hmem
    · exact (List.mem_append.mp hmem).elim hmiddle h'.oneLine
  front := by
    obtain ⟨c, rest, rfl, hc⟩ := h.front
    exact ⟨c, rest ++ (middle ++ back), rfl, hc⟩
  back := by
    obtain ⟨before, c, rfl, hc⟩ := h'.back
    exact ⟨front ++ (middle ++ before), c, by simp, hc⟩

theorem IsSolid.intercalate {separator : List Char} {pieces : List (List Char)}
    (hseparator : '\n' ∉ separator) (hne : pieces ≠ []) (h : ∀ piece ∈ pieces, IsSolid piece) :
    IsSolid (separator.intercalate pieces) := by
  induction pieces with
  | nil => exact absurd rfl hne
  | cons piece others ih =>
    obtain ⟨hpiece, hothers⟩ := List.forall_mem_cons.mp h
    cases others with
    | nil => rwa [List.intercalate_singleton]
    | cons next others =>
      rw [List.intercalate_cons_cons, List.append_assoc]
      exact hpiece.append hseparator (ih (List.cons_ne_nil _ _) hothers)

theorem isSolid_of_mem_kept {piece : List Char} (hline : '\n' ∉ line) (h : piece ∈ kept line) :
    IsSolid piece := by
  unfold kept at h
  split at h
  · cases h
  · rename_i hne
    obtain rfl := List.mem_singleton.mp h
    obtain ⟨front, back, -, -, hsplit⟩ := exists_trim line
    have hends := trim_ends hne
    refine ⟨fun hmem => hline ?_, hends.1, hends.2⟩
    rw [hsplit]
    exact List.mem_append_right _ (List.mem_append_left _ hmem)

theorem isSolid_of_mem_solidLines {piece : List Char} (h : piece ∈ solidLines s) :
    IsSolid piece := by
  induction s using byLines with
  | unterminated line hline => exact isSolid_of_mem_kept hline (solidLines_of_notMem hline ▸ h)
  | terminated line rest hline ih =>
    rw [solidLines_line_append hline] at h
    exact (List.mem_append.mp h).elim (isSolid_of_mem_kept hline) ih

/-! ## What is kept -/

/-- The characters of a text that are no white space. -/
def ink (s : List Char) : List Char := s.filter fun c => !isBlank c

theorem ink_of_blank (h : ∀ c ∈ blanks, isBlank c) : ink blanks = [] := by
  rw [ink, List.filter_eq_nil_iff]
  intro c hc
  simp [h c hc]

theorem ink_append (s t : List Char) : ink (s ++ t) = ink s ++ ink t := List.filter_append s t

theorem ink_kept (line : List Char) : ink (kept line).flatten = ink line := by
  have htrim : ink line = ink (trim line) := by
    obtain ⟨front, back, hfront, hback, hsplit⟩ := exists_trim line
    calc ink line
      _ = ink (front ++ (trim line ++ back)) := congrArg ink hsplit
      _ = ink (trim line) := by
        rw [ink_append, ink_append, ink_of_blank hfront, ink_of_blank hback,
          List.nil_append, List.append_nil]
  rw [htrim, kept]
  split
  · rename_i hblank
    rw [hblank]
    rfl
  · rw [List.flatten_singleton]

theorem ink_solidLines (s : List Char) : ink (solidLines s).flatten = ink s := by
  induction s using byLines with
  | unterminated line hline => rw [solidLines_of_notMem hline, ink_kept]
  | terminated line rest hline ih =>
    have hfeed : ink ('\n' :: rest) = ink rest := rfl
    rw [solidLines_line_append hline, List.flatten_append, ink_append,
      ink_kept, ih, ink_append, hfeed]

/-! ## Folded texts -/

theorem toList_fold (separator s : String) :
    (fold separator s).toList = separator.toList.intercalate (solidLines s.toList) := by
  rw [fold, String.toList_intercalate, List.map_map]
  congr 1
  exact (List.map_congr_left fun piece _ => String.toList_ofList).trans (List.map_id _)

theorem newline_notMem_fold {separator : String} (h : '\n' ∉ separator.toList) (s : String) :
    '\n' ∉ (fold separator s).toList := by
  rw [toList_fold]
  rcases eq_or_ne (solidLines s.toList) [] with hnone | hsome
  · rw [hnone]
    exact List.not_mem_nil
  · exact (IsSolid.intercalate h hsome fun piece hpiece => isSolid_of_mem_solidLines hpiece).oneLine

theorem fold_fold {separator : String} (h : '\n' ∉ separator.toList) (s : String) :
    fold separator (fold separator s) = fold separator s := by
  rw [← String.toList_inj, toList_fold separator (fold separator s)]
  rcases eq_or_ne (solidLines s.toList) [] with hnone | hsome
  · rw [toList_fold, hnone]
    rfl
  · have hsolid := IsSolid.intercalate h hsome fun piece hpiece => isSolid_of_mem_solidLines hpiece
    rw [toList_fold, hsolid.solidLines_eq, List.intercalate_singleton]

theorem Relaid.fold_eq {s t : String} (h : Relaid s.toList t.toList) (separator : String) :
    fold separator s = fold separator t := by
  rw [fold, h.solidLines_eq, fold]

end ShaderEmbed.Text
