/-!
# Cutting text at a separator

`cut sep s` takes a text apart at every occurrence of one character. The first piece is kept apart
from the others, so that the result is never empty, and `uncut` puts the pieces together again:
`uncut_cut` says that nothing is lost, `notMem_cut_head` and `notMem_cut_tail` that no piece still
holds the separator.
-/

namespace ShaderEmbed.Text

/-- The piece before the first separator, and the pieces after each separator. -/
def cut (sep : Char) : List Char → List Char × List (List Char)
  | [] => ([], [])
  | c :: rest =>
    let pieces := cut sep rest
    if c = sep then ([], pieces.1 :: pieces.2) else (c :: pieces.1, pieces.2)

/-- Pieces written one after the other, each but the first behind a separator. -/
def uncut (sep : Char) (pieces : List Char × List (List Char)) : List Char :=
  pieces.1 ++ pieces.2.flatMap (sep :: ·)

theorem uncut_cut (sep : Char) (s : List Char) : uncut sep (cut sep s) = s := by
  induction s with
  | nil => rfl
  | cons c rest ih =>
    by_cases h : c = sep
    · subst h
      simpa [cut, uncut] using ih
    · simpa [cut, uncut, h] using ih

theorem notMem_cut_head (sep : Char) (s : List Char) : sep ∉ (cut sep s).1 := by
  induction s with
  | nil => simp [cut]
  | cons c rest ih =>
    by_cases h : c = sep
    · simp [cut, h]
    · simp only [cut, h, if_false, List.mem_cons, not_or]
      exact ⟨fun e => h e.symm, ih⟩

theorem notMem_cut_tail (sep : Char) (s : List Char) : ∀ piece ∈ (cut sep s).2, sep ∉ piece := by
  induction s with
  | nil => simp [cut]
  | cons c rest ih =>
    by_cases h : c = sep
    · simp only [cut, h, if_true, List.mem_cons, forall_eq_or_imp]
      subst h
      exact ⟨notMem_cut_head _ rest, ih⟩
    · simpa only [cut, h, if_false] using ih

/-- A text without the separator is one piece. -/
theorem cut_of_notMem {sep : Char} {s : List Char} (h : sep ∉ s) : cut sep s = (s, []) := by
  induction s with
  | nil => rfl
  | cons c rest ih =>
    simp only [List.mem_cons, not_or] at h
    simp [cut, Ne.symm h.1, ih h.2]

end ShaderEmbed.Text
