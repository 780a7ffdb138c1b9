import Mathlib.Data.List.TakeWhile
import ShaderEmbed.Text.Blank

/-!
# Trimming

White space around a text does not matter to the trimmed text (`trim_append_of_blank`,
`trim_blank_append`), and a text is trimmed to nothing just if it has no other characters
(`trim_eq_nil_iff`). What is trimmed off is white space at the two ends (`exists_trim`), and the
trimmed text has none there (`trim_ends`).
-/

namespace ShaderEmbed.Text

variable {s blanks : List Char}

theorem trimEnd_append_of_blank (h : ∀ c ∈ blanks, isBlank c) :
    trimEnd (s ++ blanks) = trimEnd s := by
  have hreverse : ∀ c ∈ blanks.reverse, isBlank c := fun c hc => h c (List.mem_reverse.mp hc)
  rw [trimEnd, List.reverse_append, List.dropWhile_append_of_pos hreverse, trimEnd]

theorem trim_append_of_blank (h : ∀ c ∈ blanks, isBlank c) : trim (s ++ blanks) = trim s := by
  rw [trim, trim, trimStart, trimStart, List.dropWhile_append]
  split
  · rename_i hempty
    rw [List.isEmpty_iff.mp hempty, List.dropWhile_eq_nil_iff.mpr h]
  · exact trimEnd_append_of_blank h

theorem trim_eq_nil_iff : trim s = [] ↔ ∀ c ∈ s, isBlank c := by
  constructor
  · intro h
    rw [trim, trimEnd, List.reverse_eq_nil_iff, List.dropWhile_eq_nil_iff] at h
    intro c hc
    rw [← List.takeWhile_append_dropWhile (p := isBlank) (l := s)] at hc
    rcases List.mem_append.mp hc with hfront | hback
    · exact List.all_eq_true.mp List.all_takeWhile c hfront
    · exact h c (List.mem_reverse.mpr hback)
  · intro h
    rw [← List.nil_append s, trim_append_of_blank h]
    rfl

theorem trim_blank_append (h : ∀ c ∈ blanks, isBlank c) : trim (blanks ++ s) = trim s := by
  rw [trim, trimStart, List.dropWhile_append_of_pos h, trim, trimStart]

theorem exists_trimEnd (s : List Char) :
    ∃ back, (∀ c ∈ back, isBlank c) ∧ s = trimEnd s ++ back := by
  refine ⟨(s.reverse.takeWhile isBlank).reverse, ?_, ?_⟩
  · intro c hc
    exact List.all_eq_true.mp List.all_takeWhile c (List.mem_reverse.mp hc)
  · rw [trimEnd, ← List.reverse_append, List.takeWhile_append_dropWhile, List.reverse_reverse]

theorem exists_trim (s : List Char) :
    ∃ front back, (∀ c ∈ front, isBlank c) ∧ (∀ c ∈ back, isBlank c) ∧
    s = front ++ (trim s ++ back) := by
  obtain ⟨back, hback, htrimmed⟩ := exists_trimEnd (trimStart s)
  refine ⟨s.takeWhile isBlank, back,
    fun c hc => List.all_eq_true.mp List.all_takeWhile c hc, hback, ?_⟩
  rw [trim, ← htrimmed, trimStart, List.takeWhile_append_dropWhile]

/-- A trimmed text is empty, or neither its first nor its last character is white space. -/
theorem trim_ends (h : trim s ≠ []) :
    (∃ c rest, trim s = c :: rest ∧ isBlank c = false) ∧ ∃ before c, trim s = before ++ [c] ∧
    isBlank c = false := by
  obtain ⟨back, -, htrimmed⟩ := exists_trimEnd (trimStart s)
  constructor
  · obtain ⟨c, rest, hcons⟩ := List.exists_cons_of_ne_nil h
    refine ⟨c, rest, hcons, ?_⟩
    -- the first of what is left is where the white space in front ends
    have hstart : s.dropWhile isBlank = c :: (rest ++ back) := by
      rw [← List.cons_append, ← hcons, trim, ← htrimmed, trimStart]
    have hhead := List.head?_dropWhile_not isBlank s
    rw [hstart] at hhead
    simpa using hhead
  · have hhead := List.head?_dropWhile_not isBlank (trimStart s).reverse
    have hreverse : (trim s).reverse = (trimStart s).reverse.dropWhile isBlank := by
      rw [trim, trimEnd, List.reverse_reverse]
    obtain ⟨c, rest, hcons⟩ := List.exists_cons_of_ne_nil (List.reverse_ne_nil_iff.mpr h)
    refine ⟨rest.reverse, c, ?_, ?_⟩
    · rw [← List.reverse_reverse (trim s), hcons, List.reverse_cons]
    · rw [← hreverse, hcons] at hhead
      simpa using hhead

/-- A text with no white space at its ends is trimmed. -/
theorem trim_of_ends {c d : Char} {rest before : List Char}
    (hfront : s = c :: rest) (hc : isBlank c = false) (hback : s = before ++ [d])
    (hd : isBlank d = false) : trim s = s := by
  have hstart : trimStart s = s := by
    rw [hfront, trimStart, List.dropWhile_cons_of_neg (by simp [hc])]
  rw [trim, hstart, hback, trimEnd, List.reverse_append,
    List.reverse_singleton, List.singleton_append, List.dropWhile_cons_of_neg (by simp [hd]),
      List.reverse_cons, List.reverse_reverse]

end ShaderEmbed.Text
