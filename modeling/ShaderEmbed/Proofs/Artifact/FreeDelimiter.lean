import Mathlib.Data.Finset.Card
import Mathlib.Data.Finset.Range
import ShaderEmbed.Proofs.Artifact.RawString

/-!
# Free delimiters

A delimiter is free for a text if it is a candidate that is short enough and fits (`HasFree`). The
search looks at no more candidates than the text has closing parentheses, and one; that is enough
(`isSome_choose?_iff`). Each candidate that does not fit stands behind a closing parenthesis of its
own (`eq_of_closing_occurs`): what is behind the parenthesis tells the candidate, up to the quote.
So the candidates the search looks at cannot all fail to fit.
-/

namespace ShaderEmbed.Delimiter

/-- Some candidate that is short enough fits the text. -/
def HasFree (text : List Char) : Prop :=
  ∃ n, (candidate n).length ≤ maxLength ∧ fits text (candidate n)

/-! ## Candidates -/

/-- The candidates as they are written. -/
theorem candidate_spelled :
    candidate 0 = "".toList ∧ candidate 1 = "shader".toList ∧
    ∀ n, candidate (n + 2) = ("shader" ++ toString n).toList := by
  refine ⟨rfl, rfl, fun n => ?_⟩
  rw [String.toList_append, Nat.toString_eq_repr, Nat.toList_repr]
  rfl

theorem candidate_add_two (n : Nat) :
    candidate (n + 2) = "shader".toList ++ Nat.toDigits 10 n := rfl

theorem length_candidate_mono {n m : Nat} (h : n ≤ m) :
    (candidate n).length ≤ (candidate m).length := by
  match n, m, h with
  | 0, _, _ => exact Nat.zero_le _
  | 1, 1, _ => exact Nat.le_refl _
  | 1, m + 2, _ =>
    rw [candidate_add_two, List.length_append]
    exact Nat.le_add_right _ _
  | n + 2, m + 2, h =>
    have hdigits : (Nat.toDigits 10 n).length ≤ (Nat.toDigits 10 m).length := by
      have hpos := Nat.length_toDigits_pos (b := 10) (n := m)
      rw [Nat.length_toDigits_le_iff (by decide) hpos]
      have hlt := (Nat.length_toDigits_le_iff (by decide) hpos).mp
        (Nat.le_refl (Nat.toDigits 10 m).length)
      omega
    rw [candidate_add_two, candidate_add_two, List.length_append, List.length_append]
    exact Nat.add_le_add_left hdigits _

theorem candidate_injective {n m : Nat} (h : candidate n = candidate m) : n = m := by
  have hlong (n : Nat) : "shader".toList.length < (candidate (n + 2)).length := by
    have hpos := Nat.length_toDigits_pos (b := 10) (n := n)
    rw [candidate_add_two, List.length_append]
    omega
  have hlength := congrArg List.length h
  match n, m with
  | 0, 0 | 1, 1 => rfl
  | 0, 1 | 1, 0 => cases hlength
  | 0, m + 2 => exact absurd hlength (Nat.zero_lt_of_lt (hlong m)).ne
  | 1, m + 2 => exact absurd hlength (hlong m).ne
  | n + 2, 0 => exact absurd hlength (Nat.zero_lt_of_lt (hlong n)).ne'
  | n + 2, 1 => exact absurd hlength (hlong n).ne'
  | n + 2, m + 2 =>
    have hdigits : Nat.toDigits 10 n = Nat.toDigits 10 m := List.append_cancel_left h
    have hvalue := congrArg (Nat.ofDigitChars 10 · 0) hdigits
    simpa using hvalue

theorem quote_notMem_candidate (n : Nat) : '"' ∉ candidate n :=
  fun hmem => notMem_excluded_of_isAlphanum (isAlphanum_of_mem_candidate hmem) (by decide)

/-! ## Counting parentheses -/

/-- The parenthesis that an occurrence of a closing starts with, counted from the front of the text,
tells the place. -/
theorem eq_of_count_eq {text before before' after after' : List Char}
    (h : text = before ++ ')' :: after) (h' : text = before' ++ ')' :: after')
    (hcount : before.count ')' = before'.count ')') : before = before' := by
  have hle {front front' back back' : List Char} (h : front ++ ')' :: back = front' ++ ')' :: back')
      (hcount : front'.count ')' ≤ front.count ')') : front'.length ≤ front.length := by
    by_contra hlt
    -- the longer part in front would hold the parenthesis behind the shorter one, too
    have hlonger : front' <+: front ++ ')' :: back := ⟨')' :: back', h.symm⟩
    have hunder : front ++ [')'] <+: front' := by
      refine List.prefix_of_prefix_length_le ⟨back, by simp⟩ hlonger ?_
      simp only [List.length_append, List.length_singleton]
      omega
    have hmore := hunder.sublist.count_le ')'
    rw [List.count_append, List.count_singleton_self] at hmore
    omega
  have hsame := h.symm.trans h'
  exact List.append_inj_left hsame
    (Nat.le_antisymm (hle hsame.symm hcount.le) (hle hsame hcount.ge))

/-- The parenthesis that an occurrence of a closing starts with is that of no other candidate. -/
theorem eq_of_closing_occurs {text before before' after after' : List Char} {n m : Nat}
    (h : text = before ++ (closing (candidate n) ++ after))
    (h' : text = before' ++ (closing (candidate m) ++ after'))
    (hcount : before.count ')' = before'.count ')') : n = m := by
  have hplace : before = before' := eq_of_count_eq h h' hcount
  subst hplace
  have hbehind := List.append_cancel_left (h.symm.trans h')
  simp only [closing, List.cons_append, List.cons.injEq, List.append_assoc, true_and] at hbehind
  have hquote (n : Nat) : ∀ c ∈ candidate n, decide (c ≠ '"') := by
    intro c hc
    refine decide_eq_true fun heq => quote_notMem_candidate n ?_
    rwa [heq] at hc
  have hread := congrArg (List.takeWhile (· ≠ '"')) hbehind
  rw [Text.takeWhile_append_cons (hquote n) (by decide),
    Text.takeWhile_append_cons (hquote m) (by decide)] at hread
  exact candidate_injective hread

/-- Among one candidate more than a text has closing parentheses there is one that fits. -/
theorem exists_fits (text : List Char) : ∃ n ≤ text.count ')', fits text (candidate n) := by
  by_contra hnone
  have hinfix : ∀ n ≤ text.count ')', ∃ before after,
      text = before ++ (closing (candidate n) ++ after) := by
    intro n hn
    have hoccurs : closing (candidate n) <:+: text := by
      rw [← occurs_iff]
      by_contra hfree
      exact hnone ⟨n, hn, by simpa [fits] using hfree⟩
    obtain ⟨before, after, htext⟩ := hoccurs
    exact ⟨before, after, by rw [← htext, List.append_assoc]⟩
  choose! before after hsplit using hinfix
  have hmaps : ∀ n ∈ Finset.range (text.count ')' + 1),
      (before n).count ')' ∈ Finset.range (text.count ')') := by
    intro n hn
    have hle : n ≤ text.count ')' := Nat.lt_succ_iff.mp (Finset.mem_range.mp hn)
    have hcount := congrArg (List.count ')') (hsplit n hle)
    simp only [closing, List.count_append, List.cons_append, List.count_cons_self] at hcount
    rw [Finset.mem_range]
    omega
  obtain ⟨n, hn, m, hm, hne, hcount⟩ :=
    Finset.exists_ne_map_eq_of_card_lt_of_maps_to (by simp) hmaps
  rw [Finset.mem_range, Nat.lt_succ_iff] at hn hm
  exact hne (eq_of_closing_occurs (hsplit n hn) (hsplit m hm) hcount)

/-! ## The search -/

/-- The search finds a candidate if one that fits is among those it looks at, and none in front of
it is too long. -/
theorem isSome_search {text : List Char} {count first n : Nat} (hfirst : first ≤ n)
    (hlast : n < first + count) (hlength : (candidate n).length ≤ maxLength)
    (hfits : fits text (candidate n)) :
    (search text count first).isSome := by
  induction count generalizing first with
  | zero => omega
  | succ count ih =>
    have hshort : ¬ maxLength < (candidate first).length :=
      Nat.not_lt.mpr ((length_candidate_mono hfirst).trans hlength)
    rw [search, if_neg hshort]
    split
    · rfl
    · rename_i hfails
      have hne : first ≠ n := by
        rintro rfl
        exact hfails hfits
      exact ih (by omega) (by omega)

/-- A delimiter is chosen just if one is free. -/
theorem isSome_choose?_iff {text : List Char} : (choose? text).isSome ↔ HasFree text := by
  constructor
  · intro h
    obtain ⟨delimiter, hchosen⟩ := Option.isSome_iff_exists.mp h
    obtain ⟨n, rfl, hlength, hfits⟩ := exists_candidate_of_search hchosen
    exact ⟨n, hlength, hfits⟩
  · rintro ⟨n, hlength, hfits⟩
    obtain ⟨m, hm, hfits'⟩ := exists_fits text
    rcases Nat.le_total m n with hle | hle
    · exact isSome_search (Nat.zero_le m) (by omega)
        ((length_candidate_mono hle).trans hlength) hfits'
    · exact isSome_search (Nat.zero_le n) (by omega) hlength hfits

end ShaderEmbed.Delimiter
