import Mathlib.Algebra.Group.Nat.Defs
import Mathlib.Data.Nat.Find
import ShaderEmbed.Proofs.Artifact.Acceptance

/-!
# The first free delimiter

A candidate is free for a text if its closing does not occur there (`IsFree`). The search chooses
the first free candidate, if that one is short enough (`choose?_eq_some_iff`). Candidates never get
shorter, so no candidate that is too long stands in front of one that is not, and the short ones are
the first of them all (`length_candidate_le_iff`). Among one candidate more than the text has
closing parentheses there is a free one (`exists_isFirstFree`). So a text is refused only if it has
as many closing parentheses as there are short candidates, and all texts with fewer are embedded
(`chooses_first_free`).
-/

namespace ShaderEmbed

namespace Delimiter

variable {text delimiter : List Char} {count first n m : Nat}

/-- The candidate with a number is free for a text: its closing does not occur there. -/
def IsFree (text : List Char) (n : Nat) : Prop := ¬ closing (candidate n) <:+: text

/-- A candidate is the first that is free for a text. -/
structure IsFirstFree (text : List Char) (n : Nat) : Prop where
  free : IsFree text n
  first : ∀ m < n, ¬ IsFree text m

theorem isFree_iff :
    IsFree text n ↔ ¬ ∃ front back, text = front ++ ')' :: (candidate n ++ '"' :: back) := by
  have hclosing (front back : List Char) :
      front ++ closing (candidate n) ++ back = front ++ ')' :: (candidate n ++ '"' :: back) := by
    simp [closing]
  simp only [IsFree, List.IsInfix, hclosing, eq_comm]

def shortCandidates : Nat := 10 ^ 10 + 2

theorem fits_iff : fits text (candidate n) ↔ IsFree text n := by
  rw [IsFree, ← occurs_iff, fits]
  simp

theorem IsFirstFree.unique (h : IsFirstFree text n) (h' : IsFirstFree text m) : n = m := by
  rcases Nat.lt_trichotomy n m with hlt | heq | hgt
  · exact absurd h.free (h'.first n hlt)
  · exact heq
  · exact absurd h'.free (h.first m hgt)

/-- The short candidates are those in front: six letters leave room for ten digits. -/
theorem length_candidate_le_iff : (candidate n).length ≤ maxLength ↔ n < shortCandidates := by
  match n with
  | 0 | 1 => decide
  | n + 2 =>
    have hdigits : (Nat.toDigits 10 n).length ≤ 10 ↔ n < 10 ^ 10 :=
      Nat.length_toDigits_le_iff (by decide) (by decide)
    have hname : "shader".toList.length = 6 := by decide
    rw [candidate_add_two, List.length_append, hname, maxLength, shortCandidates]
    omega

theorem exists_isFirstFree (text : List Char) : ∃ n ≤ text.count ')', IsFirstFree text n := by
  classical
  obtain ⟨n, hn, hfits⟩ := exists_fits text
  have hfree : ∃ n, IsFree text n := ⟨n, fits_iff.mp hfits⟩
  exact ⟨Nat.find hfree, (Nat.find_min' hfree (fits_iff.mp hfits)).trans hn, Nat.find_spec hfree,
    fun m hm => Nat.find_min hfree hm⟩

/-- What the search yields is the first candidate from its start on that is free, and short
enough. -/
theorem exists_of_search (h : search text count first = some delimiter) :
    ∃ n, n < shortCandidates ∧ IsFree text n ∧ (∀ m, first ≤ m → m < n → ¬ IsFree text m) ∧
    candidate n = delimiter := by
  induction count generalizing first with
  | zero => cases h
  | succ count ih =>
    unfold search at h
    split at h
    · cases h
    rename_i hlength
    split at h
    · rename_i hfits
      cases h
      exact ⟨first, length_candidate_le_iff.mp (Nat.not_lt.mp hlength),
        fits_iff.mp hfits, by omega, rfl⟩
    · rename_i hfails
      obtain ⟨n, hn, hfree, hfirst, hcandidate⟩ := ih h
      refine ⟨n, hn, hfree, fun m hm hlt => ?_, hcandidate⟩
      rcases Nat.eq_or_lt_of_le hm with rfl | hlater
      · exact fun hfree => hfails (fits_iff.mpr hfree)
      · exact hfirst m hlater hlt

theorem choose?_eq_some_iff :
    choose? text = some delimiter ↔ ∃ n < shortCandidates, IsFirstFree text n ∧
    candidate n = delimiter := by
  have hchosen {delimiter : List Char} (h : choose? text = some delimiter) :
      ∃ n < shortCandidates, IsFirstFree text n ∧ candidate n = delimiter := by
    obtain ⟨n, hn, hfree, hfirst, hcandidate⟩ := exists_of_search h
    exact ⟨n, hn, ⟨hfree, fun m hm => hfirst m (Nat.zero_le m) hm⟩, hcandidate⟩
  constructor
  · exact hchosen
  · rintro ⟨n, hn, hfree, rfl⟩
    have hsome :=
      isSome_choose?_iff.mpr ⟨n, length_candidate_le_iff.mpr hn, fits_iff.mpr hfree.free⟩
    obtain ⟨delimiter, hdelimiter⟩ := Option.isSome_iff_exists.mp hsome
    obtain ⟨m, -, hfree', rfl⟩ := hchosen hdelimiter
    rw [hdelimiter, hfree.unique hfree']

theorem le_count_of_choose?_eq_none (h : choose? text = none) :
    shortCandidates ≤ text.count ')' := by
  obtain ⟨n, hn, hfree⟩ := exists_isFirstFree text
  by_contra hfew
  have hsome := choose?_eq_some_iff.mpr ⟨n, by omega, hfree, rfl⟩
  cases h.symm.trans hsome

end Delimiter

open Delimiter

variable {layout : ArtifactLayout} {mode : EmbeddingMode} {sections : List Section}

/-- Sections of the right number and kinds are rendered just if a delimiter is chosen for each of
their texts. -/
theorem exists_render_iff_chosen : (∃ artifact, render layout mode sections = .ok artifact) ↔
    mode.check sections = .ok () ∧ ∀ s ∈ sections, ∀ text, s.content = .text text →
    choose? text.toList ≠ none := by
  have hfree (text : String) : choose? text.toList ≠ none ↔ HasFree text.toList := by
    rw [← isSome_choose?_iff, Option.isSome_iff_ne_none]
  simp only [hfree]
  rw [exists_render_iff, EmbeddingMode.check_eq_ok_iff]
  constructor
  · rintro ⟨hne, hsingle, hkind, hdelimiter⟩
    exact ⟨⟨hne, hsingle, hkind⟩, hdelimiter⟩
  · rintro ⟨⟨hne, hsingle, hkind⟩, hdelimiter⟩
    exact ⟨hne, hsingle, hkind, hdelimiter⟩

/-- For each text a first candidate is free, no further along than the text has closing parentheses.
It is chosen if it is among the candidates that are short enough; otherwise none is chosen, the text
has a closing parenthesis for each of them, and no artifact with the text is rendered. So sections
whose texts have fewer are rendered whenever the mode accepts their number and kinds. The candidates
are the empty one, `shader`, and `shader` with a number, and one is free if it does not occur
between a closing parenthesis and a quote. -/
theorem chooses_first_free :
    (candidate 0 = "".toList ∧ candidate 1 = "shader".toList ∧
      ∀ n, candidate (n + 2) = ("shader" ++ toString n).toList) ∧
    (∀ text n, IsFree text n ↔
      ¬ ∃ front back, text = front ++ ')' :: (candidate n ++ '"' :: back)) ∧
    (∀ text, ∃ n ≤ text.count ')', IsFirstFree text n) ∧
    (∀ text delimiter, choose? text = some delimiter ↔
      ∃ n < 10 ^ 10 + 2, IsFirstFree text n ∧ candidate n = delimiter) ∧
    (∀ n, (candidate n).length ≤ maxLength ↔ n < 10 ^ 10 + 2) ∧
    (∀ text, choose? text = none → 10 ^ 10 + 2 ≤ text.count ')') ∧
    (∀ layout mode sections, (∃ artifact, render layout mode sections = .ok artifact) ↔
      mode.check sections = .ok () ∧ ∀ s ∈ sections, ∀ text, s.content = .text text →
        choose? text.toList ≠ none) ∧
    ∀ layout mode sections, mode.check sections = .ok () →
      (∀ s ∈ sections, ∀ text, s.content = .text text → text.toList.count ')' < 10 ^ 10 + 2) →
        ∃ artifact, render layout mode sections = .ok artifact := by
  refine ⟨candidate_spelled, fun text n => isFree_iff, exists_isFirstFree,
    fun text delimiter => choose?_eq_some_iff, fun n => length_candidate_le_iff,
    fun text => le_count_of_choose?_eq_none, fun layout mode sections => exists_render_iff_chosen,
    fun layout mode sections hcheck hfew =>
      exists_render_iff_chosen.mpr ⟨hcheck, fun s hs text hcontent hnone => ?_⟩⟩
  exact absurd (le_count_of_choose?_eq_none hnone) (Nat.not_le.mpr (hfew s hs text hcontent))

/-- Two candidates occur with their closings, and the third is chosen. -/
example : choose? ")\" )shader\" )shader1\"".toList = some "shader0".toList := by decide +kernel

end ShaderEmbed
