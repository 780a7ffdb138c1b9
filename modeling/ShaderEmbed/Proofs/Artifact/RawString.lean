import ShaderEmbed.Artifact.Delimiter
import ShaderEmbed.Proofs.Text.Scan

/-!
# Raw string literals

How a compiler reads a raw string literal: the delimiter goes up to the first opening parenthesis,
the content from there up to the first closing parenthesis with the delimiter and a quote behind it.
The delimiter that is chosen for a text is one that a compiler takes (`isLegal_of_choose?`) and does
not occur with its closing in the text (`closing_not_infix_of_choose?`), so the literal ends where
it should, whatever the text is (`takeRaw_literal`).
-/

namespace ShaderEmbed.Delimiter

/-! ## What may delimit a literal -/

/-- The characters that a delimiter may not have: the space, parentheses, the quote, the backslash,
and the controls that separate words and lines. -/
def excluded : List Char := [' ', '(', ')', '"', '\\', '\t', '\n', '\x0b', '\x0c']

/-- Whether a compiler takes some characters for a delimiter. -/
def isLegal (delimiter : List Char) : Bool := delimiter.length ≤ 16 && delimiter.all (· ∉ excluded)

theorem isAlphanum_of_mem_candidate {n : Nat} {c : Char} (h : c ∈ candidate n) : c.isAlphanum := by
  have hname : "shader".toList.all Char.isAlphanum := by decide
  match n, h with
  | 1, h => exact List.all_eq_true.mp hname c h
  | n + 2, h =>
    rcases List.mem_append.mp h with h | h
    · exact List.all_eq_true.mp hname c h
    · have hdigit : c.isDigit := Nat.isDigit_of_mem_toDigits (by decide) (by decide) h
      simp [Char.isAlphanum, hdigit]

theorem notMem_excluded_of_isAlphanum {c : Char} (h : c.isAlphanum) : c ∉ excluded := by
  intro hc
  have hexcluded : excluded.all fun c => !c.isAlphanum := by decide
  simpa [h] using List.all_eq_true.mp hexcluded c hc

/-! ## The choice of a delimiter -/

theorem occurs_iff {pattern s : List Char} : occurs pattern s ↔ pattern <:+: s := by
  induction s with
  | nil => simp [occurs]
  | cons c rest ih =>
    rw [occurs, Bool.or_eq_true, List.isPrefixOf_iff_prefix, ih, List.infix_cons_iff]

/-- What the search yields is a candidate that is short enough and fits. -/
theorem exists_candidate_of_search {text delimiter : List Char} {count n : Nat}
    (h : search text count n = some delimiter) :
    ∃ k, delimiter = candidate k ∧ delimiter.length ≤ maxLength ∧ fits text delimiter := by
  induction count generalizing n with
  | zero => cases h
  | succ count ih =>
    unfold search at h
    split at h
    · cases h
    · rename_i hlength
      split at h
      · rename_i hfits
        cases h
        exact ⟨n, rfl, Nat.le_of_not_lt hlength, hfits⟩
      · exact ih h

theorem isLegal_of_choose? {text delimiter : List Char} (h : choose? text = some delimiter) :
    isLegal delimiter := by
  obtain ⟨k, rfl, hlength, -⟩ := exists_candidate_of_search h
  simp only [isLegal, Bool.and_eq_true, decide_eq_true_eq, List.all_eq_true]
  exact ⟨hlength, fun c hc => notMem_excluded_of_isAlphanum (isAlphanum_of_mem_candidate hc)⟩

theorem closing_not_infix_of_choose? {text delimiter : List Char}
    (h : choose? text = some delimiter) :
    ¬ closing delimiter <:+: text := by
  obtain ⟨k, rfl, -, hfits⟩ := exists_candidate_of_search h
  rw [← occurs_iff]
  simpa [fits] using hfits

theorem notMem_of_isLegal {delimiter : List Char} (h : isLegal delimiter)
    {c : Char} (hc : c ∈ excluded) :
    c ∉ delimiter := by
  intro hmem
  simp only [isLegal, Bool.and_eq_true, List.all_eq_true, decide_eq_true_eq] at h
  exact h.2 c hmem hc

/-! ## Reading a literal -/

/-- Takes a raw string literal off the front, from behind its first quote on. -/
def takeRaw (s : List Char) : Option (List Char × List Char) :=
  let delimiter := s.takeWhile (· ≠ '(')
  if isLegal delimiter then
    (Text.skip "(" (s.dropWhile (· ≠ '('))).bind (Text.upTo (closing delimiter))
  else none

/-- A literal with the chosen delimiter is read as the text between two line feeds. -/
theorem takeRaw_literal {text delimiter : List Char} (h : choose? text = some delimiter)
    (rest : List Char) :
    takeRaw (delimiter ++ '(' :: '\n' :: (text ++ '\n' :: (closing delimiter ++ rest))) =
      some ('\n' :: text ++ ['\n'], rest) := by
  have hlegal := isLegal_of_choose? h
  have hopen : ∀ c ∈ delimiter, decide (c ≠ '(') := by
    intro c hc
    refine decide_eq_true fun hparen => ?_
    exact notMem_of_isLegal hlegal (by decide) (hparen ▸ hc)
  -- the line feeds keep the closing from starting inside the text and ending behind it
  have hfeed : '\n' ∉ closing delimiter := by
    simp [closing, notMem_of_isLegal hlegal (c := '\n') (by decide)]
  have hinfix : ¬ closing delimiter <:+: '\n' :: text := by
    rw [List.infix_cons_iff, not_or]
    exact ⟨by simp [closing], closing_not_infix_of_choose? h⟩
  have hbody : Text.upTo (closing delimiter)
      ('\n' :: (text ++ '\n' :: (closing delimiter ++ rest))) =
      some ('\n' :: text ++ ['\n'], rest) :=
    Text.upTo_append_cons hfeed hinfix rest
  simp only [takeRaw, Text.takeWhile_append_cons hopen (c := '(') (by decide),
    Text.dropWhile_append_cons hopen (c := '(') (by decide), hlegal, if_true]
  rw [show ∀ s, '(' :: s = "(".toList ++ s from fun _ => rfl, Text.skip_append]
  exact hbody

end ShaderEmbed.Delimiter
