import Mathlib.Data.List.Forall2
import ShaderEmbed.Text.Identifier

/-!
# Taking texts apart

A scan takes a value off the front of some characters, or finds none there.
`Takes scan written value` says that it takes the value off the characters that stand for it,
whatever comes after them; `many_flatten` gets from there to any number of values in a row.

`upTo` finds the first occurrence of a pattern (`upTo_eq_some_iff`). A character that is not in the
pattern keeps what is before it apart from what is after it: no occurrence goes across
(`upTo_append_cons`).
-/

namespace ShaderEmbed.Text

variable {α : Type}

/-! ## Fixed texts -/

/-- Takes a fixed text off the front. -/
def skip (fixed : String) (s : List Char) : Option (List Char) := s.dropPrefix? fixed.toList

@[simp] theorem skip_append (fixed : String) (s : List Char) :
    skip fixed (fixed.toList ++ s) = some s :=
  List.dropPrefix?_append_of_beq s (BEq.refl fixed.toList)

/-! ## Up to a pattern -/

/-- What is before the first occurrence of a pattern, and what is after it. -/
def upTo (pattern : List Char) : List Char → Option (List Char × List Char)
  | [] => if pattern = [] then some ([], []) else none
  | c :: rest =>
    match (c :: rest).dropPrefix? pattern with
    | some after => some ([], after)
    | none => (upTo pattern rest).map fun found => (c :: found.1, found.2)

theorem dropPrefix?_eq_some {pattern s after : List Char} :
    s.dropPrefix? pattern = some after ↔ s = pattern ++ after := by
  simp [List.dropPrefix?_eq_some_iff]

theorem dropPrefix?_eq_none {pattern s : List Char} :
    s.dropPrefix? pattern = none ↔ ¬ pattern <+: s := by
  rw [Option.eq_none_iff_forall_ne_some]
  constructor
  · rintro h ⟨after, rfl⟩
    exact h after (dropPrefix?_eq_some.mpr rfl)
  · intro h after hafter
    exact h ⟨after, (dropPrefix?_eq_some.mp hafter).symm⟩

@[simp] theorem upTo_append (pattern after : List Char) :
    upTo pattern (pattern ++ after) = some ([], after) := by
  cases h : pattern ++ after with
  | nil =>
    obtain ⟨rfl, rfl⟩ := List.append_eq_nil_iff.mp h
    rfl
  | cons c rest =>
    have hdrop : (c :: rest).dropPrefix? pattern = some after := dropPrefix?_eq_some.mpr h.symm
    rw [upTo, hdrop]

theorem upTo_cons_of_not_prefixed {pattern rest : List Char} {c : Char}
    (h : ¬ pattern <+: c :: rest) :
    upTo pattern (c :: rest) = (upTo pattern rest).map fun found => (c :: found.1, found.2) := by
  rw [upTo, dropPrefix?_eq_none.mpr h]

/-- What `upTo` finds is an occurrence, and none starts before it. -/
theorem upTo_eq_some_iff {pattern s content after : List Char} :
    upTo pattern s = some (content, after) ↔ s = content ++ pattern ++ after ∧
      ∀ before behind, s = before ++ pattern ++ behind → content.length ≤ before.length := by
  induction s generalizing content with
  | nil =>
    constructor
    · intro h
      unfold upTo at h
      split at h
      · rename_i hpattern
        cases h
        simp [hpattern]
      · cases h
    · rintro ⟨h, -⟩
      obtain ⟨rfl, rfl, rfl⟩ : content = [] ∧ pattern = [] ∧ after = [] := by simpa using h
      rfl
  | cons c rest ih =>
    by_cases hfront : pattern <+: c :: rest
    · obtain ⟨behind, hbehind⟩ := hfront
      rw [← hbehind, upTo_append]
      constructor
      · intro h
        cases h
        simp
      · rintro ⟨h, hfirst⟩
        have hlength := hfirst [] behind rfl
        obtain rfl := List.eq_nil_of_length_eq_zero (Nat.le_zero.mp hlength)
        rw [List.append_cancel_left h]
    · rw [upTo_cons_of_not_prefixed hfront]
      constructor
      · intro h
        obtain ⟨⟨content, after⟩, hfound, hpair⟩ := Option.map_eq_some_iff.mp h
        cases hpair
        obtain ⟨hrest, hfirst⟩ := ih.mp hfound
        refine ⟨by rw [hrest]; rfl, ?_⟩
        intro before behind hbefore
        cases before with
        | nil => exact absurd ⟨behind, hbefore.symm⟩ hfront
        | cons d before =>
          have htail := hfirst before behind (List.cons.inj hbefore).2
          simpa using htail
      · rintro ⟨h, hfirst⟩
        cases content with
        | nil => exact absurd ⟨after, h.symm⟩ hfront
        | cons d content =>
          obtain ⟨rfl, hrest⟩ := List.cons.inj h
          have hfound : upTo pattern rest = some (content, after) := by
            refine ih.mpr ⟨hrest, fun before behind hbefore => ?_⟩
            have hlength := hfirst (c :: before) behind (by rw [hbefore]; rfl)
            simpa using hlength
          rw [hfound]
          rfl

/-- A pattern in front does not reach a character that is not in it. -/
theorem prefix_of_prefix_append_cons {pattern s rest : List Char}
    {sep : Char} (hsep : sep ∉ pattern) (h : pattern <+: s ++ sep :: rest) : pattern <+: s := by
  obtain ⟨after, hafter⟩ := h
  rcases List.append_eq_append_iff.mp hafter with ⟨left, rfl, -⟩ | ⟨reached, rfl, hreached⟩
  · exact List.prefix_append pattern left
  · cases reached with
    | nil => simp
    | cons c reached =>
      obtain ⟨rfl, -⟩ := List.cons.inj hreached
      exact absurd (by simp) hsep

/-- A pattern that is not in `s`, put behind `s` and a separator, occurs there first. -/
theorem upTo_append_cons {pattern s : List Char} {sep : Char}
    (hsep : sep ∉ pattern) (h : ¬ pattern <:+: s) (after : List Char) :
    upTo pattern (s ++ sep :: (pattern ++ after)) = some (s ++ [sep], after) := by
  refine upTo_eq_some_iff.mpr ⟨by simp, fun before behind hbefore => ?_⟩
  rw [List.append_assoc] at hbefore
  rcases List.append_eq_append_iff.mp hbefore with ⟨left, rfl, hleft⟩ | ⟨left, rfl, hleft⟩
  · cases left with
    | nil =>
      -- an occurrence at the separator itself is none, unless the pattern is empty
      have hfront : pattern <+: [] := prefix_of_prefix_append_cons hsep ⟨behind, hleft.symm⟩
      exact absurd (hfront.isInfix.trans List.nil_infix) h
    | cons c left => simp
  · -- an occurrence that starts in `s` does not get over the separator, so it is in `s`
    have hfront : pattern <+: left := prefix_of_prefix_append_cons hsep ⟨behind, hleft⟩
    exact absurd (hfront.isInfix.trans (List.suffix_append before left).isInfix) h

/-! ## Joined texts -/

/-- A text that is joined with others is in the whole. -/
theorem infix_toList_intercalate {separator text : String}
    {texts : List String} (h : text ∈ texts) :
    text.toList <:+: (separator.intercalate texts).toList := by
  rw [String.toList_intercalate]
  have hmem := List.mem_map_of_mem (f := String.toList) h
  generalize texts.map String.toList = pieces at hmem
  generalize text.toList = piece at hmem
  induction pieces with
  | nil => cases hmem
  | cons first others ih =>
    cases others with
    | nil =>
      obtain rfl := List.mem_singleton.mp hmem
      exact List.intercalate_singleton ▸ List.infix_refl _
    | cons next others =>
      rw [List.intercalate_cons_cons]
      rcases List.mem_cons.mp hmem with rfl | hmem
      · rw [List.append_assoc]
        exact (List.prefix_append _ _).isInfix
      · exact (ih hmem).trans (List.suffix_append _ _).isInfix

/-! ## Up to a kind of character -/

theorem takeWhile_append_cons {p : Char → Bool} {s : List Char} {c : Char}
    (hs : ∀ d ∈ s, p d) (hc : p c = false) (rest : List Char) :
    (s ++ c :: rest).takeWhile p = s := by
  rw [List.takeWhile_append_of_pos hs, List.takeWhile_cons_of_neg (by simp [hc]), List.append_nil]

theorem dropWhile_append_cons {p : Char → Bool} {s : List Char} {c : Char}
    (hs : ∀ d ∈ s, p d) (hc : p c = false) (rest : List Char) :
    (s ++ c :: rest).dropWhile p = c :: rest := by
  rw [List.dropWhile_append_of_pos hs, List.dropWhile_cons_of_neg (by simp [hc])]

def takeIdentifier (s : List Char) : Option (String × List Char) :=
  let name := s.takeWhile followsInIdentifier
  if spellsIdentifier name then some (String.ofList name, s.dropWhile followsInIdentifier) else none

/-- A letter of the alphabet, or an underscore. -/
def IsLetter (c : Char) : Prop := ('A' ≤ c ∧ c ≤ 'Z') ∨ ('a' ≤ c ∧ c ≤ 'z') ∨ c = '_'

/-- A letter first, and then letters and digits. -/
def IsIdentifier (s : String) : Prop :=
  ∃ first rest, s.toList = first :: rest ∧ IsLetter first ∧
  ∀ c ∈ rest, IsLetter c ∨ ('0' ≤ c ∧ c ≤ '9')

theorem leadsIdentifier_iff {c : Char} : leadsIdentifier c ↔ IsLetter c := by
  have hletters : c.isAlpha =
      (decide ('A' ≤ c ∧ c ≤ 'Z') || (decide ('a' ≤ c) && decide (c ≤ 'z'))) := rfl
  simp [leadsIdentifier, IsLetter, hletters, or_assoc]

theorem followsInIdentifier_iff {c : Char} :
    followsInIdentifier c ↔ IsLetter c ∨ ('0' ≤ c ∧ c ≤ '9') := by
  rw [← leadsIdentifier_iff]
  simp [followsInIdentifier, leadsIdentifier, Char.isAlphanum, Char.isDigit,
    Char.le_def, or_right_comm]

theorem isIdentifier_iff {s : String} : isIdentifier s ↔ IsIdentifier s := by
  unfold isIdentifier IsIdentifier
  cases s.toList with
  | nil => simp [spellsIdentifier]
  | cons first rest => simp [spellsIdentifier, leadsIdentifier_iff, followsInIdentifier_iff]

theorem follows_of_mem_identifier {name : List Char} (h : spellsIdentifier name) :
    ∀ c ∈ name, followsInIdentifier c := by
  cases name with
  | nil => cases h
  | cons first rest =>
    obtain ⟨hfirst, hrest⟩ : leadsIdentifier first ∧ ∀ c ∈ rest, followsInIdentifier c := by
      simpa [spellsIdentifier] using h
    refine List.forall_mem_cons.mpr ⟨?_, hrest⟩
    unfold leadsIdentifier at hfirst
    unfold followsInIdentifier Char.isAlphanum
    grind

theorem takeIdentifier_append {name : String} (h : isIdentifier name) {c : Char}
    (hc : followsInIdentifier c = false) (rest : List Char) :
    takeIdentifier (name.toList ++ c :: rest) = some (name, c :: rest) := by
  have hfollows : ∀ c ∈ name.toList, followsInIdentifier c := follows_of_mem_identifier h
  have hspells : spellsIdentifier name.toList = true := h
  simp only [takeIdentifier, takeWhile_append_cons hfollows hc, dropWhile_append_cons hfollows hc,
    hspells, if_true, String.ofList_toList]

/-- Takes a number that a byte can hold off the front: decimal digits, without leading zeros. -/
def takeByte (s : List Char) : Option (UInt8 × List Char) :=
  let digits := s.takeWhile Char.isDigit
  let value := Nat.ofDigitChars 10 digits 0
  if value < 256 ∧
    digits = Nat.toDigits 10 value then some (UInt8.ofNat value, s.dropWhile Char.isDigit) else none

theorem takeByte_append (byte : UInt8) {c : Char} (hc : c.isDigit = false) (rest : List Char) :
    takeByte ((toString byte.toNat).toList ++ c :: rest) = some (byte, c :: rest) := by
  have hdigits : ∀ d ∈ Nat.toDigits 10 byte.toNat, d.isDigit := fun d hd =>
    Nat.isDigit_of_mem_toDigits (by decide) (by decide) hd
  have hlt : byte.toNat < 256 := byte.toNat_lt
  simp only [Nat.toString_eq_repr, Nat.toList_repr, takeByte, takeWhile_append_cons hdigits hc,
    dropWhile_append_cons hdigits hc, Nat.ofDigitChars_ten_toDigits, hlt, and_self,
      if_true, UInt8.ofNat_toNat]

/-! ## Any number of values -/

/-- Takes off values as long as there are some. -/
def many (scan : List Char → Option (α × List Char)) (s : List Char) : List α × List Char :=
  match scan s with
  | none => ([], s)
  | some (value, rest) =>
    if rest.length < s.length then
      let others := many scan rest
      (value :: others.1, others.2)
    else ([], s)
termination_by s.length

/-- A scan takes a value off the characters that stand for it. -/
def Takes (scan : List Char → Option (α × List Char)) (written : List Char) (value : α) : Prop :=
  written ≠ [] ∧ ∀ rest, scan (written ++ rest) = some (value, rest)

/-- Values in a row are taken off one by one, up to where the scan finds none. -/
theorem many_flatten {scan : List Char → Option (α × List Char)} {written : List (List Char)}
    {values : List α} (h : List.Forall₂ (Takes scan) written values) {rest : List Char}
    (hrest : scan rest = none) :
    many scan (written.flatten ++ rest) = (values, rest) := by
  induction h with
  | nil => rw [List.flatten_nil, List.nil_append, many, hrest]
  | @cons piece value written values hpiece _ ih =>
    have hshorter : (written.flatten ++ rest).length <
        (piece ++ (written.flatten ++ rest)).length := by
      have hpos := List.length_pos_of_ne_nil hpiece.1
      simp only [List.length_append]
      omega
    rw [List.flatten_cons, List.append_assoc, many, hpiece.2]
    simp only [hshorter, if_true, ih]

end ShaderEmbed.Text
