import ShaderEmbed.Fragment.Directive
import ShaderEmbed.Proofs.Text.Trim

/-!
# How the lines of a fragment are spelled

`Line.Spelled` tells what a line does from what it is made of: a directive is the marker and a
reference, with white space between them and at the end, or the marker and white space alone; and
every other line is ordinary, be it that the marker is not in front or that something else follows
it directly. No line is spelled in two ways, and classifying finds the way in which it is
(`Line.classify_eq_iff`).
-/

namespace ShaderEmbed

theorem Directive.behind?_eq_some_iff {marker line rest : List Char} :
    behind? marker line = some rest ↔ line = marker ++ rest := by
  induction marker generalizing line with
  | nil => simp [behind?]
  | cons m marker ih =>
    cases line with
    | nil => simp [behind?]
    | cons c line =>
      rw [behind?, List.cons_append, List.cons_eq_cons]
      split
      · rename_i heq
        rw [ih, heq]
        simp
      · rename_i hne
        simp [Ne.symm hne]

namespace Line

/-- What a line does, as it is spelled. -/
inductive Spelled (marker line : String) : Line → Prop
  | ordinary (h : ∀ rest, line.toList = marker.toList ++ rest → ∃ c more, rest = c :: more ∧
      Text.isBlank c = false) :
      Spelled marker line .ordinary
  | blank {blanks : List Char} (hline : line.toList = marker.toList ++ blanks)
      (hblanks : ∀ c ∈ blanks, Text.isBlank c) : Spelled marker line .blank
  | includes {reference : String} {front back : List Char}
      (hline : line.toList = marker.toList ++ (front ++ (reference.toList ++ back)))
      (hne : front ≠ []) (hfront : ∀ c ∈ front, Text.isBlank c) (hback : ∀ c ∈ back, Text.isBlank c)
      (hfirst : ∃ c rest, reference.toList = c :: rest ∧ Text.isBlank c = false)
      (hlast : ∃ before c, reference.toList = before ++ [c] ∧ Text.isBlank c = false) :
      Spelled marker line (.includes reference)

variable {marker line : String} {kind other : Line}

theorem spelled_classify (marker line : String) : Spelled marker line (classify marker line) := by
  unfold classify Directive.reference?
  cases hbehind : Directive.behind? marker.toList line.toList with
  | none =>
    refine .ordinary fun rest hline => ?_
    rw [Directive.behind?_eq_some_iff.mpr hline] at hbehind
    cases hbehind
  | some rest =>
    have hline := Directive.behind?_eq_some_iff.mp hbehind
    cases rest with
    | nil => exact .blank hline (by simp)
    | cons c rest =>
      by_cases hblank : Text.isBlank c
      · simp only [hblank, if_true]
        cases htrim : Text.trim (c :: rest) with
        | nil => exact .blank hline (Text.trim_eq_nil_iff.mp htrim)
        | cons d others =>
          obtain ⟨front, back, hfront, hback, hsplit⟩ := Text.exists_trim (c :: rest)
          obtain ⟨hfirst, hlast⟩ := Text.trim_ends (s := c :: rest) (by simp [htrim])
          have hreference : (String.ofList (d :: others)).toList = Text.trim (c :: rest) := by
            rw [htrim, String.toList_ofList]
          refine .includes (by rw [hline, hreference, ← hsplit]) ?_ hfront hback
            (hreference ▸ hfirst) (hreference ▸ hlast)
          -- the white space behind the marker is not part of the reference
          rintro rfl
          obtain ⟨e, more, he, hink⟩ := hfirst
          rw [List.nil_append, he, List.cons_append, List.cons_eq_cons] at hsplit
          rw [← hsplit.1, hblank] at hink
          cases hink
      · simp only [hblank, Bool.false_eq_true, if_false]
        refine .ordinary fun rest' hline' => ⟨c, rest, ?_, by simpa using hblank⟩
        exact List.append_cancel_left (hline'.symm.trans hline)

theorem Spelled.classify_eq (h : Spelled marker line kind) : classify marker line = kind := by
  unfold classify Directive.reference?
  cases h with
  | ordinary h =>
    cases hbehind : Directive.behind? marker.toList line.toList with
    | none => rfl
    | some rest =>
      obtain ⟨c, more, rfl, hink⟩ := h rest (Directive.behind?_eq_some_iff.mp hbehind)
      simp [hink]
  | @blank blanks hline hblanks =>
    rw [Directive.behind?_eq_some_iff.mpr hline]
    cases blanks with
    | nil => rfl
    | cons c rest => simp [hblanks c List.mem_cons_self, Text.trim_eq_nil_iff.mpr hblanks]
  | @includes reference front back hline hne hfront hback hfirst hlast =>
    rw [Directive.behind?_eq_some_iff.mpr hline]
    obtain ⟨c, rest, hreference, hc⟩ := hfirst
    obtain ⟨before, d, hreference', hd⟩ := hlast
    have htrim : Text.trim (front ++ (reference.toList ++ back)) = c :: rest := by
      rw [Text.trim_blank_append hfront, Text.trim_append_of_blank hback,
        Text.trim_of_ends hreference hc hreference' hd, hreference]
    obtain ⟨b, blanks, rfl⟩ := List.exists_cons_of_ne_nil hne
    rw [List.cons_append] at htrim ⊢
    simp only [hfront b List.mem_cons_self, if_true, htrim]
    rw [← hreference, String.ofList_toList]

/-- A line is classified as it is spelled. -/
theorem classify_eq_iff : classify marker line = kind ↔ Spelled marker line kind := by
  constructor
  · rintro rfl
    exact spelled_classify marker line
  · exact Spelled.classify_eq

theorem Spelled.unique (h : Spelled marker line kind) (h' : Spelled marker line other) :
    kind = other :=
  h.classify_eq.symm.trans h'.classify_eq

end Line

end ShaderEmbed
