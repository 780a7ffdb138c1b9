import ShaderEmbed.Text.Lines

/-!
# Where a text is cut into lines

`CutsInto` says what the lines of a text are without saying how they are found: each line but the
last ends with the only line feed in it, and what follows the last line feed is a line if it is not
empty. `cutsInto_iff` shows that `cutLines` finds exactly these lines.
-/

namespace ShaderEmbed.Text

/-- A text and its pieces when it is cut after each line feed. -/
inductive CutsInto : List Char → List (List Char) → Prop
  | nil : CutsInto [] []
  | unterminated {line : List Char} (hne : line ≠ []) (hline : '\n' ∉ line) : CutsInto line [line]
  | terminated {line rest : List Char} {pieces : List (List Char)} (hline : '\n' ∉ line)
      (hrest : CutsInto rest pieces) : CutsInto (line ++ '\n' :: rest) ((line ++ ['\n']) :: pieces)

theorem cutLines_of_notMem {line : List Char} (hne : line ≠ []) (hline : '\n' ∉ line) :
    cutLines line = [line] := by
  induction line with
  | nil => exact absurd rfl hne
  | cons c rest ih =>
    simp only [List.mem_cons, not_or] at hline
    cases rest with
    | nil => simp [cutLines, Ne.symm hline.1]
    | cons d others => rw [cutLines, if_neg (Ne.symm hline.1), ih (by simp) hline.2]

theorem cutLines_append_newline {line : List Char} (rest : List Char) (hline : '\n' ∉ line) :
    cutLines (line ++ '\n' :: rest) = (line ++ ['\n']) :: cutLines rest := by
  induction line with
  | nil => simp [cutLines]
  | cons c front ih =>
    simp only [List.mem_cons, not_or] at hline
    rw [List.cons_append, cutLines, if_neg (Ne.symm hline.1), ih hline.2]
    rfl

theorem cutsInto_cutLines (s : List Char) : CutsInto s (cutLines s) := by
  induction s with
  | nil => exact .nil
  | cons c rest ih =>
    by_cases hc : c = '\n'
    · subst hc
      have hline : '\n' ∉ ([] : List Char) := List.not_mem_nil
      simpa [cutLines] using CutsInto.terminated hline ih
    · rw [cutLines, if_neg hc]
      generalize cutLines rest = pieces at ih
      cases ih with
      | nil => exact .unterminated (by simp) (by simpa using Ne.symm hc)
      | unterminated hne hline => exact .unterminated (by simp) (by simp [Ne.symm hc, hline])
      | @terminated line rest pieces hline hrest =>
        have hlonger : '\n' ∉ c :: line := by simp [Ne.symm hc, hline]
        exact .terminated hlonger hrest

theorem cutsInto_iff {s : List Char} {pieces : List (List Char)} :
    CutsInto s pieces ↔ pieces = cutLines s := by
  constructor
  · intro h
    induction h with
    | nil => rfl
    | unterminated hne hline => exact (cutLines_of_notMem hne hline).symm
    | terminated hline _ ih => rw [cutLines_append_newline _ hline, ih]
  · rintro rfl
    exact cutsInto_cutLines s

end ShaderEmbed.Text
