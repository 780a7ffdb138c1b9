import ShaderEmbed.Text.Blank

/-!
# Lines

`cutLines` cuts a text after each line feed and keeps the terminators, so that the pieces put
together are the text again (`flatten_cutLines`). `lines` are the same pieces without their
terminators: a line feed, or a line feed with the carriage return before it. Folding writes a text
of many lines on one: the lines are trimmed, blank ones are left out, and what is left is joined by
a separator.
-/

namespace ShaderEmbed.Text

/-- The pieces that end with a line feed, and what follows the last one if anything does. -/
def cutLines : List Char → List (List Char)
  | [] => []
  | c :: rest =>
    if c = '\n' then [c] :: cutLines rest
    else
      match cutLines rest with
      | [] => [[c]]
      | line :: others => (c :: line) :: others

@[simp] theorem flatten_cutLines (s : List Char) : (cutLines s).flatten = s := by
  induction s with
  | nil => rfl
  | cons c rest ih =>
    unfold cutLines
    split
    · simp [ih]
    · split
      · rename_i h
        rw [h] at ih
        simp [← ih]
      · rename_i h
        rw [h] at ih
        simp [← ih]

/-- The pieces of a text, each with its terminator. -/
def terminatedLines (s : String) : List String := (cutLines s.toList).map String.ofList

/-- A line without its terminator. A carriage return is part of the terminator only before a line
feed. -/
def dropTerminator (line : List Char) : List Char :=
  match line.reverse with
  | '\n' :: '\r' :: before => before.reverse
  | '\n' :: before => before.reverse
  | _ => line

/-- The lines of a text, without terminators. -/
def lines (s : List Char) : List (List Char) := (cutLines s).map dropTerminator

/-- The trimmed lines of a text, blank ones left out. -/
def solidLines (s : List Char) : List (List Char) :=
  ((lines s).map trim).filter fun line => !line.isEmpty

/-- A text of any number of lines written on one line. -/
def fold (separator : String) (s : String) : String :=
  separator.intercalate ((solidLines s.toList).map String.ofList)

def bar : String := " | "

end ShaderEmbed.Text
