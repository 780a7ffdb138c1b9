/-!
# Where an offset lies

A message names a place in a text by line and column, both counted from one, the column in
characters. The place is given as a byte offset; an offset inside a character or beyond the text
counts as the end of the text.
-/

namespace ShaderEmbed.Text

/-- The characters in front of a byte offset that lies on a boundary. -/
def before? : List Char → Nat → Option (List Char)
  | _, 0 => some []
  | [], _ + 1 => none
  | c :: rest, offset@(_ + 1) =>
    if c.utf8Size ≤ offset then (before? rest (offset - c.utf8Size)).map (c :: ·) else none

/-- A line and a column. -/
structure Location where
  line : Nat
  column : Nat
deriving DecidableEq, Repr

def Location.behind (passed : List Char) : Location where
  line := passed.count '\n' + 1
  column := (passed.reverse.takeWhile (· ≠ '\n')).length + 1

/-- The place of a byte offset in a text. -/
def locate (s : List Char) (offset : Nat) : Location :=
  Location.behind ((before? s offset).getD s)

end ShaderEmbed.Text
