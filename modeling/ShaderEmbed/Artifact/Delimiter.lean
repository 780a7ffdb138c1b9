/-!
# Raw string delimiters

A raw string literal ends at the first closing parenthesis that is followed by its delimiter and a
quote. A delimiter fits a text if that sequence does not occur in the text. The candidates are the
empty one, `shader`, and `shader` followed by a number from zero on; a delimiter has at most sixteen
characters.

Occurrences for different candidates start at different parentheses, so among one candidate more
than the text has closing parentheses there is one that fits; the search looks no further.
-/

namespace ShaderEmbed

namespace Delimiter

def maxLength : Nat := 16

def candidate : Nat → List Char
  | 0 => []
  | 1 => "shader".toList
  | n + 2 => "shader".toList ++ Nat.toDigits 10 n

/-- What ends a literal with a delimiter. -/
def closing (delimiter : List Char) : List Char := ')' :: delimiter ++ ['"']

def occurs (pattern : List Char) : List Char → Bool
  | [] => pattern.isEmpty
  | c :: rest => pattern.isPrefixOf (c :: rest) || occurs pattern rest

def fits (text delimiter : List Char) : Bool := !occurs (closing delimiter) text

/-- The first of some candidates that fits a text, counted from a number on. -/
def search (text : List Char) : Nat → Nat → Option (List Char)
  | 0, _ => none
  | count + 1, n =>
    -- no candidate is shorter than those before it, so the first one that is too long ends the
    -- search
    if maxLength < (candidate n).length then none
    else if fits text (candidate n) then some (candidate n)
    else search text count (n + 1)

def choose? (text : List Char) : Option (List Char) := search text (text.count ')' + 1) 0

end Delimiter

end ShaderEmbed
