/-!
# Digits

Digits spell numbers in bases up to sixteen. `digitsAtFront` splits the digits of a base off a text,
and `numberAtFront` reads a number whose first characters tell its base.
-/

namespace ShaderEmbed.Text

/-- The value of a digit in bases up to sixteen; what is no digit has the value sixteen. -/
def digitValue (c : Char) : Nat :=
  if c.isDigit then c.toNat - '0'.toNat
  else if 'a' ≤ c && c ≤ 'f' then c.toNat - 'a'.toNat + 10
  else if 'A' ≤ c && c ≤ 'F' then c.toNat - 'A'.toNat + 10
  else 16

def isDigitIn (base : Nat) (c : Char) : Bool := digitValue c < base

def digitsValue (base : Nat) (digits : List Char) : Nat :=
  digits.foldl (fun n c => n * base + digitValue c) 0

/-- The digits of a base at the front of a text, and what follows them. -/
def digitsAtFront (base : Nat) (text : List Char) : List Char × List Char :=
  (text.takeWhile (isDigitIn base), text.dropWhile (isDigitIn base))

/-- The number at the front of a text, and what follows it: decimal, octal behind a zero, or
hexadecimal. Without digits there is none. -/
def numberAtFront (text : List Char) : Option Nat × List Char :=
  let inBase (base : Nat) (text : List Char) : Option Nat × List Char :=
    let (digits, after) := digitsAtFront base text
    (if digits.isEmpty then none else some (digitsValue base digits), after)
  match text with
  | '0' :: x :: c :: rest =>
    if (x = 'x' || x = 'X') && isDigitIn 16 c then inBase 16 (c :: rest) else inBase 8 text
  | '0' :: rest => inBase 8 ('0' :: rest)
  | _ => inBase 10 text

end ShaderEmbed.Text
