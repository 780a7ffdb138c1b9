import ShaderEmbed.Decimal.Binary64
import ShaderEmbed.Toml.String

/-!
# Numbers

Integers have 64 bits and may be written in base ten, sixteen, eight or two; floating point numbers
have a fraction or an exponent. Underscores may stand between digits.
-/

namespace ShaderEmbed.Toml

open Reading

def isDigit (c : Char) : Bool := Text.isDigitIn 10 c

def sign : Reading Char := satisfy fun c => c = '+' || c = '-'

/-- A digit behind an underscore. -/
def spacedDigit (isDigit : Char → Bool) : Reading Char := do
  char '_'
  commit (wanting [.digit] (satisfy isDigit))

/-- A digit, and the digits behind it. -/
def digits (isFirst isDigit : Char → Bool) : Reading (List Char) := do
  let first ← satisfy isFirst
  let others ← many (satisfy isDigit <|> spacedDigit isDigit)
  done (first :: others)

/-- Digits with a sign in front: whether the sign is a minus, and the digits. -/
structure Signed where
  negative : Bool
  digits : List Char

/-- A whole number in base ten; zero may not lead other digits. -/
def decimal : Reading Signed := naming .integer do
  let mark ← optional sign
  -- a zero in front is taken alone; digits behind it are left, to be refused by what follows
  let all ← digits (fun c => isDigit c && c ≠ '0') isDigit <|> single (satisfy isDigit)
  done ⟨mark = some '-', all⟩

/-- Integers lie below this bound, and not below its negative. -/
def integerBound : Int := Nat.pow 2 63

def fitting (n : Int) : Except Reason Int :=
  if integerBound ≤ n then .error .tooLarge
    else if n < -integerBound then .error .tooSmall else .ok n

def Signed.value (self : Signed) : Int :=
  if self.negative then -(Text.digitsValue 10 self.digits : Int) else
    Text.digitsValue 10 self.digits

/-- A whole number in another base, behind its mark. -/
def based (construct : Construct) (mark : List Char) (base : Nat) : Reading Int :=
  commit (checked
    (naming construct do
      literal mark
      commit (digits (Text.isDigitIn base) (Text.isDigitIn base)))
    fun all => fitting (Text.digitsValue base all))

def integer : Reading Int := do
  match ← ahead with
  | '0' :: 'x' :: _ => based .hexadecimal ['0', 'x'] 16
  | '0' :: 'o' :: _ => based .octal ['0', 'o'] 8
  | '0' :: 'b' :: _ => based .binary ['0', 'b'] 2
  | _ => settled decimal fun all => fitting all.value

def fraction : Reading (List Char) := do
  char '.'
  commit (wanting [.digit] (digits isDigit isDigit))

def exponent : Reading Signed := do
  let _ ← satisfy fun c => c = 'e' || c = 'E'
  let mark ← optional sign
  let all ← commit (digits isDigit isDigit)
  done ⟨mark = some '-', all⟩

def decimalTail : Reading (List Char × Option Signed) :=
  (do
    let power ← exponent
    done ([], some power)) <|> do
    let behind ← fraction
    let power ← optional exponent
    done (behind, power)

def nearest (whole : Signed) (behind : List Char) (power : Option Signed) : Binary64 :=
  let shift : Int := (power.map Signed.value).getD 0
  .ofDecimal whole.negative (Text.digitsValue 10 (whole.digits ++ behind)) (shift - behind.length)

/-- A decimal that is no integer. It must not be too large for the format, unless it is negative. -/
def decimalFloat : Reading Binary64 := fun start =>
  match (do
    let whole ← decimal
    let (behind, power) ← decimalTail
    done (nearest whole behind power) : Reading Binary64) start with
  -- final, so that the digits are not read as an integer instead
  | .ok (.infinite false, _) => commit refuse start
  | other => other

def specialFloat : Reading Binary64 := do
  let mark ← optional sign
  (do
    literal ['i', 'n', 'f']
    done (.infinite (mark = some '-'))) <|> do
    literal ['n', 'a', 'n']
    done .undefined

def float : Reading Binary64 := naming .float (decimalFloat <|> specialFloat)

end ShaderEmbed.Toml
