import ShaderEmbed.Decimal.Binary64

/-!
# Numbers to a number of places

A number of the binary64 format is written to a fixed number of places behind the point, or with one
digit in front of the point and a power of ten. The last digit is rounded, and of two that are
equally near the even one is taken. The general notation chooses between the two by the power of
ten.
-/

namespace ShaderEmbed.Binary64

/-- A number that is not negative as a fraction. -/
def fractionOf (mantissa : Nat) (exponent : Int) : Nat × Nat :=
  (mantissa * Nat.pow 2 exponent.toNat, Nat.pow 2 (-exponent).toNat)

/-- The nearest whole number to a fraction times a power of ten. -/
def roundedTimes (num den : Nat) (power : Int) : Nat :=
  roundQuotient (num * Nat.pow 10 power.toNat) (den * Nat.pow 10 (-power).toNat)

/-- Digits with a point in front of so many of them. The point is left out in front of none, unless
it is wanted. -/
def pointed (withPoint : Bool) (digits : List Char) (places : Nat) : List Char :=
  let padded := List.replicate (places + 1 - digits.length) '0' ++ digits
  let whole := padded.take (padded.length - places)
  if places = 0 then (if withPoint then whole ++ ['.'] else whole)
  else whole ++ '.' :: padded.drop (padded.length - places)

/-- A fraction to so many places. -/
def fixed (withPoint : Bool) (places num den : Nat) : List Char :=
  pointed withPoint (Nat.toDigits 10 (roundedTimes num den places)) places

/-- How many places every number of the format fits in. -/
def depth : Nat := 1100

/-- The digits of a fraction with so many places behind the first one, and the power of ten of the
first one. -/
def significant (places num den : Nat) : Nat × Int :=
  if num = 0 then (0, 0)
  else
    let power : Int := (Nat.toDigits 10 (num * Nat.pow 10 depth / den)).length - 1 - depth
    let digits := roundedTimes num den (places - power)
    -- rounding up may carry into one digit more
    if digits = Nat.pow 10 (places + 1) then (Nat.pow 10 places, power + 1) else (digits, power)

/-- A power of ten behind digits: its sign and at least two digits. -/
def powerText (power : Int) : List Char :=
  let digits := Nat.toDigits 10 power.natAbs
  'e' :: (if power < 0 then '-' else '+') :: List.replicate (2 - digits.length) '0' ++ digits

/-- A fraction with one digit in front of the point and so many places behind it. -/
def scientific (withPoint : Bool) (places num den : Nat) : List Char :=
  let (digits, power) := significant places num den
  pointed withPoint (Nat.toDigits 10 digits) places ++ powerText power

def withoutZeros (digits : List Char) : List Char :=
  if digits.contains '.' then
    match digits.reverse.dropWhile (· = '0') with
    | '.' :: rest => rest.reverse
    | rest => rest.reverse
  else digits

/-- A fraction with so many digits that count, in the notation that suits its power of ten. Zeros at
the end are left out unless they are wanted. -/
def general (withZeros : Bool) (count num den : Nat) : List Char :=
  let count := max count 1
  let (digits, power) := significant (count - 1) num den
  let trim (text : List Char) : List Char := if withZeros then text else withoutZeros text
  if power < -4 || (count : Int) ≤ power then
    trim (pointed withZeros (Nat.toDigits 10 digits) (count - 1)) ++ powerText power
  else trim (fixed withZeros (count - 1 - power).toNat num den)

/-! ## Reading -/

/-- The whole number that digits at the front of a text are the places of, how many of them stand
behind a point, and what follows. Without digits there is none. -/
def placesAtFront (isDigit : Char → Bool) (text : List Char) : List Char × Nat × List Char :=
  let whole := text.takeWhile isDigit
  match text.dropWhile isDigit with
  | '.' :: rest =>
    let behind := rest.takeWhile isDigit
    if whole.isEmpty && behind.isEmpty then ([], 0, text)
    else (whole ++ behind, behind.length, rest.dropWhile isDigit)
  | rest => (whole, 0, rest)

/-- The power behind one of two letters at the front of a text, and what follows. Without one it is
zero. -/
def powerAtFront (lower upper : Char) (text : List Char) : Int × List Char :=
  match text with
  | c :: rest =>
    let (sign, after) : Int × List Char := match rest with
      | '-' :: after => (-1, after)
      | '+' :: after => (1, after)
      | _ => (1, rest)
    let digits := after.takeWhile Char.isDigit
    if (c = lower || c = upper) && !digits.isEmpty then
      (sign * ((String.ofList digits).toNat?.getD 0 : Nat), after.dropWhile Char.isDigit)
    else (0, text)
  | [] => (0, [])

end ShaderEmbed.Binary64
