/-!
# Binary floating point

The numbers of the binary64 format: a mantissa below `2 ^ 53` times a power of two not below
`2 ^ -1074`, the infinities, and what is no number. A decimal is read as the nearest of them, and
halfway between two as the one whose mantissa is even.
-/

namespace ShaderEmbed

/-- A number of the binary64 format. -/
inductive Binary64 where
  | finite (negative : Bool) (mantissa : Nat) (exponent : Int)
  | infinite (negative : Bool)
  | undefined
deriving DecidableEq, Repr

namespace Binary64

/-- The smallest and the largest exponent. -/
def minExponent : Int := -1074
def maxExponent : Int := 971

/-- Mantissas lie below this bound. -/
def mantissaBound : Nat := Nat.pow 2 53

/-- The nearest number to a quotient, the even one of two that are equally near. -/
def roundQuotient (num den : Nat) : Nat :=
  let quotient := num / den
  let twice := 2 * (num % den)
  if twice < den then quotient else if den < twice then quotient + 1 else quotient + quotient % 2

/-- The numerator and the denominator of a fraction divided by a power of two. -/
def scaled (num den : Nat) (exponent : Int) : Nat × Nat :=
  (num * Nat.pow 2 (-exponent).toNat, den * Nat.pow 2 exponent.toNat)

/-- The exponent with which a positive fraction is written. -/
def exponentOf (num den : Nat) : Int :=
  let least := max minExponent ((num.log2 : Int) - den.log2 - 53)
  let (n, d) := scaled num den least
  -- the logarithms tell the right exponent or the one below it
  if n / d < mantissaBound then least else least + 1

/-- The number nearest to a positive fraction. -/
def ofFraction (negative : Bool) (num den : Nat) : Binary64 :=
  let exponent := exponentOf num den
  let (n, d) := scaled num den exponent
  let mantissa := roundQuotient n d
  let (mantissa, exponent) :=
    -- rounding up may carry into one digit more
    if mantissa = mantissaBound then (mantissaBound / 2, exponent + 1) else (mantissa, exponent)
  if maxExponent < exponent then .infinite negative else .finite negative mantissa exponent

/-- How many digits a positive number has in front of its point, when it is `digits` times a power
of ten. -/
def magnitude (digits : Nat) (power : Int) : Int := (Nat.toDigits 10 digits).length + power

/-- The number nearest to `digits` times a power of ten. Powers beyond the format are not
computed. -/
def ofDecimal (negative : Bool) (digits : Nat) (power : Int) : Binary64 :=
  if digits = 0 then .finite negative 0 minExponent
  else if 310 < magnitude digits power then .infinite negative
  else if magnitude digits power < -330 then .finite negative 0 minExponent
  else ofFraction negative (digits * Nat.pow 10 power.toNat) (Nat.pow 10 (-power).toNat)

end Binary64

end ShaderEmbed
