import ShaderEmbed.Decimal.Binary64

/-!
# The shortest decimal of a number

A number of the binary64 format is shown by the fewest digits that read back as that number, and by
the nearest such decimal. Around each number lies the interval of what is rounded to it, its ends
included if the mantissa is even. The decimal is looked for on the grids of the powers of ten, the
coarsest first; the first grid with a point in the interval has one beside the number.
-/

namespace ShaderEmbed.Binary64

/-- The interval of what is rounded to a number, in units of a power of two that is a quarter of its
last place. -/
structure Vicinity where
  low : Nat
  middle : Nat
  high : Nat
  closed : Bool
  unit : Int

/-- The vicinity of a positive number. Below a power of two the next number is only half as far
away. -/
def vicinity (mantissa : Nat) (exponent : Int) : Vicinity where
  low := if mantissa = mantissaBound / 2 ∧ minExponent < exponent then 4 * mantissa - 1 else
    4 * mantissa - 2
  middle := 4 * mantissa
  high := 4 * mantissa + 2
  closed := mantissa % 2 = 0
  unit := exponent - 2

namespace Vicinity

/-- A point of a decimal grid and a number of units, brought to one denominator. -/
def compared (self : Vicinity) (point : Nat) (power : Int) (units : Nat) : Nat × Nat :=
  (point * Nat.pow 10 power.toNat * Nat.pow 2 (-self.unit).toNat,
    units * Nat.pow 2 self.unit.toNat * Nat.pow 10 (-power).toNat)

def contains (self : Vicinity) (point : Nat) (power : Int) : Bool :=
  let (p, low) := self.compared point power self.low
  let (q, high) := self.compared point power self.high
  if self.closed then low ≤ p && q ≤ high else low < p && q < high

/-- The last point of a decimal grid that is not above the middle. -/
def pointBelow (self : Vicinity) (power : Int) : Nat :=
  let (unit, middle) := self.compared 1 power self.middle
  middle / unit

/-- Whether the middle is nearer to a point than to the next one. -/
def nearerToFirst (self : Vicinity) (point : Nat) (power : Int) : Bool :=
  let (twice, middle) := self.compared (2 * point + 1) power (2 * self.middle)
  middle < twice

/-- The point of a decimal grid in the interval that is nearest to the middle, if there is one. -/
def onGrid (self : Vicinity) (power : Int) : Option Nat :=
  let below := self.pointBelow power
  match self.contains below power, self.contains (below + 1) power with
  | true, true => some (if self.nearerToFirst below power then below else below + 1)
  | true, false => some below
  | false, true => some (below + 1)
  | false, false => none

/-- The first point found on the grids of a number of powers of ten, from one power downward. -/
def search (self : Vicinity) : Nat → Int → Nat × Int
  | 0, power => (self.pointBelow power, power)
  | more + 1, power =>
    match self.onGrid power with
    | some point => (point, power)
    | none => self.search more (power - 1)

end Vicinity

/-- The largest power of ten in the format, and how many there are from it down to the finest grid
that a number can need. -/
def topPower : Int := 308
def powerCount : Nat := 633

/-- Digits and a power of ten as a plain decimal with at least one digit on each side of the
point. -/
def positional (digits : List Char) (power : Int) : String :=
  let behind := (-power).toNat
  if behind = 0 then String.ofList (digits ++ List.replicate power.toNat '0') ++ ".0"
  else if behind < digits.length then
    String.ofList (digits.take (digits.length - behind)) ++ "." ++
      String.ofList (digits.drop (digits.length - behind))
  else "0." ++ String.ofList (List.replicate (behind - digits.length) '0' ++ digits)

def text : Binary64 → String
  | finite negative mantissa exponent =>
    let shown :=
      if mantissa = 0 then "0.0"
      else
        let (point, power) := (vicinity mantissa exponent).search powerCount topPower
        positional (Nat.toDigits 10 point) power
    if negative then "-" ++ shown else shown
  | infinite negative => if negative then "-inf" else "inf"
  | undefined => "NaN"

end ShaderEmbed.Binary64
