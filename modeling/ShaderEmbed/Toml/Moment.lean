import ShaderEmbed.Toml.Number

/-!
# Dates and times

A date, a time, or both, the latter perhaps with an offset. A configuration has no use for them, so
what is read is only whether they are well-formed.
-/

namespace ShaderEmbed.Toml

open Reading

def fixedDigits (count : Nat) : Reading Nat := fun cursor =>
  let taken := (cursor.rest.takeWhile isDigit).take count
  if taken.length = count then .ok (Text.digitsValue 10 taken, cursor.skip count) else refuse cursor

/-- Two digits whose number lies in a range. -/
def ranged (low high : Nat) : Reading Nat :=
  checked (fixedDigits 2) fun n => if low ≤ n && n ≤ high then .ok n else .error .outOfRange

def isLeapYear (year : Nat) : Bool := year % 4 = 0 && (year % 100 ≠ 0 || year % 400 = 0)

def daysOf (year month : Nat) : Nat :=
  if month = 2 then (if isLeapYear year then 29 else 28)
    else if month ∈ [4, 6, 9, 11] then 30 else 31

def date : Reading Unit := do
  let year ← fixedDigits 4
  char '-'
  -- four digits and a dash can be nothing but a date
  let month ← commit (ranged 1 12)
  commit (char '-')
  let _ ← commit (checked (ranged 1 31) fun day => if day ≤ daysOf year month then .ok day else
      .error .outOfRange)

def secondFraction : Reading Unit := do
  char '.'
  let _ ← many1 (satisfy isDigit)

def timeOfDay : Reading Unit := do
  let _ ← ranged 0 23
  char ':'
  commit do
    let _ ← ranged 0 59
    char ':'
    let _ ← ranged 0 60
    let _ ← optional secondFraction

def timeOffset : Reading Unit := naming .offset (zulu <|> numeric)
where
  zulu : Reading Unit := do
    let _ ← satisfy fun c => c = 'Z' || c = 'z'
  numeric : Reading Unit := do
    let _ ← sign
    commit do
      let _ ← ranged 0 23
      char ':'
      let _ ← ranged 0 59

def timeBehindDate : Reading Unit := do
  let _ ← satisfy fun c => c = 'T' || c = 't' || c = ' '
  timeOfDay
  let _ ← optional timeOffset

def moment : Reading Unit :=
  (naming .moment do
    date
    let _ ← optional timeBehindDate) <|> naming .time timeOfDay

end ShaderEmbed.Toml
