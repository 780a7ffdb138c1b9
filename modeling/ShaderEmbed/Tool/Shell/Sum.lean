import ShaderEmbed.Text.Digits

/-!
# Sums

What stands in doubled brackets in a script is a sum: whole numbers of 64 bits and names of values,
joined by the usual operators. A sum may give names values. `Sum.ofText` reads one, and
`Sum.evaluate` is its value.
-/

namespace ShaderEmbed.Shell

/-- A sum. -/
inductive Sum where
  | number (n : Int)
  | bound (name : String)
  | sign (operator : String) (part : Sum)
  | join (operator : String) (left right : Sum)
  | choose (condition yes no : Sum)
  | assign (name operator : String) (part : Sum)

/-- A token of a sum. -/
inductive SumToken where
  | number (n : Int)
  | name (text : String)
  | operator (text : String)
  | other

/-- The number in the range of 64 bits with a sign that a number stands for. -/
def wrapped (n : Int) : Int := n.bmod 18446744073709551616

def sumNumber? (text : List Char) : Option Int :=
  match Text.numberAtFront text with
  | (some n, []) => some n
  | _ => none

/-- The operators, longer ones before their beginnings. -/
def sumOperators : List String :=
  ["<<=", ">>=", "<<", ">>", "<=", ">=", "==", "!=", "&&", "||", "+=", "-=", "*=", "/=",
    "%=", "&=", "|=", "^=", "+", "-", "*", "/", "%", "<", ">", "=", "!", "~", "&",
      "|", "^", "?", ":", "(", ")"]

/-- The tokens of a sum. The number bounds them. -/
def sumTokens : Nat → List Char → List SumToken
  | 0, _ => []
  | _, [] => []
  | n + 1, c :: rest =>
    if c = ' ' || c = '\t' || c = '\n' then sumTokens n rest
    else if c.isDigit then
      let (value, after) := Text.numberAtFront (c :: rest)
      .number (wrapped (value.getD 0)) :: sumTokens n after
    else if c.isAlpha || c = '_' then
      let isInner (c : Char) : Bool := c.isAlphanum || c = '_'
      .name (String.ofList ((c :: rest).takeWhile isInner)) ::
        sumTokens n ((c :: rest).dropWhile isInner)
    else
      match sumOperators.find? fun operator => operator.toList.isPrefixOf (c :: rest) with
      | some operator => .operator operator :: sumTokens n ((c :: rest).drop operator.length)
      | none => [.other]

/-- The operators that join two parts, those that bind least first. -/
def joiningOperators : List (List String) :=
  [["||"], ["&&"], ["|"], ["^"], ["&"], ["==", "!="], ["<=", ">=", "<", ">"], ["<<", ">>"],
    ["+", "-"], ["*", "/", "%"]]

/-- The operators that give a name a value, and what they do with the value it had. -/
def assigningOperators : List (String × String) :=
  [("=", ""), ("+=", "+"), ("-=", "-"), ("*=", "*"), ("/=", "/"), ("%=", "%"),
    ("<<=", "<<"), (">>=", ">>"), ("&=", "&"), ("|=", "|"), ("^=", "^")]

/-- What is read at some point of a sum. -/
inductive SumPart where
  | whole
  | level (operators : List (List String))
  | more (operators : List String) (tighter : List (List String)) (left : Sum)
  | single

/-- Reads a part of a sum, or tells what is missing. The number bounds the depth of the reading. -/
def readSum : Nat → SumPart → List SumToken → Except String (Sum × List SumToken)
  | 0, _, _ => .error "expecting primary"
  | n + 1, .whole, ts =>
    match ts with
    | .name name :: .operator operator :: rest =>
      match assigningOperators.lookup operator with
      | some change => do
        let (part, after) ← readSum n .whole rest
        return (.assign name change part, after)
      | none => choice n ts
    | _ => choice n ts
  | n + 1, .level [], ts => readSum n .single ts
  | n + 1, .level (operators :: tighter), ts => do
    let (left, after) ← readSum n (.level tighter) ts
    readSum n (.more operators tighter left) after
  | n + 1, .more operators tighter left, ts =>
    match ts with
    | .operator operator :: rest =>
      if operators.contains operator then do
        let (right, after) ← readSum n (.level tighter) rest
        readSum n (.more operators tighter (.join operator left right)) after
      else .ok (left, ts)
    | _ => .ok (left, ts)
  | n + 1, .single, ts =>
    match ts with
    | .number value :: rest => .ok (.number value, rest)
    | .name name :: rest => .ok (.bound name, rest)
    | .operator "(" :: rest => do
      let (inner, after) ← readSum n .whole rest
      match after with
      | .operator ")" :: after => return (inner, after)
      | _ => throw "expecting ')'"
    | .operator operator :: rest =>
      if ["!", "~", "-", "+"].contains operator then do
        let (part, after) ← readSum n .single rest
        return (.sign operator part, after)
      else .error "expecting primary"
    | _ => .error "expecting primary"
where
  choice (n : Nat) (ts : List SumToken) : Except String (Sum × List SumToken) := do
    let (condition, after) ← readSum n (.level joiningOperators) ts
    match after with
    | .operator "?" :: rest => do
      let (yes, after) ← readSum n .whole rest
      match after with
      | .operator ":" :: rest => do
        let (no, after) ← readSum n .whole rest
        return (.choose condition yes no, after)
      | _ => throw "expecting ':'"
    | _ => return (condition, after)

def Sum.ofText (text : List Char) : Except String Sum := do
  let ts := sumTokens (text.length + 1) text
  let (sum, after) ← readSum (14 * ts.length + 14) .whole ts
  if after.isEmpty then return sum else throw "expecting EOF"

/-- Values by name. -/
abbrev Bindings := List (String × String)

def truthNumber (b : Bool) : Int := if b then 1 else 0

def bitsOf (n : Int) : Nat := (n % 18446744073709551616).toNat

def joined (operator : String) (a b : Int) : Except String Int :=
  match operator with
  | "" => .ok b
  | "+" => .ok (wrapped (a + b))
  | "-" => .ok (wrapped (a - b))
  | "*" => .ok (wrapped (a * b))
  | "/" => if b = 0 then .error "division by zero" else .ok (wrapped (a.tdiv b))
  | "%" => if b = 0 then .error "division by zero" else .ok (wrapped (a.tmod b))
  | "<<" => .ok (wrapped (a * (Nat.pow 2 (bitsOf b % 64) : Nat)))
  | ">>" => .ok (a.fdiv (Nat.pow 2 (bitsOf b % 64) : Nat))
  | "<" => .ok (truthNumber (a < b))
  | ">" => .ok (truthNumber (b < a))
  | "<=" => .ok (truthNumber (a ≤ b))
  | ">=" => .ok (truthNumber (b ≤ a))
  | "==" => .ok (truthNumber (a = b))
  | "!=" => .ok (truthNumber (a ≠ b))
  | "&" => .ok (wrapped (Nat.land (bitsOf a) (bitsOf b)))
  | "|" => .ok (wrapped (Nat.lor (bitsOf a) (bitsOf b)))
  | "^" => .ok (wrapped (Nat.xor (bitsOf a) (bitsOf b)))
  | _ => .error "expecting primary"

/-- The number that the value of a name spells; a name without a value stands for zero. -/
def boundNumber (look : String → String) (name : String) : Except String Int :=
  let text := (look name).toList.filter fun c => c ≠ ' ' && c ≠ '\t' && c ≠ '\n'
  match text with
  | [] => .ok 0
  | '-' :: digits => (number digits).map fun n => wrapped (-n)
  | '+' :: digits => number digits
  | digits => number digits
where
  number (digits : List Char) : Except String Int :=
    match sumNumber? digits with
    | some n => .ok (wrapped n)
    | none => .error ("Illegal number: " ++ look name)

/-- The value of a sum where names have some values, and the values that it gives. What is given
later counts. -/
def Sum.evaluate (look : String → String) : Sum → Bindings → Except String (Int × Bindings)
  | .number n, given => .ok (n, given)
  | .bound name, given => do
    return (← boundNumber (fun name => (given.lookup name).getD (look name)) name, given)
  | .sign operator part, given => do
    let (n, given) ← evaluate look part given
    return (match operator with
      | "!" => truthNumber (n = 0)
      | "~" => wrapped (-n - 1)
      | "-" => wrapped (-n)
      | _ => n, given)
  | .join "&&" left right, given => do
    let (a, given) ← evaluate look left given
    if a = 0 then return (0, given)
    let (b, given) ← evaluate look right given
    return (truthNumber (b ≠ 0), given)
  | .join "||" left right, given => do
    let (a, given) ← evaluate look left given
    if a ≠ 0 then return (1, given)
    let (b, given) ← evaluate look right given
    return (truthNumber (b ≠ 0), given)
  | .join operator left right, given => do
    let (a, given) ← evaluate look left given
    let (b, given) ← evaluate look right given
    return (← joined operator a b, given)
  | .choose condition yes no, given => do
    let (n, given) ← evaluate look condition given
    if n ≠ 0 then evaluate look yes given else evaluate look no given
  | .assign name operator part, given => do
    let (b, given) ← evaluate look part given
    let a ← if operator = "" then pure 0 else
        boundNumber (fun name => (given.lookup name).getD (look name)) name
    let n ← joined operator a b
    return (n, (name, toString n) :: given)

end ShaderEmbed.Shell
