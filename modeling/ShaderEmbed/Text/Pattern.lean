/-!
# Patterns

A pattern describes texts: one character of a set, one pattern after another, one of two, or any
number of the same. A pattern can also ask for the start or the end of a line. What is left to match
after a mark has been read is a pattern again, `Pattern.after`, and a text fits if what is left in
the end is satisfied with nothing.
-/

namespace ShaderEmbed.Text

/-- A set of characters, given by ranges. With `anyCase` the other case of a letter is as good as
the letter. -/
structure CharSet where
  ranges : List (Char × Char)
  negated : Bool
  anyCase : Bool
deriving DecidableEq

namespace CharSet

def all : CharSet := ⟨[], true, false⟩

def single (c : Char) : CharSet := ⟨[(c, c)], false, false⟩

def inRanges (set : CharSet) (c : Char) : Bool :=
  set.ranges.any fun range => range.1 ≤ c && c ≤ range.2

def contains (set : CharSet) (c : Char) : Bool :=
  (set.inRanges c || set.anyCase && (set.inRanges c.toLower || set.inRanges c.toUpper))
    != set.negated

def classRanges (name : String) : List (Char × Char) :=
  let upper := ('A', 'Z')
  let lower := ('a', 'z')
  let digit := ('0', '9')
  match name with
  | "alpha" => [upper, lower]
  | "digit" => [digit]
  | "alnum" => [upper, lower, digit]
  | "upper" => [upper]
  | "lower" => [lower]
  | "space" => [(' ', ' '), ('\t', '\r')]
  | "blank" => [(' ', ' '), ('\t', '\t')]
  | "punct" => [('!', '/'), (':', '@'), ('[', '\x60'), ('\x7b', '~')]
  | "print" => [(' ', '~')]
  | "graph" => [('!', '~')]
  | "cntrl" => [('\x00', '\x1f'), ('\x7f', '\x7f')]
  | "xdigit" => [digit, ('A', 'F'), ('a', 'f')]
  | _ => []

/-- The ranges up to the bracket that closes them, and the text behind it. A closing bracket that
stands first is a character like others. -/
def rangesTo (first : Bool) : Nat → List Char → Option (List (Char × Char) × List Char)
  | 0, _ => none
  | _, [] => none
  | n + 1, ']' :: rest => if first then more n (']', ']') rest else some ([], rest)
  | n + 1, '[' :: ':' :: rest =>
    let name := String.ofList (rest.takeWhile (· ≠ ':'))
    match rest.dropWhile (· ≠ ':') with
    | ':' :: ']' :: after =>
      (rangesTo false n after).map fun (ranges, after) => (classRanges name ++ ranges, after)
    | _ => none
  | n + 1, low :: '-' :: high :: rest =>
    if high = ']' then more n (low, low) ('-' :: high :: rest) else more n (low, high) rest
  | n + 1, c :: rest => more n (c, c) rest
where
  more (n : Nat) (range : Char × Char) (rest : List Char) :
    Option (List (Char × Char) × List Char) :=
    (rangesTo false n rest).map fun (ranges, after) => (range :: ranges, after)

/-- The set that a text behind an opening bracket spells, and the text behind the closing one. -/
def ofBrackets (negation : Char → Bool) (rest : List Char) : Option (CharSet × List Char) :=
  match rest with
  | [] => none
  | c :: inner =>
    let text := if negation c then inner else rest
    (rangesTo true (text.length + 1) text).map fun (ranges, after) =>
      (⟨ranges, negation c, false⟩, after)

end CharSet

/-- What a line is made of: its characters, and its ends. -/
inductive Mark where
  | start
  | char (c : Char)
  | stop
deriving DecidableEq

/-- A pattern. -/
inductive Pattern where
  | never
  | nothing
  | one (set : CharSet)
  | atStart
  | atStop
  | andThen (first second : Pattern)
  | either (first second : Pattern)
  | many (part : Pattern)
deriving DecidableEq

namespace Pattern

def anything : Pattern := many (one .all)

/-- One pattern after another, where one that is never satisfied stops both. -/
def chain : Pattern → Pattern → Pattern
  | never, _ => never
  | nothing, second => second
  | first, second => andThen first second

/-- One of two patterns, where one that is never satisfied is left out. -/
def choice (first second : Pattern) : Pattern :=
  if first = never || first = second then second else if second = never then first else
    either first second

/-- Whether the pattern is satisfied with nothing. -/
def isSatisfied : Pattern → Bool
  | never => false
  | nothing => true
  | one _ => false
  | atStart => false
  | atStop => false
  | andThen first second => first.isSatisfied && second.isSatisfied
  | either first second => first.isSatisfied || second.isSatisfied
  | many _ => true

@[simp] theorem isSatisfied_chain (first second : Pattern) :
    (chain first second).isSatisfied = (first.isSatisfied && second.isSatisfied) := by
  cases first <;> simp [chain, isSatisfied]

@[simp] theorem isSatisfied_choice (first second : Pattern) :
    (choice first second).isSatisfied = (first.isSatisfied || second.isSatisfied) := by
  unfold choice
  split
  · rename_i h
    simp only [Bool.or_eq_true, decide_eq_true_eq] at h
    rcases h with h | h
    · simp [h, isSatisfied]
    · simp [h]
  · split
    · rename_i h
      simp [h, isSatisfied]
    · rfl

/-- What is left to match after a mark. -/
def after (mark : Mark) : Pattern → Pattern
  | never => never
  | nothing => never
  | one set =>
    match mark with
    | .char c => if set.contains c then nothing else never
    | _ => never
  | atStart => if mark = .start then nothing else never
  | atStop => if mark = .stop then nothing else never
  | andThen first second =>
    -- where the first part needs no more, the mark may also start the second one
    if first.isSatisfied then choice (chain (first.after mark) second) (second.after mark)
    else chain (first.after mark) second
  | either first second => choice (first.after mark) (second.after mark)
  | many part => chain (part.after mark) (many part)

/-- Whether a text as a whole fits. -/
def fits (pattern : Pattern) (text : List Char) : Bool :=
  (text.foldl (fun left c => left.after (.char c)) pattern).isSatisfied

def marksOf (line : List Char) : List Mark := .start :: line.map .char ++ [.stop]

/-- Whether a line as a whole fits. The pattern may ask for its ends, but need not. -/
def fitsLine (pattern : Pattern) (line : List Char) : Bool :=
  let whole := chain (choice nothing atStart) (chain pattern (choice nothing atStop))
  ((marksOf line).foldl (fun left mark => left.after mark) whole).isSatisfied

/-- Whether some of the marks fit, given what is left of the attempts that were started. -/
def foundIn (pattern : Pattern) : Pattern → List Mark → Bool
  | left, [] => left.isSatisfied
  | left, mark :: rest =>
    left.isSatisfied || foundIn pattern (choice (left.after mark) (pattern.after mark)) rest

/-- Whether some part of a line fits. -/
def occursIn (pattern : Pattern) (line : List Char) : Bool :=
  pattern.isSatisfied || foundIn pattern never (marksOf line)

/-- The length of the longest text at the front of another one that fits, where the other one ends a
line. -/
def longest? (pattern : Pattern) : List Char → Option Nat
  | [] => if pattern.isSatisfied || (pattern.after .stop).isSatisfied then some 0 else none
  | c :: rest =>
    match (pattern.after (.char c)).longest? rest with
    | some n => some (n + 1)
    | none => if pattern.isSatisfied then some 0 else none

/-- The parts of a line that fit, from left to right and as long as possible, without empty ones.
What comes next is the start of the line if `atLeft` says so, and a number of characters is passed
first. -/
def partsOf (pattern : Pattern) : Bool → Nat → List Char → List (List Char)
  | _, _, [] => []
  | _, n + 1, _ :: rest => partsOf pattern false n rest
  | atLeft, 0, c :: rest =>
    match (if atLeft then choice pattern (pattern.after .start) else
      pattern).longest? (c :: rest) with
    | some (n + 1) => (c :: rest).take (n + 1) :: partsOf pattern false n rest
    | _ => partsOf pattern false 0 rest

def times (pattern : Pattern) : Nat → Pattern
  | 0 => nothing
  | n + 1 => chain pattern (times pattern n)

def atMost (pattern : Pattern) : Nat → Pattern
  | 0 => nothing
  | n + 1 => choice nothing (chain pattern (atMost pattern n))

def literal (text : List Char) : Pattern :=
  text.foldr (fun c rest => chain (one (.single c)) rest) nothing

end Pattern

end ShaderEmbed.Text
