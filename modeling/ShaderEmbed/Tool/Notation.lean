import ShaderEmbed.Text.Digits
import ShaderEmbed.Text.Pattern

/-!
# Written patterns

The patterns that are looked for in files are written in the basic or in the extended notation; the
difference is which signs need a backslash. A pattern is read sign by sign, with a stack of the
groups that are open.
-/

namespace ShaderEmbed

open Text

/-- A sign of a written pattern. -/
inductive PatternSign where
  | one (set : CharSet)
  | start
  | stop
  | opening
  | closing
  | bar
  | repeated (least : Nat) (most : Option Nat)

namespace PatternSign

/-- The numbers between braces, and the text behind them. -/
def interval? (extended : Bool) (rest : List Char) : Option (PatternSign × List Char) :=
  let low := rest.takeWhile Char.isDigit
  let finish (sign : PatternSign) : List Char → Option (PatternSign × List Char)
    | '\x7d' :: after => if extended then some (sign, after) else none
    | '\\' :: '\x7d' :: after => if extended then none else some (sign, after)
    | _ => none
  match rest.dropWhile Char.isDigit with
  | ',' :: more =>
    let high := more.takeWhile Char.isDigit
    let most := if high.isEmpty then none else some (digitsValue 10 high)
    finish (.repeated (digitsValue 10 low) most) (more.dropWhile Char.isDigit)
  | more => if low.isEmpty then none else
    finish (.repeated (digitsValue 10 low) (some (digitsValue 10 low))) more

/-- The sign that an operator character and the text behind it are, and the text that follows. -/
def operator? (extended : Bool) (c : Char) (rest : List Char) : Option (PatternSign × List Char) :=
  match c with
  | '(' => some (.opening, rest)
  | ')' => some (.closing, rest)
  | '|' => some (.bar, rest)
  | '+' => some (.repeated 1 none, rest)
  | '?' => some (.repeated 0 (some 1), rest)
  | '\x7b' => interval? extended rest
  | _ => none

def wordSet : CharSet := ⟨('_', '_') :: CharSet.classRanges "alnum", false, false⟩

/-- What a character behind a backslash stands for if it is no operator. -/
def escaped (c : Char) : CharSet :=
  match c with
  | 'w' => wordSet
  | 'W' => { wordSet with negated := true }
  | 's' => ⟨CharSet.classRanges "space", false, false⟩
  | 'S' => ⟨CharSet.classRanges "space", true, false⟩
  | _ => .single c

/-- Whether the end of a basic pattern, or of a part of it, is near. -/
def atEnd : List Char → Bool
  | [] => true
  | '\\' :: ')' :: _ => true
  | '\\' :: '|' :: _ => true
  | _ => false

/-- Whether a text behind an opening bracket looks like a class that stands in no brackets. -/
def isBareClass (inner : List Char) : Bool :=
  inner.head? = some ':' && [']', ':'].isPrefixOf inner.reverse && 3 ≤ inner.length

/-- What stands before a place in a pattern. -/
inductive Before where
  | opening
  | start
  | part
deriving DecidableEq

/-- What a sign is to what follows. -/
def asBefore : PatternSign → Before
  | .start => .start
  | .opening => .opening
  | .bar => .opening
  | _ => .part

/-- The signs of a pattern, or what is wrong with it. In the basic notation a star stands for itself
where there is nothing to repeat, and the sign for the start does so anywhere else. The number
bounds the signs. -/
def read (extended : Bool) : Nat → Before → List Char → Except String (List PatternSign)
  | 0, _, _ => .ok []
  | _, _, [] => .ok []
  | _, _, ['\\'] => .error "Trailing backslash"
  | n + 1, _, '\\' :: c :: rest =>
    match if extended then none else operator? false c rest with
    | some (sign, after) => more n sign after
    | none => more n (.one (escaped c)) rest
  | _, _, ['['] => .error "Invalid regular expression"
  | n + 1, _, '[' :: rest =>
    match CharSet.ofBrackets (· = '^') rest with
    | some (set, after) =>
      if isBareClass (rest.take (rest.length - after.length)) then
        .error "character class syntax is [[:space:]], not [:space:]"
      else more n (.one set) after
    | none => .error "Unmatched [, [^, [:, [., or [="
  | n + 1, _, '.' :: rest => more n (.one .all) rest
  | n + 1, before, '*' :: rest =>
    more n (if before = .part || extended then .repeated 0 none else .one (.single '*')) rest
  | n + 1, before, '^' :: rest =>
    more n (if extended || before = .opening then .start else .one (.single '^')) rest
  | n + 1, _, '$' :: rest =>
    more n (if extended || atEnd rest then .stop else .one (.single '$')) rest
  | n + 1, _, c :: rest =>
    match if extended then operator? true c rest else none with
    | some (sign, after) => more n sign after
    | none => more n (.one (.single c)) rest
where
  more (n : Nat) (sign : PatternSign) (rest : List Char) : Except String (List PatternSign) :=
    (read extended n sign.asBefore rest).map (sign :: ·)

end PatternSign

/-- What has been read of a group: the alternatives before a bar, and those parts behind it that are
complete. A repetition applies to the last part. -/
structure PatternGroup where
  earlier : Pattern
  parts : Pattern
  last : Pattern

namespace PatternGroup

def start : PatternGroup := ⟨.never, .nothing, .nothing⟩

def pattern (group : PatternGroup) : Pattern :=
  .choice group.earlier (.chain group.parts group.last)

def add (group : PatternGroup) (part : Pattern) : PatternGroup :=
  { group with parts := .chain group.parts group.last, last := part }

/-- One more place in the line; to ask for a place twice is to ask for it once. -/
def addPlace (group : PatternGroup) (place : Pattern) : PatternGroup :=
  if group.last = place then group else group.add place

def repeated (part : Pattern) (least : Nat) : Option Nat → Pattern
  | none => .chain (part.times least) (.many part)
  | some most => .chain (part.times least) (part.atMost (most - least))

/-- Reads a sign, given the groups that are open around this one. -/
def step (extended anyCase : Bool) :
    PatternGroup × List PatternGroup → PatternSign →
    Except String (PatternGroup × List PatternGroup)
  | (group, outer), .one set => .ok (group.add (.one { set with anyCase := anyCase }), outer)
  | (group, outer), .start => .ok (group.addPlace .atStart, outer)
  | (group, outer), .stop => .ok (group.addPlace .atStop, outer)
  | (group, outer), .repeated least most =>
    .ok ({ group with last := repeated group.last least most }, outer)
  | (group, outer), .bar => .ok (⟨group.pattern, .nothing, .nothing⟩, outer)
  | (group, outer), .opening => .ok (start, group :: outer)
  | (group, []), .closing =>
    if extended then .ok (group.add (.one (.single ')')), []) else .error "Unmatched ) or \\)"
  | (group, around :: outer), .closing => .ok (around.add group.pattern, outer)

end PatternGroup

def PatternSign.ofText (extended : Bool) (text : List Char) : Except String (List PatternSign) :=
  PatternSign.read extended (text.length + 1) .opening text

def PatternSign.repetition : Nat → Option Nat → String
  | 0, none => "*"
  | 1, none => "+"
  | 0, some 1 => "?"
  | _, _ => "\x7b...\x7d"

/-- The repetitions with nothing in front of them that they could repeat, given what stands before
the signs. -/
def PatternSign.idle (before : Before) : List PatternSign → List String
  | [] => []
  | sign :: rest =>
    let others := idle sign.asBefore rest
    match sign with
    | .repeated least most => if before = .part then others else repetition least most :: others
    | _ => others

def Text.Pattern.ofSigns (extended anyCase : Bool) (signs : List PatternSign) :
    Except String Pattern := do
  match ← signs.foldlM (PatternGroup.step extended anyCase) (.start, []) with
  | (group, []) => return group.pattern
  | _ => throw "Unmatched ( or \\("

end ShaderEmbed
