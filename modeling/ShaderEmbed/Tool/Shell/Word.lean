/-!
# Words of scripts

A word is a sequence of pieces: text, the value of a parameter, the output of another script, or the
value of a sum. What is quoted is not split at blanks. What stands in brackets inside a word is kept
as text and is read when the word is expanded.
-/

namespace ShaderEmbed.Shell

/-- A piece of a word. A parameter comes with what is done to its value: an operator and the text of
its operand. -/
inductive Piece where
  | text (quoted : Bool) (content : List Char)
  | parameter (quoted : Bool) (name : String) (change : Option (String × List Char))
  | output (quoted : Bool) (line : Nat) (script : List Char)
  | sum (quoted : Bool) (expression : List Char)
  | broken
deriving DecidableEq

/-- A word. -/
abbrev Word := List Piece

def isMeta (c : Char) : Bool := " \t\n;&|<>()".toList.contains c

def isNameStart (c : Char) : Bool := c.isAlpha || c = '_'

def isNameChar (c : Char) : Bool := c.isAlphanum || c = '_'

def isName (text : List Char) : Bool :=
  match text with
  | c :: rest => isNameStart c && rest.all isNameChar
  | [] => false

/-- Parameters whose name is one sign. -/
def isSpecialName (c : Char) : Bool := "#@*?$!-".toList.contains c || c.isDigit

/-- Why a text cannot be cut into words. -/
inductive WordFault where
  | openQuote
  | openRound
  | openSum
  | openBrace
  | openBackquote

/-! ## Brackets -/

/-- What has been opened and has to be closed. A choice between patterns is open up to the word that
ends it: the brackets behind its patterns close nothing. -/
inductive Bracket where
  | round
  | choice
  | curly
  | double
  | single
deriving DecidableEq

/-- Why a text cannot be cut into words that ends before a bracket is closed. -/
def Bracket.fault : Bracket → WordFault
  | round => .openRound
  | choice => .openRound
  | curly => .openBrace
  | double => .openQuote
  | single => .openQuote

/-- Whether a single quote quotes, given what is open and whether all of it is quoted. -/
def singleQuotes (quoted : Bool) (brackets : List Bracket) : Bool :=
  match brackets with
  | .round :: _ => true
  | .choice :: _ => true
  | .double :: _ => false
  | .curly :: outer => singleQuotes quoted outer
  | _ => !quoted

def startsWord (word text : List Char) : Bool :=
  word.isPrefixOf text && ((text.drop word.length).head?.map fun c => !isNameChar c).getD true

/-- Text up to the bracket that closes the last of those that are open, and what follows it, given
whether a word may start here. Where the text ends before, the bracket counts that was opened
last. -/
def enclosed (quoted : Bool) : Bool → List Bracket → List Char →
    Except Bracket (List Char × List Char)
  | _, [], rest => .ok ([], rest)
  | _, bracket :: _, [] => .error bracket
  | _, .single :: outer, c :: rest =>
    keep c (enclosed quoted false (if c = '\'' then outer else .single :: outer) rest)
  | _, brackets, '\\' :: c :: rest => keep '\\' (keep c (enclosed quoted false brackets rest))
  | _, brackets, '$' :: '(' :: rest =>
    keep '$' (keep '(' (enclosed quoted true (.round :: brackets) rest))
  | _, brackets, '$' :: '\x7b' :: rest =>
    keep '$' (keep '\x7b' (enclosed quoted false (.curly :: brackets) rest))
  -- within double quotes only what was handled above opens anything
  | _, .double :: outer, c :: rest =>
    keep c (enclosed quoted false (if c = '"' then outer else .double :: outer) rest)
  | fresh, bracket :: outer, c :: rest =>
    let opened (inner : Bracket) :=
      keep c (enclosed quoted (inner = .round) (inner :: bracket :: outer) rest)
    let isScript := bracket = .round || bracket = .choice
    if closes bracket c then
      if outer.isEmpty then .ok ([], rest) else keep c (enclosed quoted false outer rest)
    else if c = '"' then opened .double
    else if c = '\'' && singleQuotes quoted (bracket :: outer) then opened .single
    -- brackets of a script nest in it; those of a value do not count
    else if c = '(' && isScript then opened .round
    else if fresh && isScript && startsWord ['c', 'a', 's', 'e'] (c :: rest) then opened .choice
    else if fresh && bracket = .choice && startsWord ['e', 's', 'a', 'c'] (c :: rest) then
      keep c (enclosed quoted false outer rest)
    else keep c (enclosed quoted (isMeta c) (bracket :: outer) rest)
where
  keep (c : Char) (more : Except Bracket (List Char × List Char)) :
    Except Bracket (List Char × List Char) :=
    more.map fun (inner, after) => (c :: inner, after)
  closes : Bracket → Char → Bool
    | .round, ')' => true
    | .curly, '\x7d' => true
    | _, _ => false

/-- Text up to a backquote, without the backslashes in front of what they quote there, and what
follows. -/
def backquoted (quoted : Bool) : List Char → Option (List Char × List Char)
  | [] => none
  | '\x60' :: rest => some ([], rest)
  | '\\' :: c :: rest =>
    (backquoted quoted rest).map fun (inner, after) =>
      if c = '$' || c = '\x60' || c = '\\' || quoted && c = '"' then (c :: inner, after)
      else ('\\' :: c :: inner, after)
  | c :: rest => (backquoted quoted rest).map fun (inner, after) => (c :: inner, after)

/-! ## Parameters -/

/-- The operators on the values of parameters, longer ones before their beginnings. -/
def changeOperators : List String :=
  [":-", ":=", ":+", ":?", "-", "=", "+", "?", "%%", "%", "##", "#"]

/-- The parameter that a text between braces names. -/
def braced (quoted : Bool) (inner : List Char) : Piece :=
  let named (name rest : List Char) : Piece :=
    if rest.isEmpty then .parameter quoted (String.ofList name) none
    else
      match changeOperators.find? fun sign => sign.toList.isPrefixOf rest with
      | some sign => .parameter quoted (String.ofList name) (some (sign, rest.drop sign.length))
      | none => .broken
  let plain (text : List Char) : Piece :=
    match text with
    | [] => .broken
    | c :: rest =>
      if isNameStart c then named (text.takeWhile isNameChar) (text.dropWhile isNameChar)
      else if c.isDigit then named (text.takeWhile Char.isDigit) (text.dropWhile Char.isDigit)
      else if isSpecialName c then named [c] rest
      else .broken
  match inner with
  | '#' :: c :: rest =>
    match plain (c :: rest) with
    | .parameter quoted name none => .parameter quoted name (some ("length", []))
    | _ => plain inner
  | _ => plain inner

/-- What stands behind a dollar sign: a piece, and the text after it. -/
def dollar (quoted : Bool) (line : Nat) (rest : List Char) : Except WordFault (Piece × List Char) :=
  match rest with
  | '(' :: inner =>
    match enclosed false true [.round] inner with
    | .error bracket => .error (if inner.head? = some '(' then .openSum else bracket.fault)
    | .ok (text, after) =>
      match text, text.reverse with
      | '(' :: body, ')' :: _ => .ok (.sum quoted body.dropLast, after)
      | _, _ => .ok (.output quoted line text, after)
  | '\x7b' :: inner =>
    match enclosed quoted false [.curly] inner with
    | .error bracket => .error (if quoted then .openQuote else bracket.fault)
    | .ok (text, after) => .ok (braced quoted text, after)
  | c :: after =>
    if isSpecialName c then .ok (.parameter quoted (String.ofList [c]) none, after)
    else if isNameStart c then
      .ok (.parameter quoted (String.ofList (rest.takeWhile isNameChar)) none,
        rest.dropWhile isNameChar)
    else .ok (.text quoted ['$'], rest)
  | [] => .ok (.text quoted ['$'], [])

/-! ## Words -/

/-- What is read as pieces: a word of a script, a text as a whole, or lines in which quotes stand
for themselves. -/
inductive Extent where
  | word
  | whole
  | lines
deriving DecidableEq

/-- The pieces of a word that starts on a line, and the text after it. The number bounds the
pieces. -/
def pieces (extent : Extent) : Nat → Bool → Nat → List Char → Except WordFault (Word × List Char)
  | 0, _, _, _ => .error .openQuote
  | _ + 1, quoted, _, [] => if quoted && extent = .word then .error .openQuote else .ok ([], [])
  | n + 1, quoted, line, '\\' :: '\n' :: rest => pieces extent n quoted (line + 1) rest
  | n + 1, false, line, '\\' :: c :: rest => cons (.text true [c]) (pieces extent n false line rest)
  | n + 1, true, line, '\\' :: c :: rest =>
    if c = '$' || c = '\\' || c = '\x60' || c = '"' && extent ≠ .lines ||
        c = '\x7d' && extent = .whole then
      cons (.text true [c]) (pieces extent n true line rest)
    else cons (.text true ['\\']) (pieces extent n true line (c :: rest))
  | n + 1, quoted, line, '$' :: rest =>
    match dollar quoted line rest with
    | .error fault => .error fault
    | .ok (piece, after) =>
      let passed := (rest.take (rest.length - after.length)).count '\n'
      cons piece (pieces extent n quoted (line + passed) after)
  | n + 1, quoted, line, '\x60' :: rest =>
    match backquoted quoted rest with
    | none => .error .openBackquote
    | some (script, after) =>
      cons (.output quoted line script) (pieces extent n quoted (line + script.count '\n') after)
  | n + 1, false, line, '\'' :: rest =>
    match rest.dropWhile (· ≠ '\'') with
    | _ :: after =>
      let inner := rest.takeWhile (· ≠ '\'')
      cons (.text true inner) (pieces extent n false (line + inner.count '\n') after)
    | [] => .error .openQuote
  | n + 1, quoted, line, '"' :: rest =>
    if extent = .lines then cons (.text quoted ['"']) (pieces extent n quoted line rest)
    else if !quoted && rest.head? = some '"' then
      cons (.text true []) (pieces extent n true line rest)
    else pieces extent n (!quoted) line rest
  | n + 1, quoted, line, c :: rest =>
    if !quoted && extent = .word && isMeta c then .ok ([], c :: rest)
    else cons (.text quoted [c]) (pieces extent n quoted (if c = '\n' then line + 1 else line) rest)
where
  cons (piece : Piece) (more : Except WordFault (Word × List Char)) :
    Except WordFault (Word × List Char) :=
    more.map fun (word, after) => (piece :: word, after)

def piecesOf (extent : Extent) (quoted : Bool) (line : Nat)
    (text : List Char) : Except WordFault (Word × List Char) :=
  pieces extent (text.length + 1) quoted line text

def Piece.bare? : Piece → Option (List Char)
  | text false content => some content
  | _ => none

def Piece.isQuoted : Piece → Bool
  | text quoted _ => quoted
  | _ => false

/-- The text of a word without quotes or parameters. -/
def bare? (word : Word) : Option String :=
  (word.mapM Piece.bare?).map fun texts => String.ofList texts.flatten

/-- The text of a word as it stands, quotes apart. -/
def plainText (word : Word) : List Char :=
  word.flatMap fun
    | .text _ content => content
    | _ => []

/-- An assignment taken apart: the name in front of the first equals sign, and the pieces behind
it. -/
def assignment? (word : Word) : Option (String × Word) :=
  let plain (piece : Piece) : Bool :=
    (piece.bare?.filter fun content => content.all isNameChar).isSome
  let name := (word.takeWhile plain).flatMap fun piece => piece.bare?.getD []
  match name, word.dropWhile plain with
  | first :: _, .text false ['='] :: value =>
    if isNameStart first then some (String.ofList name, value) else none
  | _, _ => none

end ShaderEmbed.Shell
