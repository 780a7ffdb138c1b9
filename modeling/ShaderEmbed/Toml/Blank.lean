import ShaderEmbed.Toml.Reading

/-!
# Blanks, comments and line ends
-/

namespace ShaderEmbed.Toml

open Reading

/-- Blanks within a line are spaces and tabs. -/
def isSpace (c : Char) : Bool := c = ' ' || c = '\t'

/-- Characters beyond ASCII may stand in strings and comments. -/
def isWide (c : Char) : Bool := 0x80 ≤ c.toNat

def isCommentChar (c : Char) : Bool := c = '\t' || (' ' ≤ c && c ≤ '~') || isWide c

def spaces : Reading Unit := do
  let _ ← run isSpace

/-- A line feed, with or without a carriage return before it. -/
def newline : Reading Unit := char '\n' <|> do
  char '\r'
  char '\n'

def ending : Reading Unit := do
  match ← ahead with
  | [] => done ()
  | _ => refuse

def comment : Reading Unit := do
  char '#'
  let _ ← run isCommentChar

def lineEnd : Reading Unit := newline <|> ending

/-- What may follow a statement on its line. -/
def lineRest : Reading Unit := wanting [.lineEnd, .sign "#"] do
  spaces
  let _ ← optional comment
  lineEnd

/-- One run of blanks, line ends or commented line ends. -/
def blank : Reading Unit := do
  match ← ahead with
  | '#' :: _ => do
    comment
    newline
  | '\n' :: _ => newline
  | '\r' :: _ => newline
  | _ => do
    let _ ← many1 (satisfy isSpace)

/-- Whether the text goes on with something that must be a run of blanks. -/
def startsBlank : List Char → Bool
  | c :: _ => isSpace c || c = '#' || c = '\n' || c = '\r'
  | [] => false

def blanksUpTo : Nat → Reading Unit
  | 0 => done ()
  | most + 1 => do
    if startsBlank (← ahead) then
      blank
      blanksUpTo most

def blanks : Reading Unit := fun cursor => blanksUpTo cursor.rest.length cursor

end ShaderEmbed.Toml
