import ShaderEmbed.Text.Digits
import ShaderEmbed.Toml.Blank

/-!
# Strings

Basic strings stand in double quotes and have escapes, literal strings stand in single quotes and
have none. Both have a form in three quotes that may run over lines; a line end right behind the
opening quotes is dropped, and up to two quotes may stand in front of the closing ones.
-/

namespace ShaderEmbed.Toml

open Reading

/-- The characters that stand for themselves in a basic string. -/
def isBasicChar (c : Char) : Bool :=
  c ≠ '"' && c ≠ '\\' && isCommentChar c

def isLiteralChar (c : Char) : Bool := c ≠ '\'' && isCommentChar c

def scalar (n : Nat) : Except Reason Char :=
  if n.isValidChar then .ok (Char.ofNat n) else .error .outOfRange

def hexDigits (count : Nat) : Reading (List Char) := fun cursor =>
  let taken := (cursor.rest.takeWhile (Text.isDigitIn 16)).take count
  if taken.length = count then .ok (taken, cursor.skip count) else refuse cursor

def hexCode (count : Nat) : Reading Char :=
  commit (naming (.hexCode count)
    (checked (hexDigits count) fun digits => scalar (Text.digitsValue 16 digits)))

/-- What may stand behind a backslash. -/
def escapeSigns : List Wanted :=
  [.sign "b", .sign "f", .sign "n", .sign "r", .sign "t", .sign "u",
    .sign "U", .sign "\\", .sign "\""]

/-- Refuses an escape, behind its character or in front of one beyond ASCII. -/
def badEscape (c : Char) : Reading Char := commit (naming .escapeSequence (wanting escapeSigns do
  if !isWide c then
    skipOne
  refuse))

/-- The character that an escape stands for, its backslash apart. -/
def escapeCode : Reading Char := do
  match ← ahead with
  | [] => refuse
  | 'b' :: _ => skipOne; done '\x08'
  | 'f' :: _ => skipOne; done '\x0c'
  | 'n' :: _ => skipOne; done '\n'
  | 'r' :: _ => skipOne; done '\r'
  | 't' :: _ => skipOne; done '\t'
  | 'u' :: _ => skipOne; hexCode 4
  | 'U' :: _ => skipOne; hexCode 8
  | '\\' :: _ => skipOne; done '\\'
  | '"' :: _ => skipOne; done '"'
  | c :: _ => badEscape c

def escape : Reading Char := do
  char '\\'
  escapeCode

def basicString : Reading String := do
  char '"'
  let content ← many (satisfy isBasicChar <|> escape)
  commit (naming .basicString (char '"'))
  done (String.ofList content)

def literalString : Reading String := do
  char '\''
  let content ← run isLiteralChar
  commit (naming .literalString (char '\''))
  done (String.ofList content)

def lineFeed : Reading (List Char) := do
  newline
  done ['\n']

/-- A backslash at the end of a line, and all blanks and line ends behind it. -/
def escapedNewline : Reading (List Char) := do
  char '\\'
  spaces
  newline
  let _ ← many (newline <|> do let _ ← many1 (satisfy isSpace))
  done []

def single (p : Reading Char) : Reading (List Char) := do
  let c ← p
  done [c]

def multilineBasicPiece : Reading (List Char) :=
  single (satisfy isBasicChar) <|> escapedNewline <|> single escape <|> lineFeed

def multilineLiteralPiece : Reading (List Char) := single (satisfy isLiteralChar) <|> lineFeed

/-- One or two quotes with something else behind them. -/
def looseQuotes (quote : Char) : Reading (List Char) := do
  match ← ahead with
  | first :: second :: third :: _ =>
    if first = quote && second = quote && third ≠ quote then
      skipOne
      skipOne
      done [quote, quote]
    else if first = quote && second ≠ quote then
      skipOne
      done [quote]
    else refuse
  | first :: second :: [] =>
    if first = quote && second ≠ quote then
      skipOne
      done [quote]
    else refuse
  | _ => refuse

/-- One or two quotes with the closing quotes behind them. -/
def lastQuotes (quote : Char) : Reading (List Char) := do
  let quotes := (← ahead).takeWhile (· = quote)
  -- three of the quotes close the string, and at most two can belong to it
  if 5 ≤ quotes.length then
    skipOne
    skipOne
    done [quote, quote]
  else if quotes.length = 4 then
    skipOne
    done [quote]
  else done []

/-- A string in three quotes, made of pieces. Whether pieces must follow loose quotes is left to
`firm`. -/
def multiline (quote : Char) (piece : Reading (List Char))
    (firm : Reading (List (List Char)) → Reading (List (List Char))) : Reading String := do
  literal [quote, quote, quote]
  let _ ← optional newline
  let first ← many piece
  let groups ← many do
    let quotes ← looseQuotes quote
    let pieces ← firm (many1 piece)
    done (quotes ++ pieces.flatten)
  let last ← lastQuotes quote
  commit (literal [quote, quote, quote])
  done (String.ofList (first.flatten ++ groups.flatten ++ last))

def multilineBasicString : Reading String :=
  naming .multilineBasicString (multiline '"' multilineBasicPiece fun pieces =>
    commit (fromStartIfFree pieces))
where
  /-- Lets a refusal without commitment stand where the pieces should have started. -/
  fromStartIfFree (pieces : Reading (List (List Char))) : Reading (List (List Char)) :=
    pieces <|> refuse

def multilineLiteralString : Reading String :=
  naming .multilineLiteralString (multiline '\'' multilineLiteralPiece fun pieces => pieces)

def string : Reading String :=
  multilineBasicString <|> basicString <|> multilineLiteralString <|> literalString

end ShaderEmbed.Toml
