import ShaderEmbed.Text.Digits
import ShaderEmbed.Text.Lines
import ShaderEmbed.Tool.Shell.Word

/-!
# Tokens of scripts

A script is cut into words, redirections and signs between commands. Each token knows the line that
has been reached behind it. A text that cannot be cut to its end yields the tokens before the fault,
and the fault as the last one.
-/

namespace ShaderEmbed.Shell

/-- What a redirection does to a stream. A file is replaced, and where files are guarded it may have
to be forced. -/
inductive Direction where
  | replace (forced : Bool)
  | append
  | read
  | both
  | copy
  | here
deriving DecidableEq

/-- What a token is. -/
inductive TokenKind where
  | word (pieces : Word)
  | redirection (stream : Nat) (direction : Direction)
  | sign (text : String)
  | fault (text : String)
  | finish
deriving DecidableEq

/-- A token, with the line reached behind it. -/
structure Token where
  line : Nat
  kind : TokenKind

def WordFault.text : WordFault → String
  | openQuote => "Unterminated quoted string"
  | openRound => "end of file unexpected (expecting \")\")"
  | openSum => "Missing '))'"
  | openBrace => "Missing '\x7d'"
  | openBackquote => "EOF in backquote substitution"

/-- The operators of redirections, longer ones before their beginnings, with the stream they are
about. -/
def redirectionOperators : List (String × Nat × Direction) :=
  [(">>", 1, .append), (">&", 1, .copy), (">|", 1, .replace true), (">", 1, .replace false),
    ("<<-", 0, .here), ("<<", 0, .here), ("<&", 0, .copy), ("<>", 0, .both), ("<", 0, .read)]

/-- The redirection that a text starts with, its operator, and the text after it. A digit in front
tells the stream. -/
def redirection? (text : List Char) : Option (Nat × Direction × String × List Char) :=
  let plain (stream : Option Nat) (rest : List Char) :
      Option (Nat × Direction × String × List Char) :=
    (redirectionOperators.find? fun operator => operator.1.toList.isPrefixOf rest).map
      fun (sign, usual, direction) => (stream.getD usual, direction, sign, rest.drop sign.length)
  match text with
  | d :: rest => if d.isDigit then plain (some (Text.digitValue d)) rest else plain none text
  | [] => none

/-- The signs between commands, longer ones before their beginnings. -/
def signs : List String := ["&&", "||", ";;", "\n", ";", "&", "|", "(", ")"]

def sign? (text : List Char) : Option (String × List Char) :=
  (signs.find? fun sign => sign.toList.isPrefixOf text).map fun sign =>
    (sign, text.drop sign.length)

/-- The lines up to one that consists of a given text, and what follows that one. With `tabs` the
tabs in front of lines do not count. -/
def linesTo (tabs : Bool) (mark : List Char) : List (List Char) →
    List (List Char) × List (List Char)
  | [] => ([], [])
  | line :: rest =>
    let line := if tabs then line.dropWhile (· = '\t') else line
    if line.reverse.dropWhile (· = '\n') = mark.reverse then ([], rest)
    else
      let (inner, after) := linesTo tabs mark rest
      (line :: inner, after)

/-- The pieces of a text that has its end. -/
def wholeWord (extent : Extent) (quoted : Bool) (text : List Char) : Word :=
  match piecesOf extent quoted 1 text with
  | .ok (word, _) => word
  | .error _ => [.broken]

/-- Takes the lines up to a mark out of a text, from its next line on: they, their number with the
mark, and the text without them. -/
def takeLines (tabs : Bool) (mark : List Char) (text : List Char) : List Char × Nat × List Char :=
  let first := text.takeWhile (· ≠ '\n')
  let (inner, after) := linesTo tabs mark (Text.cutLines ((text.dropWhile (· ≠ '\n')).drop 1))
  (inner.flatten, inner.length + 1, first ++ '\n' :: after.flatten)

/-- The tokens of a script from a line on; after that line a number of lines is passed. The first
number bounds the tokens. -/
def tokens : Nat → Nat → Nat → List Char → List Token
  | 0, line, _, _ => [⟨line, .finish⟩]
  | _ + 1, line, _, [] => [⟨line, .finish⟩]
  | n + 1, line, passed, '\\' :: '\n' :: rest => tokens n (line + 1) passed rest
  | n + 1, line, passed, '#' :: rest => tokens n line passed (rest.dropWhile (· ≠ '\n'))
  | n + 1, line, passed, '\n' :: rest =>
    let next := line + 1 + passed
    ⟨next, .sign "\n"⟩ :: tokens n next 0 rest
  | n + 1, line, passed, c :: rest =>
    if c = ' ' || c = '\t' then tokens n line passed rest
    else
      match redirection? (c :: rest) with
      | some (stream, .here, operator, after) =>
        let blanks := after.dropWhile fun c => c = ' ' || c = '\t'
        match piecesOf .word false line blanks with
        | .error fault => [⟨line, .fault fault.text⟩]
        | .ok ([], after) => ⟨line, .redirection stream .here⟩ :: tokens n line passed after
        | .ok (mark, after) =>
          let (inner, count, after) := takeLines (operator = "<<-") (plainText mark) after
          -- a quoted mark keeps the lines as they are written
          let word : Word := if mark.any Piece.isQuoted then [.text true inner] else
            wholeWord .lines true inner
          ⟨line, .redirection stream .here⟩ :: ⟨line, .word word⟩ ::
            tokens n line (passed + count) after
      | some (stream, direction, _, after) =>
        ⟨line, .redirection stream direction⟩ :: tokens n line passed after
      | none =>
        match sign? (c :: rest) with
        | some (sign, after) => ⟨line, .sign sign⟩ :: tokens n line passed after
        | none =>
          match piecesOf .word false line (c :: rest) with
          | .error fault => [⟨line + rest.count '\n', .fault fault.text⟩]
          | .ok (word, after) =>
            let reached := line + ((c :: rest).take ((c :: rest).length - after.length)).count '\n'
            ⟨reached, .word word⟩ :: tokens n reached passed after

def tokenize (line : Nat) (script : List Char) : List Token :=
  tokens (script.length + 1) line 0 script

end ShaderEmbed.Shell
