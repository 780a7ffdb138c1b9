import ShaderEmbed.Tool.Shell.Token

/-!
# Scripts

A script is made of simple commands. Commands are put in sequence, joined by conditions or pipes,
chosen or repeated, grouped, and redirected. A script is read line by line, and the part of a
malformed one before the line of the fault is still a script: it ends with the complaint.
-/

namespace ShaderEmbed.Shell

/-- A stream and what becomes of it. -/
structure Redirection where
  stream : Nat
  direction : Direction
  target : Word

/-- A script. The arms of a choice by patterns are scripts of their own, each with those behind it.
The lines of a script are run one by one, when it has been read up to the next one. -/
inductive Script where
  | nothing
  | simple (line : Nat) (assignments : List (String × Word)) (words : List Word)
      (redirections : List Redirection)
  | sequence (first second : Script)
  | ifSucceeds (first second : Script)
  | ifFails (first second : Script)
  | negated (body : Script)
  | pipe (first second : Script)
  | choose (condition yes no : Script)
  | repeatWhile (wanted : Bool) (condition body : Script)
  | forEach (line : Nat) (name : String) (words : List Word) (body : Script)
  | select (line : Nat) (subject : Word) (arms : Script)
  | arm (patterns : List Word) (body others : Script)
  | define (name : String) (body : Script)
  | grouped (line : Nat) (body : Script) (redirections : List Redirection)
  | separate (line : Nat) (body : Script)
  | background (body : Script)
  | upTo (line : Nat) (body : Script)
  | malformed (line : Nat) (complaint : String)

def Script.isNothing : Script → Bool
  | nothing => true
  | _ => false

/-- Where a script is malformed, and how. -/
structure ScriptFault where
  line : Nat
  text : String

/-- The words that have a meaning of their own where a command starts. -/
def reservedWords : List String :=
  ["if", "then", "elif", "else", "fi", "for", "in", "do", "done", "while", "until", "case",
    "esac", "!", "\x7b", "\x7d"]

def endingWords : List String := ["then", "elif", "else", "fi", "do", "done", "esac", "\x7d"]

def Token.reserved? (t : Token) : Option String :=
  match t.kind with
  | .word pieces => (bare? pieces).filter reservedWords.contains
  | _ => none

def Token.described (t : Token) : String :=
  match t.kind with
  | .word _ => (t.reserved?.map fun name => "\"" ++ name ++ "\"").getD "word"
  | .redirection _ _ => "redirection"
  | .sign "\n" => "newline"
  | .sign text => "\"" ++ text ++ "\""
  | .fault text => text
  | .finish => "end of file"

def Token.isSign (t : Token) (text : String) : Bool := t.kind = .sign text

/-- What is read from tokens. -/
abbrev ScriptReading := Except ScriptFault (Script × List Token)

def firstToken (ts : List Token) : Token := ts.headD ⟨1, .finish⟩

def unexpected {α : Type} (ts : List Token) : Except ScriptFault α :=
  let t := firstToken ts
  match t.kind with
  | .fault text => .error ⟨t.line, text⟩
  | _ => .error ⟨t.line, t.described ++ " unexpected"⟩

def unexpectedFor {α : Type} (wanted : String) (ts : List Token) : Except ScriptFault α :=
  let t := firstToken ts
  match t.kind with
  | .fault text => .error ⟨t.line, text⟩
  | _ => .error ⟨t.line, t.described ++ " unexpected (expecting " ++ wanted ++ ")"⟩

def skipLines (ts : List Token) : List Token := ts.dropWhile (Token.isSign · "\n")

def expectWord (name : String) (ts : List Token) : Except ScriptFault (List Token) :=
  if (firstToken ts).reserved? = some name then .ok (ts.drop 1) else
    unexpectedFor ("\"" ++ name ++ "\"") ts

def expectSign (text : String) (ts : List Token) : Except ScriptFault (List Token) :=
  if (firstToken ts).isSign text then .ok (ts.drop 1) else unexpectedFor ("\"" ++ text ++ "\"") ts

/-- Passes a closing bracket where no word has a meaning of its own. -/
def expectClosing (ts : List Token) : Except ScriptFault (List Token) :=
  let t := firstToken ts
  match t.kind with
  | .word _ => .error ⟨t.line, "word unexpected (expecting \")\")"⟩
  | _ => expectSign ")" ts

def leadingWords : List Token → List Word × List Token
  | ⟨_, .word word⟩ :: rest =>
    let (words, after) := leadingWords rest
    (word :: words, after)
  | ts => ([], ts)

def redirections : List Token → Except ScriptFault (List Redirection × List Token)
  | ⟨_, .redirection stream direction⟩ :: ⟨_, .word target⟩ :: rest => do
    let (others, after) ← redirections rest
    return (⟨stream, direction, target⟩ :: others, after)
  | ⟨_, .redirection _ _⟩ :: rest => unexpected rest
  | ts => .ok ([], ts)

/-- The words and redirections of a simple command, and the tokens after it. -/
def simpleParts : List Token → Except ScriptFault (List Word × List Redirection × List Token)
  | ⟨_, .redirection stream direction⟩ :: ⟨_, .word target⟩ :: rest => do
    let (words, others, after) ← simpleParts rest
    return (words, ⟨stream, direction, target⟩ :: others, after)
  | ⟨_, .redirection _ _⟩ :: rest => unexpected rest
  | ⟨_, .word word⟩ :: rest => do
    let (words, others, after) ← simpleParts rest
    return (word :: words, others, after)
  | ts => .ok ([], [], ts)

def simpleCommand (ts : List Token) : ScriptReading := do
  let (words, others, after) ← simpleParts ts
  -- only assignments in front of the name of the command count as such
  let assignments := (words.takeWhile fun word => (assignment? word).isSome).filterMap assignment?
  return (.simple (firstToken ts).line assignments (words.drop assignments.length) others, after)

/-- The patterns of an arm, and the tokens behind the bracket that ends them. -/
def armPatterns : List Token → Except ScriptFault (List Word × List Token)
  | ⟨_, .word pattern⟩ :: ⟨_, .sign "|"⟩ :: rest => do
    let (others, after) ← armPatterns rest
    return (pattern :: others, after)
  | ⟨_, .word pattern⟩ :: rest => do return ([pattern], ← expectClosing rest)
  | ts => unexpectedFor "\")\"" ts

/-- What is read at some point of a script: the commands up to the end of a line, or those up to a
word that ends them; a part of a command; or the arms of a choice. -/
inductive Part where
  | line (started : Bool)
  | list (started : Bool)
  | chain
  | chainRest (first : Script)
  | pipeline
  | pipelineRest (first : Script)
  | command
  | branches
  | arms

/-- Tokens whose first one, if it is a word, has no meaning of its own. -/
def withoutMeaning : List Token → List Token
  | ⟨line, .word pieces⟩ :: rest => ⟨line, .word (.text true [] :: pieces)⟩ :: rest
  | ts => ts

/-- A command with the redirections behind it. No word right behind a redirection has a meaning of
its own. -/
def withRedirections (line : Nat) (body : Script) (ts : List Token) : ScriptReading := do
  match ← redirections ts with
  | ([], after) => return (body, after)
  | (others, after) => return (.grouped line body others, withoutMeaning after)

/-- The words that a command for each of them is about: those given, or the arguments. -/
def forWords (ts : List Token) : Except ScriptFault (List Word × List Token) :=
  let next := skipLines ts
  if (firstToken next).reserved? = some "in" then
    let (words, after) := leadingWords (next.drop 1)
    if (firstToken after).isSign "\n" || (firstToken after).isSign ";" then
      .ok (words, after.drop 1)
    else unexpected after
  else .ok ([[.parameter true "@" none]],
    if (firstToken next).isSign ";" then next.drop 1 else next)

def endsList (t : Token) : Bool :=
  t.isSign ")" || t.isSign ";;" || ((t.reserved?).map endingWords.contains).getD false

/-- Reads a part of a script from the front of some tokens. The number bounds the depth of the
reading. -/
def readPart : Nat → Part → List Token → ScriptReading
  | 0, _, ts => unexpected ts
  | n + 1, .line started, ts =>
    let t := firstToken ts
    if t.isSign "\n" then .ok (.nothing, ts.drop 1)
    else if t.kind = .finish then .ok (.nothing, ts)
    else do
      let (first, after) ← readPart n .chain ts
      let next := firstToken after
      if next.isSign "&" || next.isSign ";" then
        let first := if next.isSign "&" then .background first else first
        let (others, after) ← readPart n (.line started) (after.drop 1)
        return (.sequence first others, after)
      else if next.isSign "\n" then return (first, after.drop 1)
      else if next.kind = .finish then return (first, after)
      else unexpected after
  | n + 1, .list started, ts =>
    let ts := skipLines ts
    if (firstToken ts).kind = .finish || started && endsList (firstToken ts) then .ok (.nothing, ts)
    else do
      let (first, after) ← readPart n .chain ts
      let next := firstToken after
      if next.isSign "&" || next.isSign ";" || next.isSign "\n" then
        let first := if next.isSign "&" then .background first else first
        let (others, after) ← readPart n (.list true) (after.drop 1)
        return (.sequence first others, after)
      else return (first, after)
  | n + 1, .chain, ts => do
    let (first, after) ← readPart n .pipeline ts
    readPart n (.chainRest first) after
  | n + 1, .chainRest first, ts =>
    if (firstToken ts).isSign "&&" then do
      let (second, after) ← readPart n .pipeline (skipLines (ts.drop 1))
      readPart n (.chainRest (.ifSucceeds first second)) after
    else if (firstToken ts).isSign "||" then do
      let (second, after) ← readPart n .pipeline (skipLines (ts.drop 1))
      readPart n (.chainRest (.ifFails first second)) after
    else .ok (first, ts)
  | n + 1, .pipeline, ts => do
    let negative := (firstToken ts).reserved? = some "!"
    let (first, after) ← readPart n .command (if negative then ts.drop 1 else ts)
    let (whole, after) ← readPart n (.pipelineRest first) after
    return (if negative then .negated whole else whole, after)
  | n + 1, .pipelineRest first, ts =>
    if (firstToken ts).isSign "|" then do
      let (second, after) ← readPart n .command (skipLines (ts.drop 1))
      readPart n (.pipelineRest (.pipe first second)) after
    else .ok (first, ts)
  | n + 1, .branches, ts => do
    let (condition, after) ← readPart n (.list false) ts
    let after ← expectWord "then" after
    let (yes, after) ← readPart n (.list false) after
    match (firstToken after).reserved? with
    | some "elif" => do
      let (no, after) ← readPart n .branches (after.drop 1)
      return (.choose condition yes no, after)
    | some "else" => do
      let (no, after) ← readPart n (.list false) (after.drop 1)
      return (.choose condition yes no, ← expectWord "fi" after)
    | _ => return (.choose condition yes .nothing, ← expectWord "fi" after)
  | n + 1, .arms, ts => do
    let ts := skipLines ts
    if (firstToken ts).reserved? = some "esac" then return (.nothing, ts.drop 1)
    let (patterns, after) ← armPatterns (if (firstToken ts).isSign "(" then ts.drop 1 else ts)
    let (body, after) ← readPart n (.list true) after
    let after := skipLines after
    if (firstToken after).reserved? = some "esac" then
      return (.arm patterns body .nothing, after.drop 1)
    let (others, after) ← readPart n .arms (← expectSign ";;" after)
    return (.arm patterns body others, after)
  | n + 1, .command, ts =>
    let line := (firstToken ts).line
    match (firstToken ts).reserved?, ts with
    | some "if", _ => do
      let (body, after) ← readPart n .branches (ts.drop 1)
      withRedirections line body after
    | some "while", _ => readLoop n true line ts
    | some "until", _ => readLoop n false line ts
    | some "\x7b", _ => do
      let (body, after) ← readPart n (.list false) (ts.drop 1)
      withRedirections line body (← expectWord "\x7d" after)
    | some "for", _ :: ⟨place, .word name⟩ :: rest => do
      let some name := (bare? name).filter fun name => isName name.toList
        | throw ⟨place, "Bad for loop variable"⟩
      let (words, after) ← forWords rest
      let after ← expectWord "do" (skipLines after)
      let (body, after) ← readPart n (.list false) after
      withRedirections line (.forEach line name words body) (← expectWord "done" after)
    | some "for", _ :: t :: _ => .error ⟨t.line, "Bad for loop variable"⟩
    | some "case", _ :: ⟨_, .word subject⟩ :: rest => do
      let after ← expectWord "in" (skipLines rest)
      let (arms, after) ← readPart n .arms after
      withRedirections line (.select line subject arms) after
    | some "case", _ => unexpectedFor "word" (ts.drop 1)
    | some _, _ => unexpected ts
    | none, ⟨_, .word name⟩ :: ⟨_, .sign "("⟩ :: rest => do
      let after ← expectClosing rest
      let some name := (bare? name).filter fun name => isName name.toList
        | throw ⟨line, "Bad function name"⟩
      let (body, after) ← readPart n .command (skipLines after)
      return (.define name body, after)
    | none, ⟨_, .sign "("⟩ :: rest => do
      let (body, after) ← readPart n (.list false) rest
      withRedirections line (.separate line body) (← expectSign ")" after)
    | none, ⟨_, .word _⟩ :: _ => simpleCommand ts
    | none, ⟨_, .redirection _ _⟩ :: _ => simpleCommand ts
    | none, _ => unexpected ts
where
  readLoop (n : Nat) (wanted : Bool) (line : Nat) (ts : List Token) : ScriptReading := do
    let (condition, after) ← readPart n (.list false) (ts.drop 1)
    let after ← expectWord "do" after
    let (body, after) ← readPart n (.list false) after
    withRedirections line (.repeatWhile wanted condition body) (← expectWord "done" after)

/-- Reads lines to the end. The number bounds them. -/
def readLines : Nat → List Token → Script
  | 0, _ => .nothing
  | n + 1, ts =>
    if (firstToken ts).kind = .finish then .nothing
    else
      -- at most eight parts are entered between one token and the next
      match readPart (8 * ts.length + 8) (.line false) ts with
      | .ok (first, after) =>
        let reached := (ts[ts.length - after.length - 1]?).getD (firstToken ts)
        .sequence (.upTo reached.line first) (readLines n after)
      | .error fault => .malformed fault.line fault.text

def Script.ofText (line : Nat) (text : List Char) : Script :=
  let ts := tokenize line text
  readLines ts.length ts

end ShaderEmbed.Shell
