import ShaderEmbed.Tool.Shell.State

/-!
# Expansion

Words are expanded to fields: the value of an unquoted parameter is split where separators stand,
that of a quoted one is kept, and the quoted list of all arguments is one field an argument. A field
that spells a pattern stands for the paths that fit it.
-/

namespace ShaderEmbed.Shell

/-! ## Fields -/

/-- A part of an expansion: letters that belong to a field, or the end of a field, by white space or
by another separator. -/
inductive Chunk where
  | keep (letters : List Letter)
  | blank
  | divide

/-- A value that is split where separators stand. -/
def splitChunks (separators value : List Char) : List Chunk :=
  value.map fun c =>
    if !separators.contains c then .keep [⟨c, false⟩]
    else if c = ' ' || c = '\t' || c = '\n' then .blank
    else .divide

/-- Chunks that are split where separators stand unquoted. -/
def resplit (separators : List Char) (chunks : List Chunk) : List Chunk :=
  chunks.flatMap fun
    | .keep [] => [.keep []]
    | .keep letters => letters.flatMap fun letter =>
        if letter.quoted then [.keep [letter]] else splitChunks separators [letter.char]
    | chunk => [chunk]

/-- The fields of an expansion, given the field that was started, if one was, and whether the last
one ended with white space. -/
def fields : Option (List Letter) → Bool → List Chunk → List (List Letter)
  | started, _, [] => started.toList
  | none, closed, .blank :: rest => fields none closed rest
  | some field, _, .blank :: rest => field :: fields none true rest
  | none, true, .divide :: rest => fields none false rest
  | none, false, .divide :: rest => [] :: fields none false rest
  | some field, _, .divide :: rest => field :: fields none false rest
  | started, _, .keep letters :: rest => fields (some (started.getD [] ++ letters)) false rest

/-- The letters of an expansion that is not split. -/
def joinChunks (chunks : List Chunk) : List Letter :=
  chunks.flatMap fun
    | .keep letters => letters
    | _ => [⟨' ', false⟩]

/-! ## Expansion -/

/-- What is run or expanded in turn: the text of a script that starts on a line, a script, and a
text that is quoted or not. -/
structure Runner where
  run : Nat → List Char → State → State
  call : Script → State → State
  expand : Bool → List Char → State → List Chunk × State

/-- Whether a value is expanded into fields, or stays whole. -/
inductive Shape where
  | fields
  | whole
deriving DecidableEq

/-- The chunks of a value. -/
def valueChunks (s : State) (shape : Shape) (quoted : Bool) (value : List Char) : List Chunk :=
  if quoted || shape = .whole then [.keep (lettersOf quoted value)] else
    splitChunks s.separators value

/-- Ends a script: what was asked for at its end is done. -/
def finish (nested : Runner) (s : State) : State :=
  match s.traps.lookup 0, s.finalStatus with
  | some action, .code code =>
    let after := nested.run 1 action.toList
      -- the action runs once: it no longer stands among those that are still to be done
      { s with ended := none, leaving := none, traps :=
        s.traps.filter (·.1 ≠ 0), status := code.toNat }
    if after.ended.isSome then after else { after with ended := some (.code code) }
  | _, _ => s

/-- Runs a part of a script apart: only the files and the streams keep what it does, and the signals
that it ignores are all that it knows of those that are caught. -/
def apart (nested : Runner) (run : State → State) (s : State) : State :=
  -- a part that runs apart stands in no loop of the script around it
  let after := finish nested (run { s with loops := 0, traps := s.traps.filter (·.2 = "") })
  let kept := { s with tree := after.tree, streams := s.streams.backTo after.streams }
  match after.finalStatus with
  | .signal number => kept.quit (.signal number)
  | _ => kept.withStatus after.seenStatus

/-- What a part of a script prints when it is run apart, and the state that it leaves. -/
def printedBy (nested : Runner) (run : State → State) (s : State) : Bytes × State :=
  let number := s.streams.channels.length
  let after := apart nested run { s with streams := s.streams.connect 1 (.collected []) }
  (after.streams.collected number, { after with streams := s.streams.backTo after.streams })

/-- The output of a script without the line ends behind it, and the state it leaves. -/
def substitute (nested : Runner) (line : Nat) (script : List Char)
    (s : State) : List Char × State :=
  let (bytes, after) := printedBy nested (nested.run line script) { s with tested := false }
  let text := ((Text.decodeLossy bytes).toList.reverse.dropWhile (· = '\n')).reverse
  (text.filter (· ≠ '\x00'), { after with tested := s.tested })

/-- The expansion of a text that takes the place of a value. -/
def expandOther (nested : Runner) (s : State) (shape : Shape) (quoted : Bool)
    (text : List Char) : List Chunk × State :=
  let (chunks, s) := nested.expand quoted text s
  (if quoted then (if chunks.isEmpty then [.keep []] else chunks)
    else if shape = .fields then resplit s.separators chunks else chunks, s)

def expandChanged (nested : Runner) (s : State) (shape : Shape)
    (quoted : Bool) (name operator : String) (text : List Char) : List Chunk × State :=
  let value? := s.parameter? name
  let value := value?.getD ""
  let colon := operator.length = 2 && ":".toList.isPrefixOf operator.toList
  let missing := value?.isNone || colon && value = ""
  let own := valueChunks s shape quoted value.toList
  match if colon then String.ofList (operator.toList.drop 1) else operator with
  | "-" => if missing then expandOther nested s shape quoted text else (own, s)
  | "+" => if missing then (valueChunks s shape quoted [], s) else
    expandOther nested s shape quoted text
  | "=" =>
    if missing then
      let (chunks, s) := nested.expand quoted text s
      let given := lettersText (joinChunks chunks)
      let s := s.assign name given
      (valueChunks s shape quoted given.toList, s)
    else (own, s)
  | "?" =>
    if missing then
      let (chunks, s) := nested.expand quoted text s
      let usual := if colon then "parameter not set or null" else "parameter not set"
      let given := lettersText (joinChunks chunks)
      ([], s.refuse (name ++ ": " ++ if given = "" then usual else given))
    else (own, s)
  | "length" => (valueChunks s shape quoted (toString value.utf8ByteSize).toList, s)
  | _ =>
    let (chunks, s) := nested.expand false text s
    (valueChunks s shape quoted
      (trimValue operator (patternOf (joinChunks chunks)) value.toList), s)

def expandSum (nested : Runner) (s : State) (shape : Shape) (quoted : Bool)
    (text : List Char) : List Chunk × State :=
  let (chunks, s) := nested.expand true text s
  let expression := (joinChunks chunks).map Letter.char
  let look (name : String) : String := (s.parameter? name).getD ""
  let result : Except String (Int × Bindings) :=
    match Sum.ofText expression with
    | .error what => .error what
    | .ok sum => sum.evaluate look []
  match result with
  | .ok (n, given) =>
    let s := given.reverse.foldl (fun s pair => s.assign pair.1 pair.2) s
    (valueChunks s shape quoted (toString n).toList, s)
  | .error what =>
    let complaint :=
      if "Illegal".toList.isPrefixOf what.toList then what
      else "arithmetic expression: " ++ what ++ ": \"" ++ String.ofList expression ++ "\""
    ([], s.refuse complaint)

def expandPiece (nested : Runner) (s : State) (shape : Shape) : Piece → List Chunk × State
  | .text quoted content => ([.keep (lettersOf quoted content)], s)
  | .parameter quoted "@" none =>
    let parts := s.arguments.map fun argument => valueChunks s shape quoted argument.toList
    ((parts.intersperse [if quoted || shape = .whole then .divide else .blank]).flatten, s)
  | .parameter false "*" none =>
    let parts := s.arguments.map fun argument => valueChunks s shape false argument.toList
    ((parts.intersperse [.blank]).flatten, s)
  | .parameter quoted name none =>
    match s.parameter? name with
    | some value => (valueChunks s shape quoted value.toList, s)
    | none =>
      if s.options.careful && name ≠ "*" && name ≠ "@" then
        ([], s.refuse (name ++ ": parameter not set"))
      else (valueChunks s shape quoted [], s)
  | .parameter quoted name (some (operator, text)) =>
    expandChanged nested s shape quoted name operator text
  | .output quoted line script =>
    let (value, s) := substitute nested line script s
    (valueChunks s shape quoted value, s)
  | .sum quoted text => expandSum nested s shape quoted text
  | .broken => ([], s.refuse "Bad substitution")

def expandWord (nested : Runner) (shape : Shape) : Word → State → List Chunk × State
  | [], s => ([], s)
  | piece :: rest, s =>
    if s.isHalted then ([], s)
    else
      let (first, s) := expandPiece nested s shape piece
      let (others, s) := expandWord nested shape rest s
      (first ++ others, s)

def expandWords (nested : Runner) : List Word → State → List String × State
  | [], s => ([], s)
  | word :: rest, s =>
    let (chunks, s) := expandWord nested .fields word s
    let own := (fields none false chunks).flatMap fun letters =>
      if s.options.literal then [lettersText letters] else pathsOf s.tree s.cwd letters
    let (others, s) := expandWords nested rest s
    (own ++ others, s)

def expandWhole (nested : Runner) (word : Word) (s : State) : List Letter × State :=
  let (chunks, s) := expandWord nested .whole word s
  (joinChunks chunks, s)

def assignAll (nested : Runner) : List (String × Word) → State → State
  | [], s => s
  | (name, word) :: rest, s =>
    if s.isHalted then s
    else
      let (value, s) := expandWhole nested word s
      if s.isHalted then s else assignAll nested rest (s.tryAssign name (lettersText value))

end ShaderEmbed.Shell
