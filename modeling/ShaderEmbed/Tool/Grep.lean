import ShaderEmbed.Tool.Notation
import ShaderEmbed.Tool.Program

/-!
# Looking for lines

A search goes through files line by line and selects the lines that fit a pattern. Lines near a
selected one can be shown with it; a line of dashes stands between lines that do not follow one
another. Every byte is a character.
-/

namespace ShaderEmbed.Program

open Text

def byteChars (bytes : Bytes) : List Char := bytes.map fun b => Char.ofNat b.toNat

def charBytes (chars : List Char) : Bytes := chars.map fun c => UInt8.ofNat c.toNat

/-- A text cut behind each character that ends a line. -/
def cutAfter (ending : Char) (text : List Char) : List (List Char) :=
  text.foldr (fun c pieces =>
    if c = ending then [c] :: pieces
    else
      match pieces with
      | [] => [[c]]
      | piece :: others => (c :: piece) :: others) []

/-- What is looked for, and how: the options, the pattern, how many lines of a file are selected at
most, and how many lines are shown before and after a selected one, if any are asked for. -/
structure Search where
  options : List (Char × String)
  pattern : Pattern
  most : Option Nat
  before : Option Nat
  after : Option Nat

/-! ## What is asked for -/

def lastValue (options : List (Char × String)) (letter : Char) : Option String :=
  options.reverse.lookup letter

def optionNumber (options : List (Char × String)) (letter : Char) : Except String (Option Nat) :=
  match lastValue options letter with
  | none => .ok none
  | some text =>
    if text ≠ "" && text.toList.all Char.isDigit then .ok (some (digitsValue 10 text.toList))
    else .error (text ++ ": invalid context length argument")

/-- How many lines are shown before and after a selected one. Digits among the options are a number
for both. -/
def readContext (options : List (Char × String)) : Except String (Option Nat × Option Nat) := do
  let digits := (options.map (·.1)).filter Char.isDigit
  let usual :=
    (← optionNumber options 'C').or (if digits.isEmpty then none else some (digitsValue 10 digits))
  return ((← optionNumber options 'B').or usual, (← optionNumber options 'A').or usual)

/-- How many lines of a file are selected at most. A number below zero sets no limit. -/
def readMost (options : List (Char × String)) : Except String (Option Nat) :=
  match lastValue options 'm' with
  | none => .ok none
  | some text =>
    let digits := if "-".toList.isPrefixOf text.toList then text.toList.drop 1 else text.toList
    if digits.isEmpty || !digits.all Char.isDigit then .error "invalid max count"
    else .ok (if digits.length < text.length then none else some (digitsValue 10 digits))

/-- The pattern that lines stand for, any of which will do, with what there is to warn of; or what
is wrong. -/
def readPattern (options : List (Char × String)) (lines : List (List Char)) :
    Except String (Pattern × List String) := do
  let anyCase := has options 'i' || has options 'y'
  let extended := has options 'E' || has options 'P'
  if 1 < (['E', 'F', 'G', 'P'].filter (has options)).length then
    throw "conflicting matchers specified"
  else if has options 'F' then
    let spelled (text : List Char) : Pattern :=
      text.foldr (fun c rest =>
        .chain (.one { CharSet.single c with anyCase := anyCase }) rest) .nothing
    return (lines.foldr (fun text rest => .choice (spelled text) rest) .never, [])
  else
    let signs ← lines.mapM (PatternSign.ofText extended)
    let all ← signs.mapM (Pattern.ofSigns extended anyCase)
    let idle := if extended then signs.flatMap (PatternSign.idle .opening) else []
    return (all.foldr Pattern.choice .never, idle.map fun sign => sign ++ " at start of expression")

/-- The search that options and the lines of patterns ask for, with what there is to warn of; or
what is wrong. -/
def readSearch (options : List (Char × String)) (lines : List (List Char)) :
    Except String (Search × List String) := do
  let (before, after) ← readContext options
  let most ← readMost options
  let (pattern, warnings) ← readPattern options lines
  return (⟨options, pattern, most, before, after⟩, warnings)

namespace Search

def asks (search : Search) (letter : Char) : Bool := has search.options letter

def ending (search : Search) : Char := if search.asks 'z' then '\x00' else '\n'

def fits (search : Search) : List Char → Bool :=
  let border (edge : Pattern) :=
    Pattern.choice edge (.one { PatternSign.wordSet with negated := true })
  let found :=
    if search.asks 'x' then search.pattern.fitsLine
    else if search.asks 'w' then
      (Pattern.chain (border .atStart) (.chain search.pattern (border .atStop))).occursIn
    else search.pattern.occursIn
  fun line => found line != search.asks 'v'

/-! ## Lines -/

/-- A line of a file: its number, where it starts, its text, and whether it is selected. -/
structure Line where
  number : Nat
  place : Nat
  text : List Char
  selected : Bool

/-- The lines of pieces from a number and a place on. At most so many of those that fit are
selected. -/
def linesOf (search : Search) (fits : List Char → Bool) : Option Nat → Nat → Nat →
    List (List Char) → List Line
  | _, _, _, [] => []
  | most, number, place, piece :: rest =>
    let text := if piece.getLast? = some search.ending then piece.dropLast else piece
    let selected := most ≠ some 0 && fits text
    ⟨number, place, text, selected⟩ ::
      linesOf search fits (if selected then most.map (· - 1) else most) (number + 1)
        (place + piece.length) rest

/-- The lines of a file. -/
def lines (search : Search) (content : Bytes) : List Line :=
  search.linesOf search.fits search.most 1 0 (cutAfter search.ending (byteChars content))

/-- Marks the lines that come at most so many lines behind a selected one, and selected ones. -/
def near (count : Nat) : Option Nat → List Line → List Bool
  | _, [] => []
  | since, line :: rest =>
    let since := if line.selected then some 0 else since.map (· + 1)
    since.any (· ≤ count) :: near count since rest

/-- The lines that are shown: selected ones, and those near enough before or after one. -/
def chosen (search : Search) (lines : List Line) : List Line :=
  let behind := near (search.after.getD 0) none lines
  let ahead := (near (search.before.getD 0) none lines.reverse).reverse
  ((lines.zip (behind.zip ahead)).filter fun (_, a, b) => a || b).map (·.1)

/-- A line as it is shown, perhaps behind the name of its file. A colon stands behind what is told
of a selected line, a dash behind that of another. -/
def written (search : Search) (name : Option String) (line : Line) : Bytes :=
  let mark := if line.selected then ":" else "-"
  let front := name.elim "" fun name => name ++ if search.asks 'Z' then "\x00" else mark
  let number := if search.asks 'n' then toString line.number ++ mark else ""
  let place := if search.asks 'b' then toString line.place ++ mark else ""
  let parts :=
    if !search.asks 'o' then [line.text]
    else if search.asks 'v' || !line.selected then []
    else search.pattern.partsOf true 0 line.text
  parts.flatMap fun part => Text.encode (front ++ number ++ place) ++
    charBytes (part ++ [search.ending])

/-- Lines as they are shown. Dashes stand before one that follows no other, unless it is the first
of all; the number is that of the line before, if a line of the same file was shown. -/
def writtenAll (search : Search) (name : Option String) : Bool → Option Nat → List Line → Bytes
  | _, _, [] => []
  | used, last, line :: rest =>
    let apart :=
      (search.before.isSome || search.after.isSome) && used && last ≠ some (line.number - 1)
    (if apart then Text.encode "--\n" else []) ++ search.written name line ++
      writtenAll search name true (some line.number) rest

/-! ## Files -/

/-- A file to search: its name, `none` for the input, and whether it was found in a directory. -/
structure Target where
  file : Option String
  found : Bool

def Target.name (target : Target) : String := target.file.getD "(standard input)"

/-- The files below a directory. The number bounds the depth. -/
def below (tree : FileTree) : Nat → Place → String → List Target
  | 0, _, _ => []
  | n + 1, place, above =>
    (tree.names place).flatMap fun name =>
      match tree.get? (place ++ [name]) with
      | some .directory => below tree n (place ++ [name]) (above ++ name ++ "/")
      | some (.file _ _) => [⟨some (above ++ name), true⟩]
      | _ => []

def targets (search : Search) (start : ProgramStart) (files : List String) : List Target :=
  let deep := search.asks 'r' || search.asks 'R'
  let depth := start.tree.entries.length + 1
  match files with
  | [] => if deep then below start.tree depth start.cwd "" else [⟨none, false⟩]
  | _ =>
    files.flatMap fun file =>
      if file = "-" then [⟨none, false⟩]
      else
        match start.tree.look start.cwd ⟨file⟩ with
        | .ok (place, .directory) =>
          if !deep then [⟨some file, false⟩]
          else below start.tree depth place (if file.toList.getLast? = some '/' then file
            else file ++ "/")
        | _ => [⟨some file, false⟩]

/-- What has come of a search so far: what was printed, whether a line was selected, and whether
something failed. -/
structure Progress where
  printed : List (Outlet × Bytes)
  found : Bool
  failed : Bool

/-- What is printed of a file that could be read, in the name of a program. Something was printed
before if `used` says so. -/
def report (search : Search) (program name : String) (named used : Bool)
    (content : Bytes) (lines : List Line) :
    List (Outlet × Bytes) :=
  let count := (lines.filter (·.selected)).length
  let listed := (Outlet.output, Text.encode (name ++ if search.asks 'Z' then "\x00" else "\n"))
  let front := if named then name ++ (if search.asks 'Z' then "\x00" else ":") else ""
  let isBinary := content.contains 0 && !search.asks 'a' && !search.asks 'z'
  if search.asks 'q' then []
  else if search.asks 'l' then (if count = 0 then [] else [listed])
  else if search.asks 'L' then (if count = 0 then [listed] else [])
  else if search.asks 'c' then [(.output, Text.encode (front ++ toString count ++ "\n"))]
  else if isBinary then
    if count = 0 then [] else
      [(.errors, Text.encode (program ++ ": " ++ name ++ ": binary file matches\n"))]
  else [(.output,
    search.writtenAll (if named then some name else none) used none (search.chosen lines))]

/-- Searches one file more, unless a quiet search has found a line. -/
def step (search : Search) (start : ProgramStart) (several : Bool)
    (progress : Progress) (target : Target) :
    Progress :=
  if progress.found && search.asks 'q' then progress
  else
    let content : Except FileError Bytes :=
      match target.file with
      | none => start.input.mapError .system
      | some name => start.tree.readBytes start.cwd ⟨name⟩
    match content with
    | .error e =>
      let complaint :=
        (Outlet.errors, Text.encode (start.name ++ ": " ++ target.name ++ ": " ++ reason e ++ "\n"))
      { progress with
        printed := progress.printed ++ (if search.asks 's' then [] else [complaint])
        failed := true }
    | .ok bytes =>
      if search.asks 'I' && bytes.contains 0 then progress
      else
        let lines := search.lines bytes
        let named := !search.asks 'h' && (search.asks 'H' || several || target.found)
        let used := progress.printed.any fun piece => piece.1 = .output && piece.2 ≠ []
        { progress with
          printed := progress.printed ++ search.report start.name target.name named used bytes lines
          found := progress.found || lines.any (·.selected) }

/-- Whether it is clear beforehand that no line will be selected: none is asked for, there is no
pattern, or lines are asked for in which the empty text does not occur. -/
def isHopeless (search : Search) : Bool :=
  let idle :=
    search.pattern = .never && !search.asks 'v' ||
      search.pattern = .nothing && search.asks 'v' && !search.asks 'x' && !search.asks 'w'
  (search.most = some 0 || idle) && !search.asks 'L'

/-- Carries out a search in files, after some warnings. It succeeds if a line was selected, and
fails with another code if a file cannot be read. -/
def run (search : Search) (warnings files : List String) : Program := fun start =>
  let targets := search.targets start files
  let warned := warnings.map fun text =>
    (Outlet.errors, Text.encode (start.name ++ ": warning: " ++ text ++ "\n"))
  if search.isHopeless then { code := 1, printed := warned, tree := start.tree }
  else
    let done := targets.foldl (search.step start (1 < files.length)) ⟨warned, false, false⟩
    { code := if done.found && (search.asks 'q' || !done.failed) then 0
      else if done.failed then 2 else 1
      printed := done.printed
      tree := start.tree
      drained := targets.any fun target => target.file.isNone }

end Search

def grepOptions : OptionSet where
  letters := "0123456789EFGHILPRTUVZabchilnoqrsuvwxyz"
  valued := "ABCDdefm"
  words := [
    ("basic-regexp", 'G'), ("extended-regexp", 'E'), ("fixed-regexp", 'F'), ("fixed-strings", 'F'),
    ("perl-regexp", 'P'), ("after-context", 'A'), ("before-context", 'B'),
    ("byte-offset", 'b'), ("context", 'C'),
    ("color", 'U'), ("colour", 'U'), ("count", 'c'), ("devices", 'D'),
    ("directories", 'd'), ("file", 'f'),
    ("files-with-matches", 'l'), ("files-without-match", 'L'),
    ("ignore-case", 'i'), ("initial-tab", 'T'),
    ("line-buffered", 'U'), ("line-number", 'n'), ("line-regexp", 'x'),
    ("max-count", 'm'), ("no-filename", 'h'),
    ("no-messages", 's'), ("null", 'Z'), ("null-data", 'z'), ("only-matching", 'o'), ("quiet", 'q'),
    ("recursive", 'r'), ("dereference-recursive", 'R'), ("regexp", 'e'),
    ("invert-match", 'v'), ("silent", 'q'),
    ("text", 'a'), ("binary", 'U'), ("with-filename", 'H'), ("word-regexp", 'w')]

/-- The lines of the patterns that options give, or a complaint about a file that should hold
some. -/
def givenPatterns (start : ProgramStart) (options : List (Char × String)) :
    Except String (List (List Char)) := do
  let all ← (options.filter fun option => option.1 = 'e' || option.1 =
      'f').mapM fun (letter, value) =>
    if letter = 'e' then .ok (Text.encode value ++ [10])
    else
      match if value = "-" then start.input.mapError .system else
        start.tree.readBytes start.cwd ⟨value⟩ with
      | .ok bytes => .ok (if bytes = [] || bytes.getLast? = some 10 then bytes else bytes ++ [10])
      | .error e => .error (value ++ ": " ++ reason e)
  return (cutAfter '\n' (byteChars all.flatten)).map List.dropLast

def grep : Program := fun start =>
  let usage := "Usage: " ++ start.name ++ " [OPTION]... PATTERNS [FILE]...\nTry '" ++ start.name ++
    " --help' for more information.\n"
  match grepOptions.read start.arguments with
  | .told => quit 0 start
  | .refused text => warn 2 (start.name ++ ": " ++ text ++ "\n" ++ usage) start
  | .taken options operands =>
    let isGiven := has options 'e' || has options 'f'
    let pattern := operands.headD ""
    if has options 'V' then quit 0 start
    else if !isGiven && operands.isEmpty then warn 2 usage start
    else
      match do
        readSearch options
          (← givenPatterns start (if isGiven then options else [('e', pattern)])) with
      | .error text => complain 2 text start
      | .ok (search, warnings) =>
        search.run warnings (if isGiven then operands else operands.drop 1) start

end ShaderEmbed.Program
