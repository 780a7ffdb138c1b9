import ShaderEmbed.File.Access
import ShaderEmbed.Tool.Quoting

/-!
# Programs

A program is started with arguments and an input in a working directory. It leaves an exit code,
what it printed to its two outputs in the order in which it did so, and the files.
-/

namespace ShaderEmbed

/-- What a program is started with. Its input is what can be read there, or why nothing can. -/
structure ProgramStart where
  name : String
  arguments : List String
  input : Except Errno Bytes
  cwd : Place
  tree : FileTree

/-- The outputs of a program. -/
inductive Outlet where
  | output
  | errors
deriving DecidableEq

/-- How a program ends, and whether it has read its input to the end. -/
structure ProgramEnd where
  code : Nat
  printed : List (Outlet × Bytes)
  tree : FileTree
  drained : Bool := false

/-- A program. -/
abbrev Program := ProgramStart → ProgramEnd

def ProgramEnd.on (ended : ProgramEnd) (outlet : Outlet) : Bytes :=
  ended.printed.flatMap fun piece => if piece.1 = outlet then piece.2 else []

namespace Program

/-- Ends with a code. -/
def quit (code : Nat) : Program := fun start => { code := code, printed := [], tree := start.tree }

def say (output : Bytes) : Program :=
  fun start => { code := 0, printed := [(.output, output)], tree := start.tree }

def tell (text : String) : Program := say (Text.encode text)

def warn (code : Nat) (text : String) : Program := fun start =>
  { code := code, printed := [(.errors, Text.encode text)], tree := start.tree }

def complain (code : Nat) (text : String) : Program :=
  fun start => warn code (start.name ++ ": " ++ text ++ "\n") start

/-- Ends with a code and a hint at the help text after the complaint. -/
def misuse (code : Nat) (text : String) : Program := fun start =>
  complain code (text ++ "\nTry '" ++ start.name ++ " --help' for more information.") start

/-- Ends well with other files. -/
def leave (tree : FileTree) : Program := fun _ => { code := 0, printed := [], tree := tree }

def reason : FileError → String
  | .system number => number.text
  | other => other.message

/-- One program and then another, which sees the files and the input that the first one left. The
greater code counts. -/
def followedBy (first second : Program) : Program := fun start =>
  let before := first start
  let input := if before.drained then start.input.map fun _ => [] else start.input
  let after := second { start with tree := before.tree, input := input }
  ⟨max before.code after.code, before.printed ++ after.printed, after.tree,
    before.drained || after.drained⟩

/-- Goes through operands one after the other. -/
def each (one : String → Program) (operands : List String) : Program :=
  operands.foldl (fun before operand => followedBy before (one operand)) (quit 0)

/-- A change of the files that may fail. -/
def changing (change : FileTree → Place → Except FileError FileTree)
    (complaint : String) : Program := fun start =>
  match change start.tree start.cwd with
  | .ok tree => leave tree start
  | .error e => complain 1 (complaint ++ ": " ++ reason e) start

/-! ## Options -/

/-- The options that a program takes: letters, letters that take an argument, words that stand for
letters, and whether the first operand ends the options. -/
structure OptionSet where
  letters : String
  valued : String := ""
  words : List (String × Char) := []
  inFront : Bool := false

/-- What has been read of some arguments: options with their arguments and operands, that help was
asked for, or what is wrong. -/
inductive OptionReading where
  | taken (options : List (Char × String)) (operands : List String)
  | told
  | refused (text : String)

namespace OptionReading

def adding (letter : Char) (value : String) : OptionReading → OptionReading
  | taken options operands => taken ((letter, value) :: options) operands
  | other => other

def keeping (operand : String) : OptionReading → OptionReading
  | taken options operands => taken options (operand :: operands)
  | other => other

end OptionReading

namespace OptionSet

/-- The words that are options, the two that every program knows among them. -/
def allWords (set : OptionSet) : List String := set.words.map (·.1) ++ ["help", "version"]

/-- The option that a word spells, or a beginning of it that no other word has. -/
def wordOption (set : OptionSet) (word : String) : Except String String :=
  let named := String.ofList (word.toList.takeWhile (· ≠ '='))
  let possible := set.allWords.filter fun other => named.toList.isPrefixOf other.toList
  if possible.contains named then .ok named
  else
    match possible with
    | [] => .error ("unrecognized option '--" ++ word ++ "'")
    | [only] => .ok only
    | several =>
      .error ("option '--" ++ word ++ "' is ambiguous; possibilities:" ++
        String.join (several.map fun other => " '--" ++ other ++ "'"))

/-- Reads letters behind a dash. The last of them may take the next argument. -/
def readLetters (set : OptionSet) (next : Option String) : List Char →
    Except String (List (Char × String) × Bool)
  | [] => .ok ([], false)
  | c :: rest =>
    if set.valued.toList.contains c then
      match rest, next with
      | _ :: _, _ => .ok ([(c, String.ofList rest)], false)
      | [], some value => .ok ([(c, value)], true)
      | [], none => .error ("option requires an argument -- '" ++ String.ofList [c] ++ "'")
    else if set.letters.toList.contains c then
      (readLetters set next rest).map fun (others, usesNext) => ((c, "") :: others, usesNext)
    else .error ("invalid option -- '" ++ String.ofList [c] ++ "'")

/-- Reads arguments. Options may also follow operands, unless the first operand ends them; two
dashes end them, too. The number bounds the arguments. -/
def readUpTo (set : OptionSet) : Nat → List String → OptionReading
  | 0, arguments => .taken [] arguments
  | _, [] => .taken [] []
  | _, "--" :: rest => .taken [] rest
  | n + 1, argument :: rest =>
    match argument.toList with
    | '-' :: '-' :: word =>
      match set.wordOption (String.ofList word) with
      | .error text => .refused text
      | .ok named =>
        match set.words.lookup named with
        | none => .told
        | some letter =>
          let value := (word.dropWhile (· ≠ '=')).drop 1
          if set.valued.toList.contains letter && !word.contains '=' then
            match rest with
            | value :: rest => (readUpTo set n rest).adding letter value
            | [] => .refused ("option '--" ++ named ++ "' requires an argument")
          else (readUpTo set n rest).adding letter (String.ofList value)
    | '-' :: c :: more =>
      match set.readLetters rest.head? (c :: more) with
      | .error text => .refused text
      | .ok (options, usesNext) =>
        options.foldr (fun option reading => reading.adding option.1 option.2)
          (readUpTo set n (if usesNext then rest.drop 1 else rest))
    | _ => if set.inFront then .taken [] (argument :: rest) else
      (readUpTo set n rest).keeping argument

def read (set : OptionSet) (arguments : List String) : OptionReading :=
  set.readUpTo arguments.length arguments

end OptionSet

def taking (set : OptionSet) (code : Nat)
    (next : List (Char × String) → List String → Program) : Program :=
  fun start =>
    match set.read start.arguments with
    | .taken options operands => next options operands start
    | .told => quit 0 start
    | .refused text => misuse code text start

def has (options : List (Char × String)) (letter : Char) : Bool := (options.lookup letter).isSome

end Program

end ShaderEmbed
