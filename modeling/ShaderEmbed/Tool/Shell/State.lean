import ShaderEmbed.Tool.Launch
import ShaderEmbed.Tool.Shell.Glob
import ShaderEmbed.Tool.Shell.Script
import ShaderEmbed.Tool.Shell.Stream
import ShaderEmbed.Tool.Shell.Sum
import ShaderEmbed.Tool.Status

/-!
# The state of a running script

A running script has arguments and named values, functions, a status, streams that lead somewhere,
and the files. It may have ended, or be on its way out of a loop or a function.
-/

namespace ShaderEmbed.Shell

/-- What a script is on its way out of: a number of loops, the last of which is gone on with or
left, or a call. -/
inductive Leaving where
  | loops (again : Bool) (count : Nat)
  | call
deriving DecidableEq

/-- What options ask for: to end after a failure, to refuse names without values, to tell commands,
not to look for paths that fit, not to replace files, to export all names that are given values, and
to run nothing more. -/
structure Options where
  strict : Bool := false
  careful : Bool := false
  telling : Bool := false
  literal : Bool := false
  guarded : Bool := false
  exporting : Bool := false
  idle : Bool := false

def Options.letters (options : Options) : List Char :=
  ([('u', options.careful), ('a', options.exporting),
    ('C', options.guarded), ('x', options.telling), ('n', options.idle), ('f', options.literal),
      ('e', options.strict)].filter (·.2)).map (·.1)

/-- The state of a running script, with the lines of the command that runs and of what has been
read. The speaker is the command in whose name complaints are made; the hidden names get their
values back when a function ends. What happens in a test does not end a strict script. The directory
has the names by which the script went there, links among them, and the letters of an argument that
were taken as options are counted. A notice is given once the streams lead where they led before. -/
structure State where
  name : String
  line : Nat
  reached : Nat
  speaker : String
  arguments : List String
  bindings : Bindings
  exported : List String
  fixed : List String
  functions : List (String × Script)
  hidden : Option (List String)
  traps : List (Nat × String)
  options : Options
  letters : Nat
  subject : List Char
  status : Nat
  background : Option Nat
  notice : Option String
  cwd : Place
  directory : Place
  tree : FileTree
  streams : Streams
  tested : Bool
  loops : Nat
  leaving : Option Leaving
  ended : Option ExitStatus

def ownNumber : String := "4096"

/-- The process number of what a script has left to run on its own. -/
def backgroundNumber : String := "4097"

def usualBindings : Bindings :=
  [("PATH", Launch.usualDirectories), ("OPTIND", "1"), ("PPID", "4095"), ("PS1", "# "),
    ("PS2", "> "), ("PS4", "+ ")]

namespace State

def start (name : String) (arguments : List String) (streams : Streams) (cwd : Place)
    (tree : FileTree) : State where
  name := name
  line := 0
  reached := 0
  speaker := ""
  arguments := arguments
  bindings := usualBindings
  exported := []
  fixed := []
  functions := []
  hidden := none
  traps := []
  options := {}
  letters := 0
  subject := []
  status := 0
  background := none
  notice := none
  cwd := cwd
  directory := cwd
  tree := tree
  streams := streams
  tested := false
  loops := 0
  leaving := none
  ended := none

/-- Whether nothing more is done where the script stands. -/
def isHalted (s : State) : Bool := s.ended.isSome || s.leaving.isSome

/-- Goes on unless the script has ended or is on its way out. -/
def andThen (s : State) (next : State → State) : State := if s.isHalted then s else next s

def withStatus (s : State) (code : Nat) : State := { s with status := code }

def quit (s : State) (status : ExitStatus) : State := { s with ended := some status }

/-- How the script ended, or would end now. -/
def finalStatus (s : State) : ExitStatus := s.ended.getD (.code s.status)

/-- The status of an ended script as another script sees it. -/
def seenStatus (s : State) : Nat :=
  match s.finalStatus with
  | .code value => value.toNat
  | .signal number => 128 + number
  | .stated _ => 1

def write (s : State) (stream : Nat) (bytes : Bytes) : Except Errno State :=
  (s.streams.write s.tree stream bytes).map fun (streams, tree) =>
    { s with streams := streams, tree := tree }

/-- Writes to a stream; what cannot be written is lost. -/
def send (s : State) (stream : Nat) (bytes : Bytes) : State :=
  (s.write stream bytes).toOption.getD s

def complain (s : State) (text : String) : State :=
  s.send 2 (Text.encode (s.name ++ ": " ++ toString s.line ++ ": " ++ s.speaker ++ text ++ "\n"))

/-- Prints bytes in the name of a command, which fails if there is no place for them. -/
def print (s : State) (command : String) (bytes : Bytes) : State :=
  if bytes = [] then s
  else
    match s.write 1 bytes with
    | .ok after => after
    | .error _ => (s.complain (command ++ ": " ++ command ++ ": I/O error")).withStatus 1

def refuse (s : State) (text : String) : State := ((s.complain text).withStatus 2).quit (.code 2)

/-- Gives the notice that is to be given. -/
def giveNotice (s : State) : State :=
  match s.notice with
  | some text => { s with notice := none }.send 2 (Text.encode (text ++ "\n"))
  | none => s

/-- Gives a name a value. The reading of options starts anew where the place of the next one is
given. -/
def assign (s : State) (name value : String) : State :=
  { s with
    bindings := (name, value) :: s.bindings.filter (·.1 ≠ name)
    letters := if name = "OPTIND" then 0 else s.letters
    exported := if s.options.exporting then name :: s.exported else s.exported }

/-- Gives a name a value, unless its value is fixed. -/
def tryAssign (s : State) (name value : String) : State :=
  if s.fixed.contains name then s.refuse (name ++ ": is read only") else s.assign name value

def unassign (s : State) (name : String) : State :=
  { s with bindings := s.bindings.filter (·.1 ≠ name) }

/-- Gives a name the value it had, or none. -/
def restore (s : State) (name : String) (value : Option String) : State :=
  match value with
  | some value => s.assign name value
  | none => s.unassign name

def separators (s : State) : List Char := ((s.bindings.lookup "IFS").getD " \t\n").toList

def parameter? (s : State) (name : String) : Option String :=
  match name with
  | "#" => some (toString s.arguments.length)
  | "?" => some (toString s.status)
  | "$" => some ownNumber
  | "0" => some s.name
  | "!" => s.background.map fun _ => backgroundNumber
  | "-" => some (String.ofList s.options.letters)
  | "@" => if s.arguments.isEmpty then none else some (" ".intercalate s.arguments)
  | "*" =>
    let between :=
      if (s.bindings.lookup "IFS").isSome then String.ofList (s.separators.take 1) else " "
    if s.arguments.isEmpty then none else some (between.intercalate s.arguments)
  | "PWD" => some (Path.ofPlace s.directory).text
  | _ =>
    match name.toNat? with
    | some n => s.arguments[n - 1]?
    | none => s.bindings.lookup name

end State

end ShaderEmbed.Shell
