import ShaderEmbed.Tool.Shell.Option
import ShaderEmbed.Tool.Shell.Redirect

/-!
# Commands of scripts

A command is run by its name: it is one of the commands of the shell, a function, another script, or
a program.
-/

namespace ShaderEmbed.Shell

/-- Ends the script with a code, or with the status of the last command. -/
def exit (arguments : List String) (s : State) : State :=
  match arguments with
  | [] => s.quit (.code s.status)
  | text :: _ =>
    match number? text with
    | some n => (s.withStatus (n % 256)).quit (.code (n % 256))
    | none => s.refuse ("exit: Illegal number: " ++ text)

def leaveCall (arguments : List String) (s : State) : State :=
  match arguments with
  | [] => { s with leaving := some .call }
  | text :: _ =>
    match number? text with
    | some n => { s.withStatus n with leaving := some .call }
    | none => s.refuse ("return: Illegal number: " ++ text)

def leaveLoops (name : String) (again : Bool) (arguments : List String) (s : State) : State :=
  let asked := match arguments with
    | [] => some 1
    | text :: _ => (number? text).filter (0 < ·)
  match asked with
  | none => s.refuse (name ++ ": Illegal number: " ++ arguments.headD "")
  | some n =>
    if s.loops = 0 then s.withStatus 0 else
      { s.withStatus 0 with leaving := some (.loops again (min n s.loops)) }

/-- The names that a path leads to from others, where `..` takes back the last name, be it that of a
link. -/
def namesTo (names : Place) (path : List String) : Place :=
  path.foldl (fun names segment =>
    if segment = "" || segment = "." then names
    else if segment = ".." then names.dropLast
    else names ++ [segment]) names

def changeDirectory (arguments : List String) (s : State) : State :=
  let operands :=
    arguments.filter fun argument => argument ≠ "-P" && argument ≠ "-L" && argument ≠ "--"
  let old := (Path.ofPlace s.directory).text
  let target :=
    match operands with
    | [] => (s.bindings.lookup "HOME").getD ""
    | ["-"] => (s.bindings.lookup "OLDPWD").getD old
    | first :: _ => first
  -- taken along the names by which the script went, so that `..` leaves a link the way it was
  -- entered
  let fromRoot := "/".toList.isPrefixOf target.toList
  let names := namesTo (if fromRoot then [] else s.directory) (target.splitOn "/")
  match s.tree.look s.cwd (Path.ofPlace names) with
  | .ok (place, .directory) =>
    let physical := arguments.contains "-P"
    let moved :=
      { s with cwd := place, directory := if physical then place else names }.assign "OLDPWD" old
    if operands = ["-"] then
      (moved.withStatus 0).print "cd" (Text.encode ((Path.ofPlace names).text ++ "\n"))
    else moved.withStatus 0
  | _ => (s.complain ("cd: can't cd to " ++ target)).withStatus 2

def tellDirectory (arguments : List String) (s : State) : State :=
  let place := if arguments.contains "-P" then s.cwd else s.directory
  (s.withStatus 0).print "pwd" (Text.encode ((Path.ofPlace place).text ++ "\n"))

def shift (arguments : List String) (s : State) : State :=
  match (arguments.head?.map number?).getD (some 1) with
  | some count =>
    if count ≤ s.arguments.length then { s with arguments := s.arguments.drop count }.withStatus 0
    else s.refuse "shift: can't shift that many"
  | none => s.refuse ("shift: Illegal number: " ++ arguments.headD "")

/-- The name and the value of an assignment that was expanded. -/
def splitAssignment (argument : String) : String × Option String :=
  match argument.toList.dropWhile (· ≠ '=') with
  | _ :: value => (String.ofList (argument.toList.takeWhile (· ≠ '=')), some (String.ofList value))
  | [] => (argument, none)

/-- Gives names values, each written as an assignment. -/
def assignEach (command : String) (arguments : List String) (s : State) : State :=
  arguments.foldl (fun s argument => s.andThen fun s =>
    let (name, value) := splitAssignment argument
    if !isName name.toList then s.refuse (command ++ ": " ++ name ++ ": bad variable name")
    else
      match value with
      | some value => s.tryAssign name value
      | none => s) (s.withStatus 0)

/-- Gives names values for the time of a function. -/
def hide (arguments : List String) (s : State) : State :=
  match s.hidden with
  | none => s.refuse "local: not in a function"
  | some hidden =>
    let names := arguments.map fun argument => (splitAssignment argument).1
    assignEach "local" arguments { s with hidden := some (hidden ++ names) }

/-- The first line of an input and what follows it, and whether the line has its end. A backslash
before a line end joins two lines. -/
def inputLine (raw : Bool) : Bytes → Bytes × Bytes × Bool
  | [] => ([], [], false)
  | 10 :: rest => ([], rest, true)
  | 92 :: c :: rest =>
    let (line, after, ended) := inputLine raw rest
    -- raw lines are not joined
    if raw then
      if c = 10 then ([92], rest, true) else (92 :: c :: line, after, ended)
    else if c = 10 then (line, after, ended) else (c :: line, after, ended)
  | b :: rest =>
    let (line, after, ended) := inputLine raw rest
    (b :: line, after, ended)

/-- A line cut into values for some names; the last one takes all that is left. -/
def distribute (separators : List Char) : List String → List Char → List (String × String)
  | [], _ => []
  | [name], text =>
    let isBlank (c : Char) : Bool := separators.contains c && (c = ' ' || c = '\t' || c = '\n')
    [(name, String.ofList (((text.dropWhile isBlank).reverse.dropWhile isBlank).reverse))]
  | name :: names, text =>
    let isBlank (c : Char) : Bool := separators.contains c && (c = ' ' || c = '\t' || c = '\n')
    let text := text.dropWhile isBlank
    let value := text.takeWhile fun c => !separators.contains c
    let rest := (text.dropWhile fun c => !separators.contains c).dropWhile isBlank
    -- one separator that is no blank goes with the value in front of it
    let rest := match rest with
      | c :: more => if separators.contains c && !isBlank c then more else rest
      | [] => []
    (name, String.ofList value) :: distribute separators names rest

/-- The names that a reading gives values, without its options. -/
def readNames : List String → List String
  | "-p" :: _ :: rest => readNames rest
  | "-r" :: rest => readNames rest
  | "--" :: rest => rest
  | names => names

def readLine (arguments : List String) (s : State) : State :=
  let names := readNames arguments
  if names.isEmpty then (s.complain "read: arg count").withStatus 2
  else if let some name := names.find? fun name => !isName name.toList then
    (s.complain ("read: " ++ name ++ ": bad variable name")).withStatus 2
  else
    let input := (s.streams.readable s.tree 0).toOption.getD []
    let (line, rest, ended) := inputLine (arguments.contains "-r") input
    let values := distribute s.separators names (Text.decodeLossy line).toList
    let passed := { s with streams := s.streams.pass 0 (input.length - rest.length) }
    let given := values.foldl (fun (t : State) pair => t.assign pair.1 pair.2) passed
    given.withStatus (if ended then 0 else 1)

def unset (arguments : List String) (s : State) : State :=
  let functions := arguments.head? = some "-f"
  let names := if functions || arguments.head? = some "-v" then arguments.drop 1 else arguments
  names.foldl (fun s name => s.andThen fun s =>
    if functions then { s with functions := s.functions.filter (·.1 ≠ name) }
    else if !isName name.toList then s.refuse ("unset: " ++ name ++ ": bad variable name")
    else if s.fixed.contains name then s.refuse ("unset: " ++ name ++ ": is read only")
    else { s.unassign name with exported := s.exported.filter (· ≠ name) }) (s.withStatus 0)

/-- Waits for what runs on its own: all of it, or processes by their numbers. -/
def wait (arguments : List String) (s : State) : State :=
  match arguments.getLast? with
  | none => s.withStatus 0
  | some process => s.withStatus (if process = backgroundNumber then s.background.getD 127 else 127)

/-! ## Scripts -/

/-- Starts a script on its own with some streams: its text is given, stands in the file named first,
or is read from the input. It finds some names with values. -/
def startScript (nested : Runner) (name : String) (arguments : List String)
    (given : Bindings) (streams : Streams) (cwd : Place) (tree : FileTree) : State :=
  let read := ShellArguments.read arguments {}
  let fresh (name : String) (arguments : List String) : State :=
    let bare := State.start name arguments streams cwd tree
    { bare with
      options := read.options
      bindings := given ++ bare.bindings.filter fun pair => (given.lookup pair.1).isNone
      exported := given.map (·.1) }
  if let some option := read.unknown then (fresh name []).refuse ("Illegal option " ++ option)
  else if read.letters.contains 'c' then
    match read.operands with
    | [] => (fresh name []).refuse "-c requires an argument"
    | text :: rest =>
      finish nested (nested.run 1 text.toList (fresh (rest.headD name) (rest.drop 1)))
  else if read.operands.isEmpty || read.letters.contains 's' then
    let input := (streams.readable tree 0).toOption.getD []
    let ready := fresh name read.operands
    finish nested
      (nested.run 1 (Text.decodeLossy input).toList
        { ready with streams := streams.pass 0 input.length })
  else
    let file := read.operands.headD ""
    match tree.readBytes cwd ⟨file⟩ with
    | .ok text =>
      finish nested
        (nested.run 1 (Text.decodeLossy text).toList (fresh file (read.operands.drop 1)))
    | .error e =>
      if tree.isDirectory cwd ⟨file⟩ then fresh file (read.operands.drop 1)
      else (fresh name []).refuse ("cannot open " ++ file ++ ": " ++ openReason "No such file" e)

/-- Runs a script on its own as a command of another one, which lends it its streams. -/
def callScript (nested : Runner) (name : String) (arguments : List String) (s : State) : State :=
  let given := s.bindings.filter fun pair => s.exported.contains pair.1
  let after := startScript nested name arguments given s.streams s.cwd s.tree
  let notice := match after.finalStatus with
    | .signal n => signalNotice? n
    | _ => none
  { s with
    tree := after.tree
    streams := s.streams.backTo after.streams
    notice := notice }.withStatus after.seenStatus

/-- The files that a name can stand for, given the directories that the script looks in. -/
def State.candidates (s : State) (name : String) : List Path :=
  Launch.candidates ((s.bindings.lookup "PATH").getD "") name

def includeScript (nested : Runner) (arguments : List String) (s : State) : State :=
  match arguments with
  | [] => s.withStatus 0
  | file :: _ =>
    let isPath := file.toList.contains '/'
    let found := if isPath then some ⟨file⟩ else (s.candidates file).find? (s.tree.isFile s.cwd)
    match found with
    | none => s.refuse (".: " ++ file ++ ": not found")
    | some path =>
      match s.tree.readBytes s.cwd path with
      | .ok text =>
        let after := nested.run 1 (Text.decodeLossy text).toList { s.withStatus 0 with
          speaker := file ++ ": " }
        { after with
          line := s.line
          speaker := s.speaker
          leaving := if after.leaving = some .call then none else after.leaving }
      | .error e =>
        if s.tree.isDirectory s.cwd path then s.withStatus 0
        else s.refuse (".: cannot open " ++ file ++ ": " ++ openReason "No such file" e)

/-! ## Programs -/

/-- The programs that are part of the shell, which complains in their name. -/
def ownPrograms : List (String × Program) :=
  [("test", Program.test), ("[", Program.bracket), ("printf", Program.printf),
    ("echo", Program.echo), ("true", Program.quit 0), ("false", Program.quit 1)]

/-- Runs a program that is part of the shell. What it complains of is told before what it prints. -/
def callOwn (program : Program) (name : String) (arguments : List String) (s : State) : State :=
  let after := program ⟨name, arguments, .ok [], s.cwd, s.tree⟩
  let front := Text.encode (s.name ++ ": " ++ toString s.line ++ ": ")
  let complaints := (after.printed.filter (·.1 = .errors)).flatMap fun piece => front ++ piece.2
  ((s.send 2 complaints).withStatus after.code).print name (after.on .output)

/-- The devices through which a program finds its streams among the files. -/
def streamDevices : List (Nat × Place) :=
  [(0, ["dev", "stdin"]), (1, ["dev", "stdout"]), (2, ["dev", "stderr"])]

/-- Sends what a program printed to the streams, in its order, given the first failure of its output
so far, and yields that failure. After a failure only complaints are sent. -/
def sendPrinted : Option Errno → List (Outlet × Bytes) → State → State × Option Errno
  | failure, [], s => (s, failure)
  | failure, (.errors, bytes) :: rest, s => sendPrinted failure rest (s.send 2 bytes)
  | failure, (.output, bytes) :: rest, s =>
    if failure.isSome || bytes = [] then sendPrinted failure rest s
    else
      match s.write 1 bytes with
      | .ok after => sendPrinted none rest after
      | .error e => sendPrinted (some e) rest s

/-- What a program says of its output that could not be written, and the status that it ends
with. -/
def outputFailure (launch : Launch) (e : Errno) : String × Nat :=
  (launch.name ++ ": write error: " ++ e.text ++ "\n", if launch.program = "grep" then 2 else 1)

/-- Runs an installed program. What shows files asks for its output before it starts. -/
def callInstalled (program : Program) (launch : Launch) (s : State) : State :=
  if launch.program = "cat" && (s.streams.number? 1).isNone then
    (s.send 2 (Text.encode (launch.name ++ ": standard output: " ++
      Errno.badStream.text ++ "\n"))).withStatus 1
  else
    let input := s.streams.readable s.tree 0
    let content (stream : Nat) : Bytes := if stream = 0 then input.toOption.getD [] else []
    let lent := streamDevices.foldl (fun tree device =>
      tree.put device.2 (.file (content device.1))) s.tree
    let after := program ⟨launch.name, launch.arguments, input, s.cwd, lent⟩
    let left (place : Place) : Bytes :=
      match after.tree.get? place with
      | some (.file bytes _) => bytes
      | _ => []
    let tree := streamDevices.foldl (fun tree device =>
      (s.tree.get? device.2).elim (tree.clear device.2) (tree.put device.2)) after.tree
    let passed := if after.drained then s.streams.pass 0 (content 0).length else s.streams
    let printed :=
      after.printed ++ [(.output, left ["dev", "stdout"]), (.errors, left ["dev", "stderr"])]
    match sendPrinted none printed { s with tree := tree, streams := passed } with
    | (sent, none) => sent.withStatus after.code
    | (sent, some e) =>
      let (text, code) := outputFailure launch e
      (sent.send 2 (Text.encode text)).withStatus code

def notRun (front name : String) (e : FileError) (s : State) : State :=
  let text := if Launch.isAbsent e then "not found" else Program.reason e
  let isMissing := Launch.isAbsent e || e = .system .linkLoop || e = .system .nameTooLong
  (s.complain (front ++ name ++ ": " ++ text)).withStatus (if isMissing then 127 else 126)

def callLaunch (nested : Runner) (launch : Launch) (s : State) : State :=
  if launch.program = Program.shellName then callScript nested launch.name launch.arguments s
  else
    match Program.installed.lookup launch.program with
    | some program => callInstalled program launch s
    | none => s.withStatus 127

def State.isStartable (s : State) (path : Path) : Bool :=
  match s.tree.look s.cwd path with
  | .ok (_, .file _ runnable) => runnable
  | _ => false

/-- Runs the first of some files that can be run; one that is no program is taken for a script. -/
def callFirst (nested : Runner) (front name : String) (files : List Path)
    (arguments : List String) (s : State) :
    State :=
  match Launch.ofFirst s.tree s.cwd name arguments (.system .noEntry) files with
  | .ok launch => callLaunch nested launch s
  | .error e =>
    match if e = .system .badImage then files.find? s.isStartable else none with
    | some file => callScript nested "/bin/sh" (file.text :: arguments) s
    | none => notRun front name e s

/-- Why none of some files can be a program. -/
def absence (s : State) (files : List Path) : FileError :=
  files.foldl (fun e file =>
    match s.tree.look s.cwd file with
    | .ok _ => .system .denied
    | .error new => if Launch.isAbsent new then e else new) (.system .noEntry)

/-- The files that a bare name stands for, or the one that any other name does. -/
def State.programFiles (s : State) (name : String) : List Path :=
  if name.toList.contains '/' then [⟨name⟩] else (s.candidates name).filter s.isStartable

def callTool (nested : Runner) (name : String) (arguments : List String) (s : State) : State :=
  match s.programFiles name with
  | [] =>
    let e := if name = "" then .system .denied else absence s (s.candidates name)
    (notRun "" name e s).withStatus 127
  | files => callFirst nested "" name files arguments s

/-! ## Names of commands -/

/-- The commands that end a script when they fail, and whose assignments stay. -/
def firmCommands : List String :=
  [".", ":", "break", "continue", "eval", "exec", "exit", "export", "readonly",
    "return", "set", "shift", "times", "trap", "unset"]

def plainCommands : List String :=
  ["cd", "command", "getopts", "hash", "jobs", "kill", "local", "pwd", "read", "type",
    "ulimit", "umask", "wait"]

/-- What a name of a command stands for. -/
inductive CommandKind where
  | keyword
  | function
  | firm
  | own
  | file (path : String)
  | nothing

def State.commandKind (s : State) (name : String) : CommandKind :=
  if reservedWords.contains name then .keyword
  else if firmCommands.contains name then .firm
  else if (s.functions.lookup name).isSome then .function
  else if plainCommands.contains name || (ownPrograms.lookup name).isSome then .own
  else
    match (s.programFiles name).find? fun file => (s.tree.look s.cwd file).isOk with
    | some file => .file file.text
    | none => .nothing

def describe (arguments : List String) (s : State) : State :=
  match arguments with
  | [] => s.withStatus 0
  | name :: _ =>
    match s.commandKind name with
    | .file path => (s.withStatus 0).print "command" (Text.encode (path ++ "\n"))
    | .nothing => s.withStatus 127
    | _ => (s.withStatus 0).print "command" (Text.encode (name ++ "\n"))

def classify (command : String) (arguments : List String) (s : State) : State :=
  arguments.foldl (fun s name =>
    let say (text : String) : State := s.print command (Text.encode (name ++ text ++ "\n"))
    match s.commandKind name with
    | .keyword => say " is a shell keyword"
    | .function => say " is a shell function"
    | .firm => say " is a special shell builtin"
    | .own => say " is a shell builtin"
    | .file path => say (" is " ++ path)
    | .nothing => (say ": not found").withStatus 127) (s.withStatus 0)

def hash (arguments : List String) (s : State) : State :=
  arguments.foldl (fun s name =>
    match s.commandKind name with
    | .nothing => (s.complain ("hash: " ++ name ++ ": not found")).withStatus 1
    | _ => s) (s.withStatus 0)

/-! ## Calls -/

/-- Runs a function: the arguments are its own while it runs, and what it hides comes back. -/
def callFunction (nested : Runner) (body : Script) (arguments : List String) (s : State) : State :=
  let after := nested.call body { s with arguments := arguments, hidden := some [], loops := 0 }
  -- values come from before the call, also for names that were hidden twice
  let shown :=
    (after.hidden.getD []).foldl (fun (t : State) name =>
      t.restore name (s.bindings.lookup name)) after
  { shown with
    arguments := s.arguments
    hidden := s.hidden
    loops := s.loops
    leaving := if after.leaving = some .call then none else after.leaving }

/-- Runs a command of the shell, a program or a script by its name. -/
def callCommand (nested : Runner) (name : String) (arguments : List String) (s : State) : State :=
  let given := arguments.filter fun argument => !"-".toList.isPrefixOf argument.toList
  let names := given.map fun argument => (splitAssignment argument).1
  match name with
  | ":" => s.withStatus 0
  | "." => includeScript nested arguments s
  | "break" => leaveLoops "break" false arguments s
  | "continue" => leaveLoops "continue" true arguments s
  | "eval" =>
    let after :=
      nested.run 1 (" ".intercalate arguments).toList { s.withStatus 0 with speaker := "eval: " }
    { after with speaker := s.speaker }
  | "exit" => exit arguments s
  | "export" =>
    let after := assignEach "export" given s
    { after with exported := names ++ after.exported }
  | "readonly" =>
    let after := assignEach "readonly" given s
    { after with fixed := names ++ after.fixed }
  | "return" => leaveCall arguments s
  | "set" => setOptions arguments s
  | "shift" => shift arguments s
  | "trap" => trap arguments s
  | "unset" => unset arguments s
  | "cd" => changeDirectory arguments s
  | "getopts" => getOptions arguments s
  | "hash" => hash arguments s
  | "kill" => kill nested arguments s
  | "local" => hide arguments s
  | "pwd" => tellDirectory arguments s
  | "read" => readLine arguments s
  | "type" => classify "type" arguments s
  | "umask" =>
    (s.withStatus 0).print "umask" (if arguments.isEmpty then Text.encode "0022\n" else [])
  | "wait" => wait arguments s
  | _ =>
    match ownPrograms.lookup name with
    | some program => callOwn program name arguments s
    | none =>
      if (firmCommands ++ plainCommands).contains name then s.withStatus 0 else
        callTool nested name arguments s

def call (nested : Runner) (name : String) (arguments : List String) (s : State) : State :=
  match name, arguments with
  | "exec", [] => s.withStatus 0
  | "exec", tool :: rest =>
    let after := callFirst nested "exec: " tool (s.candidates tool) rest s
    after.quit (.code after.status)
  | "command", "-v" :: rest => describe rest s
  | "command", "-V" :: rest => classify "command" (rest.take 1) s
  | "command", "-p" :: tool :: rest => callCommand nested tool rest s
  | "command", [] => s.withStatus 0
  | "command", tool :: rest => callCommand nested tool rest s
  | _, _ =>
    match if firmCommands.contains name then none else s.functions.lookup name with
    | some body => callFunction nested body arguments s
    | none =>
      if (firmCommands ++ plainCommands).contains name then
        { callCommand nested name arguments { s with speaker := "" } with speaker := s.speaker }
      else callCommand nested name arguments s

end ShaderEmbed.Shell
