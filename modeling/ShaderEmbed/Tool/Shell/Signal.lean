import ShaderEmbed.Tool.Shell.Expansion

/-!
# Signals

A script can send signals, of which only those to itself have an effect, and say what is done when
one comes or when the script ends. Signals go by number or by name; the end of a script counts as
number zero.
-/

namespace ShaderEmbed.Shell

def number? (text : String) : Option Nat :=
  if text ≠ "" && text.toList.all Char.isDigit then text.toNat? else none

/-- One more than the greatest number of a signal. -/
def signalCount : Nat := 65

/-- The name of a signal. Some go by their number, and those behind the first half by how far they
are from an end. -/
def signalName (n : Nat) : String :=
  if n = 0 then "EXIT"
  else if n = 16 then "16"
  else if n = 34 then "RTMIN"
  else if n = 64 then "RTMAX"
  else if 35 ≤ n && n < 50 then "RTMIN+" ++ toString (n - 34)
  else if 50 ≤ n && n < 64 then "RTMAX-" ++ toString (64 - n)
  else (ExitStatus.signalNames[n - 1]?).getD (toString n)

/-- The number of a signal, by number or by name in either case, from a least number on. -/
def signalNumber? (least : Nat) (text : String) : Option Nat :=
  match number? text with
  | some n => if n < signalCount then some n else none
  | none =>
    let same (n : Nat) : Bool := least ≤ n && text.toList.map Char.toUpper = (signalName n).toList
    (List.range signalCount).find? same

/-- What a script says of a process that a signal has ended. -/
def signalNotices : List (Nat × String) :=
  [(1, "Hangup"), (3, "Quit"), (4, "Illegal instruction"), (5, "Trace/breakpoint trap"),
    (6, "Aborted"), (7, "Bus error"), (8, "Floating point exception"), (9, "Killed"),
    (10, "User defined signal 1"),
    (11, "Segmentation fault"), (12, "User defined signal 2"),
    (14, "Alarm clock"), (15, "Terminated"),
    (16, "Stack fault"), (24, "CPU time limit exceeded"), (25, "File size limit exceeded"),
    (26, "Virtual timer expired"), (27, "Profiling timer expired"),
    (29, "I/O possible"), (30, "Power failure"),
    (31, "Bad system call")]

/-- What a script says of a process that a signal has ended, if it says anything. -/
def signalNotice? (n : Nat) : Option String :=
  if n = 2 || n = 13 then none
  else if 34 ≤ n then some ("Real-time signal " ++ toString (n - 34))
  else some ((signalNotices.lookup n).getD ("Unknown signal " ++ toString n))

/-! ## Sending -/

/-- What a kill asks for: to send a signal, or to list signals. -/
inductive KillRequest where
  | send (signal : Nat) (processes : List String)
  | list (status : Option String)

def killUsage : String :=
  "Usage: kill [-s sigspec | -signum | -sigspec] [pid | job]... or\nkill -l [exitstatus]"

def killProcesses (signal : Nat) : List String → Except String KillRequest
  | [] => .error killUsage
  | processes => .ok (.send signal processes)

def killOptions : List String → Except String KillRequest
  | "-l" :: rest => .ok (.list rest.head?)
  | "--" :: rest => killProcesses 15 rest
  | ["-s"] => .error "No arg for -s option"
  | "-s" :: name :: rest =>
    match signalNumber? 1 name with
    | some n => killProcesses n (if rest.head? = some "--" then rest.drop 1 else rest)
    | none => .error ("invalid signal number or name: " ++ name)
  | first :: _ =>
    .error ("Illegal option -" ++
      String.ofList ((first.toList.drop 1).find? fun c => c ≠ 'l').toList)
  | [] => .error killUsage

def killRequest : List String → Except String KillRequest
  | [] => .error killUsage
  | first :: rest =>
    match first.toList with
    | '-' :: name =>
      match signalNumber? 1 (String.ofList name) with
      | some n => killProcesses n rest
      | none => killOptions (first :: rest)
    | _ => killProcesses 15 (first :: rest)

/-- The signals that leave a process running: the test for one, and those for children, urgent data,
windows and going on. -/
def isHarmless (signal : Nat) : Bool := [0, 17, 18, 23, 28].contains signal

/-- The signals that cannot be caught. -/
def isSure (signal : Nat) : Bool := [9, 19].contains signal

/-- Receives a signal. One that is caught runs what was asked for. -/
def receive (nested : Runner) (signal : Nat) (s : State) : State :=
  match if isSure signal then none else s.traps.lookup signal with
  | some action =>
    if action = "" then s else { nested.run 1 action.toList s with status := s.status }
  | none => if isHarmless signal then s else s.quit (.signal signal)

/-- Sends a signal to processes, of which only the script and what it has left to run are known. -/
def sendSignal (nested : Runner) (signal : Nat) : List String → State → State
  | [], s => s
  | process :: rest, s =>
    if s.isHalted then s
    else if process = ownNumber || process = "0" then
      sendSignal nested signal rest (receive nested signal s)
    else if process = backgroundNumber && s.background.isSome then sendSignal nested signal rest s
    else
      let digits := if "-".toList.isPrefixOf process.toList
        then String.ofList (process.toList.drop 1) else process
      if "%".toList.isPrefixOf process.toList then
        (s.complain ("kill: No such job: " ++ process)).withStatus 2
      else if (number? digits).isNone then
        (s.complain ("kill: Illegal number: " ++ digits)).withStatus 2
      else sendSignal nested signal rest ((s.complain "kill: No such process\n").withStatus 1)

def kill (nested : Runner) (arguments : List String) (s : State) : State :=
  match killRequest arguments with
  | .error text => (s.complain ("kill: " ++ text)).withStatus 2
  | .ok (.send signal processes) => sendSignal nested signal processes (s.withStatus 0)
  | .ok (.list none) =>
    let names := "0" :: ((List.range signalCount).drop 1).map signalName
    (s.withStatus 0).print "kill" (Text.encode (String.join (names.map (· ++ "\n"))))
  | .ok (.list (some text)) =>
    match number? text with
    | none => (s.complain ("kill: Illegal number: " ++ text)).withStatus 2
    | some n =>
      let signal := if 128 < n then n - 128 else n
      if 0 < signal && signal < signalCount then
        (s.withStatus 0).print "kill" (Text.encode (signalName signal ++ "\n"))
      else (s.complain ("kill: invalid signal number or exit status: " ++ text)).withStatus 2

/-! ## Catching -/

/-- A text between quotes, so that a script reads it back. Apostrophes stand between double
quotes. -/
def quotedText (text : List Char) : List Char :=
  '\'' :: go true text
where
  /-- The rest of a text, within apostrophes or within double quotes. -/
  go (plain : Bool) : List Char → List Char
    | [] => if plain then ['\''] else ['"']
    | c :: rest =>
      if (c = '\'') = plain then (if plain then ['\'', '"', c] else ['"', '\'', c]) ++
        go (!plain) rest
      else c :: go plain rest

def trapList (s : State) : String :=
  String.join ((List.range signalCount).map fun n =>
    match s.traps.lookup n with
    | some action =>
      "trap -- " ++ String.ofList (quotedText action.toList) ++ " " ++ signalName n ++ "\n"
    | none => "")

/-- Sets what is done upon signals, up to one that is no signal. -/
def setTraps (action : Option String) : List String → State → State
  | [], s => s
  | name :: rest, s =>
    match signalNumber? 0 name with
    | none => (s.send 2 (Text.encode ("trap: " ++ name ++ ": bad trap\n"))).withStatus 1
    | some n =>
      let others := s.traps.filter (·.1 ≠ n)
      setTraps action rest { s with
        traps := action.elim others fun action => (n, action) :: others }

def trap (arguments : List String) (s : State) : State :=
  let s := s.withStatus 0
  let isDashed := arguments.head? = some "--"
  match if isDashed then arguments.drop 1 else arguments with
  | [] => s.print "trap" (Text.encode (trapList s))
  | action :: signals =>
    match if isDashed then [] else action.toList with
    | '-' :: c :: _ => s.refuse ("trap: Illegal option -" ++ String.ofList [c])
    | _ =>
      if signals.isEmpty || (number? action).any (· < signalCount) then
        setTraps none (action :: signals) s
      else setTraps (if action = "-" then none else some action) signals s

end ShaderEmbed.Shell
