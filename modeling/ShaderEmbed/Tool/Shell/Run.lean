import ShaderEmbed.Tool.Shell.Command

/-!
# Running scripts

A script is run by recursion on the script. What it runs in turn (a substitution, a function, or
another script that it calls by name) is run by a given runner, so that the depth of such calls is
all that has to be bounded.
-/

namespace ShaderEmbed.Shell

/-- How deep scripts may call scripts. -/
def callLimit : Nat := 64

/-- How often a loop may be repeated. -/
def loopLimit : Nat := 65536

/-- Ends a strict script after a failure that is not being tested. -/
def State.checked (s : State) : State :=
  if s.options.strict && !s.tested && s.status ≠ 0 && !s.isHalted then s.quit (.code s.status)
  else s

def State.tell (s : State) (words : List String) : State :=
  if s.options.telling then s.send 2 (Text.encode ("+ " ++ " ".intercalate words ++ "\n")) else s

/-- Runs a simple command. Its assignments stay if it is nothing but assignments, or one of the firm
commands. -/
def runSimple (nested : Runner) (line : Nat) (assignments : List (String × Word))
    (words : List Word) (rs : List Redirection) (s : State) : State :=
  if s.options.idle then s
  else
    let (given, expanded) := expandWords nested words { s with line := line }
    expanded.andThen fun s =>
      let name := given.headD ""
      let firm := firmCommands.contains name
      let before := assignments.map fun assignment => (assignment.1, s.bindings.lookup assignment.1)
      let act (s : State) : State :=
        let s := if given.isEmpty && words.isEmpty && assignments.isEmpty then s.withStatus 0 else s
        (assignAll nested assignments s).andThen fun s =>
          let s := s.tell (before.filterMap (fun (name, _) =>
            (s.bindings.lookup name).map fun value => name ++ "=" ++ value) ++ given)
          match given with
          | [] => s
          | name :: arguments =>
            if firm then call nested name arguments s
            else
              let after :=
                call nested name arguments { s with exported := before.map (·.1) ++ s.exported }
              before.foldl (fun s (name, value) => s.restore name value) { after with
                exported := if before.isEmpty then after.exported else s.exported }
      let s := if given.isEmpty && (words.isEmpty || s.status = 0) then s.withStatus 0 else s
      let lasting : Lasting := if given = ["exec"] then .stay else .back
      (redirected nested lasting firm rs act s).giveNotice.checked

def tested (run : State → State) (s : State) : State :=
  { run { s with tested := true } with tested := s.tested }

/-- Runs something once in a loop; the answer tells whether the loop goes on. -/
def roundOf (run : State → State) (s : State) : State × Bool :=
  let after := run { s with loops := s.loops + 1 }
  let back := { after with loops := s.loops }
  match after.leaving with
  | some (.loops again count) =>
    -- loops further out are still to be left
    if 1 < count then ({ back with leaving := some (.loops again (count - 1)) }, false)
    else ({ back with leaving := none }, again)
  | some .call => (back, false)
  | none => (back, back.ended.isNone)

/-- Repeats a body as long as a condition is answered as wanted; the status is that of the last
round. -/
def repeated (wanted : Bool) (condition body : State → State) : Nat → Nat → State → State
  | 0, _, s => s.quit (.code 2)
  | n + 1, status, s =>
    let (asked, goesOn) := roundOf (tested condition) s
    if !goesOn then (if asked.isHalted then asked else asked.withStatus status)
    else if (asked.status = 0) ≠ wanted then asked.withStatus status
    else
      let (done, goesOn) := roundOf body asked
      if goesOn then repeated wanted condition body n done.status done else done

def forItems (name : String) (body : State → State) : List String → State → State
  | [], s => s
  | item :: rest, s =>
    let (done, goesOn) := roundOf body (s.assign name item)
    if goesOn then forItems name body rest done else done

/-- Whether the subject of a choice fits one of some patterns, and the state that their expansion
leaves. -/
def fitsAny (nested : Runner) : List Word → State → Bool × State
  | [], s => (false, s)
  | word :: rest, s =>
    let (letters, s) := expandWhole nested word s
    if s.isHalted then (false, s)
    else if (patternOf letters).fits s.subject then (true, s)
    else fitsAny nested rest s

/-- Runs a script. -/
def runScript (nested : Runner) : Script → State → State
  | .nothing, s => s
  | .simple line assignments words rs, s => runSimple nested line assignments words rs s
  | .sequence first second, s => (runScript nested first s).andThen (runScript nested second)
  | .ifSucceeds first second, s =>
    (tested (runScript nested first) s).andThen fun s =>
      if s.status = 0 then runScript nested second s else s
  | .ifFails first second, s =>
    (tested (runScript nested first) s).andThen fun s => if s.status = 0 then s else
      runScript nested second s
  | .negated body, s =>
    (tested (runScript nested body) s).andThen fun s => s.withStatus (if s.status = 0 then 1 else 0)
  | .pipe first second, s =>
    let (bytes, left) := printedBy nested (runScript nested first) s
    left.andThen fun left =>
      let streams := left.streams.connect 0 (.source bytes)
      let right :=
        apart nested (runScript nested second) { s with tree := left.tree, streams := streams }
      { right with streams := s.streams.backTo right.streams }.andThen State.checked
  | .choose condition yes no, s =>
    (tested (runScript nested condition) s).andThen fun s =>
      if s.status = 0 then runScript nested yes s
      else if no.isNothing then s.withStatus 0
      else runScript nested no s
  | .repeatWhile wanted condition body, s =>
    repeated wanted (runScript nested condition) (runScript nested body) loopLimit 0 s
  | .forEach line name words body, s =>
    let (items, s) := expandWords nested words { s with line := line }
    s.andThen fun s => forItems name (runScript nested body) items (s.withStatus 0)
  | .select line subject arms, s =>
    let (letters, s) := expandWhole nested subject { s with line := line }
    s.andThen fun s =>
      runScript nested arms { s with subject := letters.map Letter.char, status := 0 }
  | .arm patterns body others, s =>
    let (found, s) := fitsAny nested patterns s
    s.andThen fun s => if found then runScript nested body s else runScript nested others s
  | .define name body, s => { s with functions := (name, body) :: s.functions }.withStatus 0
  | .grouped line body rs, s =>
    redirected nested .back false rs (runScript nested body) { s with line := line }
  | .separate line body, s =>
    (apart nested (runScript nested body) { s with line := line }).andThen State.checked
  | .background body, s =>
    let quiet := { s with streams := s.streams.connect 0 (.device .null ⟨true, false, false⟩) }
    let after := apart nested (runScript nested body) quiet
    let back := { after with
      streams := s.streams.backTo after.streams, background := some after.status }
    back.andThen (State.withStatus · 0)
  | .upTo line body, s => runScript nested body { s with reached := line }
  | .malformed line complaint, s => { s with line := line }.refuse ("Syntax error: " ++ complaint)

/-- Runs scripts that may call scripts to a given depth. -/
def runner : Nat → Runner
  | 0 => ⟨fun _ _ s => s.quit (.code 2), fun _ s => s.quit (.code 2), fun _ _ s => ([], s)⟩
  | depth + 1 => {
      run := fun line text s => runScript (runner depth) (Script.ofText line text) s
      call := fun script s => runScript (runner depth) script s
      expand := fun quoted text s =>
        expandWord (runner depth) .whole (wholeWord .whole quoted text) s }

end ShaderEmbed.Shell
