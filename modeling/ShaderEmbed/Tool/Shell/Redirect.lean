import ShaderEmbed.Tool.Shell.Expansion

/-!
# Redirections

A redirection lets a stream lead to a file, to where another stream leads, or nowhere, or lets it
come from a file or from lines of the script.
-/

namespace ShaderEmbed.Shell

/-- Why a file cannot be opened, in the words of a script. -/
def openReason (missing : String) : FileError → String
  | .system number =>
    if number = .noEntry || number = .notDirectory then missing else number.text
  | other => other.message

def streamNamed? (path : String) : Option Nat :=
  match path with
  | "/dev/stdin" => some 0
  | "/dev/stdout" => some 1
  | "/dev/stderr" => some 2
  | _ =>
    match path.toList.reverse with
    | digit :: above =>
      if digit.isDigit && above = "/dev/fd/".toList.reverse then some (Text.digitValue digit)
      else none
    | [] => none

/-- Whether files are guarded against a redirection to a path: a file is there, or a link that leads
nowhere. -/
def isGuarded (s : State) (path : Path) : Bool :=
  match s.tree.look s.cwd path with
  | .ok (_, .file _ _) => true
  | .ok _ => false
  | .error _ => ((s.tree.find .stop s.cwd path).toOption.bind s.tree.get?).isSome

/-- The channel that is opened for a path, and the files then. What is there stays, unless it is to
be emptied. -/
def openPath (s : State) (access : Access) (emptied : Bool)
    (path : Path) : Except FileError (Channel × FileTree) := do
  let isThere := (s.tree.look s.cwd path).isOk
  -- a file that is not there is made by being emptied
  let tree ← if access.writes && (emptied || !isThere) then s.tree.writeBytes s.cwd path []
      else .ok s.tree
  match ← tree.look s.cwd path with
  | (_, .device kind) => return (.device kind access, tree)
  | (place, .directory) =>
    if access.writes then throw (.system .isDirectory) else return (.file place 0 access, tree)
  | (place, _) => return (.file place 0 access, tree)

/-- Lets a stream lead to what a path stands for. A path that stands for a stream leads where that
stream does, but a file is opened once more. -/
def State.openStream (s : State) (stream : Nat) (access : Access) (emptied : Bool) (path : Path) :
    Except FileError State :=
  let opened (tree : FileTree) (channel : Channel) : State :=
    { s with tree := tree, streams := s.streams.connect stream channel }
  match streamNamed? path.text with
  | none => (openPath s access emptied path).map fun (channel, tree) => opened tree channel
  | some other =>
    match s.streams.channel? other with
    | none => .error (.system .noEntry)
    | some (.file place _ _) =>
      let tree := match s.tree.get? place with
        | some (.file _ runnable) =>
          if emptied then s.tree.put place (.file [] runnable) else s.tree
        | _ => s.tree
      .ok (opened tree (.file place 0 access))
    | some _ => .ok { s with streams := s.streams.lead stream (s.streams.number? other) }

/-- Ends a script over a text that tells no stream. The fault counts where the script has been read
up to. -/
def State.refuseStream (s : State) : Except (String × State) State :=
  .error ("",
    { { s with line := s.reached }.refuse "Syntax error: Bad fd number" with line := s.line })

/-- Lets a stream lead where another one does whose number a text tells, or closes it; or tells why
it cannot be. A text that tells no stream is a fault of the script. -/
def State.copyStream (s : State) (stream : Nat) (target : String) : Except (String × State) State :=
  match target.toList with
  | ['-'] => .ok { s with streams := s.streams.close stream }
  | [digit] =>
    if !digit.isDigit then s.refuseStream
    else if Text.digitValue digit = stream then .ok s
    else
      match s.streams.number? (Text.digitValue digit) with
      | some number => .ok { s with streams := s.streams.lead stream (some number) }
      | none => .error (target ++ ": " ++ Errno.badStream.text, s)
  | _ => s.refuseStream

/-- Carries out one redirection, or tells why it cannot be. -/
def redirectOne (nested : Runner) (s : State) (r : Redirection) : Except (String × State) State :=
  let (letters, s) := expandWhole nested r.target s
  let target := lettersText letters
  let opening (verb missing : String) (access : Access) (emptied : Bool) :
      Except (String × State) State :=
    match s.openStream r.stream access emptied ⟨target⟩ with
    | .ok s => .ok s
    | .error e => .error (verb ++ " " ++ target ++ ": " ++ openReason missing e, s)
  let creating := opening "cannot create" "Directory nonexistent"
  match r.direction with
  | .replace forced =>
    if s.options.guarded && !forced && isGuarded s ⟨target⟩ then
      .error ("cannot create " ++ target ++ ": " ++ Errno.occupied.text, s)
    else creating ⟨false, true, false⟩ true
  | .append => creating ⟨false, true, true⟩ false
  | .both => creating ⟨true, true, false⟩ false
  | .read => opening "cannot open" "No such file" ⟨true, false, false⟩ false
  | .copy => s.copyStream r.stream target
  | .here => .ok { s with streams := s.streams.connect r.stream (.source (Text.encode target)) }

def redirectAll (nested : Runner) (s : State) : List Redirection → Except (String × State) State
  | [] => .ok s
  | r :: rest => do
    let s ← redirectOne nested s r
    redirectAll nested s rest

/-- What becomes of the streams after a command. -/
inductive Lasting where
  | back
  | stay
deriving DecidableEq

/-- Does something with redirected streams, which lead where they led before afterwards unless they
are to stay. Where a stream cannot be redirected the status tells so, and a `firm` command ends the
script. -/
def redirected (nested : Runner) (lasting : Lasting) (firm : Bool)
    (rs : List Redirection) (act : State → State) (s : State) : State :=
  let back (after : State) : State :=
    { after with streams := s.streams.backFor (rs.map (·.stream)) after.streams }
  match redirectAll nested s rs with
  | .error (complaint, left) =>
    if left.isHalted then back left
    else
      let failed := ((back left).complain complaint).withStatus 2
      if firm then failed.quit (.code 2) else failed
  | .ok ready =>
    if ready.isHalted then back ready else if lasting = .stay then act ready else back (act ready)

end ShaderEmbed.Shell
