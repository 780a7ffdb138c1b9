import ShaderEmbed.Tool.Copying

/-!
# Making and removing

The programs that make files and directories, remove them, and say which files can be started.
-/

namespace ShaderEmbed.Program

/-! ## Removing -/

/-- What a removal does: whether directories go with what is in them, or if they are empty; whether
what is not there is passed over; and whether each removal is told. -/
structure Removing where
  whole : Bool
  empty : Bool
  quiet : Bool
  verbose : Bool

/-- Whether a failure says that nothing is there to be removed. -/
def isNothing (e : FileError) : Bool := e = .system .noEntry || e = .system .notDirectory

/-- Removes a place with all that is below it, from the inside out. The number bounds the depth. -/
def removePlace (removing : Removing) : Nat → Place → String → Program
  | 0, _, _ => quit 0
  | n + 1, place, name => fun start =>
    let isDirectory := start.tree.isDirectoryAt place
    let inside : Program :=
      if isDirectory then
        each (fun inner => removePlace removing n (place ++ [inner]) (name ++ "/" ++ inner))
          (start.tree.names place)
      else quit 0
    let last : Program := fun start => leave (start.tree.clear place) start
    let noun := if isDirectory then "directory " else ""
    followedBy inside (if removing.verbose then
      followedBy last (tell ("removed " ++ noun ++ Shown.always name ++ "\n")) else last) start

def removeOne (removing : Removing) (file : String) : Program := fun start =>
  let refused (e : FileError) : Program :=
    if removing.quiet && isNothing e then quit 0
    else complain 1 ("cannot remove " ++ Shown.always file ++ ": " ++ reason e)
  let bare := String.ofList (file.toList.reverse.dropWhile (· = '/')).reverse
  let last := (Path.mk bare).text.toList.reverse.takeWhile (· ≠ '/')
  let depth := start.tree.entries.length + 1
  if removing.whole && file ≠ "" && bare = "" then
    warn 1 (start.name ++ ": it is dangerous to operate recursively on '/'\n" ++ start.name ++
      ": use --no-preserve-root to override this failsafe\n") start
  else if removing.whole && (last = ['.'] || last = ['.', '.']) then
    complain 1 ("refusing to remove '.' or '..' directory: skipping " ++ Shown.always file) start
  else
    match statName start ⟨bare⟩ with
    | .error e => refused e start
    | .ok (place, .directory) =>
      if removing.whole then removePlace removing depth place bare start
      else if !removing.empty then refused (.system .isDirectory) start
      else if (start.tree.names place).isEmpty then removePlace removing depth place bare start
      else refused (.system .notEmpty) start
    | .ok (place, _) =>
      if bare = file then removePlace removing depth place file start
      else if !removing.whole && start.tree.isDirectory start.cwd ⟨file⟩ then
        refused (.system .isDirectory) start
      else refused (.system .notDirectory) start

def rm : Program :=
  taking ⟨"dfirRvI", "",
    [("force", 'f'), ("recursive", 'r'), ("dir", 'd'), ("verbose", 'v')], false⟩ 1
    fun options operands start =>
      let removing : Removing :=
        ⟨has options 'r' || has options 'R', has options 'd', has options 'f', has options 'v'⟩
      if operands.isEmpty then (if removing.quiet then quit 0 start else
        misuse 1 "missing operand" start)
      else each (removeOne removing) operands start

def removeEmpty (directory : String) : Program := fun start =>
  let refused (e : FileError) : Program :=
    complain 1 ("failed to remove " ++ Shown.always directory ++ ": " ++ reason e)
  match start.tree.find .name start.cwd ⟨directory⟩ with
  | .error e => refused e start
  | .ok place =>
    match start.tree.get? place with
    | none => refused (.system .noEntry) start
    | some .directory =>
      if (start.tree.names place).isEmpty then leave (start.tree.clear place) start
      else refused (.system .notEmpty) start
    | some _ => refused (.system .notDirectory) start

def rmdir : Program :=
  taking ⟨"pv", "", [("parents", 'p'), ("verbose", 'v')], false⟩ 1 fun _ operands start =>
    if operands.isEmpty then misuse 1 "missing operand" start else each removeEmpty operands start

/-! ## Making -/

/-- Which bits a mode sets, given in octal digits: whether anyone may start the file. -/
def octalRunnable? (mode : List Char) : Option Bool :=
  if mode.isEmpty || !mode.all (fun c => '0' ≤ c && c ≤ '7') || 7 < mode.length then none
  else some (mode.reverse.take 3 |>.any fun c => c.toNat % 2 = 1)

/-- What one clause of a mode makes of whether a file can be started: for whom, an operator, and
letters. -/
def modeClause? (runnable : Bool) (clause : List Char) : Option Bool :=
  let rest := clause.dropWhile "ugoa".toList.contains
  match rest with
  | operator :: letters =>
    if !"+-=".toList.contains operator || !letters.all "rwxXstugo".toList.contains then none
    else
      let starts := letters.contains 'x' || runnable && letters.any "Xugo".toList.contains
      if operator = '+' then some (runnable || starts)
      else if operator = '-' then some (runnable && !starts)
      else some starts
  | [] => none

def modeRunnable? (mode : String) (runnable : Bool) : Option Bool :=
  match octalRunnable? mode.toList with
  | some answer => some answer
  | none => (mode.splitOn ",").foldlM
    (fun runnable clause => modeClause? runnable clause.toList) runnable

/-- Says which files can be started. -/
def chmod : Program := fun start =>
  let isMode (argument : String) : Bool :=
    match argument.toList with
    | '-' :: c :: _ => "rwxXstugoa,+=01234567".toList.contains c
    | _ => false
  let mode? := start.arguments.find? isMode
  let change (mode file : String) : Program := fun start =>
    match start.tree.look start.cwd ⟨file⟩ with
    | .error e => complain 1 ("cannot access " ++ Shown.always file ++ ": " ++ reason e) start
    | .ok (place, .file content runnable) =>
      leave
        (start.tree.put place (.file content ((modeRunnable? mode runnable).getD runnable))) start
    | .ok _ => quit 0 start
  let applied (mode : String) (files : List String) : Program :=
    if files.isEmpty then misuse 1 ("missing operand after " ++ Shown.plainly mode)
    else if (modeRunnable? mode false).isNone then misuse 1 ("invalid mode: " ++ Shown.plainly mode)
    else each (change mode) files
  taking ⟨"cfvR", "", [("recursive", 'R'), ("verbose", 'v'), ("silent", 'f'), ("quiet", 'f'),
    ("changes", 'c')], false⟩
    1 (fun _ operands =>
      match mode?, operands with
      | none, mode :: files => applied mode files
      | some mode, file :: files => applied mode (file :: files)
      | _, [] => misuse 1 "missing operand")
    { start with arguments := start.arguments.filter fun argument => !isMode argument }

/-- The paths of the directories on the way to a path, from the outside in. -/
def stepsTo (path : Path) : List Path := (path.ancestors.filter (· ≠ .empty)).reverse

def tellMade (directory : String) : Program := fun start =>
  tell (start.name ++ ": created directory " ++ Shown.always directory ++ "\n") start

/-- Makes those directories of a chain that are missing, from the outside in. -/
def makeSteps (verbose : Bool) : List Path → Program
  | [] => quit 0
  | step :: rest => fun start =>
    match start.tree.makeDirectory start.cwd step with
    | .ok tree =>
      let told := if verbose then tellMade step.text else quit 0
      followedBy (leave tree) (followedBy told (makeSteps verbose rest)) start
    | .error e =>
      if start.tree.isDirectory start.cwd step then makeSteps verbose rest start
      else
        let why :=
          if e = .system .occupied && !rest.isEmpty && (start.tree.look start.cwd step).isOk
          then .system .notDirectory else e
        complain 1 ("cannot create directory " ++ Shown.always step.text ++
          ": " ++ reason why) start

def makeOne (verbose : Bool) (directory : String) : Program := fun start =>
  let complaint := "cannot create directory " ++ Shown.always directory
  match start.tree.makeDirectory start.cwd ⟨directory⟩ with
  | .ok tree => followedBy (leave tree) (if verbose then tellMade directory else quit 0) start
  | .error e => complain 1 (complaint ++ ": " ++ reason e) start

def makeAll (verbose : Bool) (directory : String) : Program :=
  if directory = "" then makeOne verbose "" else makeSteps verbose (stepsTo ⟨directory⟩)

def mkdir : Program :=
  taking ⟨"pvZ", "m", [("parents", 'p'), ("verbose", 'v'), ("mode", 'm')], false⟩ 1
    fun options operands start =>
    if operands.isEmpty then misuse 1 "missing operand" start
    else
      match (options.lookup 'm').filter fun mode => (modeRunnable? mode false).isNone with
      | some mode => complain 1 ("invalid mode " ++ Shown.plainly mode) start
      | none => each ((if has options 'p' then makeAll else makeOne) (has options 'v'))
        operands start

/-- Makes a file that is not there. -/
def touchOne (onlyOld : Bool) (file : String) : Program := fun start =>
  if file = "-" then quit 0 start
  else
    match start.tree.find .write start.cwd ⟨file⟩ with
    | .ok place =>
      if (start.tree.get? place).isSome || onlyOld then quit 0 start
      else leave (start.tree.put place (.file [])) start
    | .error (.system .isDirectory) =>
      match start.tree.look start.cwd ⟨file⟩ with
      | .ok _ => quit 0 start
      | .error e =>
        if onlyOld && e.isMissing then quit 0 start
        else complain 1 ("setting times of " ++ Shown.always file ++ ": " ++ reason e) start
    | .error e =>
      if onlyOld && e.isMissing then quit 0 start
      else complain 1 ("cannot touch " ++ Shown.always file ++ ": " ++ reason e) start

def touch : Program :=
  taking ⟨"acfhm", "drt",
    [("no-create", 'c'), ("date", 'd'), ("reference", 'r'), ("no-dereference", 'h')], false⟩ 1
    fun options operands start =>
      if operands.isEmpty then misuse 1 "missing file operand" start
      else each (touchOne (has options 'c')) operands start

end ShaderEmbed.Program
