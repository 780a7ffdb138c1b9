import ShaderEmbed.Tool.Program

/-!
# Copying, moving and linking

The programs that carry files from one or more operands to a last one, or into the directory that it
leads to.
-/

namespace ShaderEmbed.Program

def pairText (first : String) (between : String) (second : String) : String :=
  Shown.always first ++ between ++ Shown.always second

/-- What is at the place of a name itself, if something is; a link is not passed unless slashes
follow. -/
def statName (start : ProgramStart) (path : Path) : Except FileError (Place × Entry) :=
  match start.tree.find .stop start.cwd path with
  | .error e => .error e
  | .ok place =>
    match start.tree.get? place with
    | some entry => .ok (place, entry)
    | none => .error (.system .noEntry)

/-- How files are copied: whether directories are too, whether links are kept, whether what is there
stays, and whether each copy is told. -/
structure Copying where
  recursive : Bool
  keepsLinks : Bool
  keepsOld : Bool
  verbose : Bool

def Copying.told (copying : Copying) (source target : Path) (act : Program) : Program :=
  if copying.verbose then followedBy (tell (pairText source.text " -> " target.text ++ "\n")) act
    else act

def writeCopy (source target : Path) (entry : Entry) : Program := fun start =>
  let content := (start.tree.readBytes start.cwd source).toOption.getD []
  let runnable := match entry with
    | .file _ runnable => runnable
    | _ => false
  match start.tree.look start.cwd target, statName start target with
  | .error _, .ok (_, .link _) =>
    complain 1 ("not writing through dangling symlink " ++ Shown.always target.text) start
  | old, _ =>
    match start.tree.writeBytes start.cwd target content with
    | .error e =>
      if e = .system .noSpace then
        complain 1 ("error writing " ++ Shown.always target.text ++ ": " ++ reason e) start
      else
        let why := if e = .system .isDirectory then .system .notDirectory else e
        complain 1 ("cannot create regular file " ++ Shown.always target.text ++
          ": " ++ reason why) start
    | .ok tree =>
      match old, tree.look start.cwd target with
      | .error _, .ok (place, .file content _) =>
        leave (tree.put place (.file content runnable)) start
      | _, _ => leave tree start

def copyPlain (copying : Copying) (source target : Path) (place : Place)
    (entry : Entry) : Program := fun start =>
  let isLink := match entry with
    | .link _ => true
    | _ => false
  match if isLink then statName start target else start.tree.look start.cwd target with
  | .error e =>
    if !e.isMissing then
      complain 1 ("cannot stat " ++ Shown.always target.text ++ ": " ++ reason e) start
    else if isLink then
      copying.told source target
        (changing (fun tree cwd => do return tree.put (← tree.find .name cwd target) entry)
        ("cannot create symbolic link " ++ Shown.always target.text)) start
    else copying.told source target (writeCopy source target entry) start
  | .ok (found, old) =>
    if found = place then
      complain 1 (pairText source.text " and " target.text ++ " are the same file") start
    else if old = .directory then
      complain 1 ("cannot overwrite directory " ++ Shown.always target.text ++
        " with non-directory") start
    else if copying.keepsOld then quit 0 start
    else if isLink then copying.told source target (leave (start.tree.put found entry)) start
    else copying.told source target (writeCopy source target entry) start

/-- Copies one file, or a directory with what is in it; the place of the whole copy is not copied
into itself. The number bounds the depth. -/
def copyOne (copying : Copying) (top : Path × Path) (whole : Option Place) : Nat → Path →
    Path → Program
  | 0, _, _ => quit 0
  | n + 1, source, target => fun start =>
    match if copying.keepsLinks then statName start source else
      start.tree.look start.cwd source with
    | .error e => complain 1 ("cannot stat " ++ Shown.always source.text ++ ": " ++ reason e) start
    | .ok (place, .directory) =>
      if !copying.recursive then
        complain 1 ("-r not specified; omitting directory " ++ Shown.always source.text) start
      else if some place = whole then
        complain 1 ("cannot copy a directory, " ++
          pairText top.1.text ", into itself, " top.2.text) start
      else
        let goOn : Program := fun start =>
          let whole := whole.or ((start.tree.look start.cwd target).toOption.map (·.1))
          each (fun name => copyOne copying top whole n (source.child name) (target.child name))
            (start.tree.names place) start
        match start.tree.look start.cwd target with
        | .ok (found, .directory) =>
          if found = place then
            complain 1 ("cannot copy a directory, " ++
              pairText top.1.text ", into itself, " top.2.text) start
          else goOn start
        | .ok _ =>
          complain 1 ("cannot overwrite non-directory " ++
            pairText target.text " with directory " source.text) start
        | .error _ =>
          let made := copying.told source target
            (changing (fun tree cwd => tree.makeDirectory cwd target)
            ("cannot create directory " ++ Shown.always target.text)) start
          if made.code ≠ 0 then made else followedBy (fun _ => made) goOn start
    | .ok (place, entry) => copyPlain copying source target place entry start

/-- Moves one file, or a directory with what is in it. -/
def moveOne (verbose : Bool) (source target : Path) : Program := fun start =>
  let refused (e : FileError) : Program :=
    complain 1 ("cannot move " ++ pairText source.text " to " target.text ++ ": " ++ reason e)
  match statName start source with
  | .error e => complain 1 ("cannot stat " ++ Shown.always source.text ++ ": " ++ reason e) start
  | .ok (place, entry) =>
    let moved : Program := fun start =>
      match start.tree.find .name start.cwd target with
      | .error e => refused e start
      | .ok goal =>
        if entry ≠ .directory && target.text.toList.getLast? = some '/' then
          refused (.system .notDirectory) start
        else if place.isPrefixOf goal then
          complain 1 ("cannot move " ++
            pairText source.text " to a subdirectory of itself, " target.text) start
        else
          let inside := start.tree.entries.filter fun item => place.isPrefixOf item.1
          let cleared := (start.tree.clear place).clear goal
          let tree := inside.foldl (fun tree item =>
            tree.put (goal ++ item.1.drop place.length) item.2) cleared
          if verbose then
            followedBy (tell ("renamed " ++ pairText source.text " -> " target.text ++ "\n"))
              (leave tree) start
          else leave tree start
    match statName start target with
    | .error e =>
      if e.isMissing || entry = .directory then moved start
      else complain 1 ("cannot stat " ++ Shown.always target.text ++ ": " ++ reason e) start
    | .ok (found, old) =>
      if found = place && entry ≠ .directory then
        complain 1 (pairText source.text " and " target.text ++ " are the same file") start
      else if entry = .directory && old ≠ .directory then
        complain 1 ("cannot overwrite non-directory " ++
          pairText target.text " with directory " source.text) start
      else if entry ≠ .directory && old = .directory then
        complain 1 ("cannot overwrite directory " ++ Shown.always target.text ++
          " with non-directory") start
      else if old = .directory && found ≠ place && !(start.tree.names found).isEmpty then
        refused (.system .notEmpty) start
      else moved start

/-- How a link is made: whether it is symbolic, whether what is there gives way, and whether it is
told. -/
structure Linking where
  symbolic : Bool
  forced : Bool
  verbose : Bool

/-- Makes one link. A link that is not symbolic is a second file with the same content. -/
def linkOne (linking : Linking) (target link : Path) : Program := fun start =>
  let kind := if linking.symbolic then "symbolic" else "hard"
  let entry : Except String Entry :=
    if linking.symbolic then
      if target = .empty then
        .error ("failed to create symbolic link " ++ pairText link.text " -> " "" ++
          ": " ++ Errno.noEntry.text)
      else .ok (.link target.text)
    else
      match statName start target with
      | .error e => .error ("failed to access " ++ Shown.always target.text ++ ": " ++ reason e)
      | .ok (_, .directory) =>
        .error (Shown.ifOdd target.text ++ ": hard link not allowed for directory")
      | .ok (_, entry) => .ok entry
  match entry with
  | .error text => complain 1 text start
  | .ok entry =>
    let made := changing (fun tree cwd => do
      let place ← tree.find .name cwd link
      if (tree.get? place).isSome && !linking.forced then throw (.system .occupied)
      return tree.put place entry) ("failed to create " ++ kind ++ " link " ++
        Shown.always link.text) start
    if linking.verbose && made.code = 0 then
      let arrow := if linking.symbolic then " -> " else " => "
      followedBy (fun _ => made) (tell (pairText link.text arrow target.text ++ "\n")) start
    else made

def pathInto (directory source : Path) : Path :=
  let kept := (source.text.toList.reverse.dropWhile (· = '/')).reverse
  let name := String.ofList (kept.reverse.takeWhile (· ≠ '/')).reverse
  directory.child (if name = ".." then "." else name)

/-- Carries files from all operands but the last to the last one, or all of them into a directory
that an option names. A last operand that leads to a directory stands for a path in that directory,
unless an option says that it does not. -/
def carry (one : Path → Path → Program) (noun : String) (options : List (Char × String))
    (operands : List String) :
    Program := fun start =>
  let isDirectory (path : String) : Bool := start.tree.isDirectory start.cwd ⟨path⟩
  let into (directory : String) (sources : List String) : Program :=
    each (fun source => one ⟨source⟩ (pathInto ⟨directory⟩ ⟨source⟩)) sources
  let why (path : String) : String :=
    match start.tree.look start.cwd ⟨path⟩ with
    | .ok _ => Errno.notDirectory.text
    | .error e => reason e
  match options.lookup 't', operands.reverse with
  | _, [] => misuse 1 "missing file operand" start
  | some directory, _ =>
    if isDirectory directory then into directory operands start
    else complain 1 ("target directory " ++ Shown.always directory ++ ": " ++ why directory) start
  | none, [only] =>
    if noun = "link" then into "." [only] start
    else misuse 1 ("missing destination file operand after " ++ Shown.always only) start
  | none, last :: sources =>
    if has options 'T' then
      match sources with
      | [source] => one ⟨source⟩ ⟨last⟩ start
      | _ => misuse 1 ("extra operand " ++ Shown.always last) start
    else if isDirectory last then into last sources.reverse start
    else
      match sources with
      | [source] => one ⟨source⟩ ⟨last⟩ start
      | _ => complain 1 ("target " ++ Shown.always last ++ ": " ++ why last) start

def cp : Program :=
  taking ⟨"abdfHilLnprRsTuvxPZ", "St",
    [("archive", 'a'), ("backup", 'b'), ("force", 'f'), ("interactive", 'i'), ("link", 'l'),
      ("dereference", 'L'), ("no-clobber", 'n'), ("no-dereference", 'P'), ("preserve", 'p'),
      ("recursive", 'r'), ("remove-destination", 'f'), ("reflink", 'f'), ("symbolic-link", 's'),
      ("suffix", 'S'), ("target-directory", 't'), ("no-target-directory", 'T'), ("update", 'u'),
      ("verbose", 'v'), ("one-file-system", 'x')], false⟩ 1
    fun options operands start =>
    let recursive := ['r', 'R', 'a'].any (has options)
    let keepsLinks :=
      ['d', 'P', 'a'].any (has options) || recursive && !(has options 'L' || has options 'H')
    let copying : Copying := ⟨recursive, keepsLinks, has options 'n', has options 'v'⟩
    carry (fun source target => copyOne copying (source, target) none
      (start.tree.entries.length + 2) source target) "file" options operands start

def mv : Program :=
  taking ⟨"bfinTuvZ", "St",
    [("force", 'f'), ("interactive", 'i'), ("no-clobber", 'n'), ("suffix", 'S'),
      ("target-directory", 't'), ("no-target-directory", 'T'), ("update", 'u'),
      ("verbose", 'v')], false⟩ 1
    fun options operands => carry (moveOne (has options 'v')) "file" options operands

def ln : Program :=
  taking ⟨"bdfFinLPrsTv", "St",
    [("force", 'f'), ("interactive", 'i'), ("symbolic", 's'), ("suffix", 'S'),
      ("target-directory", 't'), ("no-target-directory", 'T'), ("verbose", 'v'),
      ("relative", 'r')], false⟩ 1
    fun options operands =>
      carry (linkOne ⟨has options 's', has options 'f', has options 'v'⟩) "link" options operands

end ShaderEmbed.Program
