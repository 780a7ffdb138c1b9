import ShaderEmbed.Tool.Installed

/-!
# Starting files

A file that is started holds a program, or is a script whose first line names the interpreter: then
the interpreter is started with the script as an argument. A bare name is looked for in some
directories.
-/

namespace ShaderEmbed

/-- What is started: a program, the name under which it is called, and its arguments. -/
structure Launch where
  program : String
  name : String
  arguments : List String

namespace Launch

/-- How many scripts may be interpreted by one another. -/
def depthLimit : Nat := 6

def starterName : String := "env"

/-- How much of a script is looked at for its interpreter. -/
def lineLimit : Nat := 255

/-- The interpreter that a script names, and perhaps an argument for it. -/
def interpreter? (content : Bytes) : Option (String × List String) :=
  match content with
  | 35 :: 33 :: rest =>
    let isBlank (b : UInt8) : Bool := b = 32 || b = 9
    let line := ((rest.take (lineLimit - 2)).takeWhile (· ≠ 10)).dropWhile isBlank
    let name := line.takeWhile fun b => !isBlank b && b ≠ 0
    let argument := (((line.drop name.length).dropWhile isBlank).reverse.dropWhile isBlank).reverse
    if name.isEmpty then none
    else some (Text.decodeLossy name, if argument.isEmpty then [] else [Text.decodeLossy argument])
  | _ => none

/-- The directories in which programs are looked for, as they are written in one text. -/
def usualDirectories : String := "/usr/local/sbin:/usr/local/bin:/usr/sbin:/usr/bin:/sbin:/bin"

/-- The files that a name can stand for, given the directories to look in. -/
def candidates (directories name : String) : List Path :=
  if name.toList.contains '/' then [⟨name⟩]
  else (directories.splitOn ":").map fun directory =>
    ⟨if directory = "" then name else directory ++ "/" ++ name⟩

/-- What starting a file comes to. The number bounds the scripts on the way. A program may do no
more than to start another one, whose name comes first among its arguments or behind assignments. -/
def ofFile (tree : FileTree) (cwd : Place) : Nat → Path → String →
    List String → Except FileError Launch
  | 0, _, _, _ => .error (.system .linkLoop)
  | n + 1, file, name, arguments =>
    match tree.look cwd file with
    | .error e => .error e
    | .ok (_, .file content true) =>
      match Program.ofImage? content with
      | some program =>
        let launch : Launch := ⟨program, name, arguments⟩
        if program ≠ starterName then .ok launch
        else
          match arguments.dropWhile fun argument => argument.toList.contains '=' with
          | [] => .ok launch
          | other :: more =>
            match (candidates usualDirectories other).find? fun file =>
              (tree.look cwd file).isOk with
            | some file => .ok ((ofFile tree cwd n file other more).toOption.getD launch)
            | none => .ok launch
      | none =>
        match interpreter? content with
        | some (other, more) => ofFile tree cwd n ⟨other⟩ other (more ++ file.text :: arguments)
        | none => .error (.system .badImage)
    | .ok _ => .error (.system .denied)

/-- Whether a failure tells no more than that nothing is there. -/
def isAbsent (e : FileError) : Bool := e = .system .noEntry || e = .system .notDirectory

/-- What starting the first of some files comes to that is there and may be started. Otherwise the
failure counts that was met last, those apart that tell that nothing is there. -/
def ofFirst (tree : FileTree) (cwd : Place) (name : String) (arguments : List String) :
    FileError → List Path → Except FileError Launch
  | e, [] => .error e
  | e, file :: rest =>
    match ofFile tree cwd depthLimit file name arguments with
    | .ok launch => .ok launch
    | .error new =>
      if isAbsent new then ofFirst tree cwd name arguments e rest
      else if new = .system .denied then ofFirst tree cwd name arguments new rest
      else .error new

def ofTool (tree : FileTree) (cwd : Place) (tool : String) (arguments : List String) :
    Except FileError Launch :=
  if tool = "" then .error (.system .noEntry)
  else if tool.toList.contains '/' then ofFile tree cwd depthLimit ⟨tool⟩ tool arguments
  else if FileTree.nameLimit < tool.utf8ByteSize then .error (.system .nameTooLong)
  else ofFirst tree cwd tool arguments (.system .noEntry) (candidates usualDirectories tool)

end Launch

end ShaderEmbed
