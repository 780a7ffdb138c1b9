import ShaderEmbed.File.Walk

/-!
# Reading and changing files

The operations on files that a build uses, each as a function of the file tree and the working
directory. An operation that fails leaves the tree as it was, but for `makeDirectories`, which keeps
the directories that it made on the way to the failure.
-/

namespace ShaderEmbed

namespace FileTree

/-- The content of what a path leads to. A file that is there can be read: a tree says nothing of
the right to read, and a file that may be written but not read is in none. -/
def readBytes (tree : FileTree) (cwd : Place) (p : Path) : Except FileError Bytes :=
  match tree.look cwd p with
  | .error e => .error e
  | .ok (_, .file content _) => .ok content
  | .ok (_, .device _) => .ok []
  | .ok (_, _) => .error (.system .isDirectory)

def readText (tree : FileTree) (cwd : Place) (p : Path) : Except FileError String :=
  match tree.readBytes cwd p with
  | .error e => .error e
  | .ok content =>
    match Text.decode content with
    | some text => .ok text
    | none => .error .notText

def isFile (tree : FileTree) (cwd : Place) (p : Path) : Bool :=
  match tree.look cwd p with
  | .ok (_, .file _ _) => true
  | _ => false

def isDirectory (tree : FileTree) (cwd : Place) (p : Path) : Bool :=
  match tree.look cwd p with
  | .ok (_, .directory) => true
  | _ => false

/-- Where the system shows its processes. Nothing can be made there. -/
def processes : Place := ["proc"]

/-- The tree with something made at a place where nothing was. -/
def make (tree : FileTree) (place : Place) (entry : Entry) : Except FileError FileTree :=
  if processes.isPrefixOf place then .error (.system .noEntry) else .ok (tree.put place entry)

/-- The tree after content is written to a path. A file is replaced, or made where nothing was; a
device keeps nothing. -/
def writeBytes (tree : FileTree) (cwd : Place) (p : Path)
    (content : Bytes) : Except FileError FileTree :=
  match find tree .write cwd p with
  | .error e => .error e
  | .ok place =>
    match tree.get? place with
    | some .directory => .error (.system .isDirectory)
    | some (.device .null) => .ok tree
    | some (.device .full) => if content = [] then .ok tree else .error (.system .noSpace)
    | some (.file _ runnable) => .ok (tree.put place (.file content runnable))
    | _ => tree.make place (.file content)

def makeDirectory (tree : FileTree) (cwd : Place) (p : Path) : Except FileError FileTree :=
  match find tree .name cwd p with
  | .error e => .error e
  | .ok place =>
    match tree.get? place with
    | some _ => .error (.system .occupied)
    | none => tree.make place .directory

/-- Makes the first of some paths a directory where each path is the parent of the one before it.
The parents are made only if the directory is missing for want of them. -/
def makeChain (tree : FileTree) (cwd : Place) : List Path → FileTree × Except FileError Unit
  | [] => (tree, .error (.other "failed to create whole tree"))
  | p :: parents =>
    -- the empty path stands for the working directory
    if p = .empty then (tree, .ok ())
    else
      match tree.makeDirectory cwd p with
      | .ok made => (made, .ok ())
      | .error e =>
        if e.isMissing then
          match makeChain tree cwd parents with
          | (made, .error e) => (made, .error e)
          | (made, .ok ()) =>
            match made.makeDirectory cwd p with
            | .ok complete => (complete, .ok ())
            -- a parent may have brought it along, as `a/..` is there once `a` is
            | .error e => if made.isDirectory cwd p then (made, .ok ()) else (made, .error e)
        else if tree.isDirectory cwd p then (tree, .ok ())
        else (tree, .error e)

def makeDirectories (tree : FileTree) (cwd : Place) (p : Path) : FileTree × Except FileError Unit :=
  makeChain tree cwd p.ancestors

end FileTree

end ShaderEmbed
