import ShaderEmbed.Text.Cut

/-!
# Paths

A path is kept as it was spelled. What it means is its list of *components*, in which repeated
slashes and inner or trailing dots leave no trace. Two spellings of one path have the same
components, and every question about identity is asked of components; messages and outputs show the
spelling.

A leading dot is a component of its own (`here`), and a slash in front is the component `root`.
-/

namespace ShaderEmbed

/-- A path as it is spelled. -/
structure Path where
  text : String
deriving DecidableEq, Repr, Inhabited

/-- What one step of a path means. -/
inductive Component where
  | root
  | here
  | up
  | name (text : String)
deriving DecidableEq, Repr, Inhabited

/-- The segment that spells a component; the root is the empty segment in front of the first
slash. -/
def Component.segment : Component → String
  | root => ""
  | here => "."
  | up => ".."
  | name text => text

namespace Path

def empty : Path := ⟨""⟩

/-- The segment before the first slash. -/
def head (p : Path) : String := String.ofList (Text.cut '/' p.text.toList).1

/-- The segments behind the slashes. -/
def tail (p : Path) : List String := (Text.cut '/' p.text.toList).2.map String.ofList

def ofSegments (head : String) (tail : List String) : Path :=
  ⟨String.ofList (Text.uncut '/' (head.toList, tail.map String.toList))⟩

/-- A path starts at the root when its spelling starts with a slash. -/
def isAbsolute (p : Path) : Bool := p.text.toList.head? = some '/'

/-- The component that a segment behind a slash stands for; empty segments and dots stand for
none. -/
def innerComponent (segment : String) : Option Component :=
  if segment = "" then none
  else if segment = "." then none
  else if segment = ".." then some .up
  else some (.name segment)

/-- The component that the segment before the first slash stands for. -/
def headComponent (p : Path) : Option Component :=
  if p.head = "" then (if p.isAbsolute then some .root else none)
  else if p.head = "." then some .here
  else if p.head = ".." then some .up
  else some (.name p.head)

/-- What a path means, step by step. -/
def components (p : Path) : List Component :=
  p.headComponent.toList ++ p.tail.filterMap innerComponent

def same (p q : Path) : Bool := p.components = q.components

/-- The plain spelling of a list of components. -/
def ofComponents : List Component → Path
  | [] => empty
  | .root :: [] => ⟨"/"⟩
  | c :: rest => ofSegments c.segment (rest.map Component.segment)

/-- `p.join q` is `q` read from the directory `p`: an absolute `q` replaces `p`, and an empty `q`
leaves a slash behind `p`. -/
def join (p q : Path) : Path :=
  if q.isAbsolute then q
  else if p.text.toList.getLast? = none || p.text.toList.getLast? = some '/' then ⟨p.text ++ q.text⟩
  else ⟨p.text ++ "/" ++ q.text⟩

def child (p : Path) (name : String) : Path := p.join ⟨name⟩

/-- The name that a path ends in; a path that ends in `..`, in a leading dot, at the root or nowhere
has none. -/
def fileName (p : Path) : Option String :=
  match p.components.getLast? with
  | some (.name text) => some text
  | _ => none

/-- Segments without the empty segments and dots at their end. -/
def trimInner (segments : List String) : List String :=
  (segments.reverse.dropWhile fun segment => (innerComponent segment).isNone).reverse

/-- The path without its last component, spelled as the path itself up to there. The root and the
empty path have no parent. -/
def parent (p : Path) : Option Path :=
  match (trimInner p.tail).reverse with
  | _ :: before =>
    let kept := trimInner before.reverse
    some (if p.head = "" && kept.isEmpty then ⟨"/"⟩ else ofSegments p.head kept)
  | [] => if p.head = "" then none else some empty

/-- The path itself and its next parents, at most as many as asked for. -/
def ancestorsUpTo : Nat → Path → List Path
  | 0, p => [p]
  | steps + 1, p =>
    match p.parent with
    | some q => p :: ancestorsUpTo steps q
    | none => [p]

/-- The path itself, its parent, the parent of that, and so on. A path has at most as many parents
as components. -/
def ancestors (p : Path) : List Path := ancestorsUpTo p.components.length p

/-- A file name taken apart at its last dot: the part before it, and the part behind it. A name
without a dot, one whose only dot leads it, and `..` have no part behind. -/
def splitExtension (name : String) : String × Option String :=
  if name = ".." then (name, none)
  else
    let behind := (name.toList.reverse.takeWhile (· ≠ '.')).reverse
    match name.toList.reverse.dropWhile (· ≠ '.') with
    | [] => (name, none)
    | [_] => (name, none)
    | _ :: before => (String.ofList before.reverse, some (String.ofList behind))

/-- The name that a path ends in, without its extension. -/
def fileStem (p : Path) : Option String := p.fileName.map fun name => (splitExtension name).1

/-- The path with the extension `extension` behind the stem of its last name; a path that ends in no
name is left as it is. -/
def onStem (p : Path) (extension : String) : Path :=
  match p.fileStem with
  | none => p
  | some stem =>
    match (trimInner p.tail).reverse with
    | _ :: before => ofSegments p.head (before.reverse ++ [stem ++ "." ++ extension])
    | [] => ⟨stem ++ "." ++ extension⟩

/-- The path with the extension of its last name replaced. The old extension is taken off first, up
to its dot: a name such as `..x` leaves `..`, which is no name, and so stays without an
extension. -/
def withExtension (p : Path) (extension : String) : Path :=
  match p.fileName.bind fun name => (splitExtension name).2 with
  | none => p.onStem extension
  | some old =>
    (Path.mk (String.ofList (p.text.toList.take (p.text.length - old.length)))).onStem extension

end Path

end ShaderEmbed
