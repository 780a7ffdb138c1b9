import ShaderEmbed.Artifact.Render
import ShaderEmbed.File.Access
import ShaderEmbed.Run.Job

/-!
# Writing an artifact

An artifact is written only if the file does not hold its text already. The directories above it are
made first.
-/

namespace ShaderEmbed

/-- A text and the path where it belongs. -/
structure Artifact where
  path : Path
  text : String
deriving DecidableEq, Repr

namespace Artifact

/-- Whether the file of an artifact holds exactly its text. -/
def isOnDisk (artifact : Artifact) (tree : FileTree) (cwd : Place) : Bool :=
  match tree.readBytes cwd artifact.path with
  | .ok content => content = Text.encode artifact.text
  -- a file that cannot be read counts as one that differs
  | .error _ => false

/-- The directory that must be there before an artifact can be written, if it needs one of its
own. -/
def directory? (artifact : Artifact) : Option Path :=
  match artifact.path.parent with
  | some parent => if parent = .empty then none else some parent
  | none => none

def makeDirectory (artifact : Artifact) : Job ShaderError Unit := fun world =>
  match artifact.directory? with
  | none => ⟨[], world, .ok ()⟩
  | some directory =>
    -- directories made on the way to a failure stay
    let (tree, result) := world.tree.makeDirectories world.cwd directory
    ⟨[], { world with tree := tree }, result.mapError (.write directory)⟩

def writeFile (artifact : Artifact) : Job ShaderError Unit :=
  Job.changeTree fun world =>
    (world.tree.writeBytes world.cwd artifact.path (Text.encode artifact.text)).mapError
      (.write artifact.path)

/-- Writes an artifact unless it is on disk, and yields whether it was written. -/
def writeIfChanged (artifact : Artifact) : Job ShaderError Bool := do
  let world ← Job.world
  if artifact.isOnDisk world.tree world.cwd then
    return false
  else
    artifact.makeDirectory
    artifact.writeFile
    return true

end Artifact

/-- Renders sections and writes the artifact to a path, and yields whether it was written. -/
def emit (layout : ArtifactLayout) (mode : EmbeddingMode) (path : Path) (sections : List Section) :
    Job ShaderError Bool := do
  let text ← Job.ofExcept (render layout mode sections)
  (Artifact.mk path text).writeIfChanged

end ShaderEmbed
