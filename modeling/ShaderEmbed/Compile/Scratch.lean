import ShaderEmbed.File.Access
import ShaderEmbed.Run.Job

/-!
# Scratch directories

A scratch directory is made for one job, under a name that is drawn for it, and is cleared with
everything in it when the job ends, whichever way it ends. It is never one that was there before:
where the name is taken, none is made. The parent is the directory for temporary files unless
another is chosen; a relative parent is taken from the working directory.
-/

namespace ShaderEmbed

namespace Scratch

def parent (world : World) : Option Path → Except FileError Path
  | none => .ok world.temporary
  | some chosen =>
    if chosen.isAbsolute then .ok chosen else
      world.directory.map fun directory => directory.join chosen

/-- The path of a scratch directory that is to be made. Its name is drawn. -/
def fresh (world : World) (chosen : Option Path) : Except FileError Path :=
  (parent world chosen).map fun parent =>
    parent.child (world.tools.draw world.tree world.cwd parent).text

def make (chosen : Option Path) : Job ShaderError (Path × Place) := fun world =>
  match fresh world chosen with
  | .error reason => ⟨[], world, .error (.scratch reason)⟩
  | .ok path =>
    -- clearing goes by the place: when the job is done the path may lead elsewhere
    match world.tree.find .name world.cwd path, world.tree.makeDirectory world.cwd path with
    | .ok place, .ok tree => ⟨[], { world with tree := tree }, .ok (path, place)⟩
    | .error reason, _ => ⟨[], world, .error (.scratch (.located reason path))⟩
    | _, .error reason => ⟨[], world, .error (.scratch (.located reason path))⟩

/-- Does a job with the path of a scratch directory that lasts as long as the job. -/
def within {α : Type} (chosen : Option Path)
    (job : Path → Job ShaderError α) : Job ShaderError α := do
  let (path, place) ← make chosen
  (job path).inAnyCase (·.clear place)

end Scratch

end ShaderEmbed
