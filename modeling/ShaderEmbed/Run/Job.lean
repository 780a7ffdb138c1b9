import ShaderEmbed.Run.Event
import ShaderEmbed.Tool.Basic

/-!
# Jobs

A job is one step of a build: given the world it stands in, it yields the events it records, the
world it leaves, and a result or a failure. A failing job still leaves its world and its events.
Jobs are put together with `do`; the events of the parts follow one another.
-/

namespace ShaderEmbed

/-- What a job works in: the files, the working directory, the directory for temporary files, the
tools, and the configuration file that the environment names. -/
structure World where
  tree : FileTree
  cwd : Place
  temporary : Path
  tools : Toolbox
  chosenConfig : Option String

/-- The working directory as a path. It may be gone. -/
def World.directory (world : World) : Except FileError Path :=
  if world.tree.isDirectoryAt world.cwd then .ok (Path.ofPlace world.cwd) else
    .error (.system .noEntry)

/-- How a job went. -/
structure Outcome (ε α : Type) where
  events : List Event
  world : World
  result : Except ε α

/-- A step of a build. -/
def Job (ε α : Type) : Type := World → Outcome ε α

namespace Job

variable {ε α β : Type}

def run (job : Job ε α) (world : World) : Outcome ε α := job world

def done (value : α) : Job ε α := fun world => ⟨[], world, .ok value⟩

def fail (failure : ε) : Job ε α := fun world => ⟨[], world, .error failure⟩

/-- One job, and another that goes on with its value. -/
def andThen (job : Job ε α) (next : α → Job ε β) : Job ε β := fun world =>
  match job world with
  -- what was done before the failure is kept
  | ⟨events, left, .error failure⟩ => ⟨events, left, .error failure⟩
  | ⟨events, left, .ok value⟩ =>
    let rest := next value left
    ⟨events ++ rest.events, rest.world, rest.result⟩

instance : Monad (Job ε) where
  pure := done
  bind := andThen

/-- Yields or fails as a result says. -/
def ofExcept (result : Except ε α) : Job ε α := fun world => ⟨[], world, result⟩

def record (event : Event) : Job ε Unit := fun world => ⟨[event], world, .ok ()⟩

def world : Job ε World := fun world => ⟨[], world, .ok world⟩

/-- A change of the file tree, which may fail. -/
def changeTree (change : World → Except ε FileTree) : Job ε Unit := fun world =>
  match change world with
  | .ok tree => ⟨[], { world with tree := tree }, .ok ()⟩
  | .error failure => ⟨[], world, .error failure⟩

def mapError {δ : Type} (job : Job ε α) (f : ε → δ) : Job δ α := fun world =>
  let outcome := job world
  ⟨outcome.events, outcome.world, outcome.result.mapError f⟩

/-- A job with something recorded only if it fails. -/
def onFailure (job : Job ε α) (event : Event) : Job ε α := fun world =>
  match job world with
  | ⟨events, left, .error failure⟩ => ⟨events ++ [event], left, .error failure⟩
  | outcome => outcome

/-- A job and a change of the tree that follows it in any case. -/
def inAnyCase (job : Job ε α) (change : FileTree → FileTree) : Job ε α := fun world =>
  let outcome := job world
  ⟨outcome.events, { outcome.world with tree := change outcome.world.tree }, outcome.result⟩

/-- The value of an attempt to expand, with its inclusions recorded. -/
def ofAttempt (attempt : Attempt) : Job ShaderError Flattened := fun world =>
  ⟨attempt.inclusions.map .inclusion, world, attempt.result⟩

end Job

end ShaderEmbed
