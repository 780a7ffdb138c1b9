import ShaderEmbed.Config.FileForm
import ShaderEmbed.Config.Validate
import ShaderEmbed.Run.Job

/-!
# Finding the configuration

The configuration is read from the file that the environment names. Where it names none, the nearest
configuration file is taken, looking in the working directory and then in the directories above it;
and where there is none either, the presets are built, rooted at the working directory. A
configuration is checked before it is accepted, and belongs to the directory of its file. Its text
is read as a document of tables unless another reader is given.
-/

namespace ShaderEmbed.Config

def load (file : Path) (reader : ConfigReader := FileForm.read) : Job ConfigError Config := do
  let world ← Job.world
  let content ← Job.ofExcept ((world.tree.readText world.cwd file).mapError (.read file))
  let read ← Job.ofExcept (Config.parse reader file content)
  -- a bare file name has the empty path above it, which reads as the working directory
  let config := { read with root := file.parent.getD .empty }
  Job.ofExcept config.validate
  Job.record (.loaded file)
  return config

/-- Where a configuration file is looked for, the nearest place first. -/
def candidates (start : Path) : List Path :=
  start.ancestors.map fun directory => directory.child fileName

/-- The nearest configuration file in a directory or above it. -/
def nearest? (tree : FileTree) (cwd : Place) (start : Path) : Option Path :=
  (candidates start).find? fun candidate => tree.isFile cwd candidate

def discover (reader : ConfigReader := FileForm.read) : Job ConfigError Config := do
  let world ← Job.world
  match world.chosenConfig with
  -- a named file is taken even if it is missing: no other one is looked for
  | some chosen => load ⟨chosen⟩ reader
  | none => do
    let directory ← Job.ofExcept (world.directory.mapError .noDirectory)
    match nearest? world.tree world.cwd directory with
    | some file => load file reader
    | none => do
      Job.record (.unconfigured fileName)
      return { standard with root := directory }

end ShaderEmbed.Config
