import ShaderEmbed.Project.Build
import ShaderEmbed.Tool.Standard

/-!
# The command line

The first argument names the command; without one all targets are built. A command is carried out on
a file tree that holds what it needs from the disk: the configuration, the entries and the outputs
of the targets, and then every fragment that a run finds missing. What the command changed is
written back, and its exit code returned.
-/

namespace ShaderEmbed.CommandLine

/-- The names of the place that a path names lexically. -/
def placeOf (p : Path) : Place :=
  p.place.filterMap fun
    | .name text => some text
    | _ => none

def plant (tree : FileTree) (place : Place) (entry : Entry) : FileTree :=
  let above := (List.range place.length).map fun n => place.take n
  (above.foldl (fun tree directory => tree.put directory .directory) tree).put place entry

/-- The tree with the file that the disk has at a path, if it has one there. -/
def fetch (tree : FileTree) (p : Path) : IO FileTree := do
  try
    let content ← IO.FS.readBinFile p.text
    return plant tree (placeOf p) (.file content.toList)
  catch _ => return tree

def fetchAll (tree : FileTree) (paths : List Path) : IO FileTree := paths.foldlM fetch tree

/-- What a configuration is sure to need: the entries of its stages, and its outputs and what is
above them. -/
def needed (config : Config) : List Path :=
  config.targets.flatMap fun target =>
    target.stages.map (fun stage => config.shaderRoot.join stage.entry) ++
      (config.root.join target.output).ancestors

/-- The path of the fragment that a run did not find. -/
def missing? (config : Config) : Except BuildFailure Unit → Option Path
  | .error ⟨_, .shader (.notFound p)⟩ => some (config.shaderRoot.join p)
  | _ => none

/-- Carries out a command, again after each missing fragment that the disk has, at most a number of
times. -/
def carryOut (config : Config) (command : Command) : Nat → World →
    IO (World × Outcome BuildFailure Unit)
  | 0, world => return (world, command.job.run world)
  | more + 1, world => do
    let outcome := command.job.run world
    match missing? config outcome.result with
    | none => return (world, outcome)
    | some p => do
      let tree ← fetch world.tree p
      -- the disk does not have the fragment either
      if tree.entries.length = world.tree.entries.length then return (world, outcome)
      else carryOut config command more { world with tree := tree }

/-- Writes to the disk what differs between two trees. -/
def writeBack (before after : FileTree) : IO Unit :=
  after.entries.forM fun (place, entry) => do
    if before.get? place ≠ some entry then
      match entry with
      | .directory => IO.FS.createDirAll (Path.ofPlace place).text
      | .file content _ => do
        IO.FS.createDirAll (Path.ofPlace place.dropLast).text
        IO.FS.writeBinFile (Path.ofPlace place).text ⟨content.toArray⟩
      | .link _ => return
      | .device _ => return

def fragmentLimit : Nat := 100000

/-- Carries out a command in the working directory, and yields how it went. -/
def perform (command : Command) : IO (Except BuildFailure Unit) := do
  let directory : Path := ⟨(← IO.currentDir).toString⟩
  let chosen ← IO.getEnv "SHADERGEN_CONFIG"
  let bare := plant .installed (placeOf directory) .directory
  let files := chosen.toList.map (fun name => directory.join ⟨name⟩) ++ Config.candidates directory
  let world : World := ⟨← fetchAll bare files, placeOf directory, ⟨"/tmp"⟩, .standard, chosen⟩
  match (Config.discover.run (plantTemporary world)).result with
  | .error refusal => return .error (.ofCause (.config refusal))
  | .ok config => do
    let tree ← fetchAll world.tree (needed config |>.map directory.join)
    let (start, outcome) ← carryOut config command fragmentLimit
        (plantTemporary { world with tree := tree })
    writeBack start.tree outcome.world.tree
    return outcome.result
where
  plantTemporary (world : World) : World :=
    { world with tree := plant world.tree (placeOf world.temporary) .directory }

end ShaderEmbed.CommandLine

open ShaderEmbed in
def main (arguments : List String) : IO UInt32 := do
  let command := (arguments.head?.bind fun name => Command.named.lookup name).getD .all
  let (code, line) := exitReport (← CommandLine.perform command)
  (← IO.getStderr).putStr line
  return UInt32.ofNat code
