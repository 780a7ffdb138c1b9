import ShaderEmbed.Compile.External
import ShaderEmbed.Config.Discovery
import ShaderEmbed.Project.Diagnostic

/-!
# Building

A configured target is built by running it with the fragments below the shader root and the
configured tool; a failure is reported as the failure of that target. All targets are built in order
up to the first failure. The commands find the configuration first, build one target or all of them,
and end with a diagnostic where something failed.
-/

namespace ShaderEmbed

namespace Config

def scratch (config : Config) : Option Path := config.compiler.scratch.map config.root.join

def externalTool (config : Config) : ExternalTool :=
  ⟨config.compiler.tool, config.compiler.arguments, config.scratch⟩

def pipeline (config : Config) : Pipeline where
  source world := .ofDirectory world.tree world.cwd config.shaderRoot
  compiler := config.externalTool.compiler
  layout := config.artifact
  marker := config.project.marker
  compileRoot := config.shaderRoot
  flattenBinaries := config.compiler.flattenIncludes
  scratch := config.scratch

def targetFailure (name : String) (failure : ShaderError) : BuildFailure :=
  (BuildFailure.ofCause (.shader failure)).within ("target '" ++ name ++ "' failed")

def build (config : Config) (name : String) : Job BuildFailure RunReport := do
  let target ← Job.ofExcept ((config.target name).mapError fun refusal =>
      .ofCause (.config refusal))
  -- recorded in front of the run, so that the records also tell where a failed build stood
  Job.record (.building target.name target.stages.length)
  (config.pipeline.run (target.toSpec config.root)).mapError (targetFailure target.name)

def buildEach (config : Config) : List String → Job BuildFailure (List RunReport)
  | [] => return []
  | name :: rest => do
    let report ← config.build name
    let others ← buildEach config rest
    return report :: others

def buildAll (config : Config) : Job BuildFailure (List RunReport) :=
  config.buildEach config.targetNames

end Config

/-- What is asked for: one target, or all of them. -/
inductive Command where
  | one (target : String)
  | all
deriving DecidableEq, Repr

namespace Command

def named : List (String × Command) :=
  [("shadergen", .all), ("build_shaders", .one "renderer"),
    ("build_compute_shader", .one "compute"), ("build_shader_binaries", .one "binary")]

def perform (config : Config) : Command → Job BuildFailure Unit
  | one target => do
    let _ ← config.build target
  | all => do
    let reports ← config.buildAll
    Job.record (.summary reports.length (reports.filter RunReport.written).length)

/-- Finds the configuration and carries out a command. -/
def job (command : Command) (reader : ConfigReader := FileForm.read) : Job BuildFailure Unit := do
  let config ← (Config.discover reader).mapError fun refusal => .ofCause (.config refusal)
  command.perform config

end Command

/-- What a command tells its caller: the exit code, and the line that tells of a failure. -/
def exitReport : Except BuildFailure Unit → Nat × String
  | .ok () => (0, "")
  | .error failure => (1, failure.diagnostic ++ "\n")

end ShaderEmbed
