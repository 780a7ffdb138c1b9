import ShaderEmbed.Artifact.Emit
import ShaderEmbed.Compile.Compiler
import ShaderEmbed.Compile.Scratch

/-!
# Running a target

A run resolves the stages of a target in declared order and then emits the artifact once. A text
stage is flattened. A binary stage is compiled, either from its entry below the compile root, or,
when binaries are flattened, from a scratch copy of its flattened text that keeps the name of the
entry. The first stage that fails ends the run before anything is written.
-/

namespace ShaderEmbed

/-- One stage of a target. -/
structure StageSpec where
  name : String
  entry : Path
  kind : StageKind
deriving DecidableEq, Repr

/-- What is needed to produce one artifact. The stages are in the order in which they are
emitted. -/
structure TargetSpec where
  name : String
  output : Path
  mode : EmbeddingMode
  stages : List StageSpec
deriving DecidableEq, Repr

/-- What one stage produced, and the fragments it was made of. A stage compiled directly names its
entry alone. -/
structure ResolvedShader where
  stage : String
  content : ShaderContent
  sources : List Path
deriving DecidableEq, Repr

def ResolvedShader.toSection (shader : ResolvedShader) : Section := ⟨shader.stage, shader.content⟩

/-- The report of a run that succeeded. -/
structure RunReport where
  target : String
  output : Path
  written : Bool
  shaders : List ResolvedShader
deriving DecidableEq, Repr

/-- How targets are run. The fragments are looked up in the world as it is when a stage is
resolved. -/
structure Pipeline where
  source : World → FragmentSource
  compiler : Compiler
  layout : ArtifactLayout
  marker : String
  compileRoot : Path
  flattenBinaries : Bool
  scratch : Option Path

namespace Pipeline

variable (self : Pipeline)

def flatten (entry : Path) : Job ShaderError Flattened := do
  let world ← Job.world
  Job.ofAttempt ((self.source world).flatten self.marker entry)

/-- The path of the copy of an entry in a scratch directory. -/
def copyPath (directory entry : Path) : Path :=
  match entry.fileName with
  | some name => directory.child name
  | none => directory.join entry

def writeCopy (copy : Path) (text : String) : Job ShaderError Unit :=
  Job.changeTree fun world =>
    (world.tree.writeBytes world.cwd copy (Text.encode text)).mapError .scratch

/-- Compiles flattened text from a scratch copy that keeps the name of the entry. -/
def compileFlattened (entry : Path) (text : String) : Job ShaderError Bytes :=
  Scratch.within self.scratch fun directory => do
    writeCopy (copyPath directory entry) text
    self.compiler.ask (copyPath directory entry)

/-- Resolves one stage. -/
def resolve (stage : StageSpec) : Job ShaderError ResolvedShader :=
  match stage.kind with
  | .text => do
    let flat ← self.flatten stage.entry
    return ⟨stage.name, .text flat.text, flat.sources⟩
  | .binary =>
    if self.flattenBinaries then do
      let flat ← self.flatten stage.entry
      let bytes ← self.compileFlattened stage.entry flat.text
      return ⟨stage.name, .binary bytes, flat.sources⟩
    else do
      -- the tool reads what the entry includes by itself, so only the entry is known to be used
      let bytes ← self.compiler.ask (self.compileRoot.join stage.entry)
      return ⟨stage.name, .binary bytes, [stage.entry]⟩

def recordSources (stage : String) : List Path → Job ShaderError Unit
  | [] => return ()
  | source :: rest => do
    Job.record (.consumed stage source)
    recordSources stage rest

/-- Resolves stages in order, the first of them having the given index. -/
def resolveAll (target : String) : Nat → List StageSpec → Job ShaderError (List ResolvedShader)
  | _, [] => return []
  | index, stage :: rest => do
    Job.record (.reached target (.resolving index stage.name))
    let shader ← self.resolve stage
    Job.record (.built stage.name shader.content.size shader.sources.length)
    recordSources stage.name shader.sources
    let others ← resolveAll target (index + 1) rest
    return shader :: others

def runStages (target : TargetSpec) : Job ShaderError RunReport := do
  let shaders ← self.resolveAll target.name 0 target.stages
  Job.record (.reached target.name .allResolved)
  Job.record (.reached target.name .emitting)
  let written ← emit self.layout target.mode target.output (shaders.map ResolvedShader.toSection)
  if written then
    Job.record (.reached target.name .written)
    Job.record (.wrote target.output)
  else
    Job.record (.reached target.name .skipped)
    Job.record (.upToDate target.output)
  return ⟨target.name, target.output, written, shaders⟩

/-- Runs a target to its end or to the first failure. -/
def run (target : TargetSpec) : Job ShaderError RunReport := do
  Job.record (.reached target.name .pending)
  (self.runStages target).onFailure (.reached target.name .failed)

end Pipeline

end ShaderEmbed
