import ShaderEmbed.Compile.Compiler
import ShaderEmbed.Compile.Scratch
import ShaderEmbed.Text.Blank

/-!
# Compiling with a tool

The tool is started with its arguments, the entry, `-o`, and the path of an output in a scratch
directory. A tool that does not succeed fails the compilation with what it printed to the error
stream; so does a tool that succeeds without leaving an output. What a successful tool printed is
recorded as a warning.
-/

namespace ShaderEmbed

/-- A compiler that starts a tool: its path, the arguments in front of the entry, and the parent of
its scratch directories. -/
structure ExternalTool where
  tool : Path
  arguments : List String
  scratch : Option Path

namespace ExternalTool

/-- The name of the output for an entry: its stem with the extension `bin`. -/
def outputName (entry : Path) : Path := (Path.mk (entry.fileStem.getD "shader")).withExtension "bin"

/-- What a tool printed to the error stream, as text without the white space around it. -/
def words (errors : Bytes) : String := Text.trimmed (Text.decodeLossy errors)

def start (self : ExternalTool) (entry output : Path) : Job ShaderError ToolRun := fun world =>
  match world.tools.start self.tool (self.arguments ++ [entry.text, "-o", output.text])
    world.cwd world.tree with
  | .error reason => ⟨[], world, .error (.launch self.tool reason)⟩
  | .ok run => ⟨[], { world with tree := run.tree }, .ok run⟩

def collect (entry output : Path) (status : ExitStatus) : Job ShaderError Bytes := fun world =>
  match world.tree.readBytes world.cwd output with
  | .ok bytes => ⟨[], world, .ok bytes⟩
  | .error reason =>
    -- an output that is missing is the fault of the tool, one that cannot be read is not
    ⟨[], world, .error
      (if reason.isMissing then .compilation entry status "compiler produced no output"
        else .read output reason)⟩

def compileTo (self : ExternalTool) (entry output : Path) : Job ShaderError Bytes := do
  Job.record (.launched self.tool entry output)
  let run ← self.start entry output
  if run.status.isSuccess then
    -- a tool may warn and still succeed
    if words run.errors ≠ "" then
      Job.record (.warned self.tool entry (words run.errors))
    collect entry output run.status
  else
    Job.fail (.compilation entry run.status (words run.errors))

def compiler (self : ExternalTool) : Compiler where
  compile entry := Scratch.within self.scratch fun directory =>
    self.compileTo entry (directory.join (outputName entry))

end ExternalTool

end ShaderEmbed
