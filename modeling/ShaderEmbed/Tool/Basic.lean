import ShaderEmbed.Tool.Naming
import ShaderEmbed.Tool.Status

/-!
# Tools

A tool is started with arguments in a working directory and sees the file tree. Either it cannot be
started, or it ends with a status, what it printed to the error stream, and the tree as it left it.
Which tools there are is data: a `Toolbox` answers every start. It also draws the names of scratch
directories, which tools are given their outputs in.
-/

namespace ShaderEmbed

/-- How a started tool left things. -/
structure ToolRun where
  status : ExitStatus
  errors : Bytes
  tree : FileTree

/-- What a build is offered: the tools that can be started, and names for scratch directories. -/
structure Toolbox where
  /-- The answer to a tool's path, its arguments, the working directory and the tree. -/
  start : Path → List String → Place → FileTree → Except FileError ToolRun
  /-- The name of a scratch directory that is to be made under a parent. -/
  draw : FileTree → Place → Path → Scratch.Name

def Toolbox.none : Toolbox := ⟨fun _ _ _ _ => .error (.system .noEntry), Scratch.counted⟩

end ShaderEmbed
