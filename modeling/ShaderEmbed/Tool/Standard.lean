import ShaderEmbed.Tool.Basic
import ShaderEmbed.Tool.Shell.Run

/-!
# The installed tools

A tool is started if a file of the tree holds a program or a script. The shell and the other
programs see an input without content; what they print to their output is dropped.
-/

namespace ShaderEmbed.Toolbox

def input : Shell.Channel := .device .null ⟨true, false, false⟩

def environment : Shell.Bindings := [("PATH", Launch.usualDirectories)]

/-- Runs the shell. -/
def shell (launch : Launch) (cwd : Place) (tree : FileTree) : ToolRun :=
  let after := Shell.startScript (Shell.runner Shell.callLimit) launch.name launch.arguments
    environment (.start input) cwd tree
  ⟨after.finalStatus, after.streams.collected 2, after.tree⟩

/-- Runs a program other than the shell. Its streams are those of a script that is nothing but a
call of it. -/
def program (run : Program) (launch : Launch) (cwd : Place) (tree : FileTree) : ToolRun :=
  let after := Shell.callInstalled run launch (.start launch.name [] (.start input) cwd tree)
  ⟨.code after.status, after.streams.collected 2, after.tree⟩

def standard : Toolbox where
  draw := Scratch.counted
  start tool arguments cwd tree :=
    if (tool.text :: arguments).any fun text => text.toList.contains '\x00' then
      .error .zeroInArgument
    else
      match Launch.ofTool tree cwd tool.text arguments with
      | .error e => .error e
      | .ok launch =>
        if launch.program = Program.shellName then .ok (shell launch cwd tree)
        else
          match Program.installed.lookup launch.program with
          | some run => .ok (program run launch cwd tree)
          | .none => .error (.system .badImage)

end ShaderEmbed.Toolbox
