import ShaderEmbed.Tool.Arranging
import ShaderEmbed.Tool.Condition.Alone
import ShaderEmbed.Tool.Showing
import ShaderEmbed.Tool.Sorting

/-!
# What is installed

The programs by name, and the directories, links and devices of a system on which they are
installed. A program is installed as a file that can be started and that holds a mark and the name
of the program.
-/

namespace ShaderEmbed

namespace Program

/-- The programs by name, the shell apart. -/
def installed : List (String × Program) :=
  [("true", quit 0), ("false", quit 1), ("echo", echoAlone),
    ("printf", printfAlone), ("test", testAlone), ("[", bracketAlone), ("basename", basename),
    ("dirname", dirname), ("cat", cat), ("cp", cp), ("mv", mv), ("rm", rm),
    ("rmdir", rmdir), ("mkdir", mkdir), ("touch", touch), ("ln", ln),
    ("grep", grep), ("sleep", sleep),
    ("chmod", chmod), ("head", head), ("tail", tail), ("tee", tee), ("tr", tr), ("wc", wc),
    ("sort", sort), ("ls", ls),
    ("env", env)]

/-- The name of the shell as a program. -/
def shellName : String := "dash"

/-- What the file of every program starts with. It is no text. -/
def imageMark : Bytes := [127, 69, 76, 70, 255]

def image (name : String) : Entry := .file (imageMark ++ Text.encode name) true

/-- The name of the program that a file holds. -/
def ofImage? (content : Bytes) : Option String :=
  if imageMark.isPrefixOf content then Text.decode (content.drop imageMark.length) else none

end Program

namespace FileTree

def systemDirectories : List Place :=
  [["boot"], ["dev"], ["etc"], ["home"], ["media"], ["mnt"], ["opt"], ["proc"], ["root"],
    ["run"], ["srv"], ["sys"], ["tmp"], ["usr"], ["usr", "bin"], ["usr", "include"], ["usr", "lib"],
    ["usr", "local"], ["usr", "local", "bin"],
    ["usr", "local", "sbin"], ["usr", "sbin"], ["usr", "share"], ["var"], ["var", "tmp"]]

def systemLinks : List (Place × String) :=
  [(["bin"], "usr/bin"), (["lib"], "usr/lib"), (["sbin"], "usr/sbin"),
    (["usr", "bin", "sh"], Program.shellName)]

/-- The devices of a system. Those for endless bytes are taken for ones with none. -/
def systemDevices : List (String × Device) :=
  [("null", .null), ("full", .full), ("zero", .null), ("random", .null),
    ("urandom", .null), ("stdin", .null), ("stdout", .null), ("stderr", .null)]

def installed : FileTree :=
  let entries : List (Place × Entry) :=
    systemDirectories.map (fun place => (place, .directory)) ++
      systemLinks.map (fun link => (link.1, .link link.2)) ++
      systemDevices.map (fun device => (["dev", device.1], .device device.2)) ++
      (Program.shellName :: Program.installed.map (·.1)).map fun name =>
        (["usr", "bin", name], Program.image name)
  entries.foldl (fun tree entry => tree.put entry.1 entry.2) .empty

end FileTree

end ShaderEmbed
