import ShaderEmbed.Artifact.Section
import ShaderEmbed.File.Error
import ShaderEmbed.Text.Lines
import ShaderEmbed.Tool.Status

/-!
# Why a run fails

Every failure ends the run that met it. A failure is its cause; `ShaderError.message` is the one
place where it is put into words.
-/

namespace ShaderEmbed

/-- What is wrong with the sections of an artifact. -/
inductive SectionFault where
  | noSections
  | count (sections : Nat)
  | wrongKind (kind : StageKind) (stage : String)
  | noDelimiter (stage : String)
  | stated (text : String)
deriving DecidableEq, Repr

def SectionFault.message : SectionFault → String
  | noSections => "an empty section list"
  | count sections => toString sections ++ " sections (expected 1)"
  | wrongKind kind stage => kind.label ++ " content for stage " ++ stage
  | noDelimiter stage => "stage " ++ stage ++ " (no raw string delimiter fits)"
  | stated text => text

/-- Why a run failed. The chain of a cycle lists the fragments that were being expanded, the
outermost first, and the one reached again. -/
inductive ShaderError where
  | notFound (path : Path)
  | cyclicInclude (path : Path) (chain : List Path)
  | malformedInclude (path : Path) (line : Nat)
  | read (path : Path) (reason : FileError)
  | compilation (entry : Path) (status : ExitStatus) (diagnostics : String)
  | launch (tool : Path) (reason : FileError)
  | scratch (reason : FileError)
  | write (path : Path) (reason : FileError)
  | sectionMismatch (mode : String) (fault : SectionFault)
deriving DecidableEq, Repr

namespace ShaderError

/-- A failure in words. What a tool printed is written on one line. -/
def message : ShaderError → String
  | notFound path => "shader not found (" ++ path.text ++ ")"
  | cyclicInclude path chain =>
    "cyclic include of " ++ path.text ++ " (" ++ " -> ".intercalate (chain.map Path.text) ++ ")"
  | malformedInclude path line =>
    "include directive without a path in " ++ path.text ++ " (line " ++ toString line ++ ")"
  | read path reason => "failed to read " ++ path.text ++ ": " ++ reason.message
  | compilation entry status diagnostics =>
    "compilation of " ++ entry.text ++ " failed (" ++ status.text ++ "): " ++
      Text.fold Text.bar diagnostics
  | launch tool reason => "failed to launch shader compiler " ++ tool.text ++ ": " ++ reason.message
  | scratch reason => "failed to prepare scratch file: " ++ reason.message
  | write path reason => "failed to write " ++ path.text ++ ": " ++ reason.message
  | sectionMismatch mode fault => mode ++ " cannot embed " ++ fault.message

/-- The fragment or artifact that a failure is about. -/
def path? : ShaderError → Option Path
  | notFound path => some path
  | cyclicInclude path _ => some path
  | malformedInclude path _ => some path
  | read path _ => some path
  | compilation entry _ _ => some entry
  | launch _ _ => none
  | scratch _ => none
  | write path _ => some path
  | sectionMismatch _ _ => none

/-- The failure of the system that a failure goes back to. -/
def reason? : ShaderError → Option FileError
  | read _ reason => some reason
  | launch _ reason => some reason
  | scratch reason => some reason
  | write _ reason => some reason
  | _ => none

end ShaderError

end ShaderEmbed
