import ShaderEmbed.Fragment.Directive
import ShaderEmbed.Run.Target

/-!
# Configurations

A configuration says where the fragments are, what the generated code is called, how binary stages
are compiled, and which targets there are. It belongs to a root directory, from which its relative
paths are read. What a file leaves out has a default; the default targets are the presets.
-/

namespace ShaderEmbed

/-- The embedding mode of a target, without the names that go with it. -/
inductive TargetMode where
  | textMulti
  | textSingle
  | binaryBlob
deriving DecidableEq, Repr

namespace TargetMode

def label : TargetMode → String
  | textMulti => "text-multi"
  | textSingle => "text-single"
  | binaryBlob => "binary-blob"

def all : List TargetMode := [textMulti, textSingle, binaryBlob]

def contentKind : TargetMode → StageKind
  | textMulti => .text
  | textSingle => .text
  | binaryBlob => .binary

end TargetMode

def StageKind.all : List StageKind := [.text, .binary]

/-- Where the fragments are, and the marker of include directives. -/
structure ProjectConfig where
  shaderRoot : Path
  marker : String
deriving DecidableEq, Repr

/-- The settings of a project that says nothing. -/
def ProjectConfig.standard : ProjectConfig := ⟨⟨"core/shaders"⟩, standardMarker⟩

/-- How binary stages are compiled. -/
structure CompilerConfig where
  tool : Path
  arguments : List String
  flattenIncludes : Bool
  scratch : Option Path
deriving DecidableEq, Repr

/-- The compiler of a project that says nothing. -/
def CompilerConfig.standard : CompilerConfig := ⟨⟨"glslc"⟩, [], false, none⟩

/-- A configured target. -/
structure TargetConfig where
  name : String
  output : Path
  mode : TargetMode
  symbol : Option String
  guard : Option String
  stages : List StageSpec
deriving DecidableEq, Repr

/-- A configuration and the directory it belongs to. -/
structure Config where
  project : ProjectConfig
  artifact : ArtifactLayout
  compiler : CompilerConfig
  targets : List TargetConfig
  root : Path
deriving DecidableEq, Repr

def Config.fileName : String := "shadergen.toml"

namespace TargetConfig

def embeddingMode (target : TargetConfig) : EmbeddingMode :=
  match target.mode with
  | .textMulti => .textMulti
  | .textSingle => .textSingle target.symbol
  | .binaryBlob => .binaryBlob target.guard

/-- What is needed to run the target from a project root. -/
def toSpec (target : TargetConfig) (root : Path) : TargetSpec :=
  ⟨target.name, root.join target.output, target.embeddingMode, target.stages⟩

end TargetConfig

namespace Config

def shaderRoot (config : Config) : Path := config.root.join config.project.shaderRoot

def targetNames (config : Config) : List String := config.targets.map TargetConfig.name

def target? (config : Config) (name : String) : Option TargetConfig :=
  config.targets.find? fun target => target.name = name

end Config

end ShaderEmbed
