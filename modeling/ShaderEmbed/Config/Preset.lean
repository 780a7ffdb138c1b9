import ShaderEmbed.Config.Basic

/-!
# Presets

The targets of the renderer, which are built where no configuration names its own: the rasterization
shaders as one text each, the path tracer as a single text, and the compiled path tracer behind its
feature flag.
-/

namespace ShaderEmbed

namespace Preset

def stage (kind : StageKind) (name entry : String) : StageSpec := ⟨name, ⟨entry⟩, kind⟩

def renderer : TargetConfig where
  name := "renderer"
  output := ⟨"core/src/RendererShaderSrc.cpp"⟩
  mode := .textMulti
  symbol := none
  guard := none
  stages := [
    stage .text "accumulator" "fragment/accumulator.glsl",
    stage .text "toneMapper" "fragment/toneMapper.glsl",
    stage .text "albedo" "fragment/albedo.glsl",
    stage .text "normal" "fragment/normal.glsl",
    stage .text "vertex" "vertex/main.glsl"]

def compute : TargetConfig where
  name := "compute"
  output := ⟨"core/src/RendererComputeShaderSrc.cpp"⟩
  mode := .textSingle
  symbol := some "pathTracerShaderSrc"
  guard := none
  stages := [stage .text "pathTracer" "compute/pathTracer.glsl"]

def binary : TargetConfig where
  name := "binary"
  output := ⟨"core/src/RendererShaderBin.cpp"⟩
  mode := .binaryBlob
  symbol := none
  guard := some "TRACERX_SPIRV"
  stages := [stage .binary "pathTracer" "compute/pathTracer.glsl"]

def all : List TargetConfig := [renderer, compute, binary]

def names : List String := all.map TargetConfig.name

def get? (name : String) : Option TargetConfig := all.find? fun preset => preset.name = name

end Preset

/-- The configuration that says nothing. -/
def Config.standard : Config := ⟨.standard, .standard, .standard, Preset.all, .empty⟩

end ShaderEmbed
