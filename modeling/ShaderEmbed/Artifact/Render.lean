import ShaderEmbed.Artifact.Delimiter
import ShaderEmbed.Error

/-!
# The text of an artifact

An artifact is a C++ translation unit: it includes the header of the scope, uses the namespace, and
defines one symbol for each section. A text is a raw string literal with a line break on either side
of it; bytes are a table of decimal numbers, one on a line. Blocks are separated by an empty line,
and a guard encloses them all.

`check` says which sections a mode accepts. The renderer asks it first.
-/

namespace ShaderEmbed

namespace EmbeddingMode

def isSingle : EmbeddingMode → Bool
  | .textSingle _ => true
  | _ => false

/-- Why a mode does not accept some sections, if it does not. -/
def check (mode : EmbeddingMode) (sections : List Section) : Except SectionFault Unit :=
  -- no mode embeds nothing; only a single text is also held to its number
  if sections.isEmpty then .error .noSections
  else if mode.isSingle && sections.length ≠ 1 then .error (.count sections.length)
  else
    match sections.find? fun s => s.content.kind ≠ mode.contentKind with
    | some s => .error (.wrongKind s.content.kind s.name)
    | none => .ok ()

end EmbeddingMode

namespace ArtifactLayout

def opening (layout : ArtifactLayout) : String :=
  "#include <" ++ layout.header ++ ">\n\nusing namespace " ++ layout.space ++ ";\n\n"

def textBlock (layout : ArtifactLayout) (symbol delimiter text : String) : String :=
  "const char* " ++ layout.scope ++ "::" ++ symbol ++ " =\nR\"" ++ delimiter ++ "(\n" ++
    text ++ "\n)" ++ delimiter ++ "\";\n"

def byteLine (byte : UInt8) : String := "    " ++ toString byte.toNat ++ ",\n"

def bytesBlock (layout : ArtifactLayout) (symbol : String) (bytes : Bytes) : String :=
  "const std::vector<unsigned char> " ++ layout.scope ++ "::" ++ symbol ++ " =\n\x7b\n" ++
    String.join (bytes.map byteLine) ++ "\x7d;\n"

end ArtifactLayout

def EmbeddingMode.symbol (mode : EmbeddingMode) (s : Section) : String :=
  match mode with
  | .textMulti => s.name ++ "ShaderSrc"
  | .textSingle none => s.name ++ "ShaderSrc"
  | .textSingle (some symbol) => symbol
  | .binaryBlob _ => s.name ++ "Bin"

def renderSection (layout : ArtifactLayout) (mode : EmbeddingMode)
    (s : Section) : Except SectionFault String :=
  match s.content with
  | .text text =>
    match Delimiter.choose? text.toList with
    | some delimiter => .ok (layout.textBlock (mode.symbol s) (String.ofList delimiter) text)
    | none => .error (.noDelimiter s.name)
  | .binary bytes => .ok (layout.bytesBlock (mode.symbol s) bytes)

def guarded (guard : Option String) (blocks : String) : String :=
  match guard with
  | some guard => "#if " ++ guard ++ "\n" ++ blocks ++ "#endif\n"
  | none => blocks

/-- The text of the artifact that embeds some sections. -/
def renderArtifact (layout : ArtifactLayout) (mode : EmbeddingMode) (sections : List Section) :
    Except SectionFault String := do
  mode.check sections
  let blocks ← sections.mapM (renderSection layout mode)
  return layout.opening ++ guarded mode.guard? ("\n".intercalate blocks)

def render (layout : ArtifactLayout) (mode : EmbeddingMode) (sections : List Section) :
    Except ShaderError String :=
  (renderArtifact layout mode sections).mapError (.sectionMismatch mode.label)

end ShaderEmbed
