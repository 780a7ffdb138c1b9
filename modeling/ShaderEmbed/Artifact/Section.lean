import ShaderEmbed.Text.Utf8

/-!
# What an artifact is made of

An artifact embeds named sections, one for each stage. A section holds text or bytes; the embedding
mode says which of the two it wants and how the sections are written; the layout holds the names
that the generated code uses.
-/

namespace ShaderEmbed

/-- Whether a stage produces text or a compiled binary. -/
inductive StageKind where
  | text
  | binary
deriving DecidableEq, Repr

def StageKind.label : StageKind → String
  | .text => "text"
  | .binary => "binary"

/-- What one stage produced. -/
inductive ShaderContent where
  | text (s : String)
  | binary (bytes : Bytes)
deriving DecidableEq, Repr

namespace ShaderContent

def kind : ShaderContent → StageKind
  | .text _ => .text
  | .binary _ => .binary

def size : ShaderContent → Nat
  | .text s => s.utf8ByteSize
  | .binary bytes => bytes.length

end ShaderContent

/-- A named part of an artifact. -/
structure Section where
  name : String
  content : ShaderContent
deriving DecidableEq, Repr

/-- How sections are embedded: each text under its own symbol, a single text under a symbol that may
be chosen, or byte tables that may stand behind a guard. -/
inductive EmbeddingMode where
  | textMulti
  | textSingle (symbol : Option String)
  | binaryBlob (guard : Option String)
deriving DecidableEq, Repr

namespace EmbeddingMode

def label : EmbeddingMode → String
  | textMulti => "text-multi"
  | textSingle _ => "text-single"
  | binaryBlob _ => "binary-blob"

def contentKind : EmbeddingMode → StageKind
  | textMulti => .text
  | textSingle _ => .text
  | binaryBlob _ => .binary

def guard? : EmbeddingMode → Option String
  | binaryBlob guard => guard
  | _ => none

end EmbeddingMode

/-- The names that generated code uses: the header that declares the scope, the namespace, and the
scope that owns the symbols. -/
structure ArtifactLayout where
  header : String
  space : String
  scope : String
deriving DecidableEq, Repr

def ArtifactLayout.standard : ArtifactLayout where
  header := "TracerX/Renderer.h"
  space := "TracerX"
  scope := "Renderer"

end ShaderEmbed
