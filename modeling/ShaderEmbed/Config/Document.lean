import ShaderEmbed.Config.Preset

/-!
# The object form of a configuration

A document is a tree of objects, lists, texts and truth values. `encode` writes a configuration as a
document, its root apart; optional settings that are not set are left out. `decode` reads a
document: fields may be missing, and then have their defaults, and fields with other names are
passed over. A record may also be written as the list of its fields in order, and a choice as an
object with the chosen name as its only field and `null` as its value.
-/

namespace ShaderEmbed

/-- A tree of plain values. -/
inductive Document where
  | null
  | truth (value : Bool)
  | number (text : String)
  | text (value : String)
  | list (items : List Document)
  | object (fields : List (String × Document))
deriving Repr, Inhabited

namespace Document

/-- A field of a record, as it is found in a document: missing, or with a value. -/
abbrev Field := Option Document

/-- The values of the named fields of a record. An object may have them in any order and others
besides, but none of them twice; a list holds the first of them in order, and nothing else. -/
def record? (names : List String) : Document → Option (List Field)
  | object fields =>
    if names.all fun name => (fields.map Prod.fst).count name ≤ 1 then
      some (names.map fun name => List.lookup name fields)
    else none
  | list items =>
    if items.length ≤ names.length then
      some (items.map some ++ List.replicate (names.length - items.length) none)
    else none
  | _ => none

/-- The value of a field that has a default. -/
def field {α : Type} (read : Document → Option α) (standard : α) : Field → Option α
  | none => some standard
  | some value => read value

def required {α : Type} (read : Document → Option α) : Field → Option α
  | none => none
  | some value => read value

/-- A value that may be absent. -/
def optional {α : Type} (read : Document → Option α) : Document → Option (Option α)
  | null => some none
  | value => (read value).map some

def text? : Document → Option String
  | text value => some value
  | _ => none

def path? : Document → Option Path
  | text value => some ⟨value⟩
  | _ => none

def truth? : Document → Option Bool
  | truth value => some value
  | _ => none

def list? {α : Type} (read : Document → Option α) : Document → Option (List α)
  | list items => items.mapM read
  | _ => none

def choice? {α : Type} (label : α → String) (values : List α) : Document → Option α
  | text name => values.find? fun value => label value = name
  | object [(name, null)] => values.find? fun value => label value = name
  | _ => none

/-- A field that is written only if it has a value. -/
def present {α : Type} (name : String) (write : α → Document) : Option α → List (String × Document)
  | none => []
  | some value => [(name, write value)]

def ofPath (p : Path) : Document := .text p.text

end Document

open Document

namespace ProjectConfig

def encode (project : ProjectConfig) : Document :=
  .object [("shader_root", ofPath project.shaderRoot), ("include_marker", .text project.marker)]

def decode? (document : Document) : Option ProjectConfig := do
  match ← record? ["shader_root", "include_marker"] document with
  | [root, marker] =>
    return ⟨← field path? standard.shaderRoot root, ← field text? standard.marker marker⟩
  | _ => none

end ProjectConfig

namespace ArtifactLayout

def encode (layout : ArtifactLayout) : Document :=
  .object [("header", .text layout.header), ("namespace", .text layout.space),
    ("scope", .text layout.scope)]

def decode? (document : Document) : Option ArtifactLayout := do
  match ← record? ["header", "namespace", "scope"] document with
  | [header, space, scope] =>
    return ⟨← field text? standard.header header, ← field text? standard.space space,
      ← field text? standard.scope scope⟩
  | _ => none

end ArtifactLayout

namespace CompilerConfig

def encode (compiler : CompilerConfig) : Document :=
  .object ([("tool", ofPath compiler.tool), ("args", .list (compiler.arguments.map Document.text)),
    ("flatten_includes", .truth compiler.flattenIncludes)] ++
      present "scratch_dir" ofPath compiler.scratch)

def decode? (document : Document) : Option CompilerConfig := do
  match ← record? ["tool", "args", "flatten_includes", "scratch_dir"] document with
  | [tool, arguments, flatten, scratch] =>
    return ⟨← field path? standard.tool tool, ← field (list? text?) standard.arguments arguments,
      ← field truth? standard.flattenIncludes flatten,
        ← field (optional path?) standard.scratch scratch⟩
  | _ => none

end CompilerConfig

namespace StageSpec

def encode (stage : StageSpec) : Document :=
  .object [("name", .text stage.name), ("entry", ofPath stage.entry),
    ("kind", .text stage.kind.label)]

def decode? (document : Document) : Option StageSpec := do
  match ← record? ["name", "entry", "kind"] document with
  | [name, entry, kind] =>
    return ⟨← required text? name, ← required path? entry,
      ← field (choice? StageKind.label StageKind.all) StageKind.text kind⟩
  | _ => none

end StageSpec

namespace TargetConfig

def encode (target : TargetConfig) : Document :=
  .object ([("name", .text target.name), ("output", ofPath target.output),
    ("mode", .text target.mode.label)] ++
    present "symbol" Document.text target.symbol ++ present "guard" Document.text target.guard ++
    [("stages", .list (target.stages.map StageSpec.encode))])

def decode? (document : Document) : Option TargetConfig := do
  match ← record? ["name", "output", "mode", "symbol", "guard", "stages"] document with
  | [name, output, mode, symbol, guard, stages] =>
    return ⟨← required text? name, ← required path? output,
      ← field (choice? TargetMode.label TargetMode.all) TargetMode.textMulti mode,
      ← field (optional text?) none symbol, ← field (optional text?) none guard,
      ← required (list? StageSpec.decode?) stages⟩
  | _ => none

end TargetConfig

namespace Config

def encode (config : Config) : Document :=
  .object [("project", config.project.encode), ("artifact", config.artifact.encode),
    ("compiler", config.compiler.encode),
      ("targets", .list (config.targets.map TargetConfig.encode))]

def decode? (document : Document) : Option Config := do
  match ← record? ["project", "artifact", "compiler", "targets"] document with
  | [project, artifact, compiler, targets] =>
    return ⟨← field ProjectConfig.decode? .standard project,
      ← field ArtifactLayout.decode? .standard artifact,
      ← field CompilerConfig.decode? .standard compiler,
      ← field (list? TargetConfig.decode?) Preset.all targets, .empty⟩
  | _ => none

end Config

end ShaderEmbed
