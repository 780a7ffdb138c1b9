import ShaderEmbed.Config.Parse
import ShaderEmbed.Config.Preset
import ShaderEmbed.Decimal.Shortest
import ShaderEmbed.Toml.Document

/-!
# The file form of a configuration

A configuration file is a document of tables. What it leaves out has a default, and what it says
besides is passed over. A record may be written as a table or as the array of its fields in order; a
choice is written as its name, or as a table with the name as its only key and an empty table as its
value.

The fields of a table are read in the order in which they are written, and only then is a missing
field noticed. The first misfit found is reported, at the place of the node that does not fit; where
that was written nowhere, at the place of what contains it.
-/

namespace ShaderEmbed

open Toml (Node Table)

/-- Why a node does not fit. -/
inductive FormFault where
  | wrongType (node : Node) (wanted : String)
  | missingField (name : String)
  | tooShort (length : Nat) (record : String) (fields : Nat)
  | unknownChoice (name : String) (known : List String)
  | notChoice
  | noChoice
  | manyChoices
  | notEmptyTable
  | notEmptyArray
  | notTable (kind : String)

/-- Why and where a document does not fit. -/
structure Misfit where
  place : Option Nat
  fault : FormFault

namespace FormFault

def found : Node → String
  | .text _ value => "string " ++ Text.quote value
  | .integer _ value => "integer `" ++ toString value ++ "`"
  | .float _ value => "floating point `" ++ value.text ++ "`"
  | .truth _ value => "boolean `" ++ toString value ++ "`"
  | .moment _ => "map"
  | .table _ => "map"
  | .array .. => "sequence"
  | .tables _ => "sequence"

def choices (known : List String) : String :=
  match known.map fun name => "`" ++ name ++ "`" with
  | [only] => only
  | [first, second] => first ++ " or " ++ second
  | names => "one of " ++ ", ".intercalate names

def message : FormFault → String
  | wrongType node wanted => "invalid type: " ++ found node ++ ", expected " ++ wanted
  | missingField name => "missing field `" ++ name ++ "`"
  | tooShort length record fields =>
    "invalid length " ++ toString length ++ ", expected struct " ++ record ++
      " with " ++ toString fields ++ " elements"
  | unknownChoice name known => "unknown variant `" ++ name ++ "`, expected " ++ choices known
  | notChoice => "wanted string or table"
  | noChoice => "wanted exactly 1 element, found 0 elements"
  | manyChoices => "wanted exactly 1 element, more than 1 element"
  | notEmptyTable => "expected empty table"
  | notEmptyArray => "expected empty array"
  | notTable kind => "expected table, found " ++ kind

end FormFault

namespace FileForm

def misfit {α : Type} (node : Node) (fault : FormFault) : Except Misfit α :=
  .error ⟨node.place?, fault⟩

/-- A result whose misfit, if it has no place, has the given one. -/
def placed {α : Type} (place : Option Nat) (result : Except Misfit α) : Except Misfit α :=
  result.mapError fun misfit => { misfit with place := misfit.place.or place }

def text : Node → Except Misfit String
  | .text _ value => .ok value
  | node => misfit node (.wrongType node "a string")

def path : Node → Except Misfit Path
  | .text _ value => .ok ⟨value⟩
  | node => misfit node (.wrongType node "path string")

def truth : Node → Except Misfit Bool
  | .truth _ value => .ok value
  | node => misfit node (.wrongType node "a boolean")

def list {α : Type} (read : Node → Except Misfit α) : Node → Except Misfit (List α)
  | .array _ items => items.mapM read
  | .tables elements => elements.mapM fun element => read (.table element)
  | node => misfit node (.wrongType node "a sequence")

def named {α : Type} (label : α → String) (values : List α) (place : Option Nat)
    (name : String) : Except Misfit α :=
  match values.find? fun value => label value = name with
  | some value => .ok value
  | none => .error ⟨place, .unknownChoice name (values.map label)⟩

/-- What stands beside the name of a choice: nothing. -/
def nothing : Node → Except Misfit Unit
  | .table content =>
    if content.fields.isEmpty then .ok () else misfit (.table content) .notEmptyTable
  -- a list in brackets is held against an empty table, one of tables under headers against an empty
  -- list
  | .array place items =>
    if items.isEmpty then .ok () else misfit (.array place items) .notEmptyTable
  | .tables elements =>
    if elements.isEmpty then .ok () else misfit (.tables elements) .notEmptyArray
  | node => misfit node (.notTable node.kind)

def choice {α : Type} (label : α → String) (values : List α) (node : Node) : Except Misfit α :=
  placed node.place? <|
    match node with
    | .text place name => named label values (some place) name
    | .table content =>
      match content.fields with
      | [] => misfit node .noChoice
      | [(key, beside)] => do
        let value ← named label values (some key.place) key.name
        nothing beside
        return value
      | _ => misfit node .manyChoices
    | _ => misfit node .notChoice

/-- The record's name and the names of its fields in declared order. -/
structure Shape where
  record : String
  fields : List String

namespace Shape

/-- The fields of a node as they are read: name, place of the key, and value. A date-time counts as
a table with no field of any record. -/
def fieldsOf (shape : Shape) (node : Node) : Except Misfit (List (String × Option Nat × Node)) :=
  match node with
  | .table content => .ok (content.fields.map fun (key, value) => (key.name, some key.place, value))
  -- a list gives the fields in declared order; what is beyond them is not looked at
  | .array _ items => .ok ((shape.fields.zip items).map fun (name, value) => (name, none, value))
  | .tables elements =>
    .ok ((shape.fields.zip elements).map fun (name, value) => (name, none, .table value))
  | .moment _ => .ok []
  | _ => misfit node (.wrongType node ("struct " ++ shape.record))

/-- Reads a record by setting its fields one after the other. -/
def read {δ : Type} (shape : Shape) (start : δ) (set : δ → String → Node → Except Misfit δ)
    (node : Node) :
    Except Misfit δ := placed node.place? do
  let fields ← shape.fieldsOf node
  fields.foldlM (fun done (name, place, value) =>
    placed (value.place?.or place) (set done name value)) start

/-- A field that must be there. -/
def required {α : Type} (shape : Shape) (node : Node) (name : String) : Option α → Except Misfit α
  | some value => .ok value
  | none =>
    match node with
    | .array .. =>
      misfit node (.tooShort (shape.fields.idxOf name) shape.record shape.fields.length)
    | .tables _ =>
      misfit node (.tooShort (shape.fields.idxOf name) shape.record shape.fields.length)
    | _ => misfit node (.missingField name)

end Shape

def project : Node → Except Misfit ProjectConfig :=
  Shape.read ⟨"ProjectConfig", ["shader_root", "include_marker"]⟩ .standard fun done name value =>
    match name with
    | "shader_root" => return { done with shaderRoot := ← path value }
    | "include_marker" => return { done with marker := ← text value }
    | _ => return done

def artifact : Node → Except Misfit ArtifactLayout :=
  Shape.read ⟨"ArtifactConfig", ["header", "namespace", "scope"]⟩ .standard fun done name value =>
    match name with
    | "header" => return { done with header := ← text value }
    | "namespace" => return { done with space := ← text value }
    | "scope" => return { done with scope := ← text value }
    | _ => return done

def compiler : Node → Except Misfit CompilerConfig :=
  Shape.read ⟨"CompilerConfig", ["tool", "args", "flatten_includes", "scratch_dir"]⟩ .standard
    fun done name value =>
    match name with
    | "tool" => return { done with tool := ← path value }
    | "args" => return { done with arguments := ← list text value }
    | "flatten_includes" => return { done with flattenIncludes := ← truth value }
    | "scratch_dir" => return { done with scratch := some (← path value) }
    | _ => return done

/-- A stage of which some fields are read. -/
structure StageDraft where
  name : Option String
  entry : Option Path
  kind : StageKind

/-- A stage. -/
def stage (node : Node) : Except Misfit StageSpec := do
  let shape : Shape := ⟨"StageConfig", ["name", "entry", "kind"]⟩
  let draft ← shape.read (StageDraft.mk none none .text)
    (fun done name value =>
      match name with
      | "name" => return { done with name := some (← text value) }
      | "entry" => return { done with entry := some (← path value) }
      | "kind" => return { done with kind := ← choice StageKind.label StageKind.all value }
      | _ => return done) node
  return ⟨← shape.required node "name" draft.name,
    ← shape.required node "entry" draft.entry, draft.kind⟩

/-- A target of which some fields are read. -/
structure TargetDraft where
  name : Option String
  output : Option Path
  mode : TargetMode
  symbol : Option String
  guard : Option String
  stages : Option (List StageSpec)

/-- A target. -/
def target (node : Node) : Except Misfit TargetConfig := do
  let shape : Shape := ⟨"TargetConfig", ["name", "output", "mode", "symbol", "guard", "stages"]⟩
  let draft ← shape.read (TargetDraft.mk none none .textMulti none none none)
    (fun done name value =>
      match name with
      | "name" => return { done with name := some (← text value) }
      | "output" => return { done with output := some (← path value) }
      | "mode" => return { done with mode := ← choice TargetMode.label TargetMode.all value }
      | "symbol" => return { done with symbol := some (← text value) }
      | "guard" => return { done with guard := some (← text value) }
      | "stages" => return { done with stages := some (← list stage value) }
      | _ => return done) node
  return ⟨← shape.required node "name" draft.name,
    ← shape.required node "output" draft.output, draft.mode, draft.symbol, draft.guard,
      ← shape.required node "stages" draft.stages⟩

/-- A configuration without a root. -/
def config (document : Table Node) : Except Misfit Config :=
  Shape.read ⟨"Config", ["project", "artifact", "compiler", "targets"]⟩ .standard
    (fun done name value =>
      match name with
      | "project" => return { done with project := ← project value }
      | "artifact" => return { done with artifact := ← artifact value }
      | "compiler" => return { done with compiler := ← compiler value }
      | "targets" => return { done with targets := ← list target value }
      | _ => return done) (.table document)

/-- Reads documents of tables. -/
def read : ConfigReader := fun content =>
  match Toml.parse content with
  | .error refusal => .error ⟨some refusal.offset, refusal.message⟩
  | .ok document => (config document).mapError fun misfit => ⟨misfit.place, misfit.fault.message⟩

end FileForm

end ShaderEmbed
