import Mathlib.Data.List.Nodup
import Mathlib.Logic.Relation
import ShaderEmbed.Config.Document

/-!
# The object form and back

What is written as a document is read back, record by record: a setting that is left out because it
has no value is read as one that has none. So what is read from a document, with its defaults filled
in, is read again from its own object form (`Config.decode?_encode`).

A document of a configuration is made of records, lists, and plain values; its `Form` says which of
them is where. `AddsField` adds one field to a record that does not know it. A record asks for its
own fields only, and finds what it found before (`foundAlike_of_addsField`), so that every reader
passes the new field by (`Respects`), and any number of them (`Config.decode?_of_additions`).

A choice is a plain value, also where it is written as an object: the name must be its only field.
-/

namespace ShaderEmbed

namespace Document

/-! ## Reading what was written -/

theorem list?_map {α : Type} {read : Document → Option α} {write : α → Document}
    (h : ∀ a, read (write a) = some a) (values : List α) :
    list? read (.list (values.map write)) = some values := by
  have hmap : (values.map write).mapM read = some values := by
    induction values with
    | nil => rfl
    | cons first rest ih =>
      rw [List.map_cons, List.mapM_cons, h, ih]
      rfl
  exact hmap

end Document

open Document

theorem ProjectConfig.decode?_encode (project : ProjectConfig) :
    decode? project.encode = some project := by
  simp [decode?, encode, record?, List.lookup_cons, field, path?, ofPath, text?]

theorem ArtifactLayout.decode?_encode (layout : ArtifactLayout) :
    decode? layout.encode = some layout := by
  simp [decode?, encode, record?, List.lookup_cons, field, text?]

theorem CompilerConfig.decode?_encode (compiler : CompilerConfig) :
    decode? compiler.encode = some compiler := by
  have htext : ∀ argument, text? (.text argument) = some argument := fun _ => rfl
  have harguments := list?_map htext compiler.arguments
  obtain ⟨tool, arguments, flatten, scratch⟩ := compiler
  cases scratch with
  | none => simp [decode?, encode, record?, List.lookup_cons, field, present, path?, ofPath,
    truth?, harguments, standard]
  | some scratch =>
    simp [decode?, encode, record?, List.lookup_cons, field, present, path?, ofPath, truth?,
      Document.optional, harguments]

theorem StageSpec.decode?_encode (stage : StageSpec) : decode? stage.encode = some stage := by
  obtain ⟨name, entry, kind⟩ := stage
  have hkind : choice? StageKind.label StageKind.all (.text kind.label) =
      some kind := by cases kind <;> decide
  simp [decode?, encode, record?, List.lookup_cons, field, required, path?, ofPath, text?, hkind]

theorem TargetConfig.decode?_encode (target : TargetConfig) :
    decode? target.encode = some target := by
  have hstages := list?_map StageSpec.decode?_encode target.stages
  obtain ⟨name, output, mode, symbol, guard, stages⟩ := target
  have hmode : choice? TargetMode.label TargetMode.all (.text mode.label) =
      some mode := by cases mode <;> decide
  cases symbol <;> cases guard <;>
    simp [decode?, encode, record?, List.lookup_cons, field, required, present, path?, ofPath,
      text?, Document.optional, hmode, hstages]

/-- A configuration is read back from its object form, but for its root. -/
theorem Config.decode?_encode (config : Config) :
    decode? config.encode = some { config with root := .empty } := by
  have htargets := list?_map TargetConfig.decode?_encode config.targets
  simp [decode?, encode, record?, List.lookup_cons, field, ProjectConfig.decode?_encode,
    ArtifactLayout.decode?_encode, CompilerConfig.decode?_encode, htargets]

/-- A document gives no root. -/
theorem Config.root_of_decode? {document : Document} {config : Config}
    (h : decode? document = some config) :
    config.root = .empty := by
  obtain ⟨fields, -, hfields⟩ := Option.bind_eq_some_iff.mp h
  split at hfields
  · simp only [Option.bind_eq_bind, Option.bind_eq_some_iff] at hfields
    obtain ⟨project, -, artifact, -, compiler, -, targets, -, hconfig⟩ := hfields
    cases hconfig
    rfl
  · cases hfields

/-! ## Fields that no record knows -/

namespace Document

/-- What stands where in a document: a record with its fields in order, a list, or a value that is
neither. -/
inductive Form where
  | plain
  | list (item : Form)
  | record (fields : List (String × Form))

/-- One field is added to a record that does not know it, somewhere in a document. What the value of
an unknown field is does not count. -/
inductive AddsField : Form → Document → Document → Prop
  | beside {fields : List (String × Form)} {before after : List (String × Document)}
      {name : String} {value : Document} (hname : name ∉ fields.map Prod.fst) :
      AddsField (.record fields) (.object (before ++ after))
        (.object (before ++ (name, value) :: after))
  | inUnknown {fields : List (String × Form)} {before after : List (String × Document)}
      {name : String} {value value' : Document} (hname : name ∉ fields.map Prod.fst) :
      AddsField (.record fields) (.object (before ++ (name, value) :: after))
        (.object (before ++ (name, value') :: after))
  | inField {fields : List (String × Form)} {before after : List (String × Document)}
      {name : String} {form : Form} {value value' : Document} (hform : (name, form) ∈ fields)
      (h : AddsField form value value') :
      AddsField (.record fields) (.object (before ++ (name, value) :: after))
        (.object (before ++ (name, value') :: after))
  | inPosition {fields : List (String × Form)} {before after : List Document}
      {name : String} {form : Form} {value value' : Document}
      (hform : fields[before.length]? = some (name, form)) (h : AddsField form value value') :
      AddsField (.record fields) (.list (before ++ value :: after))
        (.list (before ++ value' :: after))
  | inItem {item : Form} {before after : List Document} {value value' : Document}
      (h : AddsField item value value') :
      AddsField (.list item) (.list (before ++ value :: after)) (.list (before ++ value' :: after))

/-- What a record finds for one of its fields, before a field was added somewhere and after. -/
def FieldAgrees (form : Form) (found found' : Field) : Prop :=
  found = found' ∨ ∃ value value', found = some value ∧ found' = some value' ∧
  AddsField form value value'

/-- What a record finds for its fields, before a field was added somewhere and after. -/
inductive FieldsAgree : List (String × Form) → List Field → List Field → Prop
  | nil : FieldsAgree [] [] []
  | cons {name : String} {form : Form} {fields : List (String × Form)} {found found' : Field}
      {rest rest' : List Field} (hfirst : FieldAgrees form found found')
      (hrest : FieldsAgree fields rest rest') :
      FieldsAgree ((name, form) :: fields) (found :: rest) (found' :: rest')

variable {α : Type} {fields : List (String × Form)} {form : Form} {document document' : Document}

theorem FieldsAgree.refl {found : List Field} (h : found.length = fields.length) :
    FieldsAgree fields found found := by
  induction fields generalizing found with
  | nil =>
    obtain rfl := List.eq_nil_of_length_eq_zero h
    exact .nil
  | cons field fields ih =>
    obtain ⟨first, rest, rfl⟩ := List.exists_cons_of_length_eq_add_one h
    exact .cons (Or.inl rfl) (ih (by simpa using h))

/-- Fields that are found by their names. -/
theorem FieldsAgree.of_names {find find' : String → Field}
    (h : ∀ name form, (name, form) ∈ fields → FieldAgrees form (find name) (find' name)) :
    FieldsAgree fields ((fields.map Prod.fst).map find) ((fields.map Prod.fst).map find') := by
  induction fields with
  | nil => exact .nil
  | cons field fields ih =>
    have hrest := ih fun name form hmem => h name form (List.mem_cons_of_mem _ hmem)
    exact .cons (h field.1 field.2 List.mem_cons_self) hrest

/-- Fields that are found by their positions. -/
theorem FieldsAgree.of_position {name : String} {value value' : Document}
    {before after : List Field} (hform : fields[before.length]? = some (name, form))
    (h : AddsField form value value')
    (hlength : (before ++ some value :: after).length = fields.length) :
    FieldsAgree fields (before ++ some value :: after) (before ++ some value' :: after) := by
  induction before generalizing fields with
  | nil =>
    obtain ⟨first, rest, rfl⟩ := List.exists_cons_of_length_eq_add_one hlength.symm
    obtain rfl : first = (name, form) := by simpa using hform
    exact .cons (Or.inr ⟨value, value', rfl, rfl, h⟩) (.refl (by simpa using hlength))
  | cons found before ih =>
    obtain ⟨first, rest, rfl⟩ := List.exists_cons_of_length_eq_add_one hlength.symm
    exact .cons (Or.inl rfl) (ih (by simpa using hform) (by simpa using hlength))

/-- What a record finds in two documents: nothing in either of them, or fields that agree. -/
def FoundAlike (fields : List (String × Form)) (document document' : Document) : Prop :=
  record? (fields.map Prod.fst) document = none ∧ record? (fields.map Prod.fst) document' = none ∨
    ∃ found found', record? (fields.map Prod.fst) document = some found ∧
      record? (fields.map Prod.fst) document' = some found' ∧ FieldsAgree fields found found'

theorem foundAlike_object {entries entries' : List (String × Document)}
    (hcount : ∀ name ∈ fields.map Prod.fst, (entries'.map Prod.fst).count name =
      (entries.map Prod.fst).count name)
    (hfind : ∀ name form, (name, form) ∈ fields →
      FieldAgrees form (entries.lookup name) (entries'.lookup name)) :
    FoundAlike fields (.object entries) (.object entries') := by
  by_cases honce : (fields.map Prod.fst).all fun name => (entries.map Prod.fst).count name ≤ 1
  · have honce' : (fields.map Prod.fst).all fun name => (entries'.map Prod.fst).count name ≤ 1 := by
      rw [List.all_eq_true] at honce ⊢
      intro name hname
      rw [hcount name hname]
      exact honce name hname
    exact Or.inr ⟨_, _, if_pos honce, if_pos honce', .of_names hfind⟩
  · have htwice' : ¬ (fields.map Prod.fst).all fun name =>
        (entries'.map Prod.fst).count name ≤ 1 := by
      intro honce'
      apply honce
      rw [List.all_eq_true] at honce' ⊢
      intro name hname
      rw [← hcount name hname]
      exact honce' name hname
    exact Or.inl ⟨if_neg honce, if_neg htwice'⟩

/-- A record finds what it found, but for the one field in which something was added. -/
theorem foundAlike_of_addsField (hnodup : (fields.map Prod.fst).Nodup)
    (h : AddsField (.record fields) document document') :
    FoundAlike fields document document' := by
  cases h with
  | @beside _ before after added value hname =>
    have hne : ∀ name ∈ fields.map Prod.fst, added ≠ name := by
      rintro name hmem rfl
      exact hname hmem
    apply foundAlike_object
    · intro name hmem
      simp [List.count_cons_of_ne (hne name hmem)]
    · intro name form hmem
      have hkey : (name == added) = false :=
        beq_false_of_ne (hne name (List.mem_map_of_mem hmem)).symm
      rw [List.lookup_append, List.lookup_append, List.lookup_cons, hkey]
      exact Or.inl rfl
  | @inUnknown _ before after unknown value value' hname =>
    apply foundAlike_object
    · intro name _
      simp
    · intro name form hmem
      have hne : name ≠ unknown := by
        rintro rfl
        exact hname (List.mem_map_of_mem hmem)
      rw [List.lookup_append, List.lookup_append, List.lookup_cons,
        List.lookup_cons, beq_false_of_ne hne]
      exact Or.inl rfl
  | @inField _ before after changed part value value' hform hvalue =>
    apply foundAlike_object
    · intro name _
      simp
    · intro name form hmem
      rw [List.lookup_append, List.lookup_append, List.lookup_cons, List.lookup_cons]
      by_cases hname : name = changed
      · subst hname
        have hsame : form = part :=
          congrArg Prod.snd (List.inj_on_of_nodup_map hnodup hmem hform rfl)
        subst hsame
        rw [beq_self_eq_true]
        cases List.lookup name before with
        | none => exact Or.inr ⟨value, value', rfl, rfl, hvalue⟩
        | some earlier => exact Or.inl rfl
      · rw [beq_false_of_ne hname]
        exact Or.inl rfl
  | @inPosition _ before after name form value value' hform hvalue =>
    have hsame : (before ++ value' :: after).length = (before ++ value :: after).length := by simp
    by_cases hlength : (before ++ value :: after).length ≤ (fields.map Prod.fst).length
    · refine Or.inr ⟨_, _, if_pos hlength, if_pos (hsame ▸ hlength), ?_⟩
      rw [hsame, List.map_append, List.map_append, List.map_cons, List.map_cons,
        List.append_assoc, List.append_assoc, List.cons_append, List.cons_append]
      refine .of_position (by simpa using hform) hvalue ?_
      simp only [List.length_append, List.length_cons, List.length_map,
        List.length_replicate] at hlength ⊢
      omega
    · have hlength' : ¬ (before ++ value' :: after).length ≤
          (fields.map Prod.fst).length := by rwa [hsame]
      exact Or.inl ⟨if_neg hlength, if_neg hlength'⟩

/-- A reader passes by what is added. -/
def Respects (form : Form) (read : Document → Option α) : Prop :=
  ∀ document document', AddsField form document document' → read document' = read document

theorem respects_plain (read : Document → Option α) : Respects .plain read := by
  intro document document' h
  cases h

theorem Respects.list {read : Document → Option α} (h : Respects form read) :
    Respects (.list form) (list? read) := by
  intro document document' hadds
  cases hadds with
  | @inItem _ before after value value' hvalue =>
    simp only [list?, List.mapM_append, List.mapM_cons, h value value' hvalue]

theorem FieldAgrees.field {found found' : Field} {read : Document → Option α}
    (h : FieldAgrees form found found') (hread : Respects form read) (standard : α) :
    field read standard found' = field read standard found := by
  rcases h with rfl | ⟨value, value', rfl, rfl, hvalue⟩
  · rfl
  · exact hread value value' hvalue

theorem FieldAgrees.required {found found' : Field} {read : Document → Option α}
    (h : FieldAgrees form found found') (hread : Respects form read) :
    required read found' = required read found := by
  rcases h with rfl | ⟨value, value', rfl, rfl, hvalue⟩
  · rfl
  · exact hread value value' hvalue

theorem respects_record {read : List Field → Option α} (hnodup : (fields.map Prod.fst).Nodup)
    (hread : ∀ found found', FieldsAgree fields found found' → read found' = read found) :
    Respects (.record fields) fun document =>
      (record? (fields.map Prod.fst) document).bind read := by
  intro document document' hadds
  rcases foundAlike_of_addsField hnodup hadds with
    ⟨hnone, hnone'⟩ | ⟨found, found', hfound, hfound', hagree⟩
  · simp only [hnone, hnone']
  · simp only [hfound, hfound', Option.bind_some, hread found found' hagree]

end Document

/-! ## The records of a configuration -/

def ProjectConfig.form : Form := .record [("shader_root", .plain), ("include_marker", .plain)]

def ArtifactLayout.form : Form :=
  .record [("header", .plain), ("namespace", .plain), ("scope", .plain)]

def CompilerConfig.form : Form :=
  .record [("tool", .plain), ("args", .plain), ("flatten_includes", .plain),
    ("scratch_dir", .plain)]

def StageSpec.form : Form := .record [("name", .plain), ("entry", .plain), ("kind", .plain)]

def TargetConfig.form : Form :=
  .record [("name", .plain), ("output", .plain), ("mode", .plain),
    ("symbol", .plain), ("guard", .plain), ("stages", .list StageSpec.form)]

/-- What stands where in the document of a configuration. -/
def Config.form : Form :=
  .record [("project", ProjectConfig.form), ("artifact", ArtifactLayout.form),
    ("compiler", CompilerConfig.form), ("targets", .list TargetConfig.form)]

theorem ProjectConfig.respects : Respects form decode? := by
  refine respects_record (by decide) ?_
  rintro _ _ (_ | ⟨hroot, _ | ⟨hmarker, _ | _⟩⟩)
  dsimp only
  rw [hroot.field (respects_plain _), hmarker.field (respects_plain _)]

theorem ArtifactLayout.respects : Respects form decode? := by
  refine respects_record (by decide) ?_
  rintro _ _ (_ | ⟨hheader, _ | ⟨hspace, _ | ⟨hscope, _ | _⟩⟩⟩)
  dsimp only
  rw [hheader.field (respects_plain _), hspace.field (respects_plain _),
    hscope.field (respects_plain _)]

theorem CompilerConfig.respects : Respects form decode? := by
  refine respects_record (by decide) ?_
  rintro _ _ (_ | ⟨htool, _ | ⟨harguments, _ | ⟨hflatten, _ | ⟨hscratch, _ | _⟩⟩⟩⟩)
  dsimp only
  rw [htool.field (respects_plain _), harguments.field (respects_plain _),
    hflatten.field (respects_plain _), hscratch.field (respects_plain _)]

theorem StageSpec.respects : Respects form decode? := by
  refine respects_record (by decide) ?_
  rintro _ _ (_ | ⟨hname, _ | ⟨hentry, _ | ⟨hkind, _ | _⟩⟩⟩)
  dsimp only
  rw [hname.required (respects_plain _), hentry.required (respects_plain _),
    hkind.field (respects_plain _)]

theorem TargetConfig.respects : Respects form decode? := by
  refine respects_record (by decide) ?_
  rintro _ _
    (_ | ⟨hname, _ | ⟨houtput, _ | ⟨hmode, _ | ⟨hsymbol, _ | ⟨hguard, _ | ⟨hstages, _ | _⟩⟩⟩⟩⟩⟩)
  dsimp only
  rw [hname.required (respects_plain _), houtput.required (respects_plain _),
    hmode.field (respects_plain _), hsymbol.field (respects_plain _),
      hguard.field (respects_plain _), hstages.required StageSpec.respects.list]

namespace Config

theorem respects : Respects form decode? := by
  refine respects_record (by decide) ?_
  rintro _ _ (_ | ⟨hproject, _ | ⟨hartifact, _ | ⟨hcompiler, _ | ⟨htargets, _ | _⟩⟩⟩⟩)
  dsimp only
  rw [hproject.field ProjectConfig.respects, hartifact.field ArtifactLayout.respects,
    hcompiler.field CompilerConfig.respects, htargets.field TargetConfig.respects.list]

/-- Any number of fields may be added. -/
theorem decode?_of_additions {document document' : Document}
    (h : Relation.ReflTransGen (AddsField form) document document') :
    decode? document' = decode? document := by
  induction h with
  | refl => rfl
  | tail _ hadds ih => rw [respects _ _ hadds, ih]

/-- The object form of a configuration is read as the configuration without its root. What is read
from any document is read again from its own object form, which is written again as it is; and it is
also read from the document with any fields added to records that do not know them. -/
theorem objectForm_roundtrip :
    (∀ config : Config, decode? config.encode = some { config with root := .empty }) ∧
      ∀ document config, decode? document = some config →
        decode? config.encode = some config ∧
        (decode? config.encode).map encode = some config.encode ∧
          ∀ document', Relation.ReflTransGen (AddsField form) document document' →
          decode? document' = some config := by
  refine ⟨decode?_encode, ?_⟩
  intro document config h
  have hagain : decode? config.encode = some config := by
    rw [decode?_encode, ← root_of_decode? h]
  refine ⟨hagain, ?_, ?_⟩
  · rw [hagain, Option.map_some]
  · intro document' hadditions
    rw [decode?_of_additions hadditions, h]

/-- A document that says one thing. -/
def viewer : Document := .object [("artifact", .object [("namespace", .text "Viewer")])]

/-- The document with a field more in each of its records. -/
def annotatedViewer : Document :=
  .object [("artifact", .object [("namespace", .text "Viewer"), ("note", .truth true)]),
    ("targetz", .list [])]

theorem objectForm_roundtrip_viewer :
    let config :
      Config := { standard with artifact := { ArtifactLayout.standard with space := "Viewer" } }
    decode? viewer = some config ∧ decode? config.encode = some config ∧
    decode? annotatedViewer = some config := by
  intro config
  have hread : decode? viewer = some config := rfl
  have hinner : AddsField ArtifactLayout.form (.object [("namespace", .text "Viewer")])
      (.object [("namespace", .text "Viewer"), ("note", .truth true)]) :=
    @AddsField.beside _ [("namespace", .text "Viewer")] [] "note" _ (by decide)
  have hfirst : AddsField form viewer
      (.object [("artifact", .object [("namespace", .text "Viewer"), ("note", .truth true)])]) :=
    @AddsField.inField _ [] [] "artifact" ArtifactLayout.form _ _ (by simp) hinner
  have hsecond : AddsField form
      (.object [("artifact", .object [("namespace", .text "Viewer"), ("note", .truth true)])])
      annotatedViewer :=
    @AddsField.beside _
      [("artifact", .object [("namespace", .text "Viewer"), ("note", .truth true)])] [] "targetz" _
      (by decide)
  obtain ⟨hagain, -, hadditions⟩ := objectForm_roundtrip.2 viewer config hread
  exact ⟨hread, hagain, hadditions annotatedViewer (.tail (.single hfirst) hsecond)⟩

def ofMode (mode : Document) : Document :=
  .object [("targets", .list
    [.object [("name", .text "t"), ("output", .text "t.cpp"),
      ("mode", mode), ("stages", .list [])]])]

/-- A choice that is written as an object is read, but not with a second field. -/
theorem decode?_choice_with_field :
    (decode? (ofMode (.object [("text-multi", .null)]))).isSome = true ∧
      decode? (ofMode (.object [("text-multi", .null), ("note", .null)])) = none :=
  ⟨rfl, rfl⟩

end Config

end ShaderEmbed
