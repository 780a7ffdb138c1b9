import ShaderEmbed.Project.Build
import ShaderEmbed.Proofs.Path.Ascent
import ShaderEmbed.Proofs.Run.Outcome

/-!
# Which configuration is taken

The directory whose configuration is taken is the longest of the places on the way to the working
directory where the name of configuration files leads to a file (`World.IsProject`). The search asks
the places on the way up and stops at the first that has such a file; that this is the longest one
is a fact about the beginnings of a list (`find?_inits_reverse_eq_some_iff`).

What comes of a file is told by `Config.Loads`, from its text alone, and what comes of the search by
`Config.Discovers`, from the one file it comes to. So nothing else that the tree holds has a say: in
every tree where the search comes to the same directory and the file has the same text, the outcome
is the same (`Config.Consults`). A broken file is never passed over for a file farther up, or for
the presets.
-/

namespace ShaderEmbed

/-! ## Loading a file -/

namespace Config

/-- What comes of reading a file as the configuration of a root, given its text or why it has none:
the events and the result. The first thing that is wrong decides. -/
inductive Loads (reader : ConfigReader) (file root : Path) :
    Except FileError String → List Event → Except ConfigError Config → Prop
  | unread {reason : FileError} :
      Loads reader file root (.error reason) [] (.error (.read file reason))
  | unparsed {content : String} {refusal : ConfigError}
      (hparse : Config.parse reader file content = .error refusal) :
      Loads reader file root (.ok content) [] (.error refusal)
  | refused {content : String} {read : Config} {refusal : ConfigError}
      (hparse : Config.parse reader file content = .ok read)
      (hvalid : { read with root := root }.validate = .error refusal) :
      Loads reader file root (.ok content) [] (.error refusal)
  | accepted {content : String} {read : Config}
      (hparse : Config.parse reader file content = .ok read)
      (hvalid : { read with root := root }.validate = .ok ()) :
      Loads reader file root (.ok content) [.loaded file] (.ok { read with root := root })

section Loading

variable {reader : ConfigReader} {file root : Path} {text : Except FileError String}
  {events events' : List Event} {result result' : Except ConfigError Config}

theorem Loads.unique (h : Loads reader file root text events result)
    (h' : Loads reader file root text events' result') :
    events = events' ∧ result = result' := by
  cases h <;> cases h' <;> simp_all

theorem Loads.events_of_error {refusal : ConfigError}
    (h : Loads reader file root text events (.error refusal)) : events = [] := by
  cases h <;> rfl

theorem Loads.events_ne (h : Loads reader file root text events result) :
    events ≠ [.unconfigured fileName] := by
  cases h <;> simp

/-- Loading a file goes as its text says, and leaves the world as it is. -/
theorem exists_loads (reader : ConfigReader) (file : Path) (world : World) :
    ∃ events result, load file reader world = ⟨events, world, result⟩ ∧
      Loads reader file (file.parent.getD .empty)
        (world.tree.readText world.cwd file) events result := by
  unfold load
  rw [Job.world_bind]
  cases htext : world.tree.readText world.cwd file with
  | error reason => exact ⟨_, _, rfl, .unread⟩
  | ok content =>
    rw [Except.mapError, Job.ofExcept_ok_bind]
    cases hparse : Config.parse reader file content with
    | error refusal => exact ⟨_, _, rfl, .unparsed hparse⟩
    | ok read =>
      rw [Job.ofExcept_ok_bind]
      cases hvalid : { read with root := file.parent.getD .empty }.validate with
      | error refusal =>
        rw [Job.ofExcept_error_bind]
        exact ⟨_, _, rfl, .refused hparse hvalid⟩
      | ok =>
        rw [Job.ofExcept_ok_bind, Job.record_bind]
        exact ⟨_, _, rfl, .accepted hparse hvalid⟩

end Loading

end Config

/-! ## The search -/

/-- Going through the beginnings of a list, the whole list first, one finds the longest that has a
property. -/
theorem find?_inits_reverse_eq_some_iff {α : Type} {p : List α → Bool} {whole found : List α} :
    whole.inits.reverse.find? p = some found ↔
      found <+: whole ∧ p found = true ∧ ∀ other, other <+: whole →
      p other = true → other <+: found := by
  induction whole using List.reverseRecOn with
  | nil =>
    simp only [List.inits, List.reverse_singleton, List.find?_singleton, List.prefix_nil]
    constructor
    · intro h
      split at h
      · cases h
        exact ⟨rfl, by assumption, fun other hother _ => hother ▸ List.prefix_rfl⟩
      · cases h
    · rintro ⟨rfl, hfound, -⟩
      rw [if_pos hfound]
  | append_singleton front last ih =>
    have hinits : (front ++ [last]).inits.reverse = (front ++ [last]) :: front.inits.reverse := by
      simp [List.inits_append]
    rw [hinits]
    by_cases hwhole : p (front ++ [last]) = true
    · rw [List.find?_cons_of_pos hwhole]
      constructor
      · intro h
        cases h
        exact ⟨List.prefix_rfl, hwhole, fun other hother _ => hother⟩
      · rintro ⟨hfound, -, hlast⟩
        rw [hfound.eq_of_length_le (hlast _ List.prefix_rfl hwhole).length_le]
    · rw [List.find?_cons_of_neg hwhole, ih]
      -- the whole list is no candidate, and the other beginnings are those of the front
      have hfront : ∀ other, p other = true → (other <+: front ++ [last] ↔ other <+: front) := by
        intro other hother
        rw [List.prefix_concat_iff]
        refine or_iff_right ?_
        rintro rfl
        exact hwhole hother
      constructor
      · rintro ⟨habove, hfound, hlast⟩
        exact ⟨(hfront found hfound).mpr habove, hfound,
          fun other hother h => hlast other ((hfront other h).mp hother) h⟩
      · rintro ⟨habove, hfound, hlast⟩
        exact ⟨(hfront found hfound).mp habove, hfound,
          fun other hother h => hlast other ((hfront other h).mpr hother) h⟩

namespace Config

def fileIn (directory : Place) : Path := (Path.ofPlace directory).child fileName

end Config

namespace World

/-- A directory where the name of configuration files leads to a file. A directory of that name is
none. -/
def HasConfig (world : World) (directory : Place) : Prop :=
  ∃ place content runnable, world.tree.look world.cwd (Config.fileIn directory) =
    .ok (place, .file content runnable)

/-- The directory whose configuration is taken: of those on the way to the working directory that
have one, the last. -/
structure IsProject (world : World) (directory : Place) : Prop where
  above : directory <+: world.cwd
  config : world.HasConfig directory
  nearest : ∀ other, other <+: world.cwd → world.HasConfig other → other <+: directory

/-- A directory has a configuration file just if it holds a file of that name, unless the name is
that of a link, which may lead to one. It has none if its path is too long. -/
structure TellsConfig (world : World) (directory : Place) : Prop where
  held : (Config.fileIn directory).text.utf8ByteSize ≤ FileTree.pathLimit →
    (∀ target, world.tree.get? (directory ++ [Config.fileName]) ≠ some (.link target)) →
      (world.HasConfig directory ↔
        ∃ content runnable, world.tree.get? (directory ++ [Config.fileName]) =
          some (.file content runnable))
  long : FileTree.pathLimit < (Config.fileIn directory).text.utf8ByteSize →
    ¬ world.HasConfig directory

section Search

variable {world : World} {directory : Place}

theorem hasConfig_iff :
    world.HasConfig directory ↔ world.tree.isFile world.cwd (Config.fileIn directory) = true := by
  unfold HasConfig FileTree.isFile
  constructor
  · rintro ⟨place, content, runnable, hlook⟩
    rw [hlook]
  · intro h
    split at h
    · exact ⟨_, _, _, by assumption⟩
    · cases h

theorem isProject_iff :
    world.IsProject directory ↔
      (world.cwd.inits.reverse.find? fun place =>
        world.tree.isFile world.cwd (Config.fileIn place)) = some directory := by
  rw [find?_inits_reverse_eq_some_iff]
  constructor
  · rintro ⟨habove, hconfig, hnearest⟩
    exact ⟨habove, hasConfig_iff.mp hconfig,
      fun other hother h => hnearest other hother (hasConfig_iff.mpr h)⟩
  · rintro ⟨habove, hconfig, hnearest⟩
    exact ⟨habove, hasConfig_iff.mpr hconfig,
      fun other hother h => hnearest other hother (hasConfig_iff.mp h)⟩

/-- The directories that have a configuration file have a last one. -/
theorem exists_isProject_iff :
    (∃ directory, world.IsProject directory) ↔ ∃ directory, directory <+: world.cwd ∧
    world.HasConfig directory := by
  constructor
  · rintro ⟨directory, hproject⟩
    exact ⟨directory, hproject.above, hproject.config⟩
  · rintro ⟨directory, habove, hconfig⟩
    simp only [isProject_iff, ← Option.isSome_iff_exists, List.find?_isSome]
    exact ⟨directory, by simpa using habove, hasConfig_iff.mp hconfig⟩

theorem nearest?_eq (hnames : ∀ name ∈ world.cwd, Component.IsName name) :
    Config.nearest? world.tree world.cwd (Path.ofPlace world.cwd) =
      (world.cwd.inits.reverse.find? fun place =>
        world.tree.isFile world.cwd (Config.fileIn place)).map Config.fileIn := by
  rw [Config.nearest?, Config.candidates, Path.ancestors_ofPlace hnames,
    List.map_map, List.find?_map]
  rfl

theorem IsProject.unique {other : Place} (h : world.IsProject directory)
    (h' : world.IsProject other) :
    directory = other :=
  (h'.nearest directory h.above h.config).eq_of_length_le
    (h.nearest other h'.above h'.config).length_le

end Search

/-- A tree in which the search comes to the same: the working directory is there or is not, and the
project is one. -/
structure SameSearch (world : World) (tree : FileTree) : Prop where
  here : tree.isDirectoryAt world.cwd = world.tree.isDirectoryAt world.cwd
  project : ∀ directory, world.IsProject directory → (world.withTree tree).IsProject directory

theorem SameSearch.refl (world : World) :
    world.SameSearch world.tree := ⟨rfl, fun _ hproject => hproject⟩

end World

/-! ## The file of a directory -/

namespace Config

theorem isName_fileName : Component.IsName fileName := by decide +kernel

section FileIn

variable {world : World} {directory place : Place} {entry : Entry}

theorem isName_of_mem_fileIn (hnames : ∀ name ∈ directory, Component.IsName name) :
    ∀ name ∈ directory ++ [fileName], Component.IsName name := by
  intro name hname
  rcases List.mem_append.mp hname with hname | hname
  · exact hnames name hname
  · rw [List.mem_singleton.mp hname]
    exact isName_fileName

theorem fileIn_eq (hnames : ∀ name ∈ directory, Component.IsName name) :
    fileIn directory = Path.ofPlace (directory ++ [fileName]) :=
  Path.child_ofPlace (isName_of_mem_fileIn hnames)

theorem parent_fileIn (hnames : ∀ name ∈ directory, Component.IsName name) :
    (fileIn directory).parent = some (Path.ofPlace directory) := by
  rw [fileIn_eq hnames, Path.parent_ofPlace (isName_of_mem_fileIn hnames)]

theorem isSpellable_fileIn (hnames : ∀ name ∈ directory, FileTree.IsFileName name)
    (hshort : (fileIn directory).text.utf8ByteSize ≤ FileTree.pathLimit) :
    FileTree.IsSpellable (fileIn directory) := by
  have hspelled := Path.toList_ofPlace_append directory fileName
  rw [← fileIn_eq fun name hname => (hnames name hname).isName] at hspelled
  refine ⟨?_, fun hempty => ?_, hshort⟩
  · have hzero : ∀ name ∈ directory, '\x00' ∉ name.toList :=
      fun name hname => (hnames name hname).noZero
    have hlast : '\x00' ∉ fileName.toList := by decide +kernel
    rw [hspelled]
    simpa [List.mem_flatMap] using ⟨hzero, hlast⟩
  · rw [hempty] at hspelled
    simp [Path.empty] at hspelled

section Entry

variable (hclosed : world.tree.IsClosed) (hdirectory : world.tree.get? directory = some .directory)
  (hnames : ∀ name ∈ directory, FileTree.IsFileName name)
  (hshort : (fileIn directory).text.utf8ByteSize ≤ FileTree.pathLimit)
  (hlink : ∀ target, world.tree.get? (directory ++ [fileName]) ≠ some (.link target))
include hclosed hdirectory hnames hshort hlink

/-- The file of a directory is what the directory has under that name, unless that is a link. -/
theorem look_fileIn_eq_ok_iff :
    world.tree.look world.cwd (fileIn directory) = .ok (place, entry) ↔
      place = directory ++ [fileName] ∧ world.tree.get? place = some entry := by
  have hisName : ∀ name ∈ directory, Component.IsName name :=
    fun name hname => (hnames name hname).isName
  have hroute : FileTree.route (fileIn directory) = (true, directory ++ [fileName]) := by
    rw [fileIn_eq hisName, Path.route_ofPlace (isName_of_mem_fileIn hisName)]
  have hplain : ∀ name ∈ directory, FileTree.IsPlain name ∧
      name.utf8ByteSize ≤ FileTree.nameLimit := fun name hname =>
    ⟨Path.isPlain_of_isName (hisName name hname), (hnames name hname).short⟩
  have hhere : world.tree.get? ([] ++ directory) = some .directory := by rwa [List.nil_append]
  have hwalk : FileTree.walk world.tree .pass none FileTree.linkLimit [] (directory ++ [fileName]) =
      .ok (directory ++ [fileName]) := by
    refine (hclosed.walk_through hplain hhere [fileName]).trans ?_
    rw [List.nil_append, FileTree.walk_name_eq_ok_iff (Path.isPlain_of_isName isName_fileName)
      hdirectory (Or.inr hlink)]
    exact ⟨FileTree.nameFault?_eq_none_iff.mpr ⟨by simp, by decide +kernel, by simp⟩, rfl⟩
  rw [FileTree.look_eq_ok_iff, FileTree.find_eq_ok_iff, FileTree.startOf, hroute, if_pos rfl, hwalk]
  simp [isSpellable_fileIn hnames hshort, eq_comm (a := place)]

/-- A directory has a configuration file if it has a file of that name, unless the name is that of a
link. -/
theorem hasConfig_iff_get? :
    world.HasConfig directory ↔
      ∃ content runnable, world.tree.get? (directory ++ [fileName]) =
        some (.file content runnable) := by
  constructor
  · rintro ⟨place, content, runnable, hlook⟩
    obtain ⟨rfl, hentry⟩ := (look_fileIn_eq_ok_iff hclosed hdirectory hnames hshort hlink).mp hlook
    exact ⟨content, runnable, hentry⟩
  · rintro ⟨content, runnable, hentry⟩
    exact ⟨_, content, runnable,
      (look_fileIn_eq_ok_iff hclosed hdirectory hnames hshort hlink).mpr ⟨rfl, hentry⟩⟩

end Entry

/-- A path that is too long leads to no file. -/
theorem not_hasConfig_of_long (hlong : FileTree.pathLimit < (fileIn directory).text.utf8ByteSize) :
    ¬ world.HasConfig directory := by
  rintro ⟨place, content, runnable, hlook⟩
  have hspellable := (FileTree.find_eq_ok_iff.mp (FileTree.look_eq_ok_iff.mp hlook).1).1
  exact Nat.not_le_of_lt hlong hspellable.short

/-- The directories on the way to a working directory that is there tell by what they hold whether
they have a configuration file. -/
theorem tellsConfig_of_prefix (hclosed : world.tree.IsClosed)
    (hhere : world.tree.isDirectoryAt world.cwd = true)
    (hnames : ∀ name ∈ world.cwd, FileTree.IsFileName name) (habove : directory <+: world.cwd) :
    world.TellsConfig directory where
  held hshort hlink := by
    have hdirectory : world.tree.get? directory = some .directory := by
      obtain ⟨below, hbelow⟩ := habove
      have hbottom : world.tree.get? (directory ++ below) = some .directory := by
        rw [hbelow]
        simpa [FileTree.isDirectoryAt] using hhere
      exact hclosed.directory_above hbottom
    exact hasConfig_iff_get? hclosed hdirectory
      (fun name hname => hnames name (habove.subset hname)) hshort hlink
  long := not_hasConfig_of_long

end FileIn

/-! ## Finding the configuration -/

/-- The presets, rooted at a place. -/
def presetsAt (place : Place) : Config := { standard with root := Path.ofPlace place }

theorem validate_presetsAt (place : Place) : (presetsAt place).validate = .ok () :=
  have hstandard : standard.validate = .ok () := by decide +kernel
  hstandard

theorem parse_eq_ok_iff {reader : ConfigReader} {file : Path} {content : String} {read : Config} :
    Config.parse reader file content = .ok read ↔ reader content = .ok read := by
  unfold Config.parse
  cases reader content <;> simp [Except.mapError]

section Discovery

variable {reader : ConfigReader} {world : World} {directory : Place} {events events' : List Event}
  {result result' : Except ConfigError Config}

/-- What comes of finding the configuration: the events and the result. -/
inductive Discovers (reader : ConfigReader) (world : World) :
    List Event → Except ConfigError Config → Prop
  | chosen {chosen : String} {events : List Event} {result : Except ConfigError Config}
      (hchosen : world.chosenConfig = some chosen)
      (hloads : Loads reader ⟨chosen⟩ ((Path.mk chosen).parent.getD .empty)
        (world.tree.readText world.cwd ⟨chosen⟩) events
        result) : Discovers reader world events result
  | gone (hchosen : world.chosenConfig = none)
      (hgone : world.tree.isDirectoryAt world.cwd = false) :
      Discovers reader world [] (.error (.noDirectory (.system .noEntry)))
  | found {directory : Place} {events : List Event} {result : Except ConfigError Config}
      (hchosen : world.chosenConfig = none) (hhere : world.tree.isDirectoryAt world.cwd = true)
      (hproject : world.IsProject directory)
      (hloads : Loads reader (fileIn directory) (Path.ofPlace directory)
        (world.tree.readText world.cwd (fileIn directory)) events
        result) : Discovers reader world events result
  | presets (hchosen : world.chosenConfig = none)
      (hhere : world.tree.isDirectoryAt world.cwd = true)
      (hnone : ¬ ∃ directory, world.IsProject directory) :
      Discovers reader world [.unconfigured fileName] (.ok (presetsAt world.cwd))

theorem Discovers.unique (h : Discovers reader world events result)
    (h' : Discovers reader world events' result') :
    events = events' ∧ result = result' := by
  cases h with
  | chosen hchosen hloads =>
    cases h' with
    | chosen hchosen' hloads' =>
      cases hchosen.symm.trans hchosen'
      exact hloads.unique hloads'
    | _ => simp_all
  | gone hchosen hgone => cases h' <;> simp_all
  | found hchosen hhere hproject hloads =>
    cases h' with
    | found hchosen' hhere' hproject' hloads' =>
      -- there is one project only, and its file has one text
      obtain rfl := hproject.unique hproject'
      exact hloads.unique hloads'
    | presets hchosen' hhere' hnone => exact absurd ⟨_, hproject⟩ hnone
    | _ => simp_all
  | presets hchosen hhere hnone =>
    cases h' with
    | found hchosen' hhere' hproject hloads => exact absurd ⟨_, hproject⟩ hnone
    | presets => exact ⟨rfl, rfl⟩
    | _ => simp_all

theorem exists_discovers (reader : ConfigReader)
    (hnames : ∀ name ∈ world.cwd, Component.IsName name) :
    ∃ events result, discover reader world = ⟨events, world, result⟩ ∧
    Discovers reader world events result := by
  unfold discover
  rw [Job.world_bind]
  cases hchosen : world.chosenConfig with
  | some chosen =>
    obtain ⟨events, result, hload, hloads⟩ := exists_loads reader ⟨chosen⟩ world
    exact ⟨events, result, hload, .chosen hchosen hloads⟩
  | none =>
    cases hhere : world.tree.isDirectoryAt world.cwd with
    | false =>
      have hgone : world.directory = .error (.system .noEntry) := by simp [World.directory, hhere]
      simp only [hgone, Except.mapError, Job.ofExcept_error_bind]
      exact ⟨_, _, rfl, .gone hchosen hhere⟩
    | true =>
      have hdirectory : world.directory = .ok (Path.ofPlace world.cwd) := by
        simp [World.directory, hhere]
      simp only [hdirectory, Except.mapError, Job.ofExcept_ok_bind, World.nearest?_eq hnames]
      cases hfound : world.cwd.inits.reverse.find? fun place =>
        world.tree.isFile world.cwd (fileIn place) with
      | some directory =>
        -- the root is what is above the file, which is the directory again
        have hproject := World.isProject_iff.mpr hfound
        have hparent := parent_fileIn fun name hname => hnames name (hproject.above.subset hname)
        obtain ⟨events, result, hload, hloads⟩ := exists_loads reader (fileIn directory) world
        rw [hparent, Option.getD_some] at hloads
        exact ⟨events, result, hload, .found hchosen hhere hproject hloads⟩
      | none =>
        refine ⟨_, _, rfl, .presets hchosen hhere ?_⟩
        rintro ⟨directory, hproject⟩
        cases hfound.symm.trans (World.isProject_iff.mp hproject)

theorem Discovers.events_of_error {refusal : ConfigError}
    (h : Discovers reader world events (.error refusal)) : events = [] := by
  cases h with
  | chosen hchosen hloads => exact hloads.events_of_error
  | gone => rfl
  | found hchosen hhere hproject hloads => exact hloads.events_of_error

theorem Discovers.withTools (h : Discovers reader world events result) (tools : Toolbox) :
    Discovers reader { world with tools := tools } events result := by
  cases h with
  | chosen hchosen hloads => exact .chosen hchosen hloads
  | gone hchosen hgone => exact .gone hchosen hgone
  | found hchosen hhere hproject hloads =>
    exact .found hchosen hhere ⟨hproject.above, hproject.config, hproject.nearest⟩ hloads
  | presets hchosen hhere hnone =>
    refine .presets hchosen hhere ?_
    rintro ⟨directory, hproject⟩
    exact hnone ⟨directory, hproject.above, hproject.config, hproject.nearest⟩

theorem discover_eq_iff (hnames : ∀ name ∈ world.cwd, Component.IsName name) :
    discover reader world = ⟨events, world, result⟩ ↔ Discovers reader world events result := by
  obtain ⟨events', result', heq, hdiscovers⟩ := exists_discovers reader hnames
  constructor
  · intro h
    cases heq.symm.trans h
    exact hdiscovers
  · intro h
    obtain ⟨rfl, rfl⟩ := h.unique hdiscovers
    exact heq

/-- One file decides which configuration is taken: what comes of it is told by its text, and is the
same whatever else the tree holds, if the same search leads to it. -/
structure Consults (reader : ConfigReader) (world : World) (file root : Path) : Prop where
  loads : ∃ events result, (discover reader).run world = ⟨events, world, result⟩ ∧
    Loads reader file root (world.tree.readText world.cwd file) events result
  alone : ∀ tree, (world.chosenConfig = none → world.SameSearch tree) →
    tree.readText world.cwd file = world.tree.readText world.cwd file →
      ((discover reader).run (world.withTree tree)).events = ((discover reader).run world).events ∧
        ((discover reader).run (world.withTree tree)).result = ((discover reader).run world).result

/-- A file decides if what comes of its text is what comes of the search, in every tree where the
search goes the same. -/
theorem consults_of_discovers {file root : Path}
    (hnames : ∀ name ∈ world.cwd, Component.IsName name) (hroot : file.parent.getD .empty = root)
    (h : ∀ tree events result, (world.chosenConfig = none → world.SameSearch tree) →
      Loads reader file root (tree.readText world.cwd file) events result →
        Discovers reader (world.withTree tree) events result) :
    Consults reader world file root := by
  obtain ⟨events, result, -, hloads⟩ := exists_loads reader file world
  rw [hroot] at hloads
  have hrun : (discover reader).run world = ⟨events, world, result⟩ :=
    (discover_eq_iff hnames).mpr (h world.tree events result (fun _ => .refl world) hloads)
  refine ⟨⟨events, result, hrun, hloads⟩, fun tree hsame htext => ?_⟩
  have hother : (discover reader).run (world.withTree tree) =
      ⟨events, world.withTree tree, result⟩ := by
    refine (discover_eq_iff ?_).mpr (h tree events result hsame ?_)
    · exact hnames
    · rwa [htext]
  rw [hother, hrun]
  exact ⟨rfl, rfl⟩

theorem consults_of_isProject (hproject : world.IsProject directory)
    (hchosen : world.chosenConfig = none) (hhere : world.tree.isDirectoryAt world.cwd = true)
    (hnames : ∀ name ∈ world.cwd, Component.IsName name) :
    Consults reader world (fileIn directory) (Path.ofPlace directory) := by
  have hparent := parent_fileIn fun name hname => hnames name (hproject.above.subset hname)
  refine consults_of_discovers hnames (by rw [hparent, Option.getD_some])
    fun tree events result hsame hloads => ?_
  exact .found hchosen ((hsame hchosen).here.trans hhere)
    ((hsame hchosen).project directory hproject) hloads

theorem consults_of_chosen {chosen : String} (hchosen : world.chosenConfig = some chosen)
    (hnames : ∀ name ∈ world.cwd, Component.IsName name) :
    Consults reader world ⟨chosen⟩ ((Path.mk chosen).parent.getD .empty) :=
  consults_of_discovers hnames rfl fun _ _ _ _ hloads => .chosen hchosen hloads

theorem discover_eq_presets_iff (hchosen : world.chosenConfig = none)
    (hhere : world.tree.isDirectoryAt world.cwd = true)
    (hnames : ∀ name ∈ world.cwd, Component.IsName name) :
    (discover reader).run world = ⟨[.unconfigured fileName], world, .ok (presetsAt world.cwd)⟩ ↔
      ∀ directory, directory <+: world.cwd → ¬ world.HasConfig directory := by
  have hnone : (∀ directory, directory <+: world.cwd → ¬ world.HasConfig directory) ↔
      ¬ ∃ directory, world.IsProject directory := by
    rw [World.exists_isProject_iff]
    simp
  rw [hnone]
  refine (discover_eq_iff hnames).trans ⟨fun h => ?_, .presets hchosen hhere⟩
  -- the event is recorded in the last case only; what a file gives may be the same settings
  generalize hevents : [Event.unconfigured fileName] = events at h
  cases h with
  | chosen hchosen' hloads => cases hchosen.symm.trans hchosen'
  | found hchosen' hhere' hproject hloads => exact absurd hevents.symm hloads.events_ne
  | presets hchosen' hhere' hnone => exact hnone

/-- The presets come of the search exactly if no directory on the way up has a configuration file,
or the working directory has one that sets nothing. -/
theorem result_eq_presets_iff (hchosen : world.chosenConfig = none)
    (hhere : world.tree.isDirectoryAt world.cwd = true)
    (hnames : ∀ name ∈ world.cwd, Component.IsName name) :
    ((discover reader).run world).result = .ok (presetsAt world.cwd) ↔
      (∀ directory, directory <+: world.cwd → ¬ world.HasConfig directory) ∨
        world.IsProject world.cwd ∧
        ∃ content read, world.tree.readText world.cwd (fileIn world.cwd) = .ok content ∧
          reader content = .ok read ∧
          { read with root := Path.ofPlace world.cwd } = presetsAt world.cwd := by
  constructor
  · intro hpresets
    obtain ⟨events, result, hrun, hdiscovers⟩ := exists_discovers reader hnames
    obtain rfl : result = .ok (presetsAt world.cwd) := by rwa [Job.run, hrun] at hpresets
    generalize hgiven : Except.ok (presetsAt world.cwd) = given at hdiscovers
    cases hdiscovers with
    | chosen hchosen' hloads => cases hchosen.symm.trans hchosen'
    | gone => cases hgiven
    | @found directory _ _ _ _ hproject hloads =>
      right
      generalize htext : world.tree.readText world.cwd (fileIn directory) = text at hloads
      cases hloads with
      | unread | unparsed hparse | refused hparse hvalid => cases hgiven
      | accepted hparse hvalid =>
        have hsettings := Except.ok.inj hgiven
        -- the settings have the root of the presets, so the file is that of the working directory
        have hroot : Path.ofPlace world.cwd = Path.ofPlace directory :=
          congrArg Config.root hsettings
        have hnames' : ∀ name ∈ directory, Component.IsName name :=
          fun name hname => hnames name (hproject.above.subset hname)
        obtain rfl : world.cwd = directory :=
          (Path.components_ofPlace_inj [] hnames hnames').mp (congrArg Path.components hroot)
        exact ⟨hproject, _, _, htext, parse_eq_ok_iff.mp hparse, hsettings.symm⟩
    | presets hchosen' hhere' hnone =>
      left
      have hnearest : discover reader world = ⟨_, world, _⟩ :=
        (discover_eq_iff hnames).mpr (.presets hchosen hhere hnone)
      exact (discover_eq_presets_iff hchosen hhere hnames).mp hnearest
  · rintro (hnone | ⟨hproject, content, read, htext, hread, hsettings⟩)
    · rw [(discover_eq_presets_iff hchosen hhere hnames).mpr hnone]
    · have hvalid : { read with root := Path.ofPlace world.cwd }.validate = .ok () := by
        rw [hsettings, validate_presetsAt]
      have hloads : Loads reader (fileIn world.cwd) (Path.ofPlace world.cwd) (.ok content) _ _ :=
        .accepted (parse_eq_ok_iff.mpr hread) hvalid
      rw [← htext, hsettings] at hloads
      have hrun : discover reader world = ⟨_, world, _⟩ :=
        (discover_eq_iff hnames).mpr (.found hchosen hhere hproject hloads)
      rw [Job.run, hrun]

end Discovery

/-- Where no configuration file is named, the file of the project decides, and its root is the
project; the presets are taken, with the working directory as their root, exactly if there is no
configuration file on the way up. A file that is named decides alone. If there is no configuration
to be had, no command does anything, whatever the tools are.

That the presets were taken is told by the event: a file in the working directory that sets nothing
gives the same settings. Whether a directory on the way up has a configuration file is told by what
it holds under that name (`World.TellsConfig`). All of this is so whatever the reader makes of the
texts. -/
theorem discover_nearest (reader : ConfigReader) (world : World)
    (hnames : ∀ name ∈ world.cwd, Component.IsName name) :
    (world.chosenConfig = none → world.tree.isDirectoryAt world.cwd = true →
      (∀ directory, world.IsProject directory →
        Consults reader world (fileIn directory) (Path.ofPlace directory)) ∧
      ((∃ directory, world.IsProject directory) ↔ ∃ directory, directory <+: world.cwd ∧
        world.HasConfig directory) ∧
      ((discover reader).run world = ⟨[.unconfigured fileName], world, .ok (presetsAt world.cwd)⟩ ↔
        ∀ directory, directory <+: world.cwd → ¬ world.HasConfig directory) ∧
      (((discover reader).run world).result = .ok (presetsAt world.cwd) ↔
        (∀ directory, directory <+: world.cwd → ¬ world.HasConfig directory) ∨
          world.IsProject world.cwd ∧ ∃ content read,
            world.tree.readText world.cwd (fileIn world.cwd) = .ok content ∧
            reader content = .ok read ∧
              { read with root := Path.ofPlace world.cwd } = presetsAt world.cwd) ∧
      (world.tree.IsClosed → (∀ name ∈ world.cwd, FileTree.IsFileName name) →
        ∀ directory, directory <+: world.cwd → world.TellsConfig directory)) ∧
    (∀ chosen, world.chosenConfig = some chosen →
      Consults reader world ⟨chosen⟩ ((Path.mk chosen).parent.getD .empty)) ∧
    ∀ refusal, ((discover reader).run world).result = .error refusal →
    ∀ (command : Command) (tools : Toolbox),
      (command.job reader).run { world with tools := tools } =
        ⟨[], { world with tools := tools }, .error (.ofCause (.config refusal))⟩ ∧
      (exitReport ((command.job reader).run { world with tools := tools }).result).1 = 1 := by
  refine ⟨fun hchosen hhere => ⟨?_, ?_, ?_, ?_, ?_⟩, ?_, ?_⟩
  · intro directory hproject
    exact consults_of_isProject hproject hchosen hhere hnames
  · exact World.exists_isProject_iff
  · exact discover_eq_presets_iff hchosen hhere hnames
  · exact result_eq_presets_iff hchosen hhere hnames
  · intro hclosed hfileNames directory habove
    exact tellsConfig_of_prefix hclosed hhere hfileNames habove
  · intro chosen hchosen
    exact consults_of_chosen hchosen hnames
  · intro refusal hrefusal command tools
    obtain ⟨events, result, hrun, hdiscovers⟩ := exists_discovers reader hnames
    obtain rfl : result = .error refusal := by rwa [Job.run, hrun] at hrefusal
    obtain rfl := hdiscovers.events_of_error
    have hother : discover reader { world with tools := tools } =
        ⟨[], { world with tools := tools }, .error refusal⟩ := by
      refine (discover_eq_iff ?_).mpr (hdiscovers.withTools tools)
      exact hnames
    have hjob : (command.job reader).run { world with tools := tools } =
        ⟨[], { world with tools := tools }, .error (.ofCause (.config refusal))⟩ :=
      Job.bind_of_error (Job.mapError_of_eq hother)
    rw [hjob]
    exact ⟨rfl, rfl⟩

/-! ## Examples -/

section Examples

open FileTree

/-- The text of a configuration file whose target is named by a number. -/
def misnamedText : String := "[[targets]]\nname = 3\n"

/-- A world whose working directory has a directory under the name of configuration files, and a
misnamed target in the configuration file above it, above which there is a sound one. -/
def misnamedWorld : World where
  tree := (((((FileTree.empty.put ["w"] .directory).put ["w", fileName] (.file [])).put ["w",
    "a"] .directory).put
    ["w", "a", fileName] (.file (Text.encode misnamedText))).put ["w", "a", "b"] .directory).put
      ["w", "a", "b", fileName] .directory
  cwd := ["w", "a", "b"]
  temporary := ⟨"/tmp"⟩
  tools := .none
  chosenConfig := none

theorem isClosed_misnamedWorld : misnamedWorld.tree.IsClosed :=
  (((((isClosed_empty.put rfl (by simp)).put rfl (by decide)).put rfl (by decide)).put rfl
    (by decide)).put rfl (by decide)).put rfl (by decide)

theorem misnamedWorld_spec {directory : Place} (habove : directory <+: misnamedWorld.cwd) :
    misnamedWorld.tree.get? directory = some .directory ∧ (∀ name ∈ directory, IsFileName name) ∧
      (fileIn directory).text.utf8ByteSize ≤ pathLimit ∧
      ∀ target, misnamedWorld.tree.get? (directory ++ [fileName]) ≠ some (.link target) := by
  have hplaces : ∀ directory ∈ misnamedWorld.cwd.inits,
      misnamedWorld.tree.get? directory = some .directory ∧
      (∀ name ∈ directory, IsFileName name) ∧ (fileIn directory).text.utf8ByteSize ≤ pathLimit ∧
      misnamedWorld.tree.get? (directory ++ [fileName]) ∈
        [none, some .directory, some (.file []), some (.file (Text.encode misnamedText))] := by
    decide +kernel
  obtain ⟨hdirectory, hnames, hshort, hentry⟩ := hplaces directory ((List.mem_inits _ _).mpr habove)
  refine ⟨hdirectory, hnames, hshort, ?_⟩
  intro target hlink
  simp [hlink] at hentry

theorem hasConfig_misnamedWorld_iff {directory : Place} (habove : directory <+: misnamedWorld.cwd) :
    misnamedWorld.HasConfig directory ↔
      ∃ content runnable, misnamedWorld.tree.get? (directory ++ [fileName]) =
        some (.file content runnable) := by
  obtain ⟨hdirectory, hnames, hshort, hlink⟩ := misnamedWorld_spec habove
  exact hasConfig_iff_get? isClosed_misnamedWorld hdirectory hnames hshort hlink

theorem isProject_misnamedWorld : misnamedWorld.IsProject ["w", "a"] where
  above := by decide
  config := (hasConfig_misnamedWorld_iff (by decide)).mpr ⟨_, _, rfl⟩
  nearest := by
    intro other hother hconfig
    obtain ⟨content, runnable, hentry⟩ := (hasConfig_misnamedWorld_iff hother).mp hconfig
    -- what the working directory has under the name is a directory
    have hall : ∀ directory ∈ misnamedWorld.cwd.inits, directory <+: ["w", "a"] ∨
        misnamedWorld.tree.get? (directory ++ [fileName]) = some .directory := by
      decide +kernel
    refine (hall other ((List.mem_inits _ _).mpr hother)).resolve_right ?_
    intro hdirectory
    cases hentry.symm.trans hdirectory

theorem readText_misnamedWorld :
    misnamedWorld.tree.readText misnamedWorld.cwd (fileIn ["w", "a"]) = .ok misnamedText := by
  obtain ⟨hdirectory, hnames, hshort, hlink⟩ :=
    misnamedWorld_spec (show ["w", "a"] <+: misnamedWorld.cwd by decide)
  have hlook : misnamedWorld.tree.look misnamedWorld.cwd (fileIn ["w", "a"]) =
      .ok (["w", "a", fileName], .file (Text.encode misnamedText) false) :=
    (look_fileIn_eq_ok_iff isClosed_misnamedWorld hdirectory hnames hshort hlink).mpr ⟨rfl, rfl⟩
  rw [readText, readBytes_of_look_file hlook]
  simp only [Text.decode_encode]

/-- The error of the nearest file is returned, though a farther file could be taken, and no target
is built. -/
theorem discover_nearest_misnamed :
    let refusal :=
  ConfigError.parse (fileIn ["w", "a"]) (some ⟨2, 8⟩) "invalid type: integer `3`, expected a string"
    (∀ name ∈ misnamedWorld.cwd, Component.IsName name) ∧ misnamedWorld.chosenConfig = none ∧
      misnamedWorld.tree.isDirectoryAt misnamedWorld.cwd = true ∧
      misnamedWorld.IsProject ["w", "a"] ∧
      misnamedWorld.HasConfig ["w"] ∧
      discover.run misnamedWorld = ⟨[], misnamedWorld, .error refusal⟩ ∧
      Command.all.job.run misnamedWorld =
        ⟨[], misnamedWorld, .error (.ofCause (.config refusal))⟩ := by
  intro refusal
  have hnames : ∀ name ∈ misnamedWorld.cwd, Component.IsName name := by decide +kernel
  have hhere : misnamedWorld.tree.isDirectoryAt misnamedWorld.cwd = true := by decide
  have hparse : Config.parse FileForm.read (fileIn ["w", "a"]) misnamedText = .error refusal := rfl
  have hfarther : misnamedWorld.HasConfig ["w"] :=
    (hasConfig_misnamedWorld_iff (by decide)).mpr ⟨_, _, rfl⟩
  obtain ⟨hunset, -, hfail⟩ := discover_nearest FileForm.read misnamedWorld hnames
  obtain ⟨events, result, hrun, hloads⟩ :=
    ((hunset rfl hhere).1 ["w", "a"] isProject_misnamedWorld).loads
  rw [readText_misnamedWorld] at hloads
  obtain ⟨rfl, rfl⟩ := hloads.unique (.unparsed hparse)
  have hjob := (hfail refusal (by rw [hrun]) .all misnamedWorld.tools).1
  exact ⟨hnames, rfl, hhere, isProject_misnamedWorld, hfarther, hrun, hjob⟩

end Examples

end Config

end ShaderEmbed
