import ShaderEmbed.Artifact.Emit
import ShaderEmbed.Proofs.Artifact.Reading
import ShaderEmbed.Proofs.File.Additions
import ShaderEmbed.Proofs.File.Below
import ShaderEmbed.Proofs.Path.Ancestors
import ShaderEmbed.Proofs.Run.Outcome

/-!
# What the emission of an artifact leaves

An emission keeps what is up to date, fails, or writes (`Emits`). One that fails may have made
directories on the way to the artifact (`Path.directories`), and nothing else; one that writes
changes one file and no other, and the artifact is found where it was written, unless that is a
device.
-/

namespace ShaderEmbed

open FileTree

/-- The directory that a path lies in, the one above it, and so on. -/
def Path.directories (p : Path) : List Path := (p.parent.map ancestors).getD []

/-- The tree and the result that the emission of a text to a path comes to. -/
inductive Emits (world : World) (path : Path) (text : String) :
    FileTree → Except ShaderError Bool → Prop
  | kept (hold : world.tree.readBytes world.cwd path = .ok (Text.encode text)) :
      Emits world path text world.tree (.ok false)
  | refused {tree : FileTree} {about : Path} {reason : FileError}
      (hold : world.tree.readBytes world.cwd path ≠ .ok (Text.encode text))
      (hadds : world.tree.AddsAlong tree world.cwd path.directories) :
      Emits world path text tree (.error (.write about reason))
  | wrote {above tree : FileTree} {place : Place}
      (hold : world.tree.readBytes world.cwd path ≠ .ok (Text.encode text))
      (hadds : world.tree.AddsAlong above world.cwd path.directories) (hclosed : above.IsClosed)
      (hfind : find above .write world.cwd path = .ok place)
      (hwrote : above.Wrote place (Text.encode text) tree) : Emits world path text tree (.ok true)

section

variable {world : World} {path : Path} {text : String} {tree : FileTree}
  {result : Except ShaderError Bool}

theorem isOnDisk_iff (artifact : Artifact) (tree : FileTree) (cwd : Place) :
    artifact.isOnDisk tree cwd = true ↔
    tree.readBytes cwd artifact.path = .ok (Text.encode artifact.text) := by
  unfold Artifact.isOnDisk
  cases tree.readBytes cwd artifact.path with
  | error e => simp
  | ok content => simp

theorem directories_of_directory? {artifact : Artifact} {directory : Path}
    (h : artifact.directory? = some directory) :
    artifact.path.directories = directory.ancestors := by
  unfold Artifact.directory? at h
  cases hparent : artifact.path.parent with
  | none =>
    rw [hparent] at h
    cases h
  | some parent =>
    simp only [hparent] at h
    split at h <;> cases h
    rw [Path.directories, hparent]
    rfl

/-- Making the directory of an artifact adds directories on the way, whether it succeeds or not. -/
theorem goes_makeDirectory (hclosed : world.tree.IsClosed) (artifact : Artifact) :
    ∃ above, world.tree.AddsAlong above world.cwd artifact.path.directories ∧ above.IsClosed ∧
      (artifact.makeDirectory.Goes world [] (world.withTree above) (.ok ()) ∨
        ∃ about reason, artifact.makeDirectory.Goes world [] (world.withTree above)
          (.error (.write about reason))) := by
  unfold Artifact.makeDirectory
  cases hdirectory : artifact.directory? with
  | none =>
    refine ⟨world.tree, .refl _ _ _, hclosed, Or.inl ⟨[], ?_, rfl⟩⟩
    simp
  | some directory =>
    obtain ⟨hadds, hclosed'⟩ := hclosed.addsAlong_makeDirectories world.cwd directory
    rw [← directories_of_directory? hdirectory] at hadds
    refine ⟨_, hadds, hclosed', ?_⟩
    cases hresult : (world.tree.makeDirectories world.cwd directory).2 with
    | ok =>
      refine Or.inl ⟨[], ?_, rfl⟩
      simp [hresult, World.withTree, Except.mapError]
    | error reason =>
      refine Or.inr ⟨directory, reason, [], ?_, rfl⟩
      simp [hresult, World.withTree, Except.mapError]

theorem exists_emits (hclosed : world.tree.IsClosed) (path : Path) (text : String) :
    ∃ tree result, Emits world path text tree result ∧
      (Artifact.mk path text).writeIfChanged.Goes world [] (world.withTree tree) result := by
  by_cases hold : world.tree.readBytes world.cwd path = .ok (Text.encode text)
  · refine ⟨_, _, .kept hold, (Job.goes_world world).quiet_bind ?_⟩
    rw [if_pos ((isOnDisk_iff ⟨path, text⟩ _ _).mpr hold)]
    exact Job.goes_pure false world
  · have honDisk : ¬ (Artifact.mk path text).isOnDisk world.tree world.cwd = true :=
      fun h => hold ((isOnDisk_iff ⟨path, text⟩ _ _).mp h)
    obtain ⟨above, hadds, habove, hmade | ⟨about, reason, hfailed⟩⟩ :=
      goes_makeDirectory hclosed ⟨path, text⟩
    · cases hwrite : above.writeBytes world.cwd path (Text.encode text) with
      | error reason =>
        refine ⟨above, .error (.write path reason), .refused hold hadds,
          (Job.goes_world world).quiet_bind ?_⟩
        rw [if_neg honDisk]
        exact hmade.quiet_bind
          (Job.Goes.changeTree_error (by simp [hwrite, Except.mapError])).bind_error
      | ok tree =>
        obtain ⟨place, hfind, hwrote⟩ := habove.writeBytes_eq_ok_iff.mp hwrite
        refine ⟨tree, _, .wrote hold hadds habove hfind hwrote,
          (Job.goes_world world).quiet_bind ?_⟩
        rw [if_neg honDisk]
        refine hmade.quiet_bind (Job.Goes.quiet_bind (Job.Goes.changeTree ?_)
          (Job.goes_pure true _))
        simp [hwrite, Except.mapError]
    · refine ⟨above, .error (.write about reason), .refused hold hadds,
        (Job.goes_world world).quiet_bind ?_⟩
      rw [if_neg honDisk]
      exact hfailed.bind_error

theorem ne_empty_of_render {layout : ArtifactLayout} {mode : EmbeddingMode}
    {sections : List Section} (h : render layout mode sections = .ok text) : text ≠ "" := by
  obtain ⟨-, blocks, -, rfl⟩ := ArtifactLayout.exists_of_render h
  intro hempty
  have hlist := congrArg String.toList hempty
  simp [ArtifactLayout.opening] at hlist

/-- Sections are refused before anything is written, or their rendering is emitted. -/
theorem goes_emit (hclosed : world.tree.IsClosed) (layout : ArtifactLayout)
    (mode : EmbeddingMode) (path : Path) (sections : List Section) :
    (∃ e, render layout mode sections = .error e ∧
      (emit layout mode path sections).Goes world [] world (.error e)) ∨
      ∃ text tree result, render layout mode sections = .ok text ∧
        Emits world path text tree result ∧
        (emit layout mode path sections).Goes world [] (world.withTree tree) result := by
  have hrendered := Job.goes_ofExcept (render layout mode sections) world
  cases hrender : render layout mode sections with
  | error e =>
    rw [hrender] at hrendered
    exact Or.inl ⟨e, rfl, by rw [emit, hrender]; exact hrendered.bind_error⟩
  | ok text =>
    rw [hrender] at hrendered
    obtain ⟨tree, result, hemits, hgoes⟩ := exists_emits hclosed path text
    exact Or.inr ⟨text, tree, result, rfl, hemits,
      by rw [emit, hrender]; exact hrendered.quiet_bind hgoes⟩

theorem goes_emit_written {layout : ArtifactLayout} {mode : EmbeddingMode} {sections : List Section}
    {later : FileTree} (hrender : render layout mode sections = .ok text)
    (hold : world.tree.readBytes world.cwd path ≠ .ok (Text.encode text))
    (hparent : path.parent = some .empty)
    (hwrite : world.tree.writeBytes world.cwd path (Text.encode text) = .ok later) :
    (emit layout mode path sections).Goes world [] (world.withTree later) (.ok true) := by
  have hrendered := Job.goes_ofExcept (render layout mode sections) world
  rw [hrender] at hrendered
  have honDisk : ¬ (Artifact.mk path text).isOnDisk world.tree world.cwd = true :=
    fun h => hold ((isOnDisk_iff ⟨path, text⟩ _ _).mp h)
  have hdirectory : (Artifact.mk path text).makeDirectory.Goes world [] world (.ok ()) :=
    ⟨[], by simp [Artifact.makeDirectory, Artifact.directory?, hparent], rfl⟩
  have hfile : (Artifact.mk path text).writeFile.Goes world [] (world.withTree later) (.ok ()) :=
    Job.Goes.changeTree (by simp [hwrite, Except.mapError])
  rw [emit, hrender]
  refine hrendered.quiet_bind ((Job.goes_world world).quiet_bind ?_)
  rw [if_neg honDisk]
  exact hdirectory.quiet_bind (hfile.quiet_bind (Job.goes_pure true _))

/-! ## What is left -/

theorem Emits.eq_of_readBytes (h : Emits world path text tree result)
    (hold : world.tree.readBytes world.cwd path = .ok (Text.encode text)) :
    tree = world.tree ∧ result = .ok false := by
  cases h with
  | kept => exact ⟨rfl, rfl⟩
  | refused hnot => exact absurd hold hnot
  | wrote hnot => exact absurd hold hnot

theorem goes_emit_kept {layout : ArtifactLayout} {mode : EmbeddingMode} {sections : List Section}
    (hclosed : world.tree.IsClosed) (hrender : render layout mode sections = .ok text)
    (hold : world.tree.readBytes world.cwd path = .ok (Text.encode text)) :
    (emit layout mode path sections).Goes world [] world (.ok false) := by
  rcases goes_emit hclosed layout mode path sections with
    ⟨e, hfailed, -⟩ | ⟨text', tree, result, hrender', hemits, hgoes⟩
  · cases hfailed.symm.trans hrender
  · cases hrender'.symm.trans hrender
    obtain ⟨rfl, rfl⟩ := hemits.eq_of_readBytes hold
    exact hgoes

/-- Something is written just if the artifact did not hold the text already. -/
theorem Emits.written_iff {written : Bool} (h : Emits world path text tree (.ok written)) :
    written = false ↔ world.tree.readBytes world.cwd path = .ok (Text.encode text) := by
  cases h with
  | kept hold => exact iff_of_true rfl hold
  | wrote hold => exact iff_of_false (by decide) hold

/-- Behind an emission that fails every file is as it was. -/
theorem Emits.sameFiles {e : ShaderError} (h : Emits world path text tree (.error e)) :
    world.tree.SameFiles tree := by
  cases h with
  | refused _ hadds => exact hadds.adds.sameFiles

theorem Emits.isClosed {written : Bool} (h : Emits world path text tree (.ok written))
    (hclosed : world.tree.IsClosed) :
    tree.IsClosed := by
  cases h with
  | kept => exact hclosed
  | wrote _ _ habove _ hwrote => exact hwrote.isClosed habove

theorem Emits.grows {written : Bool} (h : Emits world path text tree (.ok written)) :
    world.tree.Grows tree := by
  cases h with
  | kept => exact .refl _
  | wrote _ hadds _ _ hwrote => exact hadds.adds.grows.trans hwrote.grows

/-- Behind an emission that succeeds the artifact holds its text, unless its path leads to a
device. -/
theorem Emits.look {written : Bool} (h : Emits world path text tree (.ok written))
    (htext : text ≠ "") :
    ∃ place, (∃ runnable, tree.look world.cwd path =
      .ok (place, .file (Text.encode text) runnable)) ∨
      ∃ kind, tree.look world.cwd path = .ok (place, .device kind) := by
  cases h with
  | kept hold =>
    obtain ⟨place, runnable, hlook⟩ := exists_look_of_readBytes hold (Text.encode_ne_nil htext)
    exact ⟨place, Or.inl ⟨runnable, hlook⟩⟩
  | @wrote above tree place hold hadds hclosed hfind hwrote =>
    refine ⟨place, ?_⟩
    rcases hwrote.look hfind with hfile | ⟨kind, hdevice, rfl⟩
    · exact Or.inl hfile
    · exact Or.inr ⟨kind, hdevice⟩

/-- An emission that succeeds adds directories, and the file that its path leads to. -/
theorem Emits.addsFiles {written : Bool} {place : Place} {entry : Entry}
    (h : Emits world path text tree (.ok written))
    (hlook : tree.look world.cwd path = .ok (place, entry)) :
    world.tree.AddsFiles tree {place} := by
  cases h with
  | kept => exact (FileTree.Alike.refl _).addsFiles _
  | @wrote above tree reached hold hadds hclosed hfind hwrote =>
    obtain rfl := hwrote.eq_of_look hfind hlook
    exact (hadds.adds.addsFiles _).trans hwrote.addsFiles

/-- An emission to a device changes no file. -/
theorem Emits.sameFiles_of_device {written : Bool} {place : Place} {kind : Device}
    (h : Emits world path text tree (.ok written))
    (hdevice : world.tree.look world.cwd path = .ok (place, .device kind)) :
    world.tree.SameFiles tree := by
  intro spot content runnable
  obtain ⟨now, hnow, hfits⟩ := h.grows.look hdevice
  cases hfits
  by_cases hspot : spot = place
  · subst hspot
    rw [(look_eq_ok_iff.mp hnow).2, (look_eq_ok_iff.mp hdevice).2]
  · exact (h.addsFiles hnow).file_iff hspot

/-! ## Directories on the way -/

theorem look_root {above : FileTree} {cwd place : Place} {entry : Entry}
    (h : above.look cwd ⟨"/"⟩ = .ok (place, entry)) :
    place = [] := by
  obtain ⟨-, hwalk⟩ := find_eq_ok_iff.mp (look_eq_ok_iff.mp h).1
  have hroute : route ⟨"/"⟩ = (true, [""]) := by decide +kernel
  rw [startOf, hroute, if_pos rfl, walk] at hwalk
  simpa [walk] using hwalk.symm

theorem exists_continues_of_directories {q : Path} {above : FileTree}
    {cwd place : Place} {entry : Entry} (hq : q ∈ path.directories)
    (hlook : above.look cwd q = .ok (place, entry)) : place = [] ∨ path.Continues q := by
  unfold Path.directories at hq
  cases hparent : path.parent with
  | none =>
    rw [hparent] at hq
    cases hq
  | some parent =>
    rw [hparent] at hq
    rcases Path.mem_ancestors_of_parent hparent hq with rfl | rfl | hcontinues
    · exact absurd rfl (find_eq_ok_iff.mp (look_eq_ok_iff.mp hlook).1).1.nonempty
    · exact Or.inl (look_root hlook)
    · exact Or.inr hcontinues

/-- If a directory was made on the way to a path that does not lead up, what the path leads to lies
below it. -/
theorem prefix_of_made {above : FileTree} {made place : Place} {q : Path} {ending : FileTree.Ending}
    (hclosed : world.tree.IsClosed) (hadds : world.tree.AddsDirectories above)
    (hdown : .up ∉ path.components) (hnone : world.tree.get? made = none)
    (hq : q ∈ path.directories)
    (hlook : above.look world.cwd q = .ok (made, .directory))
    (hfind : find above ending world.cwd path = .ok place) :
    made <+: place := by
  have hroot : made ≠ [] := by
    rintro rfl
    cases hnone
  have hcontinues : path.Continues q :=
    (exists_continues_of_directories hq hlook).resolve_left hroot
  obtain ⟨hfindq, hmade⟩ := look_eq_ok_iff.mp hlook
  obtain ⟨hspellable, hwalkq⟩ := find_eq_ok_iff.mp hfindq
  obtain ⟨more, hname, hroute⟩ := hcontinues.route hspellable.nonempty
  have hwalk := (find_eq_ok_iff.mp hfind).2
  have hstart : startOf world.cwd path = startOf world.cwd q := by simp only [startOf, hroute]
  have hup := Path.notMem_route hdown
  rw [hroute] at hup
  -- the walk comes to the new directory first, and goes down from there
  obtain ⟨links, hsteps⟩ := exists_steps_of_found hwalkq hmade
  have hbefore : Steps above ending none ⟨linkLimit, startOf world.cwd q, (route q).2 ++ more⟩
      ⟨links, made, more⟩ :=
    hsteps.before hname
  rw [hstart, hroute, walk_of_steps hbefore] at hwalk
  have hlinkless : above.IsLinkless made := by
    intro names target hlink
    have hbelow : world.tree.get? (made ++ names) = some (.link target) :=
      (hadds.get? (by simp)).mp hlink
    rw [hclosed.below hnone (List.prefix_append made names)] at hbelow
    cases hbelow
  rw [eq_of_walk_below hlinkless (fun hmem => hup (List.mem_append_right _ hmem)) hwalk]
  exact List.prefix_append _ _

/-- What a path leads to in the end is up to date if it held the text already, wherever the path led
before: directories were made for something new only. -/
theorem Emits.eq_false_of_held {written : Bool} {place : Place} {entry : Entry} {runnable : Bool}
    (h : Emits world path text tree (.ok written)) (hclosed : world.tree.IsClosed)
    (hdown : .up ∉ path.components) (hlook : tree.look world.cwd path = .ok (place, entry))
    (hheld : world.tree.get? place = some (.file (Text.encode text) runnable)) :
    written = false := by
  cases h with
  | kept => rfl
  | @wrote above tree reached hold hadds habove hfind hwrote =>
    obtain rfl := hwrote.eq_of_look hfind hlook
    have hsame : world.tree.Alike above := by
      intro spot
      rcases hadds spot with hsame | ⟨hnone, q, hq, hlookq⟩
      · exact hsame
      · have hprefix := prefix_of_made hclosed hadds.adds hdown hnone hq hlookq hfind
        rw [hclosed.below hnone hprefix] at hheld
        cases hheld
    rw [hsame.find] at hfind
    obtain ⟨hspellable, hwalk⟩ := find_eq_ok_iff.mp hfind
    have hpass := walk_of_written (.refl world.tree) hwalk hheld (by simp)
    have hfound := look_eq_ok_iff.mpr ⟨find_eq_ok_iff.mpr ⟨hspellable, hpass⟩, hheld⟩
    exact absurd (readBytes_of_look_file hfound) hold

end

end ShaderEmbed
