import ShaderEmbed.Proofs.Artifact.Identity
import ShaderEmbed.Proofs.Run.InMemory

/-!
# Emitting to a path again

An artifact is up to date just if it tells the same of its sections as what is emitted
(`emits_exactly`): an emission that finds the artifact of an earlier one keeps it if the symbols and
the contents are the same, and replaces it if they are not. An emission that fails leaves all files
as they were, and adds directories on the way to the artifact at most.

A device keeps nothing, so nothing on it is ever up to date (`emit_again_to_device`). All of this is
about files that can be read, as in a tree every file can: an artifact that could be written but not
read would be written each time.
-/

namespace ShaderEmbed

open FileTree

/-- What an emission behind another to the same path comes to: `earlier` was emitted to the tree in
front. -/
structure Updates (layout : ArtifactLayout) (mode : EmbeddingMode) (path : Path)
    (earlier sections : List Section) (world : World) (written : Bool) (left : World) : Prop where
  /-- Nothing is written just if the same is told. -/
  upToDate : written = false ↔ earlier.map mode.emitted = sections.map mode.emitted
  /-- If nothing is written, all is as it was. -/
  kept : written = false → left = world
  /-- The file at the end of the path holds what was rendered, and no other file is changed. -/
  holds : ∃ text place runnable, render layout mode sections = .ok text ∧
    left.tree.look left.cwd path = .ok (place, .file (Text.encode text) runnable) ∧
    ∀ spot ≠ place, ∀ content flag,
      left.tree.get? spot = some (.file content flag) ↔
      world.tree.get? spot = some (.file content flag)

def FileTree.LeadsToDevice (tree : FileTree) (cwd : Place) (path : Path) : Prop :=
  ∃ place kind, tree.look cwd path = .ok (place, .device kind)

/-- Of all that is emitted in a world, nothing is kept that has changed, and nothing is written that
has not. As every file of a tree can be read, an artifact that is there is compared with what is
emitted. -/
structure World.EmitsExactly (world : World) : Prop where
  /-- An emission behind another to the same path. -/
  again : ∀ {layout mode path first second before written},
    (∀ s ∈ first, Text.isIdentifier s.name) →
    (∀ s ∈ second, Text.isIdentifier s.name) →
    (emit layout mode path first world).result = .ok before →
    let mid := (emit layout mode path first world).world
    (emit layout mode path second mid).result = .ok written →
      ¬ mid.tree.LeadsToDevice mid.cwd path →
    Updates layout mode path first second mid written (emit layout mode path second mid).world
  /-- An emission to a device. -/
  toDevice : ∀ {layout mode path sections written}, world.tree.LeadsToDevice world.cwd path →
    (emit layout mode path sections world).result = .ok written →
    written = true ∧ world.tree.SameFiles (emit layout mode path sections world).world.tree
  /-- An artifact that cannot be written. -/
  failed : ∀ {artifact : Artifact} {e}, (artifact.writeIfChanged world).result = .error e →
    ∃ tree, (artifact.writeIfChanged world).world = world.withTree tree ∧
      world.tree.SameFiles tree ∧
      world.tree.AddsAlong tree world.cwd artifact.path.directories

section Emission

variable {world : World} {layout : ArtifactLayout} {mode : EmbeddingMode} {path : Path}
  {first second : List Section} {text : String} {tree : FileTree} {written : Bool}

/-- What an emission that succeeds has done. -/
theorem exists_emits_of_emit (hclosed : world.tree.IsClosed)
    (h : (emit layout mode path first world).result = .ok written) :
    ∃ text tree, render layout mode first = .ok text ∧ Emits world path text tree (.ok written) ∧
      (emit layout mode path first world).world = world.withTree tree := by
  rcases goes_emit hclosed layout mode path first with
    ⟨e, -, events, hgoes, -⟩ | ⟨text, tree, result, hrender, hemits, events, hgoes, -⟩
  · rw [hgoes] at h
    cases h
  · rw [hgoes] at h ⊢
    cases h
    exact ⟨text, tree, hrender, hemits, rfl⟩

theorem Emits.updates {earlier : String} {place : Place} {runnable : Bool}
    (h : Emits world path text tree (.ok written)) (hnames : ∀ s ∈ first, Text.isIdentifier s.name)
    (hnames' : ∀ s ∈ second, Text.isIdentifier s.name)
    (hearlier : render layout mode first = .ok earlier)
    (hrender : render layout mode second = .ok text)
    (hfile : world.tree.look world.cwd path = .ok (place, .file (Text.encode earlier) runnable)) :
    Updates layout mode path first second world written (world.withTree tree) := by
  have hsame : written = false ↔ earlier = text := by
    rw [h.written_iff, readBytes_of_look_file hfile, Except.ok.injEq]
    exact Text.encode_injective.eq_iff
  refine ⟨hsame.trans (render_eq_iff hnames hnames' hearlier hrender), fun hwritten => ?_, ?_⟩
  · obtain ⟨rfl, -⟩ := h.eq_of_readBytes (h.written_iff.mp hwritten)
    exact world.withTree_tree
  · obtain ⟨now, hnow, hfits⟩ := h.grows.look hfile
    obtain ⟨spot, hspot⟩ := h.look (ne_empty_of_render hrender)
    rcases hspot with ⟨flag, hlook⟩ | ⟨kind, hlook⟩
    · refine ⟨text, spot, flag, hrender, hlook, fun other hother content held => ?_⟩
      exact (h.addsFiles hlook).file_iff hother
    · cases hnow.symm.trans hlook
      cases hfits

theorem emits_exactly (hclosed : world.tree.IsClosed) : world.EmitsExactly where
  again := by
    intro layout mode path first second before written hnames hnames' hfirst mid hsecond hdevice
    obtain ⟨earlier, tree, hearlier, hemits, hmid⟩ := exists_emits_of_emit hclosed hfirst
    have hclosed' : mid.tree.IsClosed := by
      simpa [mid, hmid] using hemits.isClosed hclosed
    obtain ⟨text, tree', hrender, hemits', hleft⟩ := exists_emits_of_emit hclosed' hsecond
    obtain ⟨place, ⟨runnable, hfile⟩ | ⟨kind, hlook⟩⟩ := hemits.look (ne_empty_of_render hearlier)
    · rw [hleft]
      have hfile' : mid.tree.look mid.cwd path =
          .ok (place, .file (Text.encode earlier) runnable) := by
        simpa [mid, hmid] using hfile
      exact hemits'.updates hnames hnames' hearlier hrender hfile'
    · refine absurd ⟨place, kind, ?_⟩ hdevice
      simpa [mid, hmid] using hlook
  toDevice := by
    rintro layout mode path sections written ⟨place, kind, hdevice⟩ h
    obtain ⟨text, tree, hrender, hemits, hleft⟩ := exists_emits_of_emit hclosed h
    refine ⟨?_, ?_⟩
    · rw [← Bool.not_eq_false, hemits.written_iff, readBytes_of_look_device hdevice,
        Except.ok.injEq]
      exact (Text.encode_ne_nil (ne_empty_of_render hrender)).symm
    · rw [hleft]
      exact hemits.sameFiles_of_device hdevice
  failed := by
    intro artifact e h
    obtain ⟨tree, result, hemits, events, hgoes, -⟩ :=
      exists_emits hclosed artifact.path artifact.text
    have hartifact : artifact.writeIfChanged world = ⟨events, world.withTree tree, result⟩ := hgoes
    rw [hartifact] at h ⊢
    cases h
    cases hemits with
    | refused _ hadds => exact ⟨tree, rfl, hadds.adds.sameFiles, hadds⟩

end Emission

/-! ## In the directory of the devices -/

namespace Pipeline

theorem isIdentifier_plain : ∀ s ∈ [plainShader.toSection], Text.isIdentifier s.name := by
  intro s hs
  cases List.mem_singleton.mp hs
  decide

/-- What is emitted to a device is never up to date. -/
theorem emit_again_to_device :
    deviceWorld.tree.IsClosed ∧ (∀ s ∈ [plainShader.toSection], Text.isIdentifier s.name) ∧
      ∃ events, emit plainPipeline.layout .textMulti ⟨"null"⟩ [plainShader.toSection] deviceWorld =
          ⟨events, deviceWorld, .ok true⟩ ∧
        ¬ Updates plainPipeline.layout .textMulti ⟨"null"⟩ [plainShader.toSection]
          [plainShader.toSection] deviceWorld true deviceWorld := by
  obtain ⟨events, hgoes, -⟩ := emission_plain_to_device
  refine ⟨isClosed_deviceWorld, isIdentifier_plain, events, hgoes, fun hupdates => ?_⟩
  exact absurd (hupdates.upToDate.mpr rfl) (by decide)

def otherSection : Section := ⟨"a", .text "void main();\n"⟩

def besideDevice (content : Bytes) : FileTree :=
  deviceWorld.tree.put ["dev", "o.cpp"] (.file content)

section Beside

variable (content other : Bytes) (ending : FileTree.Ending)

theorem find_beside_none :
    deviceWorld.tree.find ending ["dev"] ⟨"o.cpp"⟩ = .ok ["dev", "o.cpp"] := by
  have hname : IsFileName "o.cpp" := by decide +kernel
  exact hname.find_eq rfl fun target hlink => by cases hlink

theorem find_besideDevice :
    (besideDevice content).find ending ["dev"] ⟨"o.cpp"⟩ = .ok ["dev", "o.cpp"] := by
  have hname : IsFileName "o.cpp" := by decide +kernel
  exact hname.find_eq rfl fun target hlink => by cases hlink

theorem readBytes_beside_none : deviceWorld.tree.readBytes ["dev"] ⟨"o.cpp"⟩ ≠ .ok content := by
  intro hread
  obtain ⟨place, entry, hlook, -⟩ := look_of_readBytes hread
  obtain ⟨hplace, hentry⟩ := look_eq_ok_iff.mp hlook
  cases (find_beside_none .pass).symm.trans hplace
  cases hentry

theorem readBytes_besideDevice : (besideDevice content).readBytes ["dev"] ⟨"o.cpp"⟩ = .ok content :=
  readBytes_of_look_file (look_eq_ok_iff.mpr ⟨find_besideDevice content .pass, rfl⟩)

theorem writeBytes_beside_none :
    deviceWorld.tree.writeBytes ["dev"] ⟨"o.cpp"⟩ content = .ok (besideDevice content) := by
  simp only [writeBytes, find_beside_none]
  rfl

theorem writeBytes_besideDevice :
    (besideDevice content).writeBytes ["dev"] ⟨"o.cpp"⟩ other =
      .ok ((besideDevice content).put ["dev", "o.cpp"] (.file other)) := by
  simp only [writeBytes, find_besideDevice]
  rfl

theorem isClosed_besideDevice : (besideDevice content).IsClosed :=
  isClosed_deviceWorld.put rfl fun hnone => by cases hnone

end Beside

/-- Next to the devices a file is written, kept while its text is the same, and written again when
it is another. -/
theorem emits_exactly_besideDevice :
    deviceWorld.tree.IsClosed ∧ deviceWorld.EmitsExactly ∧
      ∃ mid left, (emit .standard .textMulti ⟨"o.cpp"⟩ [plainShader.toSection]).Goes deviceWorld
        [] mid (.ok true) ∧
        (emit .standard .textMulti ⟨"o.cpp"⟩ [plainShader.toSection]).Goes mid [] mid (.ok false) ∧
        (emit .standard .textMulti ⟨"o.cpp"⟩ [otherSection]).Goes mid [] left (.ok true) := by
  obtain ⟨text, hrender⟩ := render_plain
  obtain ⟨other, hother⟩ : ∃ other, render .standard .textMulti [otherSection] = .ok other :=
    exists_of_isSome (by decide +kernel)
  have hne : text ≠ other := by
    rw [Ne, render_eq_iff isIdentifier_plain (by decide) hrender hother]
    decide +kernel
  have hchanged : (besideDevice (Text.encode text)).readBytes ["dev"] ⟨"o.cpp"⟩ ≠
      .ok (Text.encode other) := by
    rw [readBytes_besideDevice]
    exact fun heq => hne (Text.encode_injective (Except.ok.inj heq))
  let mid := deviceWorld.withTree (besideDevice (Text.encode text))
  have hfirst : (emit .standard .textMulti ⟨"o.cpp"⟩ [plainShader.toSection]).Goes deviceWorld
      [] mid (.ok true) :=
    goes_emit_written hrender (readBytes_beside_none _) (by decide +kernel)
      (writeBytes_beside_none _)
  have hkept : (emit .standard .textMulti ⟨"o.cpp"⟩ [plainShader.toSection]).Goes mid [] mid
      (.ok false) :=
    goes_emit_kept (isClosed_besideDevice _) hrender (readBytes_besideDevice _)
  have hsecond : (emit .standard .textMulti ⟨"o.cpp"⟩ [otherSection]).Goes mid []
      (mid.withTree _) (.ok true) :=
    goes_emit_written hother hchanged (by decide +kernel) (writeBytes_besideDevice _ _)
  exact ⟨isClosed_deviceWorld, emits_exactly isClosed_deviceWorld, _, _, hfirst, hkept, hsecond⟩

end Pipeline

end ShaderEmbed
