import ShaderEmbed.Proofs.Compile.Both
import ShaderEmbed.Proofs.Project.Again

/-!
# Resolving the same in two trees

A build comes through trees that have grown from the first one by its outputs (`Midway`). Where a
stage is resolved in two of them it is resolved to the same, if it is made of nothing that is
written (`resolve_same`): its fragments lead to the same files, and its entry, or the copy of its
text, is compiled to the same. From stage to stage the same follows for all stages of a target
(`resolves_same`).

That differs from resolving again in a later tree: here neither tree has what the other has, and
neither stage is known to be resolved because the other is.
-/

namespace ShaderEmbed

open FileTree

namespace Config

variable {config : Config} {world next next' : World} {places inputs : Set Place}
  {one other : FileTree} {stage : StageSpec} {stages : List StageSpec} {asked asked' : List Path}
  {shader shader' : ResolvedShader}
  {shaders shaders' : List ResolvedShader}

/-- A tree that a build comes through: files were written at some places, and the tool is supplied
as it was at first. -/
structure Midway (first : FileTree) (places inputs : Set Place) (tree : FileTree) : Prop where
  closed : tree.IsClosed
  adds : first.AddsFiles tree places
  supplies : ExternalTool.Supplies first tree inputs

theorem Midway.alike {first tree : FileTree} (h : Midway first places inputs tree)
    (halike : tree.Alike other) :
    Midway first places inputs other :=
  ⟨halike.isClosed h.closed, h.adds.trans (halike.addsFiles places),
    fun place hplace => (halike place).trans (h.supplies.same place hplace), h.supplies.apart⟩

/-- No fragment of a shader is at one of some places, in no tree that a build comes through. -/
def SparesSources (config : Config) (world : World) (places : Set Place)
    (shader : ResolvedShader) : Prop :=
  ∀ source ∈ shader.sources, ∀ tree place entry, world.tree.AddsFiles tree places →
    tree.look world.cwd (config.shaderRoot.join source) = .ok (place, entry) → place ∉ places

/-- It is enough that the fragments are somewhere else in one of these trees. -/
theorem sparesSources_of_look {tree : FileTree} (hadds : world.tree.AddsFiles tree places)
    (h : ∀ source ∈ shader.sources, ∃ place entry,
      tree.look world.cwd (config.shaderRoot.join source) = .ok (place, entry) ∧ place ∉ places) :
    config.SparesSources world places shader := by
  intro source hsource later place entry hlater hlook
  obtain ⟨spot, found, hfound, hspot⟩ := h source hsource
  rwa [(hlater.linksAgree hadds).look_eq hlook hfound]

/-! ## One stage -/

theorem flatten_same {flat flat' : Flattened} {marker : String} {entry : Path}
    (hadds : world.tree.AddsFiles one places) (hadds' : world.tree.AddsFiles other places)
    (hspares : ∀ source ∈ flat.sources, ∀ tree place held, world.tree.AddsFiles tree places →
      tree.look world.cwd (config.shaderRoot.join source) = .ok (place, held) → place ∉ places)
    (h : ((config.pipeline.source (world.withTree one)).flatten marker entry).result = .ok flat)
    (h' : ((config.pipeline.source (world.withTree other)).flatten marker entry).result =
      .ok flat') : flat = flat' :=
  FragmentSource.flatten_of_coincides h h'
    (FragmentSource.coincides_ofDirectory hadds hadds' fun source hsource place held =>
    hspares source hsource one place held hadds)

/-- A text that is compiled from copies in two trees is compiled to the same. -/
theorem compile_same_copy (htool : config.HasDeterministicTool world inputs)
    (h : Midway world.tree places inputs one) (h' : Midway world.tree places inputs other)
    {entry : Path} {text : String} {bytes bytes' : Bytes}
    (hgoes : (config.pipeline.compileFlattened entry text).Goes
      (world.withTree one) asked next (.ok bytes))
    (hgoes' : (config.pipeline.compileFlattened entry text).Goes (world.withTree other) asked' next'
      (.ok bytes')) :
    bytes = bytes' := by
  have hone : (world.withTree one).tree.IsClosed := h.closed
  have hother : (world.withTree other).tree.IsClosed := h'.closed
  obtain ⟨path, place, file, copied, more, left, hopened, hfile, hwrite, hdone, -⟩ :=
    Pipeline.exists_of_compileFlattened hone hgoes
  obtain ⟨path', place', file', copied', more', left', hopened', hfile', hwrite', hdone', -⟩ :=
    Pipeline.exists_of_compileFlattened hother hgoes'
  cases hfile.symm.trans hfile'
  have hname := Path.isName_of_fileName hfile
  obtain ⟨parent, above, n, hchosen, -, rfl, rfl⟩ := hopened.exists_parent
  obtain ⟨parent', above', m, hchosen', -, rfl, rfl⟩ := hopened'.exists_parent
  obtain rfl := Scratch.parent_unique hchosen hchosen'
  -- both copies hold the text, and what the tool reads besides is in no scratch directory
  have hcopied : copied.IsClosed := hopened.isClosed_written hone hname hwrite
  have hcopied' : copied'.IsClosed := hopened'.isClosed_written hother hname hwrite'
  have hsupplies : ExternalTool.Supplies world.tree copied inputs :=
    ExternalTool.Supplies.written h.supplies hone hopened hname hwrite
  have hsupplies' : ExternalTool.Supplies world.tree copied' inputs :=
    ExternalTool.Supplies.written h'.supplies hother hopened' hname hwrite'
  have htool' {tree : FileTree} : config.HasDeterministicTool (world.withTree tree) inputs := htool
  obtain ⟨parent₁, above₁, k, below, run, hcompiled, -⟩ :=
    htool'.writesOutputOnly.exists_compiled hcopied hdone
  obtain ⟨parent₂, above₂, k', below', run', hcompiled', -⟩ :=
    htool'.writesOutputOnly.exists_compiled hcopied' hdone'
  have hlook := hcompiled.opened.look_inside (hopened.look_written hone hname hwrite)
  have hlook' := hcompiled'.opened.look_inside (hopened'.look_written hother hname hwrite')
  refine htool.bytes_eq hcopied hcopied' hcompiled hcompiled' (.moved parent n m hname)
    (fun content hread => ?_) hsupplies hsupplies'
  rw [← hread]
  exact readBytes_congr hlook hlook'

theorem resolve_same (htool : config.HasDeterministicTool world inputs)
    (h : Midway world.tree places inputs one) (h' : Midway world.tree places inputs other)
    (hspares : config.SparesSources world places shader)
    (hgoes : (config.pipeline.resolve stage).Goes (world.withTree one) asked next (.ok shader))
    (hgoes' : (config.pipeline.resolve stage).Goes (world.withTree other) asked' next'
      (.ok shader')) :
    shader = shader' := by
  have hresolved := Pipeline.goes_resolve_iff.mp hgoes
  have hresolved' := Pipeline.goes_resolve_iff.mp hgoes'
  cases hresolved with
  | text hkind hflat =>
    cases hresolved' with
    | text _ hflat' => rw [flatten_same h.adds h'.adds hspares hflat hflat']
    | copy hkind' | direct hkind' => cases hkind.symm.trans hkind'
  | copy hkind hbinaries hflat hcompile =>
    cases hresolved' with
    | copy _ _ hflat' hcompile' =>
      obtain rfl := flatten_same h.adds h'.adds hspares hflat hflat'
      rw [compile_same_copy htool h h' hcompile hcompile']
    | text hkind' => cases hkind.symm.trans hkind'
    | direct _ hbinaries' => cases hbinaries.symm.trans hbinaries'
  | direct hkind hbinaries hcompile =>
    cases hresolved' with
    | direct _ _ hcompile' =>
      rw [htool.bytes_eq_of_compile h.closed h'.closed h.adds h'.adds h.supplies h'.supplies
        (hspares stage.entry List.mem_cons_self) hcompile hcompile']
    | text hkind' => cases hkind.symm.trans hkind'
    | copy _ hbinaries' => cases hbinaries.symm.trans hbinaries'

/-! ## All stages of a target -/

theorem resolves_same (htool : config.HasDeterministicTool world inputs)
    (h : Midway world.tree places inputs one) (h' : Midway world.tree places inputs other)
    (hspares : ∀ shader ∈ shaders, config.SparesSources world places shader)
    (hall : config.pipeline.Resolves (world.withTree one) stages asked next shaders)
    (hall' : config.pipeline.Resolves (world.withTree other) stages asked' next' shaders') :
    shaders = shaders' := by
  have htool' {tree : FileTree} : config.HasDeterministicTool (world.withTree tree) inputs := htool
  induction stages generalizing one other asked asked' next next' shaders shaders' with
  | nil =>
    cases hall
    cases hall'
    rfl
  | cons stage rest ih =>
    cases hall with
    | cons hstage hrest =>
      cases hall' with
      | cons hstage' hrest' =>
        obtain ⟨hspare, hspares⟩ := List.forall_mem_cons.mp hspares
        obtain ⟨tree, halike, rfl⟩ := resolve_alike htool'.writesOutputOnly h.closed hstage
        obtain ⟨tree', halike', rfl⟩ := resolve_alike htool'.writesOutputOnly h'.closed hstage'
        rw [resolve_same htool h h' hspare hstage hstage',
          ih (h.alike halike) (h'.alike halike') hspares hrest hrest']

end Config

end ShaderEmbed
