import ShaderEmbed.Project.Build
import ShaderEmbed.Proofs.Compile.Tool
import ShaderEmbed.Proofs.Fragment.Agreement
import ShaderEmbed.Proofs.Run.Resolution

/-!
# Resolving the same again

With a tool that changes nothing but its output a configured stage that is resolved leaves the tree
as it was (`resolve_alike`). With a deterministic tool, in a later tree that has kept what the stage
was made of, it is resolved to the same (`resolve_again`): the fragments flatten to the same text,
and the tool is given the same, under the name of another scratch directory. From stage to stage the
same follows for all stages of a target (`resolves_alike`, `resolves_again`).
-/

namespace ShaderEmbed

open FileTree

namespace Config

variable {config : Config} {now next : World} {inputs : Set Place}
  {later : FileTree} {stage : StageSpec} {stages : List StageSpec} {asked : List Path}
  {shader : ResolvedShader} {shaders : List ResolvedShader}

/-- The configured tool is deterministic in a world; besides its entry it reads what is at some
places. -/
abbrev HasDeterministicTool (config : Config) (world : World) (inputs : Set Place) : Prop :=
  config.externalTool.IsDeterministic world.tools world.cwd inputs

/-- The configured tool changes nothing but its output. -/
abbrev HasFramedTool (config : Config) (world : World) : Prop :=
  config.externalTool.WritesOutputOnly world.tools world.cwd

/-- What a world offers to the tool is offered again by a later tree, with room for scratch
directories. No input of the tool is in one of these. -/
structure OffersAgain (config : Config) (now : World) (inputs : Set Place) (later : FileTree) :
    Prop where
  tool : config.HasDeterministicTool now inputs
  closed : now.tree.IsClosed
  closedLater : later.IsClosed
  grows : now.tree.Grows later
  sameInputs : ∀ place ∈ inputs, later.get? place = now.tree.get? place
  apart : ∀ place ∈ inputs, ∀ n : Scratch.Name, n.text ∉ place
  room : Scratch.HasRoom now.tools later

theorem OffersAgain.alike {last : FileTree} (h : config.OffersAgain now inputs later)
    (halike : now.Alike next) (halike' : later.Alike last) :
    config.OffersAgain next inputs last := by
  obtain ⟨tree, halike, rfl⟩ := halike
  exact ⟨h.tool, halike.isClosed h.closed, halike'.isClosed h.closedLater,
    (halike.symm.grows.trans h.grows).trans halike'.grows,
    fun place hplace =>
      by rw [halike' place, h.sameInputs place hplace, World.tree_withTree, halike place], h.apart,
    h.room.alike halike'⟩

/-- A fragment of a stage is kept by a later tree. -/
def KeepsSources (config : Config) (now : World) (later : FileTree)
    (shader : ResolvedShader) : Prop :=
  ∀ source ∈ shader.sources, now.tree.Keeps later now.cwd (config.shaderRoot.join source)

/-- If a stage is compiled where it lies, its entry is there. -/
def HasEntry (config : Config) (now : World) (stage : StageSpec) : Prop :=
  config.compiler.flattenIncludes = false → stage.kind = .binary →
    ∃ place entry, now.tree.look now.cwd (config.shaderRoot.join stage.entry) = .ok (place, entry)

/-! ## Copies -/

section Copies

variable {path : Path} {place : Place} {file : String} {content : Bytes}
  {copied : FileTree} {left : World}

/-- A job that leaves the tree with a copy as it was leaves the tree without it as it was. -/
theorem alike_of_copy (hopened : Scratch.Opened now config.scratch path place)
    (hclosed : now.tree.IsClosed) (hfile : Component.IsName file)
    (hwrite : (Scratch.inside now place).writeBytes now.cwd (path.child file) content = .ok copied)
    (halike : (now.withTree copied).Alike left) :
    now.Alike (left.withTree (left.tree.clear place)) := by
  obtain ⟨tree, halike, rfl⟩ := halike
  refine ⟨_, hopened.alike_clear hclosed fun spot hspot => ?_, rfl⟩
  rw [← hopened.get?_written hclosed hfile hwrite hspot]
  exact halike spot

end Copies

/-! ## One stage -/

theorem resolve_alike (htool : config.HasFramedTool now) (hclosed : now.tree.IsClosed)
    (h : (config.pipeline.resolve stage).Goes now asked next (.ok shader)) : now.Alike next := by
  cases Pipeline.goes_resolve_iff.mp h with
  | text => exact .refl now
  | direct _ _ hcompile => exact htool.compile_alike hclosed hcompile
  | copy _ _ _ hcompile =>
    obtain ⟨path, place, file, copied, more, left, hopened, hfile, hwrite, hdone, rfl⟩ :=
      Pipeline.exists_of_compileFlattened hclosed hcompile
    have hname := Path.isName_of_fileName hfile
    have hcopied : (now.withTree copied).tree.IsClosed :=
      hopened.isClosed_written hclosed hname hwrite
    have hlater : config.HasFramedTool (now.withTree copied) := htool
    exact alike_of_copy hopened hclosed hname hwrite (hlater.compile_alike hcopied hdone)

theorem flatten_again (hgrows : now.tree.Grows later) {flat : Flattened}
    {marker : String} {entry : Path}
    (hkeeps : ∀ source ∈ flat.sources, now.tree.Keeps later now.cwd (config.shaderRoot.join source))
    (h : ((config.pipeline.source now).flatten marker entry).result = .ok flat) :
    ((config.pipeline.source (now.withTree later)).flatten marker entry).result = .ok flat := by
  have hsame := FragmentSource.flatten_of_agrees h (FragmentSource.agrees_ofDirectory hgrows hkeeps)
  rw [show (config.pipeline.source (now.withTree later)).flatten marker entry = _ from hsame]
  exact h

/-- What was compiled where it lies is compiled again. -/
theorem compile_again_direct (h : config.OffersAgain now inputs later)
    {entry : Path} {bytes : Bytes}
    (hentry : ∃ place found, now.tree.look now.cwd entry = .ok (place, found) ∧
      later.look now.cwd entry = .ok (place, found))
    (hgoes : (config.externalTool.compiler.compile entry).Goes now asked next (.ok bytes)) :
    ∃ asked next, (config.externalTool.compiler.compile entry).Goes
      (now.withTree later) asked next (.ok bytes) ∧
      (now.withTree later).Alike next := by
  obtain ⟨parent, above, n, below, run, hcompiled, rfl⟩ :=
    h.tool.writesOutputOnly.exists_compiled h.closed hgoes
  obtain ⟨place, found, hlook, hlook'⟩ := hentry
  exact h.tool.compile_again h.closed hcompiled
    { closed := h.closedLater
      siblings := .refl entry
      sameEntry := ⟨place, place, found, hlook, hlook'⟩
      sameInputs := h.sameInputs
      apart := h.apart
      chosen := Scratch.parent_withTree hcompiled.chosen h.grows
      isParent := hcompiled.isParent.mono h.grows
      draws := h.room.draws
      room := h.room.exists_one above }

/-- What was compiled from a copy is compiled again from another. -/
theorem compile_again_copy (h : config.OffersAgain now inputs later) {entry : Path}
    {text : String} {bytes : Bytes}
    (hgoes : (config.pipeline.compileFlattened entry text).Goes now asked next (.ok bytes)) :
    ∃ asked next, (config.pipeline.compileFlattened entry text).Goes
      (now.withTree later) asked next (.ok bytes) ∧
      (now.withTree later).Alike next := by
  obtain ⟨path, place, file, copied, more, left, hopened, hfile, hwrite, hdone, rfl⟩ :=
    Pipeline.exists_of_compileFlattened h.closed hgoes
  have hname := Path.isName_of_fileName hfile
  obtain ⟨parent, above, n, hchosen, hparent, rfl, rfl⟩ := hopened.exists_parent
  have htool : config.HasDeterministicTool (now.withTree copied) inputs := h.tool
  have hcopied : (now.withTree copied).tree.IsClosed :=
    hopened.isClosed_written h.closed hname hwrite
  obtain ⟨parent', above', k, below, run, hcompiled, rfl⟩ :=
    htool.writesOutputOnly.exists_compiled hcopied hdone
  have hchosen₁ := Scratch.parent_withTree hchosen (hopened.grows_written h.closed hname hwrite)
  obtain rfl : parent = parent' := Except.ok.inj (hchosen₁.symm.trans hcompiled.chosen)
  -- the copy is written again
  have hlater : (now.withTree later).tree.IsClosed := h.closedLater
  have hchosen' := Scratch.parent_withTree hchosen h.grows
  obtain ⟨m, hopened', hmake⟩ :=
    (hparent.mono h.grows).make hlater h.room.draws (h.room.exists_one above) hchosen'
  obtain ⟨copied', hwrite'⟩ := hopened.exists_written h.closed hopened' hlater hname hwrite
  have hgrows := hopened'.grows_written hlater hname hwrite'
  have hchosen'' : Scratch.parent ((now.withTree later).withTree copied') config.scratch =
      .ok parent :=
    Scratch.parent_withTree hchosen' hgrows
  have hparent' : Scratch.Parent ((now.withTree later).withTree copied') parent above :=
    (hparent.mono h.grows).mono hgrows
  have hapart (above : Place) (i : Scratch.Name) {place : Place} (hplace : place ∈ inputs) :
      ¬ above ++ [i.text] <+: place :=
    fun hunder => h.apart place hplace i (hunder.subset (by simp))
  obtain ⟨k', hother, hfree⟩ := h.room.exists_other above m
  have hgiven : config.externalTool.GivenAgain (now.withTree copied) inputs
      ((parent.child n.text).child file) parent copied' ((parent.child m.text).child file) above :=
    { closed := hopened'.isClosed_written hlater hname hwrite'
      siblings := .moved parent n m hname
      sameEntry := ⟨_, _, _, hopened.look_written h.closed hname hwrite,
        hopened'.look_written hlater hname hwrite'⟩
      sameInputs := fun place hplace => by
        rw [hopened'.get?_written hlater hname hwrite' (hapart above m hplace),
          World.tree_withTree, World.tree_withTree, hopened.get?_written h.closed hname hwrite
            (hapart above n hplace), h.sameInputs place hplace]
      apart := h.apart
      chosen := hchosen''
      isParent := hparent'
      draws := h.room.draws
      room := by
        refine ⟨k', ?_⟩
        rw [hopened'.get?_written hlater hname hwrite' fun hunder => ?_]
        · exact hfree
        · have heq := (List.prefix_append_right_inj above).mp hunder
          exact hother
            (Scratch.Name.text_injective (List.singleton_inj.mp (heq.eq_of_length rfl).symm)) }
  obtain ⟨asked', next', hagain, halike⟩ := htool.compile_again hcopied hcompiled hgiven
  exact ⟨_, _, Pipeline.goes_compileFlattened hmake hfile hwrite' (Compiler.goes_ask hagain),
    alike_of_copy hopened' hlater hname hwrite' halike⟩

theorem resolve_again (h : config.OffersAgain now inputs later)
    (hgoes : (config.pipeline.resolve stage).Goes now asked next (.ok shader))
    (hkeeps : config.KeepsSources now later shader) (hentry : config.HasEntry now stage) :
    ∃ asked next,
      (config.pipeline.resolve stage).Goes (now.withTree later) asked next (.ok shader) ∧
      (now.withTree later).Alike next := by
  cases Pipeline.goes_resolve_iff.mp hgoes with
  | text hkind hflat =>
    exact ⟨_, _,
      Pipeline.goes_resolve_iff.mpr (.text hkind (flatten_again h.grows hkeeps hflat)), .refl _⟩
  | copy hkind hbinaries hflat hcompile =>
    obtain ⟨asked', next', hagain, halike⟩ := compile_again_copy h hcompile
    have hflat' := flatten_again h.grows hkeeps hflat
    exact ⟨_, _, Pipeline.goes_resolve_iff.mpr (.copy hkind hbinaries hflat' hagain), halike⟩
  | direct hkind hbinaries hcompile =>
    obtain ⟨place, found, hlook⟩ := hentry hbinaries hkind
    have hlook' := h.grows.look_of_keeps (hkeeps stage.entry List.mem_cons_self) hlook
    obtain ⟨asked', next', hagain, halike⟩ :=
      compile_again_direct h ⟨place, found, hlook, hlook'⟩ hcompile
    exact ⟨_, _, Pipeline.goes_resolve_iff.mpr (.direct hkind hbinaries hagain), halike⟩

/-! ## All stages of a target -/

theorem KeepsSources.alike {last : FileTree} (h : config.KeepsSources now later shader)
    (halike : now.Alike next) (halike' : later.Alike last) :
    config.KeepsSources next last shader := by
  obtain ⟨tree, halike, rfl⟩ := halike
  intro source hsource place entry hlook
  rw [World.tree_withTree, halike.look] at hlook
  rw [halike' place, h source hsource place entry hlook]

theorem HasEntry.grows (h : config.HasEntry now stage) (hgrows : now.tree.Grows later) :
    config.HasEntry (now.withTree later) stage := by
  intro hbinaries hkind
  obtain ⟨place, entry, hlook⟩ := h hbinaries hkind
  obtain ⟨found, hlook', -⟩ := hgrows.look hlook
  exact ⟨place, found, hlook'⟩

theorem resolves_alike (htool : config.HasFramedTool now) (hclosed : now.tree.IsClosed)
    (h : config.pipeline.Resolves now stages asked next shaders) : now.Alike next := by
  induction h with
  | nil => exact .refl _
  | cons hstage _ ih =>
    have halike := resolve_alike htool hclosed hstage
    obtain ⟨tree, hsame, rfl⟩ := id halike
    exact halike.trans (ih htool (hsame.isClosed hclosed))

theorem resolves_again (h : config.OffersAgain now inputs later)
    (hall : config.pipeline.Resolves now stages asked next shaders)
    (hkeeps : ∀ shader ∈ shaders, config.KeepsSources now later shader)
    (hentry : ∀ stage ∈ stages, config.HasEntry now stage) :
    ∃ asked next, config.pipeline.Resolves (now.withTree later) stages asked next shaders ∧
      (now.withTree later).Alike next := by
  induction hall generalizing later with
  | nil => exact ⟨_, _, .nil, .refl _⟩
  | @cons now next left stage rest shader asked more shaders hstage hrest ih =>
    obtain ⟨hkeep, hkeeps⟩ := List.forall_mem_cons.mp hkeeps
    obtain ⟨hhere, hentry⟩ := List.forall_mem_cons.mp hentry
    have halike := resolve_alike h.tool.writesOutputOnly h.closed hstage
    obtain ⟨asked', next', hagain, halike'⟩ := resolve_again h hstage hkeep hhere
    obtain ⟨last, hlast, rfl⟩ := halike'
    obtain ⟨tree, hsame, rfl⟩ := id halike
    obtain ⟨more', left', hmore, hleft⟩ := ih (h.alike halike hlast)
      (fun other hother => (hkeeps other hother).alike halike hlast)
      fun other hother => (hentry other hother).grows hsame.grows
    exact ⟨_, _, .cons hagain hmore, World.Alike.trans ⟨last, hlast, rfl⟩ hleft⟩

end Config

end ShaderEmbed
