import ShaderEmbed.Proofs.Artifact.Emit
import ShaderEmbed.Proofs.Config.Valid
import ShaderEmbed.Proofs.Project.Again
import ShaderEmbed.Proofs.Run.Stages

/-!
# What a build leaves

A build of all targets is one run after the other, up to the first that fails (`buildEach_in_turn`).
Each run that succeeds leaves its artifact at the end of the path of its output and changes no other
file (`exists_leaves`). So a build changes nothing but its outputs (`Builds.elsewhere`), and if
these are different files every artifact is there at the end (`Builds.holds`).
-/

namespace ShaderEmbed

open FileTree

namespace Pipeline

variable {self : Pipeline} {world left : World} {target : TargetSpec}
  {asked : List Path} {report : RunReport}

/-- A run that succeeds has resolved its stages and has emitted the artifact. -/
theorem exists_of_run (h : (self.run target).Goes world asked left (.ok report)) :
    ∃ asked' mid shaders more written, self.Resolves world target.stages asked' mid shaders ∧
      (self.emission target shaders).Goes mid more left (.ok written) ∧
        report = ⟨target.name, target.output, written, shaders⟩ := by
  rcases self.resolves_or_breaks world target.stages with ⟨asked', mid, shaders, hall⟩ |
    ⟨asked', mid, e, hbreaks⟩
  · obtain ⟨more, final, result, hemit⟩ := (self.emission target shaders).exists_goes mid
    cases result with
    | error e => cases (h.unique (run_of_emission_error hall hemit)).2.2
    | ok written =>
      obtain ⟨-, rfl, heq⟩ := h.unique (run_of_emission hall hemit)
      cases heq
      exact ⟨asked', mid, shaders, more, written, hall, hemit, rfl⟩
  · cases (h.unique (run_of_breaks hbreaks)).2.2

/-- What a run reports besides its shaders. -/
theorem eq_of_run (h : (self.run target).Goes world asked left (.ok report)) (written : Bool) :
    { report with written := written } =
      (⟨target.name, target.output, written, report.shaders⟩ : RunReport) := by
  obtain ⟨-, -, shaders, -, -, -, -, rfl⟩ := exists_of_run h
  rfl

end Pipeline

namespace Config

variable {config : Config} {world next left : World} {target : TargetConfig}
  {targets : List TargetConfig} {report : RunReport} {reports : List RunReport}
  {asked : List Path} {events : List Event}

/-! ## From target to target -/

/-- The runs of some targets, each in the world that the one before it left: the world that is left
in the end, and the reports. -/
inductive Builds (config : Config) : World → List TargetConfig → World → List RunReport → Prop
  | nil {world : World} : Builds config world [] world []
  | cons {world next left : World} {target : TargetConfig} {rest : List TargetConfig}
      {asked : List Path} {report : RunReport} {reports : List RunReport}
      (hrun : (config.pipeline.run (target.toSpec config.root)).Goes world asked next (.ok report))
      (hrest : Builds config next rest left reports) :
      Builds config world (target :: rest) left (report :: reports)

/-- Targets are run one after the other, each in the world that the one before it left, and all of
them succeed: what is recorded, the world that is left in the end, and the reports. -/
inductive InTurn (config : Config) :
    World → List TargetConfig → List Event → World → List RunReport → Prop
  | nil {world : World} : InTurn config world [] [] world []
  | cons {world next left : World} {target : TargetConfig} {rest : List TargetConfig}
      {events more : List Event} {report : RunReport} {reports : List RunReport}
      (hrun : config.pipeline.run (target.toSpec config.root) world = ⟨events, next, .ok report⟩)
      (hrest : InTurn config next rest more left reports) :
      InTurn config world (target :: rest)
        (.building target.name target.stages.length :: events ++ more) left (report :: reports)

theorem InTurn.builds (h : config.InTurn world targets events left reports) :
    config.Builds world targets left reports := by
  induction h with
  | nil => exact .nil
  | cons hrun _ ih => exact .cons ⟨_, hrun, rfl⟩ ih

theorem target_eq_of_nodup (h : config.targetNames.Nodup) (htarget : target ∈ config.targets) :
    config.target target.name = .ok target := by
  suffices hfind : config.target? target.name = some target by
    simp only [Config.target, hfind]
  unfold targetNames at h
  unfold target?
  generalize config.targets = targets at h htarget
  induction targets with
  | nil => cases htarget
  | cons other rest ih =>
    rw [List.map_cons, List.nodup_cons] at h
    rcases List.mem_cons.mp htarget with rfl | hrest
    · simp
    · have hne : other.name ≠ target.name := fun heq => h.1 (heq ▸ List.mem_map_of_mem hrest)
      rw [List.find?_cons_of_neg (by simpa using hne)]
      exact ih h.2 hrest

theorem build_of_run (htarget : config.target target.name = .ok target)
    {result : Except ShaderError RunReport}
    (hrun : config.pipeline.run (target.toSpec config.root) world = ⟨events, left, result⟩) :
    config.build target.name world =
      ⟨.building target.name target.stages.length :: events, left,
        result.mapError (targetFailure target.name)⟩ := by
  have hfound :
      Job.ofExcept ((Except.ok target : Except ConfigError TargetConfig).mapError fun refusal =>
      BuildFailure.ofCause (.config refusal)) world = ⟨[], world, .ok target⟩ := rfl
  unfold build
  rw [htarget, Job.bind_of_ok hfound, Job.record_bind, Job.mapError_of_eq hrun]
  rfl

theorem goes_build {result : Except ShaderError RunReport}
    (htarget : config.target target.name = .ok target)
    (h : (config.pipeline.run (target.toSpec config.root)).Goes world asked left result) :
    (config.build target.name).Goes world asked left
      (result.mapError (targetFailure target.name)) := by
  obtain ⟨events, hrun, rfl⟩ := h
  exact ⟨_, build_of_run htarget hrun, rfl⟩

/-- Where every target finds itself by its name, targets are built in turn, up to the first that
fails. -/
theorem buildEach_in_turn (htargets : ∀ target ∈ targets, config.target target.name = .ok target)
    (world : World) :
    (∃ events left reports, config.InTurn world targets events left reports ∧
      config.buildEach (targets.map TargetConfig.name) world = ⟨events, left, .ok reports⟩) ∨
    ∃ before target after events mid reports more left e, targets = before ++ target :: after ∧
      config.InTurn world before events mid reports ∧
      config.pipeline.run (target.toSpec config.root) mid = ⟨more, left, .error e⟩ ∧
      config.buildEach (targets.map TargetConfig.name) world =
        ⟨events ++ .building target.name target.stages.length :: more, left,
          .error (targetFailure target.name e)⟩ := by
  induction targets generalizing world with
  | nil => exact Or.inl ⟨[], world, [], .nil, rfl⟩
  | cons target rest ih =>
    obtain ⟨htarget, hrest⟩ := List.forall_mem_cons.mp htargets
    cases hrun : config.pipeline.run (target.toSpec config.root) world with
    | mk events next result =>
      have hbuild := build_of_run htarget hrun
      cases result with
      | error e =>
        refine Or.inr ⟨[], target, rest, [], world, [], events, next, e, rfl, .nil, hrun, ?_⟩
        exact Job.bind_of_error hbuild
      | ok report =>
        rcases ih hrest next with ⟨more, left, reports, hothers, heq⟩ |
          ⟨before, stopped, after, more, mid, reports, last, left, e, rfl, hothers, hstopped, heq⟩
        · refine Or.inl ⟨_, left, report :: reports, .cons hrun hothers, ?_⟩
          rw [List.map_cons, buildEach, Job.bind_of_ok hbuild, Job.bind_of_ok heq]
          simp [Outcome.behind, pure, Job.done]
        · refine Or.inr ⟨target :: before, stopped, after, _, mid,
            report :: reports, last, left, e, rfl, .cons hrun hothers, hstopped, ?_⟩
          rw [List.map_cons, buildEach, Job.bind_of_ok hbuild, Job.bind_of_error heq]
          simp [Outcome.behind]

theorem builds_of_buildEach (htargets : ∀ target ∈ targets, config.target target.name = .ok target)
    (h : (config.buildEach (targets.map TargetConfig.name)).Goes world asked left (.ok reports)) :
    config.Builds world targets left reports := by
  rcases buildEach_in_turn htargets world with
    ⟨events, left', reports', hturn, hdone⟩ | ⟨_, _, _, _, _, _, _, _, _, -, -, -, hstopped⟩
  · obtain ⟨-, rfl, heq⟩ := h.unique ⟨events, hdone, rfl⟩
    cases heq
    exact hturn.builds
  · cases (h.unique ⟨_, hstopped, rfl⟩).2.2

theorem Builds.goes_buildEach (h : config.Builds world targets left reports)
    (htargets : ∀ target ∈ targets, config.target target.name = .ok target) :
    ∃ asked, (config.buildEach (targets.map TargetConfig.name)).Goes world asked left
      (.ok reports) := by
  induction h with
  | nil => exact ⟨[], Job.goes_pure [] _⟩
  | @cons world next left target rest asked report reports hrun _ ih =>
    obtain ⟨htarget, hrest⟩ := List.forall_mem_cons.mp htargets
    obtain ⟨more, hothers⟩ := ih hrest
    have hbuild := goes_build htarget hrun
    exact ⟨_, hbuild.bind (hothers.yield fun others => report :: others)⟩

/-! ## What a build leaves -/

/-- What the run of a target leaves behind: the place of its artifact, and the text that was emitted
there. -/
structure Leaves (config : Config) (world left : World) (target : TargetConfig)
    (report : RunReport) (text : String) (place : Place) : Prop where
  same : ∃ tree, left = world.withTree tree
  closed : left.tree.IsClosed
  rendered : render config.artifact target.embeddingMode
    (report.shaders.map ResolvedShader.toSection) = .ok text
  emitted : ∃ tree, world.tree.Alike tree ∧
    Emits (world.withTree tree) (config.root.join target.output) text left.tree (.ok report.written)
  artifact : (∃ runnable, left.tree.look world.cwd (config.root.join target.output) =
      .ok (place, .file (Text.encode text) runnable)) ∨
    ∃ kind, left.tree.look world.cwd (config.root.join target.output) = .ok (place, .device kind)

theorem exists_leaves (htool : config.HasFramedTool world) (hclosed : world.tree.IsClosed)
    (h : (config.pipeline.run (target.toSpec config.root)).Goes world asked left (.ok report)) :
    ∃ asked' mid text place,
      config.pipeline.Resolves world target.stages asked' mid report.shaders ∧
      config.Leaves world left target report text place := by
  obtain ⟨asked', mid, shaders, more, written, hall, hemit, rfl⟩ := Pipeline.exists_of_run h
  obtain ⟨tree, halike, rfl⟩ := resolves_alike htool hclosed hall
  have hmid : (world.withTree tree).tree.IsClosed := halike.isClosed hclosed
  rcases goes_emit hmid config.artifact target.embeddingMode (config.root.join target.output)
      (shaders.map ResolvedShader.toSection) with
        ⟨e, -, hfailed⟩ | ⟨text, emitted, result, hrender, hemits, hdone⟩
  · cases (hemit.unique hfailed).2.2
  · obtain ⟨-, rfl, rfl⟩ := hemit.unique hdone
    obtain ⟨place, hartifact⟩ := hemits.look (ne_empty_of_render hrender)
    exact ⟨asked', _, text, place, hall, ⟨emitted, rfl⟩, hemits.isClosed hmid, hrender,
      ⟨tree, halike, hemits⟩, hartifact⟩

namespace Leaves

variable {text : String} {place spot : Place} {later : FileTree}

theorem exists_look (h : config.Leaves world left target report text place) :
    ∃ entry, left.tree.look world.cwd (config.root.join target.output) = .ok (place, entry) := by
  rcases h.artifact with ⟨flag, hfile⟩ | ⟨kind, hdevice⟩
  · exact ⟨_, hfile⟩
  · exact ⟨_, hdevice⟩

theorem look_later (h : config.Leaves world left target report text place)
    (hgrows : left.tree.Grows later) :
    ∃ entry, later.look world.cwd (config.root.join target.output) = .ok (place, entry) := by
  obtain ⟨found, hfound⟩ := h.exists_look
  obtain ⟨entry, hlook, -⟩ := hgrows.look hfound
  exact ⟨entry, hlook⟩

theorem adds (h : config.Leaves world left target report text place) :
    world.tree.AddsFiles left.tree {place} := by
  obtain ⟨tree, halike, hemits⟩ := h.emitted
  obtain ⟨entry, hlook⟩ := h.exists_look
  exact (halike.addsFiles _).trans (hemits.addsFiles hlook)

theorem grows (h : config.Leaves world left target report text place) :
    world.tree.Grows left.tree := h.adds.grows

/-- Where the artifact of a run lies, if that is a file in a tree that has grown since. -/
theorem look {content : Bytes} {runnable : Bool}
    (h : config.Leaves world next target report text spot) (hgrows : next.tree.Grows later)
    (hlook : later.look world.cwd (config.root.join target.output) =
      .ok (place, .file content runnable)) :
    spot = place ∧ ∃ runnable,
      next.tree.look world.cwd (config.root.join target.output) =
        .ok (place, .file (Text.encode text) runnable) := by
  rcases h.artifact with ⟨flag, hfile⟩ | ⟨kind, hdevice⟩
  · obtain ⟨now, hnow, -⟩ := hgrows.look hfile
    cases hlook.symm.trans hnow
    exact ⟨rfl, flag, hfile⟩
  · obtain ⟨now, hnow, hfits⟩ := hgrows.look hdevice
    cases hlook.symm.trans hnow
    cases hfits

end Leaves

def OutputsAt (config : Config) (world : World) : List TargetConfig → List Place → Prop :=
  List.Forall₂ fun target place => ∃ content runnable,
    world.tree.look world.cwd (config.root.join target.output) = .ok (place, .file content runnable)

def outputsIn (config : Config) (world : World) (targets : List TargetConfig) : Set Place :=
  {place | ∃ target ∈ targets, ∃ entry,
    world.tree.look world.cwd (config.root.join target.output) = .ok (place, entry)}

theorem outputsIn_mono {others : List TargetConfig} (h : targets ⊆ others) :
    config.outputsIn world targets ⊆ config.outputsIn world others :=
  fun _ ⟨target, htarget, hlook⟩ => ⟨target, h htarget, hlook⟩

theorem OutputsAt.mem {places : List Place} (h : config.OutputsAt world targets places)
    {place : Place} (hplace : place ∈ config.outputsIn world targets) : place ∈ places := by
  induction h with
  | nil =>
    obtain ⟨target, htarget, -⟩ := hplace
    cases htarget
  | @cons target spot targets places hfile _ ih =>
    obtain ⟨content, runnable, hlook⟩ := hfile
    obtain ⟨other, hother, entry, hfound⟩ := hplace
    rcases List.mem_cons.mp hother with rfl | hother
    · cases hlook.symm.trans hfound
      exact List.mem_cons_self
    · exact List.mem_cons_of_mem _ (ih ⟨other, hother, entry, hfound⟩)

/-- The output of a target holds the rendering of the shaders in its report. -/
def Holds (config : Config) (world : World) (target : TargetConfig) (report : RunReport) : Prop :=
  ∃ text, render config.artifact target.embeddingMode
    (report.shaders.map ResolvedShader.toSection) = .ok text ∧
    world.tree.readBytes world.cwd (config.root.join target.output) = .ok (Text.encode text)

theorem Holds.alike (h : config.Holds world target report) (halike : world.Alike next) :
    config.Holds next target report := by
  obtain ⟨text, hrender, hread⟩ := h
  exact ⟨text, hrender, (halike.readBytes _).trans hread⟩

namespace Builds

variable {outputs : List Place}

theorem grows (h : config.Builds world targets left reports) (htool : config.HasFramedTool world)
    (hclosed : world.tree.IsClosed) :
    (∃ tree, left = world.withTree tree) ∧ left.tree.IsClosed ∧ world.tree.Grows left.tree := by
  induction h with
  | nil => exact ⟨⟨_, rfl⟩, hclosed, .refl _⟩
  | cons hrun _ ih =>
    obtain ⟨-, -, text, place, -, hleaves⟩ := exists_leaves htool hclosed hrun
    obtain ⟨tree, rfl⟩ := hleaves.same
    obtain ⟨⟨last, rfl⟩, hlast, hgrows⟩ := ih htool hleaves.closed
    exact ⟨⟨last, rfl⟩, hlast, hleaves.grows.trans hgrows⟩

theorem adds (h : config.Builds world targets left reports) (htool : config.HasFramedTool world)
    (hclosed : world.tree.IsClosed) :
    world.tree.AddsFiles left.tree (config.outputsIn left targets) := by
  induction h with
  | nil => exact (Alike.refl _).addsFiles _
  | @cons world next left target rest asked report reports hrun hrest ih =>
    obtain ⟨-, -, text, place, -, hleaves⟩ := exists_leaves htool hclosed hrun
    obtain ⟨tree, rfl⟩ := hleaves.same
    obtain ⟨⟨last, rfl⟩, -, hgrows⟩ := hrest.grows htool hleaves.closed
    have hplace : {place} ⊆ config.outputsIn (world.withTree last) (target :: rest) :=
      Set.singleton_subset_iff.mpr ⟨target, List.mem_cons_self, hleaves.look_later hgrows⟩
    have hothers :=
      (ih htool hleaves.closed).mono (outputsIn_mono (List.subset_cons_self target rest))
    exact (hleaves.adds.mono hplace).trans hothers

/-- A build changes nothing but the outputs of its targets. -/
theorem elsewhere (h : config.Builds world targets left reports)
    (htool : config.HasFramedTool world) (hclosed : world.tree.IsClosed)
    (hfiles : config.OutputsAt left targets outputs) {spot : Place}
    (hspot : spot ∉ outputs) {entry : Entry} (hentry : world.tree.get? spot = some entry) :
    left.tree.get? spot = some entry :=
  (h.adds htool hclosed).elsewhere (fun hmem => hspot (hfiles.mem hmem)) hentry

/-- The artifact of each target is there when all of them are built, if no two of them are in one
file. -/
theorem holds (h : config.Builds world targets left reports) (htool : config.HasFramedTool world)
    (hclosed : world.tree.IsClosed) (hfiles : config.OutputsAt left targets outputs)
    (hdistinct : outputs.Nodup) :
    List.Forall₂ (config.Holds left) targets reports := by
  induction h generalizing outputs with
  | nil => exact .nil
  | @cons world next left target rest asked report reports hrun hrest ih =>
    obtain ⟨-, -, text, place, -, hleaves⟩ := exists_leaves htool hclosed hrun
    obtain ⟨tree, rfl⟩ := hleaves.same
    obtain ⟨⟨last, rfl⟩, -, hgrows⟩ := hrest.grows htool hleaves.closed
    cases hfiles with
    | cons hfile hfiles =>
      obtain ⟨content, runnable, hlook⟩ := hfile
      obtain ⟨rfl, flag, hwritten⟩ := hleaves.look hgrows hlook
      obtain ⟨hnot, hdistinct⟩ := List.nodup_cons.mp hdistinct
      refine .cons ⟨text, hleaves.rendered, ?_⟩ (ih htool hleaves.closed hfiles hdistinct)
      have hkept : last.look world.cwd (config.root.join target.output) =
          .ok (place, .file (Text.encode text) flag) := by
        refine hgrows.look_of_keeps (fun spot entry hspot => ?_) hwritten
        cases hwritten.symm.trans hspot
        exact hrest.elsewhere htool hleaves.closed hfiles hnot (look_eq_ok_iff.mp hwritten).2
      exact readBytes_of_look_file hkept

end Builds

end Config

end ShaderEmbed
