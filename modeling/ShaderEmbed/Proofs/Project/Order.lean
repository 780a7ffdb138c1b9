import ShaderEmbed.Proofs.Project.Repeat
import ShaderEmbed.Proofs.Project.Same

/-!
# The order of the targets

If the outputs of the targets are different places, and nothing that is read is one of them
(`Config.Independent`), it does not matter in which order the targets are built. A run finds its own
output as it was at first, whatever was built before it, and what it leaves there stays, whatever is
built behind it (`Ran`). So a target that is built in two orders has the same shaders, hence the
same text, and it is up to date in both or in none (`Ran.report_eq`, `Ran.get?_eq`). That makes
`buildAll_permuted`.
-/

namespace ShaderEmbed

open FileTree

namespace Config

variable {config : Config} {world left left' : World} {inputs places : Set Place}
  {target : TargetConfig} {targets targets' : List TargetConfig} {report report' : RunReport}
  {reports reports' : List RunReport}

/-- The outputs of two targets are different, once both are built. -/
def OutputsDiffer (config : Config) (left : World) (target other : TargetConfig) : Prop :=
  left.tree.look left.cwd (config.root.join target.output) ≠
    left.tree.look left.cwd (config.root.join other.output)

/-! ## One run among others -/

/-- A target that was built, with the tree before its run and the world behind it. What else was
built before and behind is not written to its output. -/
structure Ran (config : Config) (world : World) (targets : List TargetConfig)
    (left : World) (target : TargetConfig) (report : RunReport) (before : FileTree) (next : World)
    (text : String) (place : Place) : Prop where
  mem : target ∈ targets
  closed : before.IsClosed
  adds : world.tree.AddsFiles before (config.outputsIn left targets)
  grows : before.Grows left.tree
  untouched : world.tree.AddsFiles before {place}ᶜ
  named : report = ⟨target.name, config.root.join target.output, report.written, report.shaders⟩
  resolves : ∃ asked mid,
    config.pipeline.Resolves (world.withTree before) target.stages asked mid report.shaders
  leaves : config.Leaves (world.withTree before) next target report text place
  kept : next.tree.AddsFiles left.tree {place}ᶜ

namespace Ran

variable {before : FileTree} {next : World} {text : String}
  {place spot : Place} {other : TargetConfig}

theorem exists_look (h : config.Ran world targets left target report before next text place) :
    ∃ entry, left.tree.look world.cwd (config.root.join target.output) = .ok (place, entry) :=
  h.leaves.look_later h.kept.grows

/-- A run is a run still when another target is built in front. -/
theorem behind {tree : FileTree}
    (h : config.Ran (world.withTree tree) targets left target report before next text place)
    (hadds : world.tree.AddsFiles tree {spot})
    (hspot : spot ∈ config.outputsIn left (other :: targets)) (hne : spot ≠ place) :
    config.Ran world (other :: targets) left target report before next text place where
  mem := List.mem_cons_of_mem _ h.mem
  closed := h.closed
  adds := (hadds.mono (Set.singleton_subset_iff.mpr hspot)).trans
    (h.adds.mono (outputsIn_mono (List.subset_cons_self other targets)))
  grows := h.grows
  untouched := (hadds.mono (Set.singleton_subset_iff.mpr hne)).trans h.untouched
  named := h.named
  resolves := h.resolves
  leaves := h.leaves
  kept := h.kept

end Ran

theorem Builds.exists_ran (h : config.Builds world targets left reports)
    (htool : config.HasFramedTool world) (hclosed : world.tree.IsClosed)
    (hdistinct : targets.Pairwise (config.OutputsDiffer left)) :
    List.Forall₂ (fun target report => ∃ before next text place,
      config.Ran world targets left target report before next text place) targets reports := by
  induction h with
  | nil => exact .nil
  | @cons world next left target rest asked report reports hrun hrest ih =>
    obtain ⟨asked', mid, text, place, hresolves, hleaves⟩ := exists_leaves htool hclosed hrun
    obtain ⟨tree, rfl⟩ := hleaves.same
    obtain ⟨⟨last, rfl⟩, -, hgrows⟩ := hrest.grows htool hleaves.closed
    obtain ⟨hfirst, hdistinct⟩ := List.pairwise_cons.mp hdistinct
    obtain ⟨entry, hlook⟩ := hleaves.look_later hgrows
    -- what is built behind is not written to this output
    have hothers : config.outputsIn (world.withTree last) rest ⊆ {place}ᶜ := by
      rintro _ ⟨other, hother, entry', hlook'⟩ rfl
      cases (look_eq_ok_iff.mp hlook).2.symm.trans (look_eq_ok_iff.mp hlook').2
      exact hfirst other hother (hlook.trans hlook'.symm)
    refine .cons ⟨world.tree, world.withTree tree, text, place, ?_⟩
      ((ih htool hleaves.closed hdistinct).imp ?_)
    · exact
        { mem := List.mem_cons_self
          closed := hclosed
          adds := (Alike.refl _).addsFiles _
          grows := hleaves.grows.trans hgrows
          untouched := (Alike.refl _).addsFiles _
          named := Pipeline.eq_of_run hrun report.written
          resolves := ⟨asked', mid, hresolves⟩
          leaves := hleaves
          kept := (hrest.adds htool hleaves.closed).mono hothers }
    · rintro other report ⟨before, next, text', place', hran⟩
      have hne : place' ≠ place := hothers ⟨other, hran.mem, hran.exists_look⟩
      exact ⟨before, next, text', place',
        hran.behind hleaves.adds ⟨target, List.mem_cons_self, entry, hlook⟩ hne.symm⟩

namespace Ran

variable {before before' : FileTree} {next next' : World}
  {text text' : String} {place place' : Place}

theorem addsLeft (h : config.Ran world targets left target report before next text place) :
    world.tree.AddsFiles left.tree Set.univ :=
  ((h.adds.mono (Set.subset_univ _)).trans (h.leaves.adds.mono (Set.subset_univ _))).trans
    (h.kept.mono (Set.subset_univ _))

/-- The artifact stays where the run has left it, unless that is a device. -/
theorem held (h : config.Ran world targets left target report before next text place) :
    (∃ runnable, left.tree.get? place = some (.file (Text.encode text) runnable)) ∨
      ∃ kind, left.tree.get? place = some (.device kind) := by
  have hkept {entry : Entry} (hlook : next.tree.look world.cwd (config.root.join target.output) =
      .ok (place, entry)) :
      left.tree.get? place = some entry :=
    h.kept.elsewhere (fun hne => hne rfl) (look_eq_ok_iff.mp hlook).2
  rcases h.leaves.artifact with ⟨runnable, hfile⟩ | ⟨kind, hdevice⟩
  · exact Or.inl ⟨runnable, hkept hfile⟩
  · exact Or.inr ⟨kind, hkept hdevice⟩

/-! ## A run in two orders -/

section Orders

variable (h : config.Ran world targets left target report before next text place)
  (h' : config.Ran world targets' left' target report' before' next' text' place')
include h h'

theorem place_eq : place = place' := by
  obtain ⟨entry, hlook⟩ := h.exists_look
  obtain ⟨entry', hlook'⟩ := h'.exists_look
  exact (h.addsLeft.linksAgree h'.addsLeft).look_eq hlook hlook'

theorem text_eq (hshaders : report.shaders = report'.shaders) : text = text' := by
  have hrendered := h.leaves.rendered
  rw [hshaders] at hrendered
  exact Except.ok.inj (hrendered.symm.trans h'.leaves.rendered)

/-- What is up to date in one order held its text at first, so it is up to date in the other. -/
theorem written_eq_false (hshaders : report.shaders = report'.shaders)
    (hdown : .up ∉ (config.root.join target.output).components)
    (hwritten : report.written = false) : report'.written = false := by
  obtain rfl := h.place_eq h'
  obtain rfl := h.text_eq h' hshaders
  obtain ⟨mid, halike, hemits⟩ := h.leaves.emitted
  obtain ⟨mid', halike', hemits'⟩ := h'.leaves.emitted
  rw [hwritten] at hemits
  have hread := hemits.written_iff.mp rfl
  obtain ⟨hsame, -⟩ := hemits.eq_of_readBytes hread
  obtain ⟨spot, runnable, hlook⟩ :=
    exists_look_of_readBytes hread (Text.encode_ne_nil (ne_empty_of_render h.leaves.rendered))
  obtain ⟨found, hfound⟩ := h.leaves.exists_look
  rw [hsame] at hfound
  cases hlook.symm.trans hfound
  -- what the run found was there at first, and the other run found it, too
  have hfirst : world.tree.get? place = some (.file (Text.encode text) runnable) := by
    refine h.untouched.was ?_ (by simp) fun hne => absurd rfl hne
    exact (halike place).symm.trans (look_eq_ok_iff.mp hlook).2
  have hheld : mid'.get? place = some (.file (Text.encode text) runnable) :=
    (halike' place).trans (h'.untouched.elsewhere (fun hne => hne rfl) hfirst)
  obtain ⟨found', hfound'⟩ := h'.leaves.exists_look
  exact hemits'.eq_false_of_held (halike'.isClosed h'.closed) hdown hfound' hheld

theorem report_eq (hshaders : report.shaders = report'.shaders)
    (hdown : .up ∉ (config.root.join target.output).components) : report = report' := by
  have hwritten : report.written = report'.written := by
    cases hone : report.written with
    | false => rw [h.written_eq_false h' hshaders hdown hone]
    | true =>
      cases hother : report'.written with
      | false =>
        have hkept := h'.written_eq_false h hshaders.symm hdown hother
        exact absurd (hkept.symm.trans hone) (by decide)
      | true => rfl
  rw [h.named, h'.named, hshaders, hwritten]

theorem get?_eq (hshaders : report.shaders = report'.shaders) :
    left'.tree.get? place = left.tree.get? place := by
  obtain rfl := h.place_eq h'
  obtain rfl := h.text_eq h' hshaders
  -- no device is made, so one that is there in one order is there in the other
  have hdevice {one other : FileTree} {kind : Device} (hone : world.tree.AddsFiles one Set.univ)
      (hother : world.tree.AddsFiles other Set.univ)
        (hentry : one.get? place = some (.device kind)) :
      other.get? place = some (.device kind) := by
    obtain ⟨now, hnow, hfits⟩ := hother.grows place _ (hone.was hentry (by simp) (by simp))
    cases hfits
    exact hnow
  rcases h.held with ⟨runnable, hfile⟩ | ⟨kind, hentry⟩
  · rcases h'.held with ⟨runnable', hfile'⟩ | ⟨kind, hentry'⟩
    · rw [hfile, hfile', h.addsLeft.runnable_eq h'.addsLeft hfile hfile']
    · cases hfile.symm.trans (hdevice h'.addsLeft h.addsLeft hentry')
  · rw [hentry, hdevice h.addsLeft h'.addsLeft hentry]

end Orders

theorem midway (h : config.Ran world targets left target report before next text place)
    (hsub : config.outputsIn left targets ⊆ places)
    (hinputs : ∀ spot ∈ inputs, spot ∉ places ∧
      (world.tree.get? spot = none → left.tree.get? spot = none ∧
        ∀ n : Scratch.Name, n.text ∉ spot)) :
    Midway world.tree places inputs before where
  closed := h.closed
  adds := h.adds.mono hsub
  supplies :=
    { same := by
        intro spot hspot
        obtain ⟨hnot, habsent⟩ := hinputs spot hspot
        cases hentry : world.tree.get? spot with
        | some entry => exact (h.adds.mono hsub).elsewhere hnot hentry
        | none =>
          by_contra hsome
          obtain ⟨entry, hthere⟩ := Option.ne_none_iff_exists'.mp hsome
          obtain ⟨now, hnow, -⟩ := h.grows spot entry hthere
          cases (habsent hentry).1.symm.trans hnow
      apart := fun spot hspot hnone => ((hinputs spot hspot).2 hnone).2 }

end Ran

/-! ## Two orders -/

/-- The targets do not get in each other's way, in a build that is done in two orders. -/
structure Independent (config : Config) (world left left' : World) (inputs : Set Place)
    (reports : List RunReport) :
    Prop where
  /-- The outputs of the targets are different, -/
  distinct : config.targets.Pairwise (config.OutputsDiffer left)
  /-- their paths do not lead up, -/
  down : ∀ target ∈ config.targets, .up ∉ (config.root.join target.output).components
  /-- none of them is a fragment, or an entry that is compiled, -/
  sources : ∀ report ∈ reports, ∀ shader ∈ report.shaders,
    config.SparesSources world (config.outputsIn left config.targets) shader
  /-- and none of them is another input of the tool. What the tool misses is not made either. -/
  inputs : ∀ place ∈ inputs, place ∉ config.outputsIn left config.targets ∧
    (world.tree.get? place = none →
      left.tree.get? place = none ∧ left'.tree.get? place = none ∧
        ∀ n : Scratch.Name, n.text ∉ place)

theorem Independent.shaders_eq {before before' : FileTree}
    {next next' : World} {text text' : String} {place place' : Place}
    (hindependent : config.Independent world left left' inputs reports)
    (htool : config.HasDeterministicTool world inputs)
    (hplaces : config.outputsIn left' targets ⊆ config.outputsIn left config.targets)
    (hreport : report ∈ reports)
    (h : config.Ran world config.targets left target report before next text place)
    (h' : config.Ran world targets left' target report' before' next' text' place') :
    report.shaders = report'.shaders := by
  have hmidway := h.midway subset_rfl fun spot hspot =>
    ⟨(hindependent.inputs spot hspot).1,
      fun hnone => ((hindependent.inputs spot hspot).2 hnone).imp_right And.right⟩
  have hmidway' := h'.midway hplaces fun spot hspot =>
    ⟨(hindependent.inputs spot hspot).1, fun hnone => ((hindependent.inputs spot hspot).2 hnone).2⟩
  obtain ⟨asked, mid, hall⟩ := h.resolves
  obtain ⟨asked', mid', hall'⟩ := h'.resolves
  exact resolves_same htool hmidway hmidway' (hindependent.sources report hreport) hall hall'

theorem Builds.exists_look (h : config.Builds world targets left reports)
    (htool : config.HasFramedTool world) (hclosed : world.tree.IsClosed) :
    ∀ target ∈ targets, ∃ place entry,
      left.tree.look left.cwd (config.root.join target.output) = .ok (place, entry) := by
  induction h with
  | nil => simp
  | cons hrun hrest ih =>
    obtain ⟨-, -, text, place, -, hleaves⟩ := exists_leaves htool hclosed hrun
    obtain ⟨tree, rfl⟩ := hleaves.same
    obtain ⟨⟨last, rfl⟩, -, hgrows⟩ := hrest.grows htool hleaves.closed
    exact List.forall_mem_cons.mpr ⟨⟨place, hleaves.look_later hgrows⟩, ih htool hleaves.closed⟩

/-- Targets that are run in the same way, whatever other targets there are. -/
theorem Builds.reordered
    (h : Builds { config with targets := targets' } world targets left reports) :
    config.Builds world targets left reports := by
  induction h with
  | nil => exact .nil
  | cons hrun _ ih => exact .cons hrun ih

theorem outputsIn_subset (hagree : left.tree.LinksAgree left'.tree) (hcwd : left'.cwd = left.cwd)
    (hfound : ∀ target ∈ targets, ∃ place entry,
      left.tree.look left.cwd (config.root.join target.output) = .ok (place, entry))
        (hsub : targets' ⊆ targets) :
    config.outputsIn left' targets' ⊆ config.outputsIn left targets := by
  rintro place ⟨target, htarget, entry', hlook'⟩
  obtain ⟨spot, entry, hlook⟩ := hfound target (hsub htarget)
  rw [hcwd] at hlook'
  obtain rfl := hagree.look_eq hlook hlook'
  exact ⟨target, hsub htarget, entry, hlook⟩

/-- The outputs of targets that were built in another order as well are different in that order,
too. -/
theorem OutputsDiffer.of_linksAgree {other : TargetConfig}
    (h : config.OutputsDiffer left target other) (hagree : left.tree.LinksAgree left'.tree)
    (hcwd : left'.cwd = left.cwd)
    (hfound : ∃ place entry, left.tree.look left.cwd (config.root.join target.output) =
      .ok (place, entry))
    (hfound' : ∃ place entry, left.tree.look left.cwd (config.root.join other.output) =
      .ok (place, entry))
    (hbuilt : ∃ place entry, left'.tree.look left'.cwd (config.root.join target.output) =
      .ok (place, entry)) :
    config.OutputsDiffer left' target other := by
  obtain ⟨place, entry, hlook⟩ := hfound
  obtain ⟨spot, entry', hlook'⟩ := hfound'
  obtain ⟨found, now, hnow⟩ := hbuilt
  intro heq
  rw [hcwd] at hnow heq
  obtain rfl := hagree.look_eq hlook hnow
  obtain rfl := hagree.look_eq hlook' (heq.symm.trans hnow)
  cases (look_eq_ok_iff.mp hlook).2.symm.trans (look_eq_ok_iff.mp hlook').2
  exact h (hlook.trans hlook'.symm)

section Lists

variable {α β : Type} {R R' : α → β → Prop} {xs xs' : List α} {ys ys' : List β}

theorem exists_of_forall₂ (h : List.Forall₂ R xs ys) {x : α} (hx : x ∈ xs) : ∃ y ∈ ys, R x y := by
  induction h with
  | nil => cases hx
  | cons hhere _ ih =>
    rcases List.mem_cons.mp hx with rfl | hx
    · exact ⟨_, List.mem_cons_self, hhere⟩
    · obtain ⟨y, hy, hrel⟩ := ih hx
      exact ⟨y, List.mem_cons_of_mem _ hy, hrel⟩

/-- If two lists go with the elements of one, in two orders of these, and whatever goes with an
element is the same in both orders, it depends on the element only. -/
theorem exists_map_of_forall₂ [Nonempty β] (hperm : xs.Perm xs') (h : List.Forall₂ R xs ys)
    (h' : List.Forall₂ R' xs' ys') (hsame : ∀ x, ∀ y ∈ ys, ∀ y', R x y → R' x y' → y = y') :
    ∃ f : α → β, ys = xs.map f ∧ ys' = xs'.map f := by
  have hf {x : α} (hx : x ∈ xs') : R' x (Classical.epsilon (R' x)) := by
    obtain ⟨y', -, hrel⟩ := exists_of_forall₂ h' hx
    exact Classical.epsilon_spec ⟨y', hrel⟩
  refine ⟨fun x => Classical.epsilon (R' x), ?_, ?_⟩ <;>
    rw [eq_comm, ← List.forall₂_eq_eq_eq, List.forall₂_map_left_iff, List.forall₂_iff_zip]
  · refine ⟨h.length_eq, fun {x y} hmem => ?_⟩
    obtain ⟨hx, hy⟩ := List.of_mem_zip hmem
    exact (hsame x y hy _ ((List.forall₂_iff_zip.mp h).2 hmem) (hf (hperm.mem_iff.mp hx))).symm
  · refine ⟨h'.length_eq, fun {x y'} hmem => ?_⟩
    obtain ⟨hx, -⟩ := List.of_mem_zip hmem
    obtain ⟨y, hy, hrel⟩ := exists_of_forall₂ h (hperm.mem_iff.mpr hx)
    rw [← hsame x y hy y' hrel ((List.forall₂_iff_zip.mp h').2 hmem)]
    exact (hsame x y hy _ hrel (hf hx)).symm

end Lists

/-- If all targets of an accepted configuration are built in two orders, and do not get in each
other's way, each target has the same report in both, and the same files are left. -/
theorem buildAll_permuted {events events' : List Event} (hvalid : config.validate = .ok ())
    (hclosed : world.tree.IsClosed) (htool : config.HasDeterministicTool world inputs)
    (hperm : config.targets.Perm targets)
    (hbuild : config.buildAll world = ⟨events, left, .ok reports⟩)
    (hbuild' : { config with targets := targets }.buildAll world = ⟨events', left', .ok reports'⟩)
    (hindependent : config.Independent world left left' inputs reports) :
    (∃ report : TargetConfig → RunReport, reports = config.targets.map report ∧
      reports' = targets.map report) ∧
      left.tree.SameFiles left'.tree := by
  have hnames : config.targetNames.Nodup := (valid_of_validate hvalid).2
  have hnames' : ({ config with targets := targets } : Config).targetNames.Nodup :=
    (hperm.map TargetConfig.name).nodup_iff.mp hnames
  have hbuilds : config.Builds world config.targets left reports :=
    builds_of_buildEach (fun target => target_eq_of_nodup hnames) ⟨events, hbuild, rfl⟩
  have hbuilds' : config.Builds world targets left' reports' :=
    (builds_of_buildEach (fun target => target_eq_of_nodup hnames')
      ⟨events', hbuild', rfl⟩).reordered
  have hframed : config.HasFramedTool world := htool.writesOutputOnly
  have hadds := hbuilds.adds hframed hclosed
  have hadds' := hbuilds'.adds hframed hclosed
  have hfound := hbuilds.exists_look hframed hclosed
  have hfound' := hbuilds'.exists_look hframed hclosed
  have hagree := hadds.linksAgree hadds'
  obtain ⟨⟨last, rfl⟩, -, -⟩ := hbuilds.grows hframed hclosed
  obtain ⟨⟨last', rfl⟩, -, -⟩ := hbuilds'.grows hframed hclosed
  have hplaces := outputsIn_subset hagree rfl hfound hperm.symm.subset
  have hdistinct : config.targets.Pairwise (config.OutputsDiffer (world.withTree last')) :=
    hindependent.distinct.imp_of_mem fun hone hother hdiffer =>
      hdiffer.of_linksAgree hagree rfl (hfound _ hone)
      (hfound _ hother) (hfound' _ (hperm.mem_iff.mp hone))
  have hdistinct' : targets.Pairwise (config.OutputsDiffer (world.withTree last')) :=
    (hperm.pairwise_iff fun hdiffer => Ne.symm hdiffer).mp hdistinct
  have hran := hbuilds.exists_ran hframed hclosed hindependent.distinct
  have hran' := hbuilds'.exists_ran hframed hclosed hdistinct'
  have : Nonempty RunReport := ⟨⟨"", .empty, false, []⟩⟩
  refine ⟨exists_map_of_forall₂ hperm hran hran' ?_, fun place content runnable => ?_⟩
  · rintro target report hreport report' ⟨before, next, text, place, h⟩
      ⟨before', next', text', place', h'⟩
    have hshaders := hindependent.shaders_eq htool hplaces hreport h h'
    exact h.report_eq h' hshaders (hindependent.down target h.mem)
  · by_cases hplace : place ∈ config.outputsIn (world.withTree last) config.targets
    · obtain ⟨target, htarget, entry, hlook⟩ := hplace
      obtain ⟨report, hreport, before, next, text, spot, h⟩ := exists_of_forall₂ hran htarget
      obtain ⟨report', -, before', next', text', spot', h'⟩ :=
        exists_of_forall₂ hran' (hperm.mem_iff.mp htarget)
      obtain ⟨found, hfound⟩ := h.exists_look
      cases hlook.symm.trans hfound
      rw [h.get?_eq h' (hindependent.shaders_eq htool hplaces hreport h h')]
    · rw [hadds.file_iff hplace, hadds'.file_iff fun hmem => hplace (hplaces hmem)]

/-! ## Examples -/

section Examples

theorem buildAll_permuted_pair :
    let config := pairConfig .textMulti .binaryBlob "one.cpp" "two.cpp"
    let targets := [plainTarget .binaryBlob "b" "two.cpp", plainTarget .textMulti "a" "one.cpp"]
    config.validate = .ok () ∧ plainWorld.tree.IsClosed ∧ config.HasDeterministicTool plainWorld ∅ ∧
      config.targets.Perm targets ∧
        ∃ events events' left left' reports reports', config.buildAll plainWorld =
          ⟨events, left, .ok reports⟩ ∧
          { config with targets := targets }.buildAll plainWorld = ⟨events', left', .ok reports'⟩ ∧
          config.Independent plainWorld left left' ∅ reports ∧
          (∃ report : TargetConfig → RunReport, reports = config.targets.map report ∧
            reports' = targets.map report) ∧
            left.tree.SameFiles left'.tree := by
  intro config targets
  have hvalid : config.validate = .ok () := by decide +kernel
  have hvalid' : (plainConfig targets).validate = .ok () := by decide +kernel
  have htool : config.HasDeterministicTool plainWorld ∅ :=
    ExternalTool.isDeterministic_copying rfl _ _
  have hperm : config.targets.Perm targets := List.Perm.swap _ _ _
  have hone : "one.cpp" ∈ plainOutputs := by decide
  have htwo : "two.cpp" ∈ plainOutputs := by decide
  obtain ⟨text, hrender⟩ := exists_render_plain .textMulti (Or.inl rfl) "one.cpp"
  obtain ⟨text', hrender'⟩ := exists_render_plain .binaryBlob (Or.inr rfl) "two.cpp"
  obtain ⟨events, left, reports, hbuild, hplain, hreports, hsecond, hfirst⟩ :=
    exists_buildAll_pair rfl hvalid hone htwo hrender hrender' fun heq => absurd heq (by decide)
  obtain ⟨events', left', reports', hbuild', -⟩ :=
    exists_buildAll_pair rfl hvalid' htwo hone hrender' hrender fun heq => absurd heq (by decide)
  have hone' := hplain.look_output hone (hfirst (by decide))
  have htwo' := hplain.look_output htwo hsecond
  have hdown : ∀ output ∈ plainOutputs,
      .up ∉ (Path.empty.join ⟨output⟩).components := by decide +kernel
  have hindependent : config.Independent plainWorld left left' ∅ reports :=
    { distinct := by
        refine List.pairwise_pair.mpr fun heq => ?_
        exact absurd (Prod.mk.inj (Except.ok.inj (hone'.symm.trans (heq.trans htwo')))).1
          (by decide)
      down := by
        intro target htarget
        rcases List.mem_pair.mp htarget with rfl | rfl
        · exact hdown _ hone
        · exact hdown _ htwo
      sources := by
        intro report hreport shader hshader
        refine sparesSources_of_look ((Alike.refl _).addsFiles _) fun source hsource => ?_
        obtain rfl := source_eq_of_pair hreports report hreport shader hshader source hsource
        rw [show config.shaderRoot.join ⟨"a.glsl"⟩ = ⟨"a.glsl"⟩ from shaderRoot_plainConfig _]
        refine ⟨_, _, isPlain_plainWorld.look, ?_⟩
        rintro ⟨target, htarget, entry, hlook⟩
        rcases List.mem_pair.mp htarget with rfl | rfl
        · exact absurd (Prod.mk.inj (Except.ok.inj (hone'.symm.trans hlook))).1 (by decide)
        · exact absurd (Prod.mk.inj (Except.ok.inj (htwo'.symm.trans hlook))).1 (by decide)
      inputs := by simp }
  exact ⟨hvalid, isPlain_plainWorld.closed, htool, hperm, events, events', left, left', reports,
    reports', hbuild, hbuild', hindependent,
      buildAll_permuted hvalid isPlain_plainWorld.closed htool hperm hbuild hbuild' hindependent⟩

end Examples

end Config

end ShaderEmbed
