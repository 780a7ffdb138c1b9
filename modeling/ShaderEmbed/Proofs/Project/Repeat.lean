import ShaderEmbed.Proofs.Project.Builds

/-!
# Building twice

If the outputs of a build are different files, and no target reads one of them (`Config.Separate`),
every run of a second build finds what it found before and has nothing to write (`Builds.again`).
With what the first build leaves that makes `buildAll_again`. A configuration is accepted whatever
its outputs are; where two targets have one output, the artifact of one of them is lost
(`buildAll_shared_output`).
-/

namespace ShaderEmbed

open FileTree

namespace Config

variable {config : Config} {world next left : World} {inputs : Set Place} {target : TargetConfig}
  {targets : List TargetConfig} {report : RunReport} {reports : List RunReport}

/-- A build whose outputs are different files that it reads nowhere, in a world where it can be
repeated. -/
structure Separate (config : Config) (world left : World) (inputs : Set Place)
    (targets : List TargetConfig) (reports : List RunReport) (outputs : List Place) : Prop where
  /-- The outputs are files, -/
  files : config.OutputsAt left targets outputs
  /-- no two targets share one, -/
  distinct : outputs.Nodup
  /-- and none of them is a fragment of a shader. -/
  sources : ∀ report ∈ reports, ∀ shader ∈ report.shaders, ∀ source ∈ shader.sources, ∀ place entry,
    left.tree.look left.cwd (config.shaderRoot.join source) = .ok (place, entry) → place ∉ outputs
  /-- The inputs of the tool are no outputs, nor directories that the build makes, and not in
  scratch directories. -/
  inputs : ∀ place ∈ inputs, place ∉ outputs ∧
    (world.tree.get? place = none → left.tree.get? place = none) ∧
    ∀ n : Scratch.Name, n.text ∉ place
  /-- What is compiled where it lies is there. -/
  entries : ∀ target ∈ targets, ∀ stage ∈ target.stages, config.HasEntry world stage
  /-- There is room for scratch directories. -/
  room : Scratch.HasRoom world.tools left.tree

section Again

variable {rest : List TargetConfig} {place : Place} {outputs : List Place} {now : World}

theorem Separate.tail
    (h : config.Separate world left inputs (target :: rest) (report :: reports) outputs)
    (hsame : ∃ tree, next = world.withTree tree) (hgrows : world.tree.Grows next.tree) :
    ∃ others, config.Separate next left inputs rest reports others := by
  obtain ⟨tree, rfl⟩ := hsame
  obtain ⟨place, others, -, hfiles, rfl⟩ := List.forall₂_cons_left_iff.mp h.files
  refine ⟨others, hfiles, h.distinct.of_cons,
    fun other hother shader hshader source hsource spot entry hlook hspot => ?_,
    fun spot hspot => ?_, fun other hother stage hstage => ?_, h.room⟩
  · exact h.sources other
      (List.mem_cons_of_mem _ hother) shader hshader source hsource spot entry hlook
      (List.mem_cons_of_mem _ hspot)
  · obtain ⟨hnot, habsent, hapart⟩ := h.inputs spot hspot
    refine ⟨fun hmem => hnot (List.mem_cons_of_mem _ hmem),
      fun hnone => habsent (Option.eq_none_iff_forall_ne_some.mpr ?_), hapart⟩
    intro entry hentry
    obtain ⟨found, hfound, -⟩ := hgrows spot entry hentry
    cases hnone.symm.trans hfound
  · exact (h.entries other (List.mem_cons_of_mem _ hother) stage hstage).grows hgrows

theorem Builds.offersAgain (h : config.Builds world targets left reports)
    (htool : config.HasDeterministicTool world inputs) (hclosed : world.tree.IsClosed)
    (hseparate : config.Separate world left inputs targets reports outputs) :
    config.OffersAgain world inputs left.tree := by
  obtain ⟨⟨last, rfl⟩, hlast, hgrows⟩ := h.grows htool.writesOutputOnly hclosed
  refine ⟨htool, hclosed, hlast, hgrows, fun spot hspot => ?_,
    fun spot hspot => (hseparate.inputs spot hspot).2.2, hseparate.room⟩
  obtain ⟨hnot, habsent, -⟩ := hseparate.inputs spot hspot
  cases hentry : world.tree.get? spot with
  | none => exact habsent hentry
  | some entry => exact h.elsewhere htool.writesOutputOnly hclosed hseparate.files hnot hentry

theorem Builds.keepsSources (h : config.Builds world targets left reports)
    (htool : config.HasDeterministicTool world inputs) (hclosed : world.tree.IsClosed)
    (hseparate : config.Separate world left inputs targets reports outputs)
    (hreport : report ∈ reports) :
    ∀ shader ∈ report.shaders, config.KeepsSources world left.tree shader := by
  obtain ⟨⟨last, rfl⟩, -, hgrows⟩ := h.grows htool.writesOutputOnly hclosed
  intro shader hshader source hsource spot entry hlook
  obtain ⟨found, hfound, -⟩ := hgrows.look hlook
  have hspot := hseparate.sources report hreport shader hshader source hsource spot found hfound
  exact h.elsewhere htool.writesOutputOnly hclosed hseparate.files hspot (look_eq_ok_iff.mp hlook).2

/-- What is up to date is not written again. -/
theorem goes_emission_of_holds (hclosed : world.tree.IsClosed)
    (h : config.Holds world target report) :
    (config.pipeline.emission (target.toSpec config.root) report.shaders).Goes world
      [] world (.ok false) := by
  obtain ⟨text, hrender, hread⟩ := h
  exact goes_emit_kept hclosed hrender hread

/-- A build can be repeated: in what it has left, every target has the same shaders, and its
artifact is up to date. -/
theorem Builds.again (h : config.Builds world targets left reports)
    (htool : config.HasDeterministicTool world inputs) (hclosed : world.tree.IsClosed)
    (hseparate : config.Separate world left inputs targets reports outputs)
    (halike : left.Alike now) :
    ∃ last, config.Builds now targets last
      (reports.map fun report => { report with written := false }) ∧
      left.Alike last := by
  induction h generalizing outputs now with
  | nil => exact ⟨now, .nil, halike⟩
  | @cons world next left target rest asked report reports hrun hrest ih =>
    have hall : config.Builds world (target :: rest) left (report :: reports) := .cons hrun hrest
    have hoffers := hall.offersAgain htool hclosed hseparate
    have hkeeps := hall.keepsSources htool hclosed hseparate List.mem_cons_self
    obtain ⟨hholds, -⟩ :=
      List.forall₂_cons.mp (hall.holds htool.writesOutputOnly hclosed
        hseparate.files hseparate.distinct)
    obtain ⟨⟨final, rfl⟩, -, -⟩ := hall.grows htool.writesOutputOnly hclosed
    obtain ⟨asked', mid, text, place, hresolves, hleaves⟩ :=
      exists_leaves htool.writesOutputOnly hclosed hrun
    obtain ⟨tree, halike, rfl⟩ := halike
    -- its stages are resolved again,
    obtain ⟨again, mid', hagain, hmid⟩ :=
      resolves_again (hoffers.alike (.refl world) halike) hresolves
      (fun shader hshader => (hkeeps shader hshader).alike (.refl world) halike)
      fun stage hstage => hseparate.entries target List.mem_cons_self stage hstage
    have hlast := World.Alike.trans (⟨tree, halike, rfl⟩ : (world.withTree final).Alike _) hmid
    -- and its artifact is up to date
    have hemit := goes_emission_of_holds (hlast.isClosed hoffers.closedLater) (hholds.alike hlast)
    have hrun' := Pipeline.run_of_emission hagain hemit
    rw [← Pipeline.eq_of_run hrun false] at hrun'
    obtain ⟨others, hothers⟩ := hseparate.tail hleaves.same hleaves.grows
    obtain ⟨tree, rfl⟩ := hleaves.same
    obtain ⟨last, hrest', hdone⟩ := ih htool hleaves.closed hothers hlast
    exact ⟨last, .cons hrun' hrest', hdone⟩

end Again

/-- If a build of all targets of an accepted configuration leaves the artifacts in different files
that it reads nowhere, then every artifact is there when it is over, and a second build writes
nothing and leaves every place as it is. -/
theorem buildAll_again {outputs : List Place} {events : List Event}
    (hvalid : config.validate = .ok ()) (hclosed : world.tree.IsClosed)
    (htool : config.HasDeterministicTool world inputs)
    (hbuild : config.buildAll world = ⟨events, left, .ok reports⟩)
    (hseparate : config.Separate world left inputs config.targets reports outputs) :
    List.Forall₂ (config.Holds left) config.targets reports ∧
      ∃ events last, left.Alike last ∧
        config.buildAll left =
          ⟨events, last, .ok (reports.map fun report => { report with written := false })⟩ := by
  have htargets : ∀ target ∈ config.targets, config.target target.name = .ok target :=
    fun target => target_eq_of_nodup (valid_of_validate hvalid).2
  have hbuilds : config.Builds world config.targets left reports :=
    builds_of_buildEach htargets ⟨events, hbuild, rfl⟩
  obtain ⟨last, hagain, halike⟩ := hbuilds.again htool hclosed hseparate (.refl left)
  obtain ⟨-, events', hdone, -⟩ := hagain.goes_buildEach htargets
  exact ⟨hbuilds.holds htool.writesOutputOnly hclosed hseparate.files hseparate.distinct,
    events', last, halike, hdone⟩

/-! ## Examples -/

section Examples

open Pipeline (plainText)

/-- A world whose working directory holds a fragment, with tools that copy. -/
def plainWorld : World where
  tree := FileTree.empty.put ["a.glsl"] (.file (Text.encode plainText))
  cwd := []
  temporary := ⟨"/"⟩
  tools := ExternalTool.copying
  chosenConfig := none

def plainTarget (mode : TargetMode) (name output : String) : TargetConfig :=
  ⟨name, ⟨output⟩, mode, none, none, [⟨name, ⟨"a.glsl"⟩, mode.contentKind⟩]⟩

/-- A configuration whose root is the working directory. -/
def plainConfig (targets : List TargetConfig) : Config :=
  ⟨⟨.empty, standardMarker⟩, .standard, ⟨⟨"cp"⟩, [], false, none⟩, targets, .empty⟩

theorem shaderRoot_plainConfig (targets : List TargetConfig) :
    (plainConfig targets).shaderRoot.join ⟨"a.glsl"⟩ = ⟨"a.glsl"⟩ := by
  show (Path.empty.join .empty).join ⟨"a.glsl"⟩ = _
  decide +kernel

def plainOutputs : List String := ["one.cpp", "two.cpp"]

theorem plainOutputs_spec :
    ∀ output ∈ plainOutputs, IsFileName output ∧ output ≠ "a.glsl" ∧ output.utf8ByteSize ≠ 16 ∧
    (Path.mk output).parent = some .empty ∧ Path.empty.join ⟨output⟩ = ⟨output⟩ ∧
      processes.isPrefixOf [output] = false := by
  decide +kernel

/-- What a stage of the fragment yields: its text, or its bytes as they are. -/
def plainShader (mode : TargetMode) (name : String) : ResolvedShader :=
  let content : ShaderContent := match mode.contentKind with
    | .text => .text plainText
    | .binary => .binary (Text.encode plainText)
  ⟨name, content, [⟨"a.glsl"⟩]⟩

/-- The fragment is rendered in every mode. -/
theorem exists_render_plain (mode : TargetMode) {name : String} (hname : name = "a" ∨ name = "b")
    (output : String) :
    ∃ text, render .standard (plainTarget mode name output).embeddingMode
      [(plainShader mode name).toSection] = .ok text := by
  have hsome : (render .standard (plainTarget mode name "one.cpp").embeddingMode
      [(plainShader mode name).toSection]).toOption.isSome := by
    rcases hname with rfl | rfl <;> cases mode <;> decide +kernel
  exact Pipeline.exists_of_isSome hsome

/-- A world that has been built in: the fragment is there, and no scratch directory is left. -/
structure IsPlain (world : World) : Prop where
  same : ∃ tree, world = plainWorld.withTree tree
  closed : world.tree.IsClosed
  fragment : world.tree.get? ["a.glsl"] = some (.file (Text.encode plainText))
  free : ∀ (above : Place) (n : Scratch.Name), world.tree.get? (above ++ [n.text]) = none

theorem ne_of_not_scratch {file : String} (h : file.utf8ByteSize ≠ 16)
    {above : Place} {n : Scratch.Name} :
    above ++ [n.text] ≠ [file] := by
  intro heq
  have hlast : some n.text = some file := by simpa using congrArg List.getLast? heq
  exact h (Option.some.inj hlast ▸ n.utf8ByteSize_text)

theorem isPlain_plainWorld : IsPlain plainWorld where
  same := ⟨_, rfl⟩
  closed := isClosed_empty.put rfl (by decide)
  fragment := rfl
  free above n := by
    rw [plainWorld, get?_put_of_ne _ _ (ne_of_not_scratch (by decide)),
      empty, get?, if_neg (by simp)]
    rfl

namespace IsPlain

variable {world next : World} (h : IsPlain world)
include h

theorem cwd_eq : world.cwd = [] := by
  obtain ⟨tree, rfl⟩ := h.same
  rfl

theorem find_eq {name : String} (hname : IsFileName name)
    (hlink : ∀ target, world.tree.get? [name] ≠ some (.link target))
    (ending : FileTree.Ending) : world.tree.find ending world.cwd ⟨name⟩ = .ok [name] := by
  rw [h.cwd_eq]
  exact hname.find_eq rfl hlink

theorem look_eq {name : String} (hname : IsFileName name) {content : Bytes}
    (hentry : world.tree.get? [name] = some (.file content)) :
    world.tree.look world.cwd ⟨name⟩ = .ok ([name], .file content) :=
  look_eq_ok_iff.mpr ⟨h.find_eq hname (by simp [hentry]) .pass, hentry⟩

theorem look :
    world.tree.look world.cwd ⟨"a.glsl"⟩ = .ok (["a.glsl"], .file (Text.encode plainText)) :=
  h.look_eq (by decide +kernel) h.fragment

theorem canonical : world.tree.canonical world.cwd ⟨"a.glsl"⟩ = .ok ["a.glsl"] := by
  obtain ⟨tree, rfl⟩ := h.same
  have hname : IsFileName "a.glsl" := by decide +kernel
  exact hname.canonical_eq rfl h.fragment (by simp) (show pathSize ["a.glsl"] ≤ pathLimit by decide)

theorem flatten (targets : List TargetConfig) :
    (((plainConfig targets).pipeline.source world).flatten standardMarker ⟨"a.glsl"⟩).result =
      .ok ⟨plainText, [⟨"a.glsl"⟩]⟩ := by
  have hidentity : ((plainConfig targets).pipeline.source world).identity ⟨"a.glsl"⟩ =
      .ok (Path.ofPlace ["a.glsl"]).components := by
    simp only [Config.pipeline, FragmentSource.ofDirectory, shaderRoot_plainConfig, h.canonical,
      Except.map, Except.mapError]
  have hread : ((plainConfig targets).pipeline.source world).read ⟨"a.glsl"⟩ = .ok plainText := by
    simp only [Config.pipeline, FragmentSource.ofDirectory, shaderRoot_plainConfig, readText,
      readBytes_of_look_file h.look, Text.decode_encode, Except.mapError]
  exact Pipeline.flatten_of_plain hidentity hread

theorem compile (targets : List TargetConfig) : ∃ next,
    ((plainConfig targets).externalTool.compiler.compile ⟨"a.glsl"⟩).Goes world [] next
      (.ok (Text.encode plainText)) ∧
      world.Alike next := by
  obtain ⟨tree, rfl⟩ := h.same
  have hchosen : Scratch.parent (plainWorld.withTree tree)
      (plainConfig targets).externalTool.scratch = .ok ⟨"/"⟩ := rfl
  obtain ⟨n, hopened, hmake⟩ := (Scratch.parent_root _).make h.closed
    (Scratch.drawsFree_of_counted rfl) ⟨Scratch.numbered 0, h.free [] _⟩ hchosen
  have hbelow : Component.IsName "a.bin" := by decide +kernel
  obtain ⟨later, hwrite⟩ : ∃ later,
      (Scratch.inside (plainWorld.withTree tree) ([] ++ [n.text])).writeBytes
      plainWorld.cwd (((Path.mk "/").child n.text).child "a.bin")
        (Text.encode plainText) = .ok later :=
    ⟨_, (hopened.writeBytes_eq_ok_iff h.closed hbelow).mpr
      ⟨⟨Scratch.isSpellable_root_output n, by decide⟩, rfl⟩⟩
  have hread := readBytes_of_look_file (hopened.look_inside h.look)
  have htool : (plainConfig targets).HasDeterministicTool (plainWorld.withTree tree) ∅ :=
    ExternalTool.isDeterministic_copying rfl _ _
  exact htool.writesOutputOnly.goes_compile h.closed hopened hmake hbelow (by decide +kernel)
    ((ExternalTool.launch_copying_eq_ok_iff rfl).mpr ⟨_, _, hread, hwrite, rfl⟩) rfl
    (hopened.readBytes_written h.closed hbelow hwrite)

theorem resolves (targets : List TargetConfig) (mode : TargetMode) (name output : String) :
    ∃ asked next,
      (plainConfig targets).pipeline.Resolves world (plainTarget mode name output).stages asked next
      [plainShader mode name] ∧ world.Alike next := by
  suffices hstage : ∃ asked next,
      (plainConfig targets).pipeline.ResolvedBy world ⟨name, ⟨"a.glsl"⟩, mode.contentKind⟩
      asked next (plainShader mode name) ∧ world.Alike next by
    obtain ⟨asked, next, hresolved, halike⟩ := hstage
    exact ⟨_, next, .cons (Pipeline.goes_resolve_iff.mpr hresolved) .nil, halike⟩
  have htext {kind : StageKind} (hkind : kind = .text) :
      (plainConfig targets).pipeline.ResolvedBy world ⟨name, ⟨"a.glsl"⟩, kind⟩ [] world _ :=
    .text hkind (h.flatten targets)
  cases mode with
  | textMulti | textSingle => exact ⟨_, _, htext rfl, .refl world⟩
  | binaryBlob =>
    obtain ⟨next, hcompile, halike⟩ := h.compile targets
    rw [← shaderRoot_plainConfig targets] at hcompile
    have hdirect : (plainConfig targets).pipeline.ResolvedBy world
        ⟨name, ⟨"a.glsl"⟩, .binary⟩ _ next
        ⟨name, .binary (Text.encode plainText), [⟨"a.glsl"⟩]⟩ := .direct rfl rfl hcompile
    exact ⟨_, _, hdirect, halike⟩

theorem withTree {tree : FileTree} (halike : world.tree.Alike tree) :
    IsPlain (world.withTree tree) where
  same := by
    obtain ⟨tree, rfl⟩ := h.same
    exact ⟨_, rfl⟩
  closed := halike.isClosed h.closed
  fragment := (halike _).trans h.fragment
  free above n := (halike _).trans (h.free above n)

theorem put {output : String} (houtput : output ∈ plainOutputs) {content : Bytes}
    (hold : world.tree.get? [output] ≠ some .directory) :
    IsPlain (world.withTree (world.tree.put [output] (.file content))) := by
  obtain ⟨-, hne, hsize, -⟩ := plainOutputs_spec output houtput
  refine ⟨?_, h.closed.put rfl fun hdirectory => absurd hdirectory hold, ?_, fun above n => ?_⟩
  · obtain ⟨tree, rfl⟩ := h.same
    exact ⟨_, rfl⟩
  · rw [World.tree_withTree, get?_put_of_ne _ _ (by simpa using hne.symm), h.fragment]
  · rw [World.tree_withTree, get?_put_of_ne _ _ (ne_of_not_scratch hsize), h.free]

/-- A target of the fragment is written where its artifact is not there yet. -/
theorem run (targets : List TargetConfig) {mode : TargetMode} {name output text : String}
    (houtput : output ∈ plainOutputs)
    (hrender : render .standard (plainTarget mode name output).embeddingMode
      [(plainShader mode name).toSection] = .ok text)
    (hold : world.tree.get? [output] = none ∨
      ∃ old, world.tree.get? [output] = some (.file (Text.encode old)) ∧ old ≠ text) :
    ∃ asked next,
      ((plainConfig targets).pipeline.run ((plainTarget mode name output).toSpec .empty)).Goes
        world asked next
        (.ok ⟨name, ⟨output⟩, true, [plainShader mode name]⟩) ∧ IsPlain next ∧
      next.tree.get? [output] = some (.file (Text.encode text)) ∧
        ∀ place ≠ [output], next.tree.get? place = world.tree.get? place := by
  obtain ⟨hname, -, -, hparent, hjoin, houtside⟩ := plainOutputs_spec output houtput
  obtain ⟨asked, mid, hresolves, tree, halike, rfl⟩ := h.resolves targets mode name output
  have hmid := h.withTree halike
  rw [← halike [output]] at hold
  have hfind (ending : FileTree.Ending) : tree.find ending world.cwd ⟨output⟩ = .ok [output] :=
    hmid.find_eq hname (by rcases hold with hnone | ⟨old, hfile, -⟩ <;> simp [*]) ending
  have hwrite : tree.writeBytes world.cwd ⟨output⟩ (Text.encode text) =
      .ok (tree.put [output] (.file (Text.encode text))) := by
    rcases hold with hnone | ⟨old, hfile, -⟩
    · simp [writeBytes, hfind, hnone, make, houtside]
    · simp [writeBytes, hfind, hfile]
  have hnot : tree.readBytes world.cwd ⟨output⟩ ≠ .ok (Text.encode text) := by
    intro hread
    rcases hold with hnone | ⟨old, hfile, hne⟩
    · obtain ⟨place, entry, hlook, -⟩ := look_of_readBytes hread
      obtain ⟨hplace, hentry⟩ := look_eq_ok_iff.mp hlook
      cases (hfind .pass).symm.trans hplace
      cases hnone.symm.trans hentry
    · have hcontent := (readBytes_of_look_file (hmid.look_eq hname hfile)).symm.trans hread
      exact hne (Text.encode_injective (Except.ok.inj hcontent))
  have hspec : (plainTarget mode name output).toSpec .empty =
      ⟨name, ⟨output⟩, (plainTarget mode name output).embeddingMode,
        (plainTarget mode name output).stages⟩ := by
    rw [TargetConfig.toSpec]
    exact congrArg (TargetSpec.mk _ · _ _) hjoin
  have hemit : ((plainConfig targets).pipeline.emission
      ⟨name, ⟨output⟩, (plainTarget mode name output).embeddingMode,
        (plainTarget mode name output).stages⟩
      [plainShader mode name]).Goes (world.withTree tree) []
        (world.withTree (tree.put [output] (.file (Text.encode text)))) (.ok true) :=
    goes_emit_written hrender hnot hparent hwrite
  rw [hspec]
  refine ⟨_, _, Pipeline.run_of_emission hresolves hemit, hmid.put houtput ?_,
    get?_put_self _ (by simp), fun place hplace => ?_⟩
  · rcases hold with hnone | ⟨old, hfile, -⟩ <;> simp [*]
  · rw [World.tree_withTree, get?_put_of_ne _ _ hplace, halike place]

end IsPlain

def pairConfig (first second : TargetMode) (one two : String) : Config :=
  plainConfig [plainTarget first "a" one, plainTarget second "b" two]

section Pair

variable {first second : TargetMode} {name name' one two text text' : String} {left : World}
  {reports : List RunReport}

/-- Two targets of the fragment are built one after the other. -/
theorem exists_buildAll_pair {targets : List TargetConfig}
    (htargets : targets = [plainTarget first name one, plainTarget second name' two])
    (hvalid : (plainConfig targets).validate = .ok ()) (hone : one ∈ plainOutputs)
    (htwo : two ∈ plainOutputs)
    (hrender : render .standard (plainTarget first name one).embeddingMode
      [(plainShader first name).toSection] = .ok text)
    (hrender' : render .standard (plainTarget second name' two).embeddingMode
      [(plainShader second name').toSection] = .ok text')
    (hne : one = two → text ≠ text') :
    ∃ events left reports, (plainConfig targets).buildAll plainWorld = ⟨events, left, .ok reports⟩ ∧
      IsPlain left ∧
      reports.map RunReport.shaders = [[plainShader first name], [plainShader second name']] ∧
      left.tree.get? [two] = some (.file (Text.encode text')) ∧
        (one ≠ two → left.tree.get? [one] = some (.file (Text.encode text))) := by
  have hnone (output : String) (h : output ∈ plainOutputs) :
      plainWorld.tree.get? [output] = none := by
    obtain ⟨-, hne, -⟩ := plainOutputs_spec output h
    rw [plainWorld, get?_put_of_ne _ _ (by simpa using hne)]
    rfl
  obtain ⟨asked, mid, hrun, hmid, hartifact, hkept⟩ :=
    isPlain_plainWorld.run targets hone hrender (Or.inl (hnone one hone))
  have hold : mid.tree.get? [two] = none ∨
      ∃ old, mid.tree.get? [two] = some (.file (Text.encode old)) ∧ old ≠ text' := by
    by_cases heq : one = two
    · exact Or.inr ⟨text, heq ▸ hartifact, hne heq⟩
    · exact Or.inl ((hkept _ (by simpa using Ne.symm heq)).trans (hnone two htwo))
  obtain ⟨more, left, hrun', hleft, hartifact', hkept'⟩ := hmid.run targets htwo hrender' hold
  have hbuilds : (plainConfig targets).Builds plainWorld [plainTarget first name one,
      plainTarget second name' two] left
      [⟨name, ⟨one⟩, true, [plainShader first name]⟩,
        ⟨name', ⟨two⟩, true, [plainShader second name']⟩] :=
    .cons hrun (.cons hrun' .nil)
  rw [← htargets] at hbuilds
  obtain ⟨-, events, hbuild, -⟩ :=
    hbuilds.goes_buildEach fun target => target_eq_of_nodup (valid_of_validate hvalid).2
  refine ⟨events, left, _, hbuild, hleft, rfl, hartifact', fun heq => ?_⟩
  rw [hkept' _ (by simpa using heq), hartifact]

theorem source_eq_of_pair
    (hreports : reports.map RunReport.shaders =
      [[plainShader first name], [plainShader second name']]) :
    ∀ report ∈ reports, ∀ shader ∈ report.shaders, ∀ source ∈ shader.sources,
      source = ⟨"a.glsl"⟩ := by
  intro report hreport shader hshader source hsource
  have hmem : report.shaders ∈ reports.map RunReport.shaders := List.mem_map_of_mem hreport
  rw [hreports] at hmem
  rcases List.mem_pair.mp hmem with heq | heq <;>
  · rw [heq] at hshader
    cases List.mem_singleton.mp hshader
    exact List.mem_singleton.mp hsource

theorem IsPlain.place_of_source (h : IsPlain left)
    (hreports : reports.map RunReport.shaders =
      [[plainShader first name], [plainShader second name']]) :
    ∀ report ∈ reports, ∀ shader ∈ report.shaders, ∀ source ∈ shader.sources, ∀ place entry,
      left.tree.look left.cwd ((pairConfig first second one two).shaderRoot.join source) =
        .ok (place, entry) →
        place = ["a.glsl"] := by
  intro report hreport shader hshader source hsource place entry hlook
  obtain rfl := source_eq_of_pair hreports report hreport shader hshader source hsource
  rw [pairConfig, shaderRoot_plainConfig, h.look] at hlook
  cases hlook
  rfl

theorem IsPlain.look_output (h : IsPlain left) {output : String} (houtput : output ∈ plainOutputs)
    {content : Bytes} (hentry : left.tree.get? [output] = some (.file content)) :
    left.tree.look left.cwd (Path.empty.join ⟨output⟩) = .ok ([output], .file content) := by
  obtain ⟨hname, -, -, -, hjoin, -⟩ := plainOutputs_spec output houtput
  rw [hjoin]
  exact h.look_eq hname hentry

theorem hasEntry_pair :
    ∀ target ∈ (pairConfig first second one two).targets, ∀ stage ∈ target.stages,
    (pairConfig first second one two).HasEntry plainWorld stage := by
  intro target htarget stage hstage _ _
  have hentry : stage.entry = ⟨"a.glsl"⟩ := by
    rcases List.mem_pair.mp htarget with rfl | rfl <;>
    · cases List.mem_singleton.mp hstage
      rfl
  rw [hentry, pairConfig, shaderRoot_plainConfig]
  exact ⟨_, _, isPlain_plainWorld.look⟩

end Pair

theorem buildAll_again_pair :
    let config := pairConfig .textMulti .binaryBlob "one.cpp" "two.cpp"
    config.validate = .ok () ∧ plainWorld.tree.IsClosed ∧ config.HasDeterministicTool plainWorld ∅ ∧
      ∃ events left reports, config.buildAll plainWorld = ⟨events, left, .ok reports⟩ ∧
        config.Separate plainWorld left ∅ config.targets reports [["one.cpp"], ["two.cpp"]] ∧
        List.Forall₂ (config.Holds left) config.targets reports ∧
          ∃ events last, left.Alike last ∧
            config.buildAll left =
              ⟨events, last, .ok (reports.map fun report => { report with written := false })⟩ := by
  intro config
  have hvalid : config.validate = .ok () := by decide +kernel
  have htool : config.HasDeterministicTool plainWorld ∅ :=
    ExternalTool.isDeterministic_copying rfl _ _
  have hclosed := isPlain_plainWorld.closed
  have hone : "one.cpp" ∈ plainOutputs := by decide
  have htwo : "two.cpp" ∈ plainOutputs := by decide
  obtain ⟨text, hrender⟩ := exists_render_plain .textMulti (Or.inl rfl) "one.cpp"
  obtain ⟨text', hrender'⟩ := exists_render_plain .binaryBlob (Or.inr rfl) "two.cpp"
  obtain ⟨events, left, reports, hbuild, hplain, hreports, hsecond, hfirst⟩ :=
    exists_buildAll_pair rfl hvalid hone htwo hrender hrender' fun heq => absurd heq (by decide)
  have hone' := hplain.look_output hone (hfirst (by decide))
  have htwo' := hplain.look_output htwo hsecond
  have hseparate : config.Separate plainWorld left ∅ config.targets reports
      [["one.cpp"], ["two.cpp"]] :=
    { files := .cons ⟨_, _, hone'⟩ (.cons ⟨_, _, htwo'⟩ .nil)
      distinct := by decide
      sources := by
        intro report hreport shader hshader source hsource place entry hlook
        rw [hplain.place_of_source hreports report hreport shader hshader source
          hsource place entry hlook]
        decide
      inputs := by simp
      entries := hasEntry_pair
      room :=
        { draws := Scratch.drawsFree_of_counted rfl
          free := fun above => ⟨Scratch.numbered 0, Scratch.numbered 1, by decide,
            hplain.free above _, hplain.free above _⟩ } }
  exact ⟨hvalid, hclosed, htool, events, left, reports, hbuild, hseparate,
    buildAll_again hvalid hclosed htool hbuild hseparate⟩

/-- Where two targets have one output, an accepted configuration is built, and the artifact of the
first target is gone. -/
theorem buildAll_shared_output :
    let config := pairConfig .textMulti .textMulti "one.cpp" "one.cpp"
    config.validate = .ok () ∧ plainWorld.tree.IsClosed ∧ config.HasDeterministicTool plainWorld ∅ ∧
      ∃ events left reports, config.buildAll plainWorld = ⟨events, left, .ok reports⟩ ∧
        config.OutputsAt left config.targets [["one.cpp"], ["one.cpp"]] ∧
        (∀ report ∈ reports, ∀ shader ∈ report.shaders, ∀ source ∈ shader.sources, ∀ place entry,
          left.tree.look left.cwd (config.shaderRoot.join source) = .ok (place, entry) →
            place ≠ ["one.cpp"]) ∧
        ¬ List.Forall₂ (config.Holds left) config.targets reports := by
  intro config
  have hvalid : config.validate = .ok () := by decide +kernel
  have hone : "one.cpp" ∈ plainOutputs := by decide
  obtain ⟨text, hrender⟩ := exists_render_plain .textMulti (Or.inl rfl) "one.cpp"
  obtain ⟨text', hrender'⟩ := exists_render_plain .textMulti (Or.inr rfl) "one.cpp"
  have hne : text ≠ text' := by
    rintro rfl
    have hsame := congrArg Except.toOption (hrender.trans hrender'.symm)
    revert hsame
    decide +kernel
  obtain ⟨events, left, reports, hbuild, hplain, hreports, hsecond, -⟩ :=
    exists_buildAll_pair rfl hvalid hone hone hrender hrender' fun _ => hne
  have hlook := hplain.look_output hone hsecond
  refine ⟨hvalid, isPlain_plainWorld.closed, ExternalTool.isDeterministic_copying rfl _ _,
    events, left, reports, hbuild, .cons ⟨_, _, hlook⟩ (.cons ⟨_, _, hlook⟩ .nil), ?_,
      fun hholds => ?_⟩
  · intro report hreport shader hshader source hsource place entry hfound
    rw [hplain.place_of_source hreports report hreport shader hshader source
      hsource place entry hfound]
    decide
  · obtain ⟨report, others, hhere, -, rfl⟩ := List.forall₂_cons_left_iff.mp hholds
    obtain ⟨found, hfound, hread⟩ := hhere
    have hshaders : report.shaders = [plainShader .textMulti "a"] := (List.cons.inj hreports).1
    rw [hshaders] at hfound
    cases hfound.symm.trans hrender
    exact hne (Text.encode_injective
      (Except.ok.inj (hread.symm.trans (readBytes_of_look_file hlook))))

end Examples

end Config

end ShaderEmbed
