import ShaderEmbed.Compile.External
import ShaderEmbed.Proofs.Artifact.Acceptance
import ShaderEmbed.Proofs.Fragment.Unfolding
import ShaderEmbed.Proofs.Run.Stages

/-!
# Where sections are refused

`Job.FailsAs` says that a job fails in some ways only, whatever the world, and `Job.YieldsAs` what
it yields if it does not; both pass from the parts of a job to the whole.

The failures that are not about the sections of an artifact are apart (`ShaderError.IsApart`). A
source of files fails apart, and so does the expansion of what is in it
(`FragmentSource.FailsAs.expand`); so does a tool (`ExternalTool.compile_failsAs`), and an emission,
once its sections are rendered (`emit_failsAs`). Hence a run whose stages fail apart is refused its
sections in one place only, where they are rendered (`Pipeline.render_of_mismatch`).
-/

namespace ShaderEmbed

namespace Job

variable {ε α β : Type} {P : ε → Prop} {Q : β → Prop}

/-- A job fails in some ways only. -/
def FailsAs (job : Job ε α) (P : ε → Prop) : Prop := ∀ world e, (job world).result = .error e → P e

/-- What a job yields is of a kind. -/
def YieldsAs (job : Job ε α) (Q : α → Prop) : Prop :=
  ∀ world value, (job world).result = .ok value → Q value

theorem failsAs_pure (value : α) : FailsAs (pure value : Job ε α) P := fun _ _ h => nomatch h

theorem failsAs_fail {e : ε} (h : P e) : FailsAs (Job.fail e : Job ε α) P := by
  rintro world _ ⟨rfl⟩
  exact h

theorem failsAs_record (event : Event) :
    FailsAs (Job.record event : Job ε Unit) P := fun _ _ h => nomatch h

theorem failsAs_world : FailsAs (Job.world : Job ε World) P := fun _ _ h => nomatch h

theorem failsAs_ofExcept {result : Except ε α} (h : ∀ e, result = .error e → P e) :
    FailsAs (ofExcept result) P :=
  fun _ e he => h e he

theorem failsAs_changeTree {change : World → Except ε FileTree}
    (h : ∀ world e, change world = .error e → P e) :
    FailsAs (changeTree change) P := by
  intro world e he
  cases hchange : change world with
  | ok tree =>
    rw [changeTree_of_ok world hchange] at he
    cases he
  | error failure =>
    rw [changeTree_of_error world hchange] at he
    cases he
    exact h world e hchange

theorem FailsAs.bind {job : Job ε α} {next : α → Job ε β} (h : job.FailsAs P)
    (hnext : ∀ value, (next value).FailsAs P) :
    (job >>= next).FailsAs P := by
  intro world e he
  cases hjob : job world with
  | mk events left result =>
    cases result with
    | ok value =>
      rw [bind_of_ok hjob] at he
      exact hnext value left e he
    | error failure =>
      rw [bind_of_error hjob] at he
      cases he
      exact h world e (by rw [hjob])

theorem YieldsAs.bind {job : Job ε α} {next : α → Job ε β}
    (hnext : ∀ value, (next value).YieldsAs Q) :
    (job >>= next).YieldsAs Q := by
  intro world value hvalue
  cases hjob : job world with
  | mk events left result =>
    cases result with
    | ok middle =>
      rw [bind_of_ok hjob] at hvalue
      exact hnext middle left value hvalue
    | error failure =>
      rw [bind_of_error hjob] at hvalue
      cases hvalue

theorem yieldsAs_pure {value : β} (h : Q value) : YieldsAs (pure value : Job ε β) Q := by
  rintro world _ ⟨rfl⟩
  exact h

theorem FailsAs.of_goes {job : Job ε α} (h : job.FailsAs P) {world left : World}
    {asked : List Path} {e : ε} (hgoes : job.Goes world asked left (.error e)) : P e := by
  obtain ⟨events, heq, -⟩ := hgoes
  exact h world e (by rw [heq])

theorem YieldsAs.of_goes {job : Job ε β} (h : job.YieldsAs Q) {world left : World}
    {asked : List Path} {value : β} (hgoes : job.Goes world asked left (.ok value)) : Q value := by
  obtain ⟨events, heq, -⟩ := hgoes
  exact h world value (by rw [heq])

end Job

/-- A failure that is not about the sections of an artifact. -/
def ShaderError.IsApart (e : ShaderError) : Prop := ∀ label fault, e ≠ .sectionMismatch label fault

theorem ShaderError.isApart_ofFile (p : Path) (reason : FileError) : (ofFile p reason).IsApart := by
  unfold ofFile
  split <;> exact fun label fault h => nomatch h

theorem exists_of_mapError_eq_error {ε δ α : Type} {x : Except ε α} {f : ε → δ} {e : δ}
    (h : x.mapError f = .error e) :
    ∃ reason, x = .error reason ∧ f reason = e := by
  cases x with
  | error reason => exact ⟨reason, rfl, by cases h; rfl⟩
  | ok a => cases h

/-! ## Expansions -/

namespace FragmentSource

variable {source : FragmentSource} {marker : String} {P : ShaderError → Prop}

/-- A source fails in some ways only, and what may stand in a directive fails the same way. -/
structure FailsAs (source : FragmentSource) (P : ShaderError → Prop) : Prop where
  read : ∀ {p e}, source.read p = .error e → P e
  identity : ∀ {p e}, source.identity p = .error e → P e
  cyclic : ∀ path chain, P (.cyclicInclude path chain)
  malformed : ∀ path line, P (.malformedInclude path line)

theorem FailsAs.expand (h : source.FailsAs P) {stack : List Active} {p : Path} {e : ShaderError}
    (he : (source.expand marker stack p).result = .error e) : P e := by
  induction stack, p using FragmentSource.expand.induct source generalizing e with
  | case1 stack p failure hid =>
    rw [expand_of_identity_error hid] at he
    cases he
    exact h.identity hid
  | case2 stack p id hid hactive =>
    rw [expand_of_active hid hactive] at he
    cases he
    exact h.cyclic _ _
  | case3 stack p id hid hnew failure hread =>
    rw [expand_of_read_error hid hnew hread] at he
    cases he
    exact h.read hread
  | case4 stack p id hid hnew content hread ih =>
    rw [expand_of_read hid hnew hread, Attempt.result_entered, map_eq_error_iff] at he
    obtain ⟨before, line, after, -, -, hstops⟩ := exists_of_expandLines_error he
    cases hstops with
    | blank => exact h.malformed _ _
    | includes _ hsub => exact ih _ hsub

theorem isApart_ofDirectory (tree : FileTree) (cwd : Place) (root : Path) :
    (ofDirectory tree cwd root).FailsAs ShaderError.IsApart where
  read {p e} he := by
    obtain ⟨reason, -, rfl⟩ := exists_of_mapError_eq_error he
    exact ShaderError.isApart_ofFile p reason
  identity {p e} he := by
    obtain ⟨reason, -, rfl⟩ := exists_of_mapError_eq_error he
    exact ShaderError.isApart_ofFile p reason
  cyclic path chain := fun label fault h => nomatch h
  malformed path line := fun label fault h => nomatch h

end FragmentSource

/-! ## Compilations -/

theorem Scratch.within_failsAs {α : Type} {job : Path → Job ShaderError α}
    (h : ∀ directory, (job directory).FailsAs ShaderError.IsApart) (chosen : Option Path) :
    (within chosen job).FailsAs ShaderError.IsApart := by
  refine Job.FailsAs.bind ?_ fun opened world e he => h opened.1 world e he
  intro world e he
  unfold make at he
  split at he
  · cases he
    exact fun label fault h => nomatch h
  · split at he
    · cases he
    · cases he
      exact fun label fault h => nomatch h
    · cases he
      exact fun label fault h => nomatch h

namespace ExternalTool

variable (self : ExternalTool) (entry output : Path)

theorem start_failsAs : (self.start entry output).FailsAs ShaderError.IsApart := by
  intro world e he
  unfold start at he
  split at he
  · cases he
    exact fun label fault h => nomatch h
  · cases he

theorem collect_failsAs (status : ExitStatus) :
    (collect entry output status).FailsAs ShaderError.IsApart := by
  intro world e he
  unfold collect at he
  split at he
  · cases he
  · rename_i reason hread
    obtain rfl := Except.error.inj he
    cases reason.isMissing <;> exact fun label fault h => nomatch h

theorem compileTo_failsAs : (self.compileTo entry output).FailsAs ShaderError.IsApart := by
  unfold compileTo
  refine (Job.failsAs_record _).bind fun _ => (self.start_failsAs _ _).bind fun run => ?_
  split
  · split
    · exact (Job.failsAs_record _).bind fun _ => collect_failsAs _ _ _
    · exact collect_failsAs _ _ _
  · exact Job.failsAs_fail fun label fault h => nomatch h

theorem compile_failsAs : (self.compiler.compile entry).FailsAs ShaderError.IsApart :=
  Scratch.within_failsAs (fun directory =>
    self.compileTo_failsAs entry (directory.join (outputName entry))) self.scratch

end ExternalTool

/-! ## Stages and emissions -/

theorem emit_failsAs (layout : ArtifactLayout) (mode : EmbeddingMode) (path : Path)
    (sections : List Section) :
    (emit layout mode path sections).FailsAs fun e => render layout mode sections = .error e ∨
    e.IsApart := by
  refine (Job.failsAs_ofExcept fun e he => Or.inl he).bind fun text =>
    Job.failsAs_world.bind fun world => ?_
  split
  · exact Job.failsAs_pure _
  refine Job.FailsAs.bind ?_ fun _ => Job.FailsAs.bind (Job.failsAs_changeTree ?_) fun _ =>
    Job.failsAs_pure _
  · intro world e he
    unfold Artifact.makeDirectory at he
    split at he
    · cases he
    · obtain ⟨reason, -, rfl⟩ := exists_of_mapError_eq_error he
      exact Or.inr fun label fault h => nomatch h
  · intro world e he
    obtain ⟨reason, -, rfl⟩ := exists_of_mapError_eq_error he
    exact Or.inr fun label fault h => nomatch h

namespace Pipeline

variable {self : Pipeline} {world left : World} {stages : List StageSpec} {asked : List Path}
  {shaders : List ResolvedShader}

/-- No stage is refused its section before there is an artifact. -/
def StagesFailApart (self : Pipeline) : Prop :=
  ∀ stage, (self.resolve stage).FailsAs ShaderError.IsApart

/-- The stages of a pipeline fail apart if its fragments and its compiler do. -/
theorem stagesFailApart_of (hsource : ∀ world, (self.source world).FailsAs ShaderError.IsApart)
    (hcompiler : ∀ entry, (self.compiler.compile entry).FailsAs ShaderError.IsApart) :
    self.StagesFailApart := by
  have hflatten (entry : Path) : (self.flatten entry).FailsAs ShaderError.IsApart :=
    Job.failsAs_world.bind fun world _ e he => (hsource world).expand he
  have hask (entry : Path) : (self.compiler.ask entry).FailsAs ShaderError.IsApart :=
    (Job.failsAs_record _).bind fun _ => hcompiler entry
  have hcopy (copy : Path) (text : String) : (writeCopy copy text).FailsAs ShaderError.IsApart := by
    refine Job.failsAs_changeTree fun world e he => ?_
    obtain ⟨reason, -, rfl⟩ := exists_of_mapError_eq_error he
    exact fun label fault h => nomatch h
  intro stage
  unfold resolve
  split
  · exact (hflatten _).bind fun flat => Job.failsAs_pure _
  · split
    · refine (hflatten _).bind fun flat => Job.FailsAs.bind ?_ fun bytes => Job.failsAs_pure _
      exact Scratch.within_failsAs (fun directory => (hcopy _ _).bind fun _ => hask _) self.scratch
    · exact (hask _).bind fun bytes => Job.failsAs_pure _

theorem resolve_yieldsAs (self : Pipeline) (stage : StageSpec) :
    (self.resolve stage).YieldsAs fun shader => shader.stage = stage.name ∧
    shader.content.kind = stage.kind := by
  unfold resolve
  split
  · rename_i hkind
    exact Job.YieldsAs.bind fun flat => Job.yieldsAs_pure ⟨rfl, hkind.symm⟩
  · rename_i hkind
    split
    · exact Job.YieldsAs.bind fun flat => Job.YieldsAs.bind fun bytes =>
        Job.yieldsAs_pure ⟨rfl, hkind.symm⟩
    · exact Job.YieldsAs.bind fun bytes => Job.yieldsAs_pure ⟨rfl, hkind.symm⟩

theorem Resolves.names_kinds (h : self.Resolves world stages asked left shaders) :
    shaders.map ResolvedShader.stage = stages.map StageSpec.name ∧
      (shaders.map fun shader => shader.content.kind) = stages.map StageSpec.kind := by
  induction h with
  | nil => exact ⟨rfl, rfl⟩
  | cons hstage _ ih =>
    obtain ⟨hname, hkind⟩ := (self.resolve_yieldsAs _).of_goes hstage
    exact ⟨by simp [hname, ih.1], by simp [hkind, ih.2]⟩

theorem Breaks.isApart {e : ShaderError} (h : self.Breaks world stages asked left e)
    (hself : self.StagesFailApart) :
    e.IsApart := by
  induction h with
  | here hstage => exact (hself _).of_goes hstage
  | later _ _ ih => exact ih

/-- Where the sections of a run are refused, its stages are resolved and do not render. -/
theorem render_of_mismatch (hself : self.StagesFailApart) {target : TargetSpec}
    {label : String} {fault : SectionFault}
    (h : (self.run target world).result = .error (.sectionMismatch label fault)) :
    ∃ asked left shaders, self.Resolves world target.stages asked left shaders ∧
      render self.layout target.mode (shaders.map ResolvedShader.toSection) =
        .error (.sectionMismatch label fault) := by
  have hresult {asked : List Path} {left : World} {result : Except ShaderError RunReport}
      (hgoes : (self.run target).Goes world asked left result) : result =
        .error (.sectionMismatch label fault) := by
    obtain ⟨events, heq, -⟩ := hgoes
    rw [← h, heq]
  rcases self.resolves_or_breaks world target.stages with ⟨asked, left, shaders, hall⟩ |
    ⟨asked, left, e, hbreaks⟩
  · refine ⟨asked, left, shaders, hall, ?_⟩
    obtain ⟨more, final, result, hemit⟩ := (self.emission target shaders).exists_goes left
    cases result with
    | ok written => cases hresult (run_of_emission hall hemit)
    | error e =>
      cases hresult (run_of_emission_error hall hemit)
      exact ((emit_failsAs _ _ _ _).of_goes hemit).resolve_right fun hapart =>
        hapart label fault rfl
  · cases hresult (run_of_breaks hbreaks)
    exact absurd rfl (hbreaks.isApart hself label fault)

end Pipeline

end ShaderEmbed
