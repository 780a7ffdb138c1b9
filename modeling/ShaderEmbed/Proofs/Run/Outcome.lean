import ShaderEmbed.Proofs.File.Access
import ShaderEmbed.Run.Job

/-!
# How jobs go

What a job yields in a world, taken apart at its first step. A step that fails ends the job; behind
a step that succeeds stands the outcome of the rest, with the events of the step in front
(`bind_of_ok`, `bind_of_error`). The primitive steps have equations of their own, so that no later
proof opens a job's monad.

Most of what is said about a job leaves its events aside, but for one thing: which entries a
compiler was asked for. `Job.Goes` tells that, the world that is left, and the result, and has one
rule for each way to put jobs together.
-/

namespace ShaderEmbed

variable {ε δ α β : Type}

/-- An outcome with events in front. -/
def Outcome.behind (outcome : Outcome ε α) (events : List Event) : Outcome ε α :=
  ⟨events ++ outcome.events, outcome.world, outcome.result⟩

/-- The entries that compilers were asked for, in order. -/
def Outcome.asked (outcome : Outcome ε α) : List Path := outcome.events.filterMap Event.askedFor?

namespace Outcome

variable (outcome : Outcome ε α) (events : List Event)

@[simp] theorem behind_nil : outcome.behind [] = outcome := rfl

@[simp] theorem events_behind : (outcome.behind events).events = events ++ outcome.events := rfl

@[simp] theorem world_behind : (outcome.behind events).world = outcome.world := rfl

@[simp] theorem result_behind : (outcome.behind events).result = outcome.result := rfl

end Outcome

def World.withTree (world : World) (tree : FileTree) : World := { world with tree := tree }

namespace World

variable (world : World) (tree : FileTree)

@[simp] theorem tree_withTree : (world.withTree tree).tree = tree := rfl

@[simp] theorem cwd_withTree : (world.withTree tree).cwd = world.cwd := rfl

@[simp] theorem temporary_withTree : (world.withTree tree).temporary = world.temporary := rfl

@[simp] theorem tools_withTree : (world.withTree tree).tools = world.tools := rfl

@[simp] theorem withTree_tree : world.withTree world.tree = world := rfl

@[simp] theorem withTree_withTree (other : FileTree) :
    (world.withTree tree).withTree other = world.withTree other := rfl

/-- Two worlds that differ in how their trees are built at most: the trees hold the same
everywhere. -/
def Alike (now : World) : Prop := ∃ tree, world.tree.Alike tree ∧ now = world.withTree tree

variable {world} {now next : World}

theorem Alike.refl (world : World) : world.Alike world := ⟨world.tree, .refl _, rfl⟩

theorem Alike.trans (h : world.Alike now) (h' : now.Alike next) : world.Alike next := by
  obtain ⟨tree, halike, rfl⟩ := h
  obtain ⟨tree', halike', rfl⟩ := h'
  exact ⟨tree', halike.trans halike', rfl⟩

theorem Alike.isClosed (h : world.Alike now) (hclosed : world.tree.IsClosed) :
    now.tree.IsClosed := by
  obtain ⟨tree, halike, rfl⟩ := h
  exact halike.isClosed hclosed

theorem Alike.readBytes (h : world.Alike now) (p : Path) :
    now.tree.readBytes now.cwd p = world.tree.readBytes world.cwd p := by
  obtain ⟨tree, halike, rfl⟩ := h
  exact halike.readBytes

end World

namespace Job

section Bind

variable {job : Job ε α} {next : α → Job ε β} {world left : World} {events : List Event}
  {value : α} {failure : ε}

theorem bind_of_ok (h : job world = ⟨events, left, .ok value⟩) :
    (job >>= next) world = (next value left).behind events := by
  show andThen job next world = _
  simp only [andThen, h, Outcome.behind]

theorem bind_of_error (h : job world = ⟨events, left, .error failure⟩) :
    (job >>= next) world = ⟨events, left, .error failure⟩ := by
  show andThen job next world = _
  simp only [andThen, h]

theorem mapError_of_eq {f : ε → δ} {result : Except ε α} (h : job world = ⟨events, left, result⟩) :
    job.mapError f world = ⟨events, left, result.mapError f⟩ := by
  simp only [mapError, h]

theorem onFailure_of_ok {event : Event} (h : job world = ⟨events, left, .ok value⟩) :
    job.onFailure event world = ⟨events, left, .ok value⟩ := by
  simp only [onFailure, h]

theorem onFailure_of_error {event : Event} (h : job world = ⟨events, left, .error failure⟩) :
    job.onFailure event world = ⟨events ++ [event], left, .error failure⟩ := by
  simp only [onFailure, h]

theorem inAnyCase_of_eq {change : FileTree → FileTree} {result : Except ε α}
    (h : job world = ⟨events, left, result⟩) :
    job.inAnyCase change world = ⟨events, left.withTree (change left.tree), result⟩ := by
  simp only [inAnyCase, h, World.withTree]

end Bind

section Primitives

variable (world : World)

theorem record_bind (event : Event) (next : Unit → Job ε β) :
    (record event >>= next) world = (next () world).behind [event] := rfl

theorem world_bind (next : World → Job ε β) : (Job.world >>= next) world = next world world := rfl

theorem ofExcept_ok_bind (value : α) (next : α → Job ε β) :
    (ofExcept (.ok value) >>= next) world = next value world := rfl

theorem ofExcept_error_bind (failure : ε) (next : α → Job ε β) :
    (ofExcept (.error failure) >>= next) world = ⟨[], world, .error failure⟩ := rfl

theorem changeTree_of_ok {change : World → Except ε FileTree} {tree : FileTree}
    (h : change world = .ok tree) :
    changeTree change world = ⟨[], world.withTree tree, .ok ()⟩ := by
  simp only [changeTree, h, World.withTree]

theorem changeTree_of_error {change : World → Except ε FileTree} {failure : ε}
    (h : change world = .error failure) :
    changeTree change world = ⟨[], world, .error failure⟩ := by
  simp only [changeTree, h]

end Primitives

/-! ## What was asked for, what is left, and the result -/

/-- In a world a job asks compilers for some entries, leaves a world, and ends with a result. -/
def Goes (job : Job ε α) (world : World) (asked : List Path) (left : World)
    (result : Except ε α) : Prop :=
  ∃ events, job world = ⟨events, left, result⟩ ∧ events.filterMap Event.askedFor? = asked

section Goes

variable {job : Job ε α} {next : α → Job ε β} {world mid left : World}
  {asked more : List Path} {value : α} {failure : ε} {result : Except ε α}

theorem exists_goes (job : Job ε α) (world : World) :
    ∃ asked left result, job.Goes world asked left result :=
  ⟨_, _, _, _, rfl, rfl⟩

theorem Goes.unique {asked' : List Path} {left' : World} {result' : Except ε α}
    (h : job.Goes world asked left result) (h' : job.Goes world asked' left' result') :
    asked = asked' ∧ left = left' ∧ result = result' := by
  obtain ⟨events, heq, rfl⟩ := h
  obtain ⟨events', heq', rfl⟩ := h'
  cases heq.symm.trans heq'
  exact ⟨rfl, rfl, rfl⟩

theorem Goes.bind {result : Except ε β} (h : job.Goes world asked mid (.ok value))
    (hnext : (next value).Goes mid more left result) :
    (job >>= next).Goes world (asked ++ more) left result := by
  obtain ⟨events, heq, rfl⟩ := h
  obtain ⟨later, hlater, rfl⟩ := hnext
  refine ⟨events ++ later, ?_, List.filterMap_append⟩
  rw [bind_of_ok heq, hlater]
  rfl

/-- A first step that asks for nothing. -/
theorem Goes.quiet_bind {result : Except ε β} (h : job.Goes world [] mid (.ok value))
    (hnext : (next value).Goes mid more left result) : (job >>= next).Goes world more left result :=
  h.bind hnext

/-- A first step behind which nothing is asked for. -/
theorem Goes.bind_quiet {result : Except ε β} (h : job.Goes world asked mid (.ok value))
    (hnext : (next value).Goes mid [] left result) :
    (job >>= next).Goes world asked left result := by
  simpa using h.bind hnext

theorem Goes.bind_error (h : job.Goes world asked left (.error failure)) :
    (job >>= next).Goes world asked left (.error failure) := by
  obtain ⟨events, heq, rfl⟩ := h
  exact ⟨events, bind_of_error heq, rfl⟩

/-- What succeeds in two steps succeeds in each. -/
theorem Goes.exists_of_bind {last : β} (h : (job >>= next).Goes world asked left (.ok last)) :
    ∃ first value mid more, job.Goes world first mid (.ok value) ∧
      (next value).Goes mid more left (.ok last) ∧
      asked = first ++ more := by
  obtain ⟨first, mid, result, hjob⟩ := job.exists_goes world
  cases result with
  | error failure =>
    obtain ⟨-, -, heq⟩ := h.unique hjob.bind_error
    cases heq
  | ok value =>
    obtain ⟨more, left', result', hnext⟩ := (next value).exists_goes mid
    obtain ⟨rfl, rfl, rfl⟩ := h.unique (hjob.bind hnext)
    exact ⟨first, value, mid, more, hjob, hnext, rfl⟩

theorem goes_pure (value : α) (world : World) :
    (pure value : Job ε α).Goes world [] world (.ok value) :=
  ⟨[], rfl, rfl⟩

theorem goes_world (world : World) :
    (Job.world : Job ε World).Goes world [] world (.ok world) := ⟨[], rfl, rfl⟩

theorem goes_ofExcept (result : Except ε α) (world : World) :
    (ofExcept result).Goes world [] world result :=
  ⟨[], rfl, rfl⟩

theorem goes_ofAttempt (attempt : Attempt) (world : World) :
    (ofAttempt attempt).Goes world [] world attempt.result :=
  ⟨_, rfl, by simp [Event.askedFor?]⟩

/-- A job whose value is only put into another form. -/
theorem Goes.yield (h : job.Goes world asked left result) (f : α → β) :
    (job >>= fun value => pure (f value)).Goes world asked left (result.map f) := by
  cases result with
  | error failure => exact h.bind_error
  | ok value => exact h.bind_quiet (goes_pure (f value) left)

theorem Goes.exists_of_yield {f : α → β} {last : β}
    (h : (job >>= fun value => pure (f value)).Goes world asked left (.ok last)) :
    ∃ value, job.Goes world asked left (.ok value) ∧ last = f value := by
  obtain ⟨first, mid, result, hjob⟩ := job.exists_goes world
  obtain ⟨rfl, rfl, heq⟩ := h.unique (hjob.yield f)
  cases result with
  | error failure => cases heq
  | ok value =>
    cases heq
    exact ⟨value, hjob, rfl⟩

/-- Recording an event that is no question changes nothing. -/
theorem Goes.record {event : Event} (hevent : event.askedFor? = none) {next : Unit → Job ε α}
    (h : (next ()).Goes world asked left result) :
    (Job.record event >>= next).Goes world asked left result := by
  obtain ⟨events, heq, rfl⟩ := h
  refine ⟨event :: events, ?_, by simp [hevent]⟩
  rw [record_bind, heq]
  rfl

theorem Goes.changeTree {change : World → Except ε FileTree} {tree : FileTree}
    (h : change world = .ok tree) :
    (Job.changeTree change).Goes world [] (world.withTree tree) (.ok ()) :=
  ⟨[], changeTree_of_ok world h, rfl⟩

theorem Goes.changeTree_error {change : World → Except ε FileTree}
    (h : change world = .error failure) :
    (Job.changeTree change).Goes world [] world (.error failure) :=
  ⟨[], changeTree_of_error world h, rfl⟩

theorem Goes.onFailure {event : Event} (hevent : event.askedFor? = none)
    (h : job.Goes world asked left result) :
    (job.onFailure event).Goes world asked left result := by
  obtain ⟨events, heq, rfl⟩ := h
  cases result with
  | error failure => exact ⟨_, onFailure_of_error heq, by simp [hevent]⟩
  | ok value => exact ⟨_, onFailure_of_ok heq, rfl⟩

end Goes

end Job

end ShaderEmbed
