import ShaderEmbed.Proofs.Fragment.Stack

/-!
# What an expansion reads

A run over one source and a run over another go in lock step as long as the other source has the
fragments that the first run enters (`step_of_agrees`, `after_of_agrees`). The last moment of a run
decides how it ends, and there a run asks for one more fragment at most, the one that is to be
entered next (`step_eq_of_next`). So flattening depends on the fragments that were read and on the
one that an error is about, and on nothing else a source holds.

* `flatten_of_agrees`: the reported sources of a flattened entry are all that it was made of.
* `flatten_eq_of_endsBehind`: a run that fails depends on what it read, and on the fragment it could
  not read.
* `FragmentMap.flatten_determined_by_reads`: both for fragments in memory, where other fragments may
  be anything.
-/

namespace ShaderEmbed

/-! ## Steps and sources -/

namespace FragmentReader

variable {reader : FragmentReader} {marker : String} {entry path : Path} {m later : Moment}

/-- A fragment is entered only if it is identified, is not being expanded, and can be read. -/
theorem exists_of_enter_eq_running (h : reader.enter m path = .running later) :
    ∃ id text, reader.identity path = .ok id ∧ (m.stack.map Active.identity).contains id = false ∧
      reader.read path = .ok text ∧
      later = ⟨m.inclusions, m.text, m.sources ++ [path],
        ⟨⟨id, path⟩, 1, Text.terminatedLines text⟩ :: m.frames, none⟩ := by
  unfold enter at h
  split at h
  · cases h
  · rename_i id hid
    split at h
    · cases h
    · rename_i hactive
      split at h
      · cases h
      · rename_i text hread
        cases h
        exact ⟨id, text, hid, by simpa using hactive, hread, rfl⟩

theorem enter_eq_running {id : Identity} {text : String} (hid : reader.identity path = .ok id)
    (hactive : (m.stack.map Active.identity).contains id = false)
    (hread : reader.read path = .ok text) :
    reader.enter m path = .running ⟨m.inclusions, m.text, m.sources ++ [path],
      ⟨⟨id, path⟩, 1, Text.terminatedLines text⟩ :: m.frames, none⟩ := by
  simp only [enter, hid, hactive, hread]
  rfl

/-- All that reading a line can do, if the run goes on. -/
theorem cases_of_readLine_eq_running {frame : Frame} {below : List Frame}
    (h : readLine marker m frame below = .running later) :
    (frame.rest = [] ∧ later = ⟨m.inclusions, m.text, m.sources, below, none⟩) ∨
    (∃ line rest, frame.rest = line :: rest ∧ Line.classify marker line = .ordinary ∧
      later = ⟨m.inclusions, m.text ++ line, m.sources,
        ⟨frame.entry, frame.number + 1, rest⟩ :: below, none⟩) ∨
    ∃ line rest reference, frame.rest = line :: rest ∧
      Line.classify marker line = .includes reference ∧
      later = ⟨m.inclusions ++ [⟨m.stack, included frame.entry.path reference⟩], m.text, m.sources,
        ⟨frame.entry, frame.number + 1, rest⟩ :: below,
          some (included frame.entry.path reference)⟩ := by
  unfold readLine at h
  split at h
  · rename_i hrest
    cases h
    exact Or.inl ⟨hrest, rfl⟩
  · rename_i line rest hrest
    split at h
    · rename_i hkind
      cases h
      exact Or.inr (Or.inl ⟨line, rest, hrest, hkind, rfl⟩)
    · cases h
    · rename_i reference hkind
      cases h
      exact Or.inr (Or.inr ⟨line, rest, reference, hrest, hkind, rfl⟩)

/-- A step that goes on enters the fragment to be entered, or reads a line of the innermost one. -/
theorem cases_of_step_eq_running (h : reader.step marker m = .running later) :
    (∃ path, m.next = some path ∧ reader.enter m path = .running later) ∨
    ∃ frame below, m.next = none ∧ m.frames = frame :: below ∧
    readLine marker m frame below = .running later := by
  unfold step at h
  split at h
  · rename_i path hnext
    exact Or.inl ⟨path, hnext, h⟩
  · rename_i hnext
    split at h
    · cases h
    · rename_i frame below hframes
      exact Or.inr ⟨frame, below, hnext, hframes, h⟩

theorem sources_of_readLine {frame : Frame} {below : List Frame}
    (h : readLine marker m frame below = .running later) :
    later.sources = m.sources := by
  rcases cases_of_readLine_eq_running h with ⟨-, rfl⟩ | ⟨_, _, -, -, rfl⟩ |
    ⟨_, _, _, -, -, rfl⟩ <;> rfl

/-- A step that goes on adds the fragment it enters to the sources, if it enters one. -/
theorem sources_of_step (h : reader.step marker m = .running later) :
    later.sources = m.sources ++ m.next.toList := by
  rcases cases_of_step_eq_running h with ⟨path, hnext, henter⟩ | ⟨frame, below, hnext, -, hline⟩
  · obtain ⟨id, text, -, -, -, rfl⟩ := exists_of_enter_eq_running henter
    rw [hnext]
    rfl
  · rw [hnext, Option.toList_none, List.append_nil]
    exact sources_of_readLine hline

theorem step_of_next_none (other : FragmentReader) (h : m.next = none) :
    other.step marker m = reader.step marker m := by
  simp only [step, h]

/-! ## The end of a run -/

theorem EndsBehind.after_ended {attempt : Attempt} (h : reader.EndsBehind marker entry m attempt) :
    ∃ steps, reader.after marker entry steps = .ended attempt := by
  obtain ⟨steps, hrunning, hended⟩ := h
  refine ⟨steps + 1, ?_⟩
  rw [after_succ, hrunning]
  exact hended

theorem le_of_step_ended {steps steps' : Nat} {attempt : Attempt}
    (hrunning : reader.after marker entry steps = .running m)
    (hended : reader.step marker m = .ended attempt)
    (hlater : reader.after marker entry steps' = .running later) :
    steps' ≤ steps := by
  by_contra hlt
  obtain ⟨more, rfl⟩ := Nat.exists_eq_add_of_lt (Nat.lt_of_not_le hlt)
  have hend : reader.after marker entry (steps + 1) = .ended attempt := by
    rw [after_succ, hrunning]
    exact hended
  have hstays := after_add_of_ended hend more
  rw [show more + (steps + 1) = steps + more + 1 by omega, hlater] at hstays
  cases hstays

theorem EndsBehind.unique {attempt attempt' : Attempt}
    (h : reader.EndsBehind marker entry m attempt)
    (h' : reader.EndsBehind marker entry later attempt') : m = later := by
  obtain ⟨steps, hrunning, hended⟩ := h
  obtain ⟨steps', hrunning', hended'⟩ := h'
  have hle := le_of_step_ended hrunning' hended' hrunning
  have hge := le_of_step_ended hrunning hended hrunning'
  obtain rfl := Nat.le_antisymm hle hge
  rw [hrunning] at hrunning'
  cases hrunning'
  rfl

/-- A run that succeeds has nothing left to do, and reports what its last moment holds. -/
theorem eq_of_step_eq_ended_ok {inclusions : List Inclusion} {flat : Flattened}
    (h : reader.step marker m = .ended ⟨inclusions, .ok flat⟩) :
    m = ⟨inclusions, flat.text, flat.sources, [], none⟩ := by
  obtain ⟨followed, text, sources, frames, next⟩ := m
  unfold step at h
  split at h
  · exfalso
    unfold enter at h
    repeat' split at h
    all_goals cases h
  · rename_i hnext
    obtain rfl : next = none := hnext
    split at h
    · rename_i hframes
      obtain rfl : frames = [] := hframes
      cases h
      rfl
    · exfalso
      unfold readLine at h
      repeat' split at h
      all_goals cases h

theorem EndsBehind.eq_last_of_ok {flat : Flattened} {attempt : Attempt}
    (h : reader.EndsBehind marker entry m attempt) (hok : attempt.result = .ok flat) :
    m = ⟨attempt.inclusions, flat.text, flat.sources, [], none⟩ := by
  obtain ⟨steps, -, hended⟩ := h
  obtain ⟨inclusions, result⟩ := attempt
  obtain rfl : result = .ok flat := hok
  exact eq_of_step_eq_ended_ok hended

theorem EndsBehind.eq_of_ok {flat : Flattened} {attempt : Attempt}
    (h : reader.EndsBehind marker entry m attempt) (hok : attempt.result = .ok flat) :
    m.next = none ∧ flat.sources = m.sources := by
  obtain rfl := h.eq_last_of_ok hok
  exact ⟨rfl, rfl⟩

end FragmentReader

/-! ## Two runs in lock step -/

namespace FragmentSource

variable {source other : FragmentSource} {marker : String} {entry : Path}
  {m later : Moment} {sources : List Path}

/-- Another source identifies the fragments at some paths as this one does, and has the same text
for them. -/
structure Agrees (source other : FragmentSource) (sources : List Path) : Prop where
  identity : ∀ p ∈ sources, ∀ id, source.identity p = .ok id → other.identity p = .ok id
  read : ∀ p ∈ sources, ∀ text, source.read p = .ok text → other.read p = .ok text

theorem Agrees.of_subset {fewer : List Path} (h : source.Agrees other sources)
    (hsub : fewer ⊆ sources) :
    source.Agrees other fewer :=
  ⟨fun p hp => h.identity p (hsub hp), fun p hp => h.read p (hsub hp)⟩

/-- A step that goes on is made over every source that agrees on the sources behind it. -/
theorem step_of_agrees (h : source.reader.step marker m = .running later)
    (hagrees : source.Agrees other later.sources) :
    other.reader.step marker m = .running later := by
  have hsources := FragmentReader.sources_of_step h
  cases hnext : m.next with
  | none => rw [FragmentReader.step_of_next_none other.reader hnext, h]
  | some path =>
    have hmem : path ∈ later.sources := by
      rw [hsources, hnext]
      simp
    simp only [FragmentReader.step, hnext] at h ⊢
    obtain ⟨id, text, hid, hactive, hread, rfl⟩ := FragmentReader.exists_of_enter_eq_running h
    have hid' : other.reader.identity path = .ok id := hagrees.identity path hmem id hid
    have hread' : other.reader.read path = .ok text := hagrees.read path hmem text hread
    exact FragmentReader.enter_eq_running hid' hactive hread'

/-- As long as a run over one source goes on, a run over a source that agrees on what was entered is
with it. -/
theorem after_of_agrees {steps : Nat} (h : source.reader.after marker entry steps = .running m)
    (hagrees : source.Agrees other m.sources) :
    other.reader.after marker entry steps = .running m := by
  induction steps generalizing m with
  | zero => exact h
  | succ steps ih =>
    rw [FragmentReader.after_succ] at h ⊢
    cases hbefore : source.reader.after marker entry steps with
    | ended attempt =>
      rw [hbefore] at h
      cases h
    | running before =>
      rw [hbefore] at h
      have hsources := FragmentReader.sources_of_step h
      have hsub : before.sources ⊆ m.sources := by
        rw [hsources]
        exact List.subset_append_left _ _
      rw [ih hbefore (hagrees.of_subset hsub)]
      exact step_of_agrees h hagrees

/-- The last step asks for the fragment that is to be entered next, and for nothing else. -/
theorem step_eq_of_next (hnext : ∀ p, m.next = some p → other.identity p = source.identity p ∧
    other.read p = source.read p) : other.reader.step marker m = source.reader.step marker m := by
  cases h : m.next with
  | none => exact FragmentReader.step_of_next_none _ h
  | some path =>
    obtain ⟨hid, hread⟩ := hnext path h
    simp only [FragmentReader.step, FragmentReader.enter, reader, h, hid, hread]

/-! ## What flattening depends on -/

theorem exists_endsBehind_flatten (source : FragmentSource) (marker : String) (entry : Path) :
    ∃ m, source.reader.EndsBehind marker entry m (source.flatten marker entry) := by
  obtain ⟨steps, hended⟩ := source.run_eq_flatten marker entry
  exact FragmentReader.exists_endsBehind hended

/-- Flattening is done when a run comes to an end. -/
theorem flatten_eq_of_after {steps : Nat} {attempt : Attempt}
    (h : source.reader.after marker entry steps = .ended attempt) :
    source.flatten marker entry = attempt := by
  obtain ⟨steps', hended⟩ := source.run_eq_flatten marker entry
  exact FragmentReader.ended_unique hended h

/-- A run with nothing left to do has flattened the entry. -/
theorem result_flatten_of_after {steps : Nat} {inclusions : List Inclusion} {text : String}
    (h : source.reader.after marker entry steps = .running ⟨inclusions, text, sources, [], none⟩) :
    (source.flatten marker entry).result = .ok ⟨text, sources⟩ := by
  have hended : source.reader.after marker entry (steps + 1) =
      .ended ⟨inclusions, .ok ⟨text, sources⟩⟩ := by
    rw [FragmentReader.after_succ, h]
    rfl
  rw [flatten_eq_of_after hended]

/-- A source that comes as far, and has the same to say of the fragment that is to be entered next
if there is one, leads to the same end. -/
theorem flatten_eq_of_after_running {steps : Nat}
    (hended : source.reader.step marker m = .ended (source.flatten marker entry))
    (hafter : other.reader.after marker entry steps = .running m)
    (hnext : ∀ p, m.next = some p → other.identity p = source.identity p ∧
      other.read p = source.read p) :
    other.flatten marker entry = source.flatten marker entry := by
  have hended' : other.reader.step marker m = .ended (source.flatten marker entry) :=
    (step_eq_of_next hnext).trans hended
  obtain ⟨steps', hlast⟩ := FragmentReader.EndsBehind.after_ended ⟨steps, hafter, hended'⟩
  exact flatten_eq_of_after hlast

theorem flatten_eq_of_endsBehind
    (h : source.reader.EndsBehind marker entry m (source.flatten marker entry))
    (hagrees : source.Agrees other m.sources)
    (hnext : ∀ p, m.next = some p → other.identity p = source.identity p ∧
      other.read p = source.read p) :
    other.flatten marker entry = source.flatten marker entry := by
  obtain ⟨steps, hrunning, hended⟩ := h
  exact flatten_eq_of_after_running hended (after_of_agrees hrunning hagrees) hnext

/-- A source that agrees on the fragments that an entry was flattened from makes the same of it. -/
theorem flatten_of_agrees {flat : Flattened} (h : (source.flatten marker entry).result = .ok flat)
    (hagrees : source.Agrees other flat.sources) :
    other.flatten marker entry = source.flatten marker entry := by
  obtain ⟨m, hm⟩ := source.exists_endsBehind_flatten marker entry
  obtain ⟨hnext, hsources⟩ := hm.eq_of_ok h
  rw [hsources] at hagrees
  refine flatten_eq_of_endsBehind hm hagrees fun p hp => ?_
  rw [hnext] at hp
  cases hp

/-- The fragments that are read while an entry is flattened, up to the end or the failure. -/
def HasRead (source : FragmentSource) (marker : String) (entry : Path) (read : List Path) : Prop :=
  ∃ m, source.reader.EndsBehind marker entry m (source.flatten marker entry) ∧ m.sources = read

theorem HasRead.unique {read read' : List Path} (h : source.HasRead marker entry read)
    (h' : source.HasRead marker entry read') : read = read' := by
  obtain ⟨m, hm, rfl⟩ := h
  obtain ⟨m', hm', rfl⟩ := h'
  rw [hm.unique hm']

end FragmentSource

/-! ## Fragments in memory -/

namespace FragmentMap

variable {fragments other : FragmentMap} {marker : String} {entry p : Path} {sources : List Path}

theorem read_eq_of_get? (h : other.get? p = fragments.get? p) :
    other.source.read p = fragments.source.read p := by
  simp only [source, h]

theorem agrees_of_get? (h : ∀ p ∈ sources, other.get? p = fragments.get? p) :
    fragments.source.Agrees other.source sources where
  identity _ _ _ hid := hid
  read p hp _ hread := (read_eq_of_get? (h p hp)).trans hread

/-- A run that fails at a fragment that is to be entered fails for that fragment. -/
theorem path?_of_step_error {m : Moment} {attempt : Attempt} {e : ShaderError}
    (hstep : fragments.source.reader.step marker m = .ended attempt)
    (herror : attempt.result = .error e) (hnext : m.next = some p) : e.path? = some p := by
  simp only [FragmentReader.step, hnext, FragmentReader.enter,
    FragmentSource.reader, source] at hstep
  split at hstep
  · cases hstep
    cases herror
    rfl
  · cases hget : fragments.get? p with
    | none =>
      simp only [hget] at hstep
      cases hstep
      cases herror
      rfl
    | some text =>
      simp only [hget] at hstep
      cases hstep

/-- What flattening makes of an entry depends on the fragments it read and on the one it failed for.
The reported sources of a text are a complete list: while their contents stay, every other fragment
may be added, removed or changed. -/
theorem flatten_determined_by_reads (fragments other : FragmentMap)
    (marker : String) (entry : Path) :
    (∀ flat, (fragments.source.flatten marker entry).result = .ok flat →
      (∀ p ∈ flat.sources, other.get? p = fragments.get? p) →
      other.source.flatten marker entry = fragments.source.flatten marker entry) ∧
    ∃! read, fragments.source.HasRead marker entry read ∧
      (∀ flat, (fragments.source.flatten marker entry).result = .ok flat → flat.sources = read) ∧
      ∀ e, (fragments.source.flatten marker entry).result = .error e →
        (∀ p ∈ read, other.get? p = fragments.get? p) →
        (∀ p, e.path? = some p → other.get? p = fragments.get? p) →
        other.source.flatten marker entry = fragments.source.flatten marker entry := by
  constructor
  · intro flat hflat hagree
    exact FragmentSource.flatten_of_agrees hflat (agrees_of_get? hagree)
  · obtain ⟨m, hm⟩ := fragments.source.exists_endsBehind_flatten marker entry
    refine ⟨m.sources, ⟨⟨m, hm, rfl⟩, ?_, ?_⟩, ?_⟩
    · intro flat hflat
      exact (hm.eq_of_ok hflat).2
    · intro e herror hread hpath
      obtain ⟨steps, -, hended⟩ := id hm
      refine FragmentSource.flatten_eq_of_endsBehind hm (agrees_of_get? hread) fun p hnext => ?_
      have hget := hpath p (path?_of_step_error hended herror hnext)
      exact ⟨rfl, read_eq_of_get? hget⟩
    · intro read hread
      exact hread.1.unique ⟨m, hm, rfl⟩

/-- A fragment whose second include leads nowhere. -/
def dangling : FragmentMap :=
  .ofList [(⟨"a"⟩, "#include b\n#include c\n"), (⟨"b"⟩, "x\n"), (⟨"d"⟩, "y\n")]

/-- The fragment of `dangling` and what it includes, among others. -/
def danglingElsewhere : FragmentMap :=
  .ofList [(⟨"e"⟩, "#include a\n"), (⟨"b"⟩, "x\n"), (⟨"a"⟩, "#include b\n#include c\n")]

theorem flatten_determined_by_reads_dangling :
    ((dangling.source.flatten standardMarker ⟨"b"⟩).result = .ok ⟨"x\n", [⟨"b"⟩]⟩ ∧
      danglingElsewhere.source.flatten standardMarker ⟨"b"⟩ =
        dangling.source.flatten standardMarker ⟨"b"⟩) ∧
    (dangling.source.flatten standardMarker ⟨"a"⟩).result = .error (.notFound ⟨"c"⟩) ∧
    dangling.source.HasRead standardMarker ⟨"a"⟩ [⟨"a"⟩, ⟨"b"⟩] ∧
    danglingElsewhere.source.flatten standardMarker ⟨"a"⟩ =
      dangling.source.flatten standardMarker ⟨"a"⟩ := by
  constructor
  · have hafter : dangling.source.reader.after standardMarker ⟨"b"⟩ 3 =
        .running ⟨[], "x\n", [⟨"b"⟩], [], none⟩ := by rfl
    have hok := FragmentSource.result_flatten_of_after hafter
    obtain ⟨hsame, -⟩ := flatten_determined_by_reads dangling danglingElsewhere standardMarker ⟨"b"⟩
    exact ⟨hok, hsame _ hok (by decide +kernel)⟩
  · let stack : List Active := [⟨[.name "a"], ⟨"a"⟩⟩]
    let last : Moment := ⟨[⟨stack, ⟨"b"⟩⟩, ⟨stack, ⟨"c"⟩⟩], "x\n", [⟨"a"⟩, ⟨"b"⟩],
      [⟨⟨[.name "a"], ⟨"a"⟩⟩, 3, []⟩], some ⟨"c"⟩⟩
    have hrunning : dangling.source.reader.after standardMarker ⟨"a"⟩ 6 = .running last := by rfl
    have hstep : dangling.source.reader.step standardMarker last =
        .ended ⟨last.inclusions, .error (.notFound ⟨"c"⟩)⟩ := by rfl
    obtain ⟨steps, hended⟩ := FragmentReader.EndsBehind.after_ended ⟨6, hrunning, hstep⟩
    have hflatten := FragmentSource.flatten_eq_of_after hended
    have hread : dangling.source.HasRead standardMarker ⟨"a"⟩ [⟨"a"⟩, ⟨"b"⟩] :=
      ⟨last, ⟨6, hrunning, hflatten ▸ hstep⟩, rfl⟩
    have herror : (dangling.source.flatten standardMarker ⟨"a"⟩).result =
        .error (.notFound ⟨"c"⟩) := by
      rw [hflatten]
    obtain ⟨-, read, ⟨hread', -, hsame⟩, -⟩ :=
      flatten_determined_by_reads dangling danglingElsewhere standardMarker ⟨"a"⟩
    obtain rfl := hread'.unique hread
    refine ⟨herror, hread, hsame _ herror (by decide +kernel) ?_⟩
    intro p hp
    cases hp
    decide +kernel

end FragmentMap

end ShaderEmbed
