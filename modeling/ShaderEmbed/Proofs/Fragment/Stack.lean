import Mathlib.Data.Set.Card
import ShaderEmbed.Proofs.Fragment.Machine

/-!
# The stack of an expansion

What holds of the fragments that are being expanded, at every moment of a run and over every reader,
also over one whose fragments have many spellings and no end of paths.

* `IsStack`: the fragments have different identities, the first is the entry, and each is named by a
  directive of the one before it. `sound_step` shows that a step keeps this, `sound_after` that
  every run has it.
* `IsStack.length_le`: if the fragments that can be read have `n` identities, no stack is longer
  than `n`.
* `IsCycle`: what the chain of a refused cycle is made of. A reader may also answer with such a
  failure itself (`FailsWith`); one that is given here does not.
* `run_of_finite_identities`: with finitely many identities the run ends, and all of this holds on
  the way.
-/

namespace ShaderEmbed

namespace FragmentReader

variable {reader : FragmentReader} {marker : String} {start : Path}

/-! ## Stacks and cycles -/

def identities (reader : FragmentReader) : Set Identity :=
  {id | ∃ p text, reader.identity p = .ok id ∧ reader.read p = .ok text}

/-- A fragment has a directive that names another. -/
def Includes (reader : FragmentReader) (marker : String) (p q : Path) : Prop :=
  ∃ text line reference, reader.read p = .ok text ∧ line ∈ Text.terminatedLines text ∧
    Line.classify marker line = .includes reference ∧
    q = ((p.parent.getD .empty).join ⟨reference⟩).normalize

/-- The stack of an expansion of the fragment at `start`. -/
structure IsStack (reader : FragmentReader) (marker : String) (start : Path) (stack : List Active) :
    Prop where
  identified : ∀ entry ∈ stack, reader.identity entry.path = .ok entry.identity
  readable : ∀ entry ∈ stack, entry.identity ∈ reader.identities
  distinct : (stack.map Active.identity).Nodup
  first : ∀ path ∈ (stack.map Active.path).head?, path = start
  edges : (stack.map Active.path).IsChain (reader.Includes marker)

/-- A fragment that may come next on a stack: the entry on an empty one, what a directive of the
innermost fragment names on every other. -/
structure IsNext (reader : FragmentReader) (marker : String) (start : Path)
    (stack : List Active) (path : Path) :
    Prop where
  first : (stack.map Active.path ++ [path]).head? = some start
  edges : (stack.map Active.path ++ [path]).IsChain (reader.Includes marker)

/-- A way from `start` back to a fragment that was passed before, along include directives. It ends
with `path`, the fragments before have different identities, and one of them, under whatever
spelling, has the identity of `path`. -/
structure IsCycle (reader : FragmentReader) (marker : String) (start path : Path)
    (chain : List Path) : Prop where
  two_le : 2 ≤ chain.length
  first : chain.head? = some start
  last : chain.getLast? = some path
  edges : chain.IsChain (reader.Includes marker)
  closes : ∃ (ids : List Identity) (id : Identity), chain.dropLast.map reader.identity =
    ids.map .ok ∧ ids.Nodup ∧
    reader.identity path = .ok id ∧ ids.count id = 1

theorem IsStack.nil :
    reader.IsStack marker start [] := ⟨by simp, by simp, by simp, by simp, by simp⟩

theorem IsStack.of_append {stack : List Active} {entry : Active}
    (h : reader.IsStack marker start (stack ++ [entry])) : reader.IsStack marker start stack where
  identified := fun other hother => h.identified other (List.mem_append_left _ hother)
  readable := fun other hother => h.readable other (List.mem_append_left _ hother)
  distinct := by
    have hdistinct := h.distinct
    rw [List.map_append] at hdistinct
    exact (List.nodup_append.mp hdistinct).1
  first := by
    intro path hpath
    refine h.first path ?_
    cases stack with
    | nil => cases hpath
    | cons first rest => exact hpath
  edges := by
    have hedges := h.edges
    rw [List.map_append] at hedges
    exact (List.isChain_append.mp hedges).1

theorem IsStack.push {stack : List Active} {id : Identity} {path : Path} {text : String}
    (h : reader.IsStack marker start stack) (hnext : reader.IsNext marker start stack path)
    (hid : reader.identity path = .ok id) (hread : reader.read path = .ok text)
    (hnew : id ∉ stack.map Active.identity) :
    reader.IsStack marker start (stack ++ [⟨id, path⟩]) where
  identified := by
    intro entry hentry
    rcases List.mem_append.mp hentry with hentry | hentry
    · exact h.identified entry hentry
    · obtain rfl := List.mem_singleton.mp hentry
      exact hid
  readable := by
    intro entry hentry
    rcases List.mem_append.mp hentry with hentry | hentry
    · exact h.readable entry hentry
    · obtain rfl := List.mem_singleton.mp hentry
      exact ⟨path, text, hid, hread⟩
  distinct := by
    rw [List.map_append, List.map_singleton, ← List.concat_eq_append, List.nodup_concat]
    exact ⟨hnew, h.distinct⟩
  first := by
    intro other hother
    simp only [List.map_append, List.map_cons, List.map_nil] at hother
    exact Option.some.inj ((Option.mem_def.mp hother).symm.trans hnext.first)
  edges := by simpa using hnext.edges

/-- Where the fragment to be entered is on the stack already, the chain is a cycle. -/
theorem IsStack.isCycle {stack : List Active} {id : Identity} {path : Path}
    (h : reader.IsStack marker start stack) (hnext : reader.IsNext marker start stack path)
    (hid : reader.identity path = .ok id) (hactive : id ∈ stack.map Active.identity) :
    reader.IsCycle marker start path (stack.map Active.path ++ [path]) where
  two_le := by
    have hpos : 0 < stack.length := by simpa using List.length_pos_of_mem hactive
    simp only [List.length_append, List.length_map, List.length_singleton]
    omega
  first := hnext.first
  last := List.getLast?_concat
  edges := hnext.edges
  closes := by
    refine ⟨stack.map Active.identity, id, ?_, h.distinct, hid,
      List.count_eq_one_of_mem h.distinct hactive⟩
    rw [List.dropLast_concat, List.map_map, List.map_map]
    exact List.map_congr_left fun entry hentry => h.identified entry hentry

theorem IsStack.isNext_of_directive {below : List Active} {entry : Active}
    {text line reference : String} (h : reader.IsStack marker start (below ++ [entry]))
    (hread : reader.read entry.path = .ok text)
    (hline : line ∈ Text.terminatedLines text)
    (hincludes : Line.classify marker line = .includes reference) :
    reader.IsNext marker start (below ++ [entry]) (included entry.path reference) := by
  have hinner : ((below ++ [entry]).map Active.path).getLast? = some entry.path := by simp
  constructor
  · obtain ⟨outer, houter⟩ : ∃ outer, ((below ++ [entry]).map Active.path).head? = some outer := by
      cases hhead : ((below ++ [entry]).map Active.path).head? with
      | none =>
        rw [List.head?_eq_none_iff.mp hhead] at hinner
        cases hinner
      | some outer => exact ⟨outer, rfl⟩
    rw [List.head?_append, houter, ← h.first outer houter]
    rfl
  · rw [List.isChain_append]
    refine ⟨h.edges, List.isChain_singleton _, ?_⟩
    intro p hp q hq
    rw [hinner] at hp
    obtain rfl := Option.some.inj (Option.mem_def.mp hp)
    obtain rfl := Option.some.inj (Option.mem_def.mp hq)
    exact ⟨text, line, reference, hread, hline, hincludes, rfl⟩

theorem IsStack.length_le {stack : List Active} {n : Nat} (h : reader.IsStack marker start stack)
    (hn : reader.identities.encard ≤ n) : stack.length ≤ n := by
  have hsubset : ((stack.map Active.identity).toFinset : Set Identity) ⊆ reader.identities := by
    intro id hid
    obtain ⟨entry, hentry, rfl⟩ := List.mem_map.mp (List.mem_toFinset.mp hid)
    exact h.readable entry hentry
  have hle := (Set.encard_le_encard hsubset).trans hn
  rw [Set.encard_coe_eq_coe_finsetCard, List.toFinset_card_of_nodup h.distinct,
    List.length_map] at hle
  exact_mod_cast hle

/-! ## What a step keeps -/

/-- The invariant of a run: its stack is one, the fragment to be entered comes next on it, and the
lines that are left are lines of their fragments. -/
structure SoundMoment (reader : FragmentReader) (marker : String) (start : Path)
    (m : Moment) : Prop where
  isStack : reader.IsStack marker start m.stack
  isNext : ∀ path, m.next = some path → reader.IsNext marker start m.stack path
  lines : ∀ frame ∈ m.frames, ∃ text, reader.read frame.entry.path = .ok text ∧
    ∀ line ∈ frame.rest, line ∈ Text.terminatedLines text

/-- The reader fails with `e` when it is asked for the fragment that is entered next: it cannot
identify it, or it cannot read it although it is not being expanded. -/
def FailsWith (reader : FragmentReader) (m : Moment) (e : ShaderError) : Prop :=
  ∃ path, m.next = some path ∧ (reader.identity path = .error e ∨
    ∃ id, reader.identity path = .ok id ∧ id ∉ m.stack.map Active.identity ∧
      reader.read path = .error e)

/-- A step that goes on keeps the invariant. One that refuses a cycle has met it, unless the reader
itself fails so for the fragment that is entered. -/
def SoundStep (reader : FragmentReader) (marker : String) (start : Path)
    (m : Moment) : Progress → Prop
  | .running later => reader.SoundMoment marker start later
  | .ended attempt => ∀ path chain, attempt.result = .error (.cyclicInclude path chain) →
      reader.FailsWith m (.cyclicInclude path chain) ∨ reader.IsCycle marker start path chain

theorem sound_enter {m : Moment} {path : Path} (h : reader.SoundMoment marker start m)
    (hnext : m.next = some path) : reader.SoundStep marker start m (reader.enter m path) := by
  have hisNext := h.isNext path hnext
  unfold enter
  split
  · rename_i e hid
    intro cyclic chain herror
    cases herror
    exact Or.inl ⟨path, hnext, Or.inl hid⟩
  · rename_i id hid
    split
    · rename_i hactive
      intro cyclic chain herror
      cases herror
      exact Or.inr (h.isStack.isCycle hisNext hid (List.contains_iff_mem.mp hactive))
    · rename_i hactive
      have hnew : id ∉ m.stack.map Active.identity :=
        fun hmem => hactive (List.contains_iff_mem.mpr hmem)
      split
      · rename_i e hread
        intro cyclic chain herror
        cases herror
        exact Or.inl ⟨path, hnext, Or.inr ⟨id, hid, hnew, hread⟩⟩
      · rename_i text hread
        refine ⟨?_, fun _ hother => (nomatch hother), ?_⟩
        · rw [Moment.stack, stackOf_cons]
          exact h.isStack.push hisNext hid hread hnew
        · exact List.forall_mem_cons.mpr ⟨⟨text, hread, fun line hline => hline⟩, h.lines⟩

theorem sound_readLine {m : Moment} {frame : Frame} {below : List Frame}
    (h : reader.SoundMoment marker start m) (hframes : m.frames = frame :: below) :
    reader.SoundStep marker start m (readLine marker m frame below) := by
  have hstack : m.stack = stackOf below ++ [frame.entry] := by
    rw [Moment.stack, hframes, stackOf_cons]
  have hisStack := h.isStack
  rw [hstack] at hisStack
  have hlines := h.lines
  rw [hframes] at hlines
  obtain ⟨⟨text, hread, hrest⟩, hbelow⟩ := List.forall_mem_cons.mp hlines
  unfold readLine
  split
  · exact ⟨hisStack.of_append, fun _ hother => (nomatch hother), hbelow⟩
  · rename_i line rest hleft
    rw [hleft] at hrest
    obtain ⟨hline, hafter⟩ := List.forall_mem_cons.mp hrest
    have hkept : stackOf (⟨frame.entry, frame.number + 1, rest⟩ :: below) =
        stackOf below ++ [frame.entry] :=
      stackOf_cons _ below
    have hlater : ∀ later ∈ (⟨frame.entry, frame.number + 1, rest⟩ : Frame) :: below,
        ∃ text, reader.read later.entry.path = .ok text ∧
        ∀ line ∈ later.rest, line ∈ Text.terminatedLines text :=
      List.forall_mem_cons.mpr ⟨⟨text, hread, hafter⟩, hbelow⟩
    split
    · refine ⟨?_, fun _ hother => (nomatch hother), hlater⟩
      rw [Moment.stack, hkept]
      exact hisStack
    · intro cyclic chain herror
      cases herror
    · rename_i reference hincludes
      refine ⟨?_, ?_, hlater⟩
      · rw [Moment.stack, hkept]
        exact hisStack
      · intro next hnext
        obtain rfl := Option.some.inj hnext
        rw [Moment.stack, hkept]
        exact hisStack.isNext_of_directive hread hline hincludes

theorem sound_step {m : Moment} (h : reader.SoundMoment marker start m) :
    reader.SoundStep marker start m (reader.step marker m) := by
  unfold step
  split
  · rename_i path hnext
    exact sound_enter h hnext
  · split
    · intro path chain herror
      cases herror
    · rename_i frame below hframes
      exact sound_readLine h hframes

theorem sound_start (reader : FragmentReader) (marker : String) (entry : Path) :
    reader.SoundMoment marker entry.normalize ⟨[], "", [], [], some entry.normalize⟩ := by
  refine ⟨IsStack.nil, ?_, by simp⟩
  intro path hpath
  cases hpath
  exact ⟨rfl, List.isChain_singleton _⟩

theorem sound_after {entry : Path} {steps : Nat} {m : Moment}
    (h : reader.after marker entry steps = .running m) :
    reader.SoundMoment marker entry.normalize m := by
  induction steps generalizing m with
  | zero =>
    cases h
    exact sound_start reader marker entry
  | succ steps ih =>
    rw [after_succ] at h
    cases hbefore : reader.after marker entry steps with
    | running before =>
      rw [hbefore] at h
      have hstep := sound_step (ih hbefore)
      rw [show reader.step marker before = .running m from h] at hstep
      exact hstep
    | ended attempt =>
      rw [hbefore] at h
      cases h

/-! ## Runs that end -/

/-- The moment behind which a run ends. -/
def EndsBehind (reader : FragmentReader) (marker : String) (entry : Path) (m : Moment)
    (attempt : Attempt) : Prop :=
  ∃ steps, reader.after marker entry steps = .running m ∧ reader.step marker m = .ended attempt

theorem exists_endsBehind {entry : Path} {steps : Nat} {attempt : Attempt}
    (h : reader.after marker entry steps = .ended attempt) :
    ∃ m, reader.EndsBehind marker entry m attempt := by
  induction steps with
  | zero => cases h
  | succ steps ih =>
    rw [after_succ] at h
    cases hbefore : reader.after marker entry steps with
    | running m =>
      rw [hbefore] at h
      exact ⟨m, steps, hbefore, h⟩
    | ended earlier =>
      rw [hbefore] at h
      cases h
      exact ih hbefore

/-- A run that was refused for a cycle has met it, or the reader itself failed so at the last
moment. -/
theorem EndsBehind.failsWith_or_isCycle {entry : Path} {m : Moment}
    {attempt : Attempt} {path : Path} {chain : List Path}
    (h : reader.EndsBehind marker entry m attempt)
    (hcyclic : attempt.result = .error (.cyclicInclude path chain)) :
    reader.FailsWith m (.cyclicInclude path chain) ∨
    reader.IsCycle marker entry.normalize path chain := by
  obtain ⟨steps, hrunning, hended⟩ := h
  have hstep := sound_step (sound_after hrunning)
  rw [hended] at hstep
  exact hstep path chain hcyclic

theorem after_add_of_ended {entry : Path} {steps : Nat} {attempt : Attempt}
    (h : reader.after marker entry steps = .ended attempt) (more : Nat) :
    reader.after marker entry (more + steps) = .ended attempt := by
  induction more with
  | zero => rwa [Nat.zero_add]
  | succ more ih =>
    rw [Nat.add_right_comm, after_succ, ih]
    rfl

theorem ended_unique {entry : Path} {steps steps' : Nat} {attempt attempt' : Attempt}
    (h : reader.after marker entry steps = .ended attempt)
    (h' : reader.after marker entry steps' = .ended attempt') :
    attempt = attempt' := by
  have hlater := after_add_of_ended h steps'
  rw [Nat.add_comm, after_add_of_ended h' steps] at hlater
  cases hlater
  rfl

/-- A reader whose fragments have finitely many identities, as a source. -/
noncomputable def toSource (reader : FragmentReader)
    (h : reader.identities.Finite) : FragmentSource where
  read := reader.read
  identity := reader.identity
  identities := h.toFinset.toList
  identity_mem := by
    intro p id text hid hread
    rw [Finset.mem_toList, Set.Finite.mem_toFinset]
    exact ⟨p, text, hid, hread⟩

end FragmentReader

/-! ## The given sources

A failure for a cycle is never what a source answers that is given here: it is what a run has
met. -/

/-- Fragments in memory are at most missing. -/
theorem FragmentMap.not_failsWith_cyclicInclude (fragments : FragmentMap) (m : Moment) (path : Path)
    (chain : List Path) : ¬ fragments.source.reader.FailsWith m (.cyclicInclude path chain) := by
  rintro ⟨p, -, hid | ⟨id, -, -, hread⟩⟩
  · cases hid
  · simp only [FragmentSource.reader, source] at hread
    split at hread <;> cases hread

theorem ShaderError.ofFile_ne_cyclicInclude (p : Path) (reason : FileError)
    (path : Path) (chain : List Path) :
    ShaderError.ofFile p reason ≠ .cyclicInclude path chain := by
  unfold ShaderError.ofFile
  split <;> simp

/-- Files fail with what the system says. -/
theorem FragmentSource.ofDirectory_not_failsWith_cyclicInclude (tree : FileTree)
    (cwd : Place) (root : Path) (m : Moment) (path : Path) (chain : List Path) :
    ¬ (FragmentSource.ofDirectory tree cwd root).reader.FailsWith m
      (.cyclicInclude path chain) := by
  have hmapError {α : Type} (x : Except FileError α) (p : Path) :
      x.mapError (ShaderError.ofFile p) ≠ .error (.cyclicInclude path chain) := by
    cases x with
    | error reason =>
      intro herror
      exact ShaderError.ofFile_ne_cyclicInclude p reason path chain (Except.error.inj herror)
    | ok a => simp [Except.mapError]
  rintro ⟨p, -, hid | ⟨id, -, -, hread⟩⟩
  · exact hmapError _ p hid
  · exact hmapError _ p hread

namespace FragmentReader

/-- Fragments in memory, or the files below a directory. -/
def IsGiven (reader : FragmentReader) : Prop :=
  (∃ fragments : FragmentMap, reader = fragments.source.reader) ∨
    ∃ tree cwd root, reader = (FragmentSource.ofDirectory tree cwd root).reader

theorem IsGiven.not_failsWith_cyclicInclude {reader : FragmentReader}
    (h : reader.IsGiven) (m : Moment) (path : Path) (chain : List Path) :
    ¬ reader.FailsWith m (.cyclicInclude path chain) := by
  rcases h with ⟨fragments, rfl⟩ | ⟨tree, cwd, root, rfl⟩
  · exact fragments.not_failsWith_cyclicInclude m path chain
  · exact FragmentSource.ofDirectory_not_failsWith_cyclicInclude tree cwd root m path chain

/-! ## Every run -/

/-- Over a reader whose fragments have at most `n` identities, every run comes to an end, and
flattening yields what it ends with. All the while the stack holds at most `n` fragments, of
different identities, from the normalized entry on, each named by a directive in the text of the one
before. A failure for a cycle shows the cycle, unless it is what the reader itself answers for the
fragment that is entered last; a reader that is given here never answers so. -/
theorem run_of_finite_identities (reader : FragmentReader)
    (marker : String) (entry : Path) (n : Nat) (hn : reader.identities.encard ≤ n) :
    (∃ source : FragmentSource, source.reader = reader) ∧
    (∃ m attempt, reader.EndsBehind marker entry m attempt ∧
      (∀ source : FragmentSource, source.reader = reader → source.flatten marker entry = attempt) ∧
      ∀ path chain, attempt.result = .error (.cyclicInclude path chain) →
        reader.FailsWith m (.cyclicInclude path chain) ∨
          reader.IsCycle marker entry.normalize path chain) ∧
    (∀ steps m, reader.after marker entry steps = .running m →
      reader.IsStack marker entry.normalize m.stack ∧ m.stack.length ≤ n) ∧
    (reader.IsGiven → ∀ m path chain, ¬ reader.FailsWith m (.cyclicInclude path chain)) := by
  have hfinite : reader.identities.Finite := Set.finite_of_encard_le_coe hn
  refine ⟨⟨reader.toSource hfinite, rfl⟩, ?_, ?_, IsGiven.not_failsWith_cyclicInclude⟩
  · obtain ⟨steps, hsteps⟩ := (reader.toSource hfinite).run_eq_flatten marker entry
    obtain ⟨m, hends⟩ := exists_endsBehind hsteps
    refine ⟨m, _, hends, ?_, fun path chain => hends.failsWith_or_isCycle⟩
    rintro source rfl
    obtain ⟨steps', hsteps'⟩ := source.run_eq_flatten marker entry
    exact ended_unique hsteps' hsteps
  · intro steps m hm
    have hsound := sound_after hm
    exact ⟨hsound.isStack, hsound.isStack.length_le hn⟩

/-- A reader where every path is another spelling of one fragment, which includes itself by way of a
link. -/
def linked : FragmentReader where
  read _ := .ok "#include link/a.glsl\n"
  identity _ := .ok [.name "a.glsl"]

/-- Among the endlessly many paths of `linked`, no stack ever holds two fragments, and only a cycle
is called one. -/
theorem run_linked :
    linked.identities.encard ≤ 1 ∧
    (∃ m attempt, linked.EndsBehind "#include" ⟨"a.glsl"⟩ m attempt ∧
      ∀ path chain, attempt.result = .error (.cyclicInclude path chain) →
        linked.IsCycle "#include" (Path.mk "a.glsl").normalize path chain) ∧
    ∀ steps m, linked.after "#include" ⟨"a.glsl"⟩ steps = .running m → m.stack.length ≤ 1 := by
  have hsubset : linked.identities ⊆ {[.name "a.glsl"]} := by
    rintro id ⟨p, text, hid, -⟩
    exact (Except.ok.inj hid).symm
  have hn : linked.identities.encard ≤ 1 :=
    (Set.encard_le_encard hsubset).trans (Set.encard_singleton _).le
  obtain ⟨-, ⟨m, attempt, hended, -, hcycle⟩, hrunning, -⟩ :=
    run_of_finite_identities linked "#include" ⟨"a.glsl"⟩ 1 hn
  refine ⟨hn, ⟨m, attempt, hended, ?_⟩, fun steps m hm => (hrunning steps m hm).2⟩
  intro path chain herror
  rcases hcycle path chain herror with ⟨p, -, hid | ⟨id, -, -, hread⟩⟩ | hcycle
  · cases hid
  · cases hread
  · exact hcycle

/-- A reader that fails for every path with a cycle that no run has met. -/
def alarmed : FragmentReader where
  read _ := .error (.cyclicInclude ⟨"a"⟩ [])
  identity _ := .error (.cyclicInclude ⟨"a"⟩ [])

/-- `alarmed` has no fragment at all, and flattening ends with its failure, whose chain is empty. -/
theorem ends_with_own_failure_alarmed :
    alarmed.identities.encard ≤ 0 ∧
    alarmed.after "#include" ⟨"a"⟩ 1 = .ended ⟨[], .error (.cyclicInclude ⟨"a"⟩ [])⟩ ∧
    ¬ alarmed.IsCycle "#include" (Path.mk "a").normalize ⟨"a"⟩ [] := by
  refine ⟨?_, rfl, ?_⟩
  · have hnone : alarmed.identities = ∅ := by
      refine Set.eq_empty_of_forall_notMem ?_
      rintro id ⟨p, text, hid, -⟩
      cases hid
    rw [hnone, Set.encard_empty]
  · intro hcycle
    exact absurd hcycle.two_le (by decide)

end FragmentReader

end ShaderEmbed
