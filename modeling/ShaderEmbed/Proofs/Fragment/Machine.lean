import Mathlib.Logic.Function.Iterate
import ShaderEmbed.Proofs.Fragment.Unfolding

/-!
# Expanding step by step

`FragmentSource.expand` is a recursion; here it is a run. A `Moment` holds what an expansion keeps
while it goes on: the text and the sources so far, the directives followed so far, the fragments
that are being expanded with the lines that are left of each, and the fragment that is to be entered
next. `FragmentReader.step` takes one step: it enters a fragment, reads a line of the innermost one,
or leaves it. A step asks nothing of a source but to read fragments and to identify them, so it is
defined for every `FragmentReader`, also for one with endlessly many fragments.

`run_eq_flatten`: over a source, the run comes to an end, and what it ends with is what `flatten`
yields, inclusions included.
-/

namespace ShaderEmbed

/-! ## Moments and steps -/

/-- What an expansion asks of a source: the text and the identity of a fragment. -/
structure FragmentReader where
  read : Path → Except ShaderError String
  identity : Path → Except ShaderError Identity

/-- The two questions that a source answers. -/
def FragmentSource.reader (source : FragmentSource) : FragmentReader :=
  ⟨source.read, source.identity⟩

/-- A fragment that is being expanded, the number of its next line, and the lines that are left. -/
structure Frame where
  entry : Active
  number : Nat
  rest : List String
deriving DecidableEq, Repr

/-- What an expansion keeps while it goes on. The innermost fragment is the first of the frames;
`next` is the fragment named by the directive that was read last, if it is yet to be entered. -/
structure Moment where
  inclusions : List Inclusion
  text : String
  sources : List Path
  frames : List Frame
  next : Option Path
deriving DecidableEq, Repr

/-- The fragments that are being expanded, the outermost first. -/
def stackOf (frames : List Frame) : List Active := (frames.map Frame.entry).reverse

/-- The fragments that are being expanded, the outermost first. -/
def Moment.stack (m : Moment) : List Active := stackOf m.frames

@[simp] theorem stackOf_cons (frame : Frame) (below : List Frame) :
    stackOf (frame :: below) = stackOf below ++ [frame.entry] := by
  simp [stackOf]

/-- How far a run has come. -/
inductive Progress where
  | running (moment : Moment)
  | ended (attempt : Attempt)

/-- The moment that a run has come to, unless it has ended. -/
def Progress.moment? : Progress → Option Moment
  | .running m => some m
  | .ended _ => none

theorem Progress.eq_running_of_moment? {progress : Progress} {m : Moment}
    (h : progress.moment? = some m) :
    progress = .running m := by
  cases progress with
  | running moment => rw [Option.some.inj h]
  | ended attempt => cases h

namespace FragmentReader

variable (reader : FragmentReader) (marker : String)

/-- Enters a fragment, unless it is being expanded already or cannot be read. -/
def enter (m : Moment) (path : Path) : Progress :=
  match reader.identity path with
  | .error e => .ended ⟨m.inclusions, .error e⟩
  | .ok id =>
    if (m.stack.map Active.identity).contains id then
      .ended ⟨m.inclusions, .error (.cyclicInclude path (m.stack.map Active.path ++ [path]))⟩
    else
      match reader.read path with
      | .error e => .ended ⟨m.inclusions, .error e⟩
      | .ok text =>
        .running ⟨m.inclusions, m.text, m.sources ++ [path],
          ⟨⟨id, path⟩, 1, Text.terminatedLines text⟩ :: m.frames, none⟩

/-- Reads the next line of the innermost fragment, or leaves it when no line is left. -/
def readLine (m : Moment) (frame : Frame) (below : List Frame) : Progress :=
  match frame.rest with
  | [] => .running ⟨m.inclusions, m.text, m.sources, below, none⟩
  | line :: rest =>
    match Line.classify marker line with
    | .ordinary =>
      .running ⟨m.inclusions, m.text ++ line, m.sources,
        ⟨frame.entry, frame.number + 1, rest⟩ :: below, none⟩
    | .blank => .ended ⟨m.inclusions, .error (.malformedInclude frame.entry.path frame.number)⟩
    | .includes reference =>
      .running ⟨m.inclusions ++ [⟨m.stack, included frame.entry.path reference⟩], m.text, m.sources,
        ⟨frame.entry, frame.number + 1, rest⟩ :: below, some (included frame.entry.path reference)⟩

/-- One step of a run. -/
def step (m : Moment) : Progress :=
  match m.next with
  | some path => reader.enter m path
  | none =>
    match m.frames with
    | [] => .ended ⟨m.inclusions, .ok ⟨m.text, m.sources⟩⟩
    | frame :: below => readLine marker m frame below

def advance : Progress → Progress
  | .running m => reader.step marker m
  | .ended attempt => .ended attempt

def start (entry : Path) : Progress := .running ⟨[], "", [], [], some entry.normalize⟩

/-- A run after a number of steps. -/
def after (entry : Path) (steps : Nat) : Progress := (reader.advance marker)^[steps] (start entry)

theorem after_succ (entry : Path) (steps : Nat) :
    reader.after marker entry (steps + 1) =
      reader.advance marker (reader.after marker entry steps) :=
  Function.iterate_succ_apply' _ _ _

/-- A number of steps leads from one point of a run to another. -/
def Reaches (before later : Progress) : Prop :=
  ∃ steps, (reader.advance marker)^[steps] before = later

variable {reader marker}

theorem Reaches.refl (progress : Progress) : reader.Reaches marker progress progress := ⟨0, rfl⟩

theorem Reaches.trans {a b c : Progress} (h : reader.Reaches marker a b)
    (h' : reader.Reaches marker b c) :
    reader.Reaches marker a c := by
  obtain ⟨steps, rfl⟩ := h
  obtain ⟨more, rfl⟩ := h'
  exact ⟨more + steps, Function.iterate_add_apply _ _ _ _⟩

theorem Reaches.head {m : Moment} {c : Progress}
    (h : reader.Reaches marker (reader.step marker m) c) :
    reader.Reaches marker (.running m) c := by
  obtain ⟨steps, rfl⟩ := h
  exact ⟨steps + 1, rfl⟩

theorem Reaches.of_step {m : Moment} {c : Progress} (h : reader.step marker m = c) :
    reader.Reaches marker (.running m) c :=
  .head (h ▸ .refl _)

end FragmentReader

/-! ## A run does what the recursion does -/

/-- Where an attempt leads a run that makes it: on, with more inclusions, text and sources, or to an
end. -/
def Moment.behind (m : Moment) (attempt : Attempt) : Progress :=
  match attempt.result with
  | .ok flat =>
    .running ⟨m.inclusions ++ attempt.inclusions, m.text ++ flat.text, m.sources ++ flat.sources,
      m.frames, none⟩
  | .error e => .ended ⟨m.inclusions ++ attempt.inclusions, .error e⟩

section Behind

variable {inclusions : List Inclusion} {text : String} {sources : List Path} {frames : List Frame}
  {next : Option Path}

theorem behind_of_ok {attempt : Attempt} {flat : Flattened} (h : attempt.result = .ok flat) :
    Moment.behind ⟨inclusions, text, sources, frames, next⟩ attempt =
      .running ⟨inclusions ++ attempt.inclusions, text ++ flat.text,
        sources ++ flat.sources, frames, none⟩ := by
  simp only [Moment.behind, h]

theorem behind_of_error {attempt : Attempt} {e : ShaderError} (h : attempt.result = .error e) :
    Moment.behind ⟨inclusions, text, sources, frames, next⟩ attempt =
      .ended ⟨inclusions ++ attempt.inclusions, .error e⟩ := by
  simp only [Moment.behind, h]

theorem behind_afterText (line : String) (rest : Attempt) :
    Moment.behind ⟨inclusions, text, sources, frames, next⟩ (.afterText line rest) =
      Moment.behind ⟨inclusions, text ++ line, sources, frames, next⟩ rest := by
  cases h : rest.result with
  | ok flat =>
    rw [behind_of_ok h, behind_of_ok (by rw [Attempt.result_afterText, h]; rfl),
      String.append_assoc]
    rfl
  | error e =>
    rw [behind_of_error h, behind_of_error (by rw [Attempt.result_afterText, h]; rfl)]
    rfl

theorem behind_entered (path : Path) (lines : Attempt) :
    Moment.behind ⟨inclusions, text, sources, frames, next⟩ (.entered path lines) =
      Moment.behind ⟨inclusions, text, sources ++ [path], frames, next⟩ lines := by
  cases h : lines.result with
  | ok flat =>
    rw [behind_of_ok h, behind_of_ok (by rw [Attempt.result_entered, h]; rfl), List.append_assoc]
    rfl
  | error e =>
    rw [behind_of_error h, behind_of_error (by rw [Attempt.result_entered, h]; rfl)]
    rfl

theorem behind_followedBy_of_error {inclusion : Inclusion}
    {included : Attempt} {rest : Unit → Attempt} {e : ShaderError}
    (h : included.result = .error e) :
    Moment.behind ⟨inclusions, text, sources, frames, next⟩ (.followedBy inclusion included rest) =
      .ended ⟨inclusions ++ [inclusion] ++ included.inclusions, .error e⟩ := by
  rw [behind_of_error (Attempt.result_followedBy_of_error h)]
  simp [Attempt.followedBy, h]

theorem behind_followedBy_of_ok {inclusion : Inclusion} {included : Attempt} {rest : Unit → Attempt}
    {flat : Flattened} (h : included.result = .ok flat) :
    Moment.behind ⟨inclusions, text, sources, frames, next⟩ (.followedBy inclusion included rest) =
      Moment.behind ⟨inclusions ++ [inclusion] ++ included.inclusions,
        text ++ flat.text, sources ++ flat.sources, frames, next⟩ (rest ()) := by
  have hinclusions : (Attempt.followedBy inclusion included rest).inclusions =
      inclusion :: included.inclusions ++ (rest ()).inclusions := by
    simp only [Attempt.followedBy, h]
  cases hrest : (rest ()).result with
  | ok more =>
    rw [behind_of_ok hrest,
      behind_of_ok (by rw [Attempt.result_followedBy_of_ok h, hrest]; rfl), hinclusions]
    simp [String.append_assoc]
  | error e =>
    rw [behind_of_error hrest,
      behind_of_error (by rw [Attempt.result_followedBy_of_ok h, hrest]; rfl), hinclusions]
    simp

end Behind

namespace FragmentSource

variable {source : FragmentSource} {marker : String}

/-- A run that is to enter a fragment comes behind the attempt to expand it, whatever it holds. -/
def Runs (source : FragmentSource) (marker : String) (stack : List Active) (path : Path)
    (attempt : Attempt) : Prop :=
  ∀ inclusions text sources frames, stackOf frames = stack →
    source.reader.Reaches marker (.running ⟨inclusions, text, sources, frames, some path⟩)
      (Moment.behind ⟨inclusions, text, sources, frames, none⟩ attempt)

theorem reaches_of_expandLines {entry : Active} {below : List Frame} {sub : Path → Attempt}
    (hsub : ∀ next, source.Runs marker (stackOf below ++ [entry]) next (sub next))
    (lines : List String) (number : Nat) (inclusions : List Inclusion)
    (text : String) (sources : List Path) :
    source.reader.Reaches marker
      (.running ⟨inclusions, text, sources, ⟨entry, number, lines⟩ :: below, none⟩)
      (Moment.behind ⟨inclusions, text, sources, below, none⟩
        (expandLines marker (stackOf below ++ [entry]) entry.path sub number lines)) := by
  induction lines generalizing number inclusions text sources with
  | nil =>
    refine .of_step ?_
    simp [FragmentReader.step, FragmentReader.readLine, expandLines, Moment.behind, Attempt.done]
  | cons line rest ih =>
    cases hline : Line.classify marker line with
    | ordinary =>
      refine .head ?_
      simp only [FragmentReader.step, FragmentReader.readLine, hline]
      rw [expandLines_ordinary hline, behind_afterText]
      exact ih (number + 1) inclusions (text ++ line) sources
    | blank =>
      refine .of_step ?_
      simp only [FragmentReader.step, FragmentReader.readLine, hline]
      rw [expandLines_blank hline, behind_of_error (Attempt.result_fail _)]
      simp [Attempt.fail]
    | includes reference =>
      refine .head ?_
      simp only [FragmentReader.step, FragmentReader.readLine, hline, Moment.stack, stackOf_cons]
      have hentered := hsub (included entry.path reference)
        (inclusions ++ [⟨stackOf below ++ [entry], included entry.path reference⟩]) text sources
        (⟨entry, number + 1, rest⟩ :: below) (stackOf_cons _ _)
      rw [expandLines_includes hline]
      cases hresult : (sub (included entry.path reference)).result with
      | error e =>
        rw [behind_of_error hresult] at hentered
        rw [behind_followedBy_of_error hresult]
        exact hentered
      | ok flat =>
        rw [behind_of_ok hresult] at hentered
        rw [behind_followedBy_of_ok hresult]
        exact hentered.trans (ih (number + 1) _ _ _)

theorem runs_expand (source : FragmentSource) (marker : String)
    (stack : List Active) (path : Path) :
    source.Runs marker stack path (source.expand marker stack path) := by
  induction stack, path using FragmentSource.expand.induct source with
  | case1 stack path e hid =>
    intro inclusions text sources frames hstack
    refine .of_step ?_
    rw [expand_of_identity_error hid, behind_of_error (Attempt.result_fail e)]
    simp [FragmentReader.step, FragmentReader.enter, reader, hid, Attempt.fail]
  | case2 stack path id hid hactive =>
    intro inclusions text sources frames hstack
    refine .of_step ?_
    rw [expand_of_active hid hactive, behind_of_error (Attempt.result_fail _)]
    rw [← List.contains_iff_mem] at hactive
    simp only [FragmentReader.step, FragmentReader.enter, reader, hid,
      Moment.stack, hstack, if_pos hactive]
    simp [Attempt.fail]
  | case3 stack path id hid hnew e hread =>
    intro inclusions text sources frames hstack
    refine .of_step ?_
    rw [expand_of_read_error hid hnew hread, behind_of_error (Attempt.result_fail e)]
    rw [← List.contains_iff_mem] at hnew
    simp only [FragmentReader.step, FragmentReader.enter, reader, hid, Moment.stack,
      hstack, if_neg hnew, hread]
    simp [Attempt.fail]
  | case4 stack path id hid hnew content hread ih =>
    intro inclusions text sources frames hstack
    refine .head ?_
    -- one step enters the fragment, and its lines run above the longer stack
    rw [expand_of_read hid hnew hread, behind_entered]
    rw [← List.contains_iff_mem] at hnew
    simp only [FragmentReader.step, FragmentReader.enter, reader, hid, Moment.stack,
      hstack, if_neg hnew, hread]
    subst hstack
    exact reaches_of_expandLines ih _ 1 inclusions text (sources ++ [path])

/-- A run over a source comes to an end, and what it ends with is what flattening yields. -/
theorem run_eq_flatten (source : FragmentSource) (marker : String) (entry : Path) :
    ∃ steps, source.reader.after marker entry steps = .ended (source.flatten marker entry) := by
  have hentered := source.runs_expand marker [] entry.normalize [] "" [] [] rfl
  cases hresult : (source.expand marker [] entry.normalize).result with
  | error e =>
    rw [behind_of_error hresult] at hentered
    obtain ⟨steps, hsteps⟩ := hentered
    refine ⟨steps, hsteps.trans ?_⟩
    rw [flatten, List.nil_append, ← hresult]
  | ok flat =>
    rw [behind_of_ok hresult, List.nil_append, List.nil_append, String.empty_append] at hentered
    have hlast : source.reader.step marker
        ⟨(source.expand marker [] entry.normalize).inclusions, flat.text, flat.sources, [], none⟩ =
          .ended ⟨(source.expand marker [] entry.normalize).inclusions, .ok flat⟩ := rfl
    obtain ⟨steps, hsteps⟩ := hentered.trans (.of_step hlast)
    refine ⟨steps, hsteps.trans ?_⟩
    rw [flatten, ← hresult]

end FragmentSource

end ShaderEmbed
