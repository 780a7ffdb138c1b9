import ShaderEmbed.Proofs.Fragment.Reads
import ShaderEmbed.Run.Event

/-!
# The balance of an expansion

An expansion copies the ordinary lines of the fragments that it enters, and each of their directives
makes it enter one fragment more. So what a run has copied and followed, taken together with the
lines that are left of the fragments being expanded, comes to what the fragments entered so far hold
(`FragmentReader.Balanced`). `balanced_step` shows that a step keeps this balance, `balanced_after`
that every run has it.

A run that succeeds leaves no line. Hence `FragmentSource.flatten_balanced`: a flattened text has
the bytes of the ordinary lines of its sources, each counted as often as it is a source, and its
sources are the entry and one for each of their directives, in the order in which the directives
were followed.
-/

namespace ShaderEmbed

section Lines

variable {marker line : String}

def ordinarySize (marker : String) (lines : List String) : Nat :=
  ((lines.filter fun line => Line.classify marker line = .ordinary).map String.utf8ByteSize).sum

def directiveCount (marker : String) (lines : List String) : Nat :=
  lines.countP fun line => Line.classify marker line ≠ .ordinary

theorem counts_of_ordinary (h : Line.classify marker line = .ordinary) (rest : List String) :
    ordinarySize marker (line :: rest) = line.utf8ByteSize + ordinarySize marker rest ∧
      directiveCount marker (line :: rest) = directiveCount marker rest := by
  simp [ordinarySize, directiveCount, h]

theorem counts_of_directive (h : Line.classify marker line ≠ .ordinary) (rest : List String) :
    ordinarySize marker (line :: rest) = ordinarySize marker rest ∧
      directiveCount marker (line :: rest) = directiveCount marker rest + 1 := by
  simp [ordinarySize, directiveCount, h]

end Lines

/-! ## The balance of a run -/

namespace FragmentReader

def lines (reader : FragmentReader) (p : Path) : List String :=
  match reader.read p with
  | .ok text => Text.terminatedLines text
  | .error _ => []

/-- What has been copied and followed, and the lines that are left, come to what the sources hold;
and the sources, with the fragment to be entered next, are the entry and the fragments that
directives named. -/
structure Balanced (reader : FragmentReader) (marker : String) (start : Path)
    (m : Moment) : Prop where
  readable : ∀ p ∈ m.sources, ∃ text, reader.read p = .ok text
  bytes : m.text.utf8ByteSize + (m.frames.map fun frame => ordinarySize marker frame.rest).sum =
    (m.sources.map fun p => ordinarySize marker (reader.lines p)).sum
  directives : m.inclusions.length +
    (m.frames.map fun frame => directiveCount marker frame.rest).sum =
    (m.sources.map fun p => directiveCount marker (reader.lines p)).sum
  order : m.sources ++ m.next.toList = start :: m.inclusions.map Inclusion.path

variable {reader : FragmentReader} {marker : String} {start path : Path} {m later : Moment}

theorem lines_of_read {text : String} (h : reader.read path = .ok text) :
    reader.lines path = Text.terminatedLines text := by
  simp only [lines, h]

theorem balanced_enter (h : reader.Balanced marker start m) (hnext : m.next = some path)
    (henter : reader.enter m path = .running later) : reader.Balanced marker start later := by
  obtain ⟨id, text, -, -, hread, rfl⟩ := exists_of_enter_eq_running henter
  have hbytes := h.bytes
  have hdirectives := h.directives
  have horder := h.order
  rw [hnext] at horder
  constructor
  · intro p hp
    rcases List.mem_append.mp hp with hearlier | hnew
    · exact h.readable p hearlier
    · obtain rfl := List.mem_singleton.mp hnew
      exact ⟨text, hread⟩
  -- the fragment comes to the sources with all its lines, and all of them are left
  · simp only [List.map_cons, List.map_append, List.map_nil, List.sum_cons,
      List.sum_append, List.sum_nil, lines_of_read hread]
    omega
  · simp only [List.map_cons, List.map_append, List.map_nil, List.sum_cons,
      List.sum_append, List.sum_nil, lines_of_read hread]
    omega
  · simpa using horder

theorem balanced_readLine {frame : Frame} {below : List Frame} (h : reader.Balanced marker start m)
    (hnext : m.next = none) (hframes : m.frames = frame :: below)
    (hline : readLine marker m frame below = .running later) :
    reader.Balanced marker start later := by
  have hbytes := h.bytes
  have hdirectives := h.directives
  have horder := h.order
  rw [hframes, List.map_cons, List.sum_cons] at hbytes hdirectives
  rw [hnext, Option.toList_none, List.append_nil] at horder
  rcases cases_of_readLine_eq_running hline with ⟨hrest, rfl⟩ | ⟨line, rest, hrest, hkind, rfl⟩ |
    ⟨line, rest, reference, hrest, hkind, rfl⟩
  · rw [hrest] at hbytes hdirectives
    refine ⟨h.readable, ?_, ?_, ?_⟩
    · simpa [ordinarySize] using hbytes
    · simpa [directiveCount] using hdirectives
    · simpa using horder
  · rw [hrest] at hbytes hdirectives
    obtain ⟨hsize, hcount⟩ := counts_of_ordinary hkind rest
    refine ⟨h.readable, ?_, ?_, ?_⟩
    · simp only [List.map_cons, List.sum_cons, String.utf8ByteSize_append]
      omega
    · simp only [List.map_cons, List.sum_cons]
      omega
    · simpa using horder
  · rw [hrest] at hbytes hdirectives
    have hdirective : Line.classify marker line ≠ .ordinary := by simp [hkind]
    obtain ⟨hsize, hcount⟩ := counts_of_directive hdirective rest
    refine ⟨h.readable, ?_, ?_, ?_⟩
    · simp only [List.map_cons, List.sum_cons]
      omega
    · simp only [List.map_cons, List.sum_cons, List.length_append, List.length_singleton]
      omega
    · -- what the directive names is entered next
      simp [horder]

/-- A step that goes on keeps the balance. -/
theorem balanced_step (h : reader.Balanced marker start m)
    (hstep : reader.step marker m = .running later) :
    reader.Balanced marker start later := by
  rcases cases_of_step_eq_running hstep with
    ⟨path, hnext, henter⟩ | ⟨frame, below, hnext, hframes, hline⟩
  · exact balanced_enter h hnext henter
  · exact balanced_readLine h hnext hframes hline

/-- A directive that was followed stands in the innermost of the fragments that were being
expanded. -/
def Named (reader : FragmentReader) (marker : String) (inclusion : Inclusion) : Prop :=
  ∃ below active, inclusion.stack = below ++ [active] ∧
  reader.Includes marker active.path inclusion.path

theorem named_step (h : reader.SoundMoment marker start m)
    (hnamed : ∀ inclusion ∈ m.inclusions, reader.Named marker inclusion)
    (hstep : reader.step marker m = .running later) :
    ∀ inclusion ∈ later.inclusions, reader.Named marker inclusion := by
  rcases cases_of_step_eq_running hstep with ⟨path, -, henter⟩ | ⟨frame, below, -, hframes, hline⟩
  · obtain ⟨id, text, -, -, -, rfl⟩ := exists_of_enter_eq_running henter
    exact hnamed
  · rcases cases_of_readLine_eq_running hline with ⟨-, rfl⟩ | ⟨line, rest, -, -, rfl⟩ |
      ⟨line, rest, reference, hrest, hkind, rfl⟩
    · exact hnamed
    · exact hnamed
    · obtain ⟨text, hread, hlines⟩ := h.lines frame (by rw [hframes]; exact List.mem_cons_self)
      have hmem : line ∈ Text.terminatedLines text :=
        hlines line (by rw [hrest]; exact List.mem_cons_self)
      have hstack : m.stack = stackOf below ++ [frame.entry] := by
        rw [Moment.stack, hframes, stackOf_cons]
      intro inclusion hinclusion
      rcases List.mem_append.mp hinclusion with hearlier | hnew
      · exact hnamed inclusion hearlier
      · obtain rfl := List.mem_singleton.mp hnew
        refine ⟨stackOf below, frame.entry, hstack, ?_⟩
        dsimp only
        exact ⟨text, line, reference, hread, hmem, hkind, rfl⟩

/-- Every run is balanced as long as it goes on, and the directives that it followed stand where
they are said to stand. -/
theorem balanced_after {entry : Path} {steps : Nat}
    (h : reader.after marker entry steps = .running m) :
    reader.Balanced marker entry.normalize m ∧ ∀ inclusion ∈ m.inclusions,
      reader.Named marker inclusion := by
  induction steps generalizing m with
  | zero =>
    cases h
    exact ⟨⟨by simp, rfl, rfl, rfl⟩, by simp⟩
  | succ steps ih =>
    rw [after_succ] at h
    cases hbefore : reader.after marker entry steps with
    | running before =>
      rw [hbefore] at h
      have hsound := sound_after hbefore
      obtain ⟨hbalanced, hnamed⟩ := ih hbefore
      exact ⟨balanced_step hbalanced h, named_step hsound hnamed h⟩
    | ended attempt =>
      rw [hbefore] at h
      cases h

end FragmentReader

/-! ## Flattening -/

namespace Attempt

def records (attempt : Attempt) : List (LogLevel × String) :=
  (attempt.inclusions.map Event.inclusion).filterMap Event.record?

theorem records_eq (attempt : Attempt) :
    attempt.records = attempt.inclusions.map fun step =>
      (.trace, Event.includer step ++ " includes " ++ step.path.text) := by
  rw [records, List.filterMap_map, ← List.filterMap_eq_map]
  rfl

end Attempt

namespace FragmentSource

/-- Nothing is lost in a flattened text, and nothing is in it twice: its bytes are those of the
ordinary lines of its sources, and its sources are as many as their directives and the entry. The
log has one record for each source but the entry, in the order of the sources; it names the source
and a fragment of which a directive names it. -/
theorem flatten_balanced {source : FragmentSource} {marker : String}
    {entry : Path} {flat : Flattened} (h : (source.flatten marker entry).result = .ok flat) :
    (∀ p ∈ flat.sources, ∃ text, source.read p = .ok text) ∧
      flat.text.utf8ByteSize =
        (flat.sources.map fun p => ordinarySize marker (source.reader.lines p)).sum ∧
      flat.sources.length = 1 +
        (flat.sources.map fun p => directiveCount marker (source.reader.lines p)).sum ∧
      (source.flatten marker entry).records.length = flat.sources.length - 1 ∧
      ∀ i record, (source.flatten marker entry).records[i]? = some record →
        ∃ includer included, flat.sources[i + 1]? = some included ∧
          source.reader.Includes marker includer included ∧
          record = (.trace, includer.text ++ " includes " ++ included.text) := by
  obtain ⟨m, hm⟩ := source.exists_endsBehind_flatten marker entry
  obtain rfl := hm.eq_last_of_ok h
  obtain ⟨steps, hrunning, -⟩ := hm
  obtain ⟨⟨hreadable, hbytes, hdirectives, horder⟩, hnamed⟩ :=
    FragmentReader.balanced_after hrunning
  simp only [List.map_nil, List.sum_nil, Nat.add_zero, Option.toList_none, List.append_nil]
    at hbytes hdirectives horder
  have hlength : flat.sources.length = (source.flatten marker entry).inclusions.length + 1 := by
    rw [horder, List.length_cons, List.length_map]
  refine ⟨hreadable, hbytes, ?_, ?_, ?_⟩
  · rw [hlength, hdirectives, Nat.add_comm]
  · rw [hlength, Attempt.records_eq, List.length_map, Nat.add_sub_cancel]
  · intro i record hrecord
    rw [Attempt.records_eq, List.getElem?_map] at hrecord
    obtain ⟨inclusion, hinclusion, rfl⟩ := Option.map_eq_some_iff.mp hrecord
    obtain ⟨below, active, hstack, hincludes⟩ := hnamed inclusion (List.mem_of_getElem? hinclusion)
    have hsource : flat.sources[i + 1]? = some inclusion.path := by
      rw [horder, List.getElem?_cons_succ, List.getElem?_map, hinclusion, Option.map_some]
    refine ⟨active.path, inclusion.path, hsource, hincludes, ?_⟩
    simp [Event.includer, hstack]

end FragmentSource

namespace FragmentMap

/-- A fragment that is included on two branches, with a letter of two bytes. -/
def diamond : FragmentMap :=
  .ofList [(⟨"main"⟩, "#include left\n#include right\n"), (⟨"left"⟩, "#include common\nL\n"),
    (⟨"right"⟩, "#include common\nR"), (⟨"common"⟩, "é\n")]

theorem flatten_balanced_diamond :
    (diamond.source.flatten standardMarker ⟨"main"⟩).result =
      .ok ⟨"é\nL\né\nR", [⟨"main"⟩, ⟨"left"⟩, ⟨"common"⟩, ⟨"right"⟩, ⟨"common"⟩]⟩ ∧
    ("é\nL\né\nR".utf8ByteSize = 9 ∧
      ([⟨"main"⟩, ⟨"left"⟩, ⟨"common"⟩, ⟨"right"⟩, ⟨"common"⟩].map fun p =>
        ordinarySize standardMarker (diamond.source.reader.lines p)).sum = 9) ∧
    (diamond.source.flatten standardMarker ⟨"main"⟩).records.length = 4 := by
  let main : Path := ⟨"main"⟩
  let left : Path := ⟨"left"⟩
  let right : Path := ⟨"right"⟩
  let common : Path := ⟨"common"⟩
  let stack : List Active := [⟨[.name "main"], main⟩]
  have hafter : diamond.source.reader.after standardMarker main 18 =
      .running ⟨[⟨stack, left⟩, ⟨stack ++ [⟨[.name "left"], left⟩], common⟩, ⟨stack, right⟩,
        ⟨stack ++ [⟨[.name "right"], right⟩], common⟩], "é\nL\né\nR",
          [main, left, common, right, common], [], none⟩ :=
    Progress.eq_running_of_moment? (by decide +kernel)
  have hflat := FragmentSource.result_flatten_of_after hafter
  obtain ⟨-, hbytes, -, hrecords, -⟩ := FragmentSource.flatten_balanced hflat
  have hsize : "é\nL\né\nR".utf8ByteSize = 9 := by decide +kernel
  exact ⟨hflat, ⟨hsize, hbytes.symm.trans hsize⟩, hrecords⟩

end FragmentMap

end ShaderEmbed
