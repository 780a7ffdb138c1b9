import Mathlib
import ShaderEmbed.Proofs.Fragment.Reads
import ShaderEmbed.Proofs.Text.LineCut
import ShaderEmbed.Proofs.Text.Trim

/-!
# Ends of lines

A text whose lines end in a line feed alone can be written with a carriage return in front of each
(`Text.withReturns`). It is cut into the same lines, written so (`terminatedLines_withReturns`), and
a line says the same with either end: behind the marker the end is white space, which is trimmed
off, and no marker reaches into it (`Directive.reference?_append_of_blank`).

So the two expansions take the same course, fragment by fragment and line by line
(`expand_withReturns`). What they come to is the same failure, or the same sources and the text with
its ends written in the other way (`flatten_withReturns`).
-/

namespace ShaderEmbed

/-! ## Texts -/

namespace Text

variable {s : List Char} {pieces : List (List Char)}

/-- Characters with a carriage return in front of each line feed. -/
def addReturns (s : List Char) : List Char :=
  s.flatMap fun c => if c = '\n' then ['\r', '\n'] else [c]

/-- A text with a carriage return in front of each line feed. -/
def withReturns (s : String) : String := String.ofList (addReturns s.toList)

theorem addReturns_append (s t : List Char) :
    addReturns (s ++ t) = addReturns s ++ addReturns t := List.flatMap_append

theorem addReturns_of_notMem (h : '\n' ∉ s) : addReturns s = s := by
  induction s with
  | nil => rfl
  | cons c rest ih =>
    simp only [List.mem_cons, not_or] at h
    rw [← List.singleton_append, addReturns_append, ih h.2]
    simp [addReturns, Ne.symm h.1]

theorem addReturns_terminated (h : '\n' ∉ s) (rest : List Char) :
    addReturns (s ++ '\n' :: rest) = (s ++ ['\r']) ++ '\n' :: addReturns rest := by
  rw [addReturns_append, addReturns_of_notMem h, List.append_assoc]
  rfl

theorem withReturns_append (s t : String) :
    withReturns (s ++ t) = withReturns s ++ withReturns t := by
  rw [withReturns, String.toList_append, addReturns_append, String.ofList_append,
    withReturns, withReturns]

theorem CutsInto.addReturns (h : CutsInto s pieces) :
    CutsInto (addReturns s) (pieces.map addReturns) := by
  induction h with
  | nil => exact .nil
  | unterminated hne hline =>
    rw [List.map_singleton, addReturns_of_notMem hline]
    exact .unterminated hne hline
  | @terminated line rest pieces hline _ ih =>
    -- the return is the last of what the line feed ends
    have hlonger : '\n' ∉ line ++ ['\r'] := by simp [hline]
    rw [List.map_cons, addReturns_terminated hline rest, addReturns_terminated hline []]
    exact .terminated hlonger ih

theorem terminatedLines_withReturns (s : String) :
    terminatedLines (withReturns s) = (terminatedLines s).map withReturns := by
  have hcut := cutsInto_iff.mp (cutsInto_cutLines s.toList).addReturns
  rw [terminatedLines, withReturns, String.toList_ofList, ← hcut, terminatedLines,
    List.map_map, List.map_map]
  refine List.map_congr_left fun piece _ => ?_
  simp [withReturns]

end Text

/-! ## Directives -/

namespace Directive

variable {marker line more : List Char}

theorem behind?_append (h : ∀ c ∈ more, c ∉ marker) :
    behind? marker (line ++ more) = (behind? marker line).map (· ++ more) := by
  induction marker generalizing line with
  | nil => rfl
  | cons m marker ih =>
    cases line with
    | nil =>
      cases more with
      | nil => rfl
      | cons c more =>
        have hne : m ≠ c := by
          rintro rfl
          exact h m List.mem_cons_self List.mem_cons_self
        rw [List.nil_append, behind?, behind?, if_neg hne]
        rfl
    | cons c line =>
      rw [List.cons_append, behind?, behind?]
      split
      · exact ih fun d hd hmem => h d hd (List.mem_cons_of_mem _ hmem)
      · rfl

/-- White space behind a line, none of which is in the marker, does not change what the line
says. -/
theorem reference?_append_of_blank (h : ∀ c ∈ more, Text.isBlank c ∧ c ∉ marker) :
    reference? marker (line ++ more) = reference? marker line := by
  have hblank : ∀ c ∈ more, Text.isBlank c := fun c hc => (h c hc).1
  rw [reference?, reference?, behind?_append fun c hc => (h c hc).2]
  cases behind? marker line with
  | none => rfl
  | some rest =>
    cases rest with
    | nil =>
      -- nothing but the white space is behind the marker
      cases more with
      | nil => rfl
      | cons c more =>
        have htrim := Text.trim_eq_nil_iff.mpr hblank
        simp only [Option.map_some, List.nil_append, hblank c List.mem_cons_self, if_true, htrim]
    | cons c rest =>
      have htrim : Text.trim (c :: (rest ++ more)) = Text.trim (c :: rest) := by
        rw [← List.cons_append, Text.trim_append_of_blank hblank]
      simp only [Option.map_some, List.cons_append, htrim]

end Directive

/-- A line with its end written in the other way does what it did. -/
theorem classify_withReturns {marker content line : String} (hreturn : '\r' ∉ marker.toList)
    (hfeed : '\n' ∉ marker.toList) (hline : line ∈ Text.terminatedLines content) :
    Line.classify marker (Text.withReturns line) = Line.classify marker line := by
  have hsame {s : List Char} {pieces : List (List Char)} (hcut : Text.CutsInto s pieces) :
      ∀ piece ∈ pieces, Directive.reference? marker.toList (Text.addReturns piece) =
        Directive.reference? marker.toList piece := by
    have hblank : ∀ c ∈ ['\r', '\n'], Text.isBlank c ∧ c ∉ marker.toList := by
      rw [List.forall_mem_cons, List.forall_mem_singleton]
      exact ⟨⟨by decide, hreturn⟩, by decide, hfeed⟩
    have hend : ∀ c ∈ ['\n'], Text.isBlank c ∧ c ∉ marker.toList :=
      fun c hc => hblank c (List.mem_cons_of_mem _ hc)
    induction hcut with
    | nil => simp
    | unterminated _ hunended => rw [List.forall_mem_singleton, Text.addReturns_of_notMem hunended]
    | @terminated front _ _ hfront _ ih =>
      refine List.forall_mem_cons.mpr ⟨?_, ih⟩
      rw [Text.addReturns_append, Text.addReturns_of_notMem hfront,
        Directive.reference?_append_of_blank hend]
      exact Directive.reference?_append_of_blank hblank
  obtain ⟨piece, hpiece, rfl⟩ := List.mem_map.mp hline
  have hreference := hsame (Text.cutsInto_cutLines content.toList) piece hpiece
  rw [Line.classify, Line.classify, Text.withReturns, String.toList_ofList,
    String.toList_ofList, hreference]

/-! ## Expansions -/

/-- A flattened text with the other ends of lines, of the same sources. -/
def Flattened.withReturns (flat : Flattened) : Flattened :=
  ⟨Text.withReturns flat.text, flat.sources⟩

namespace Attempt

/-- The attempt that meets the same directives, and comes to a text with the other ends of lines or
fails alike. -/
def withReturns (attempt : Attempt) : Attempt :=
  ⟨attempt.inclusions, attempt.result.map Flattened.withReturns⟩

theorem withReturns_afterText (line : String) (rest : Attempt) :
    (afterText line rest).withReturns = afterText (Text.withReturns line) rest.withReturns := by
  obtain ⟨inclusions, e | flat⟩ := rest
  · rfl
  · simp [afterText, withReturns, Except.map, Flattened.withReturns, Text.withReturns_append]

theorem withReturns_entered (path : Path) (lines : Attempt) :
    (entered path lines).withReturns = entered path lines.withReturns := by
  obtain ⟨inclusions, e | flat⟩ := lines <;> rfl

theorem withReturns_followedBy (inclusion : Inclusion) (included : Attempt)
    (rest : Unit → Attempt) :
    (followedBy inclusion included rest).withReturns =
      followedBy inclusion included.withReturns fun u => (rest u).withReturns := by
  obtain ⟨inclusions, e | flat⟩ := included
  · rfl
  · simp only [followedBy, withReturns, Except.map]
    cases (rest ()).result with
    | error e => rfl
    | ok more => simp [Flattened.withReturns, Text.withReturns_append]

end Attempt

variable {marker : String}

theorem expandLines_withReturns {stack : List Active} {path : Path} {sub sub' : Path → Attempt}
    {number : Nat} {lines : List String}
    (hlines : ∀ line ∈ lines, Line.classify marker (Text.withReturns line) =
      Line.classify marker line)
    (hsub : ∀ next, sub' next = (sub next).withReturns) :
    expandLines marker stack path sub' number (lines.map Text.withReturns) =
      (expandLines marker stack path sub number lines).withReturns := by
  induction lines generalizing number with
  | nil => rfl
  | cons line rest ih =>
    obtain ⟨hline, hrest⟩ := List.forall_mem_cons.mp hlines
    rw [List.map_cons]
    cases hkind : Line.classify marker line with
    | ordinary =>
      rw [expandLines_ordinary (hline.trans hkind), expandLines_ordinary hkind, ih hrest,
        Attempt.withReturns_afterText]
    | blank =>
      rw [expandLines_blank (hline.trans hkind), expandLines_blank hkind]
      rfl
    | includes reference =>
      rw [expandLines_includes (hline.trans hkind), expandLines_includes hkind, hsub,
        Attempt.withReturns_followedBy]
      congr 1
      funext u
      exact ih hrest

namespace FragmentMap

variable {fragments : FragmentMap} {p : Path} {content : String} {e : ShaderError}

/-- Fragments with a carriage return in front of each line feed. -/
def withReturns (fragments : FragmentMap) : FragmentMap :=
  ⟨fragments.entries.map fun entry => (entry.1, Text.withReturns entry.2)⟩

theorem get?_withReturns (fragments : FragmentMap) (p : Path) :
    fragments.withReturns.get? p = (fragments.get? p).map Text.withReturns :=
  lookup_map_values Text.withReturns p.place fragments.entries

theorem read_withReturns (fragments : FragmentMap) (p : Path) :
    fragments.withReturns.source.read p = (fragments.source.read p).map Text.withReturns := by
  simp only [source, get?_withReturns]
  cases fragments.get? p <;> rfl

/-- Fragments with the other ends of lines are expanded as they were, but for the ends of lines. -/
theorem expand_withReturns (hreturn : '\r' ∉ marker.toList) (hfeed : '\n' ∉ marker.toList)
    (stack : List Active) (p : Path) :
    fragments.withReturns.source.expand marker stack p =
      (fragments.source.expand marker stack p).withReturns := by
  have hidentity : fragments.withReturns.source.identity = fragments.source.identity := rfl
  refine FragmentSource.expand_related (R := fun attempt attempt' => attempt' =
    attempt.withReturns) hidentity (fun _ => rfl) ?_ ?_ stack p
  · intro p e hread
    rw [read_withReturns, hread]
    rfl
  · intro stack p content hread hnext
    refine ⟨Text.withReturns content, ?_, ?_⟩
    · rw [read_withReturns, hread]
      rfl
    · rw [Attempt.withReturns_entered, Text.terminatedLines_withReturns]
      congr 1
      exact expandLines_withReturns (fun line hline =>
        classify_withReturns hreturn hfeed hline) hnext

/-- Flattening does not depend on how lines end: with a carriage return in front of each line feed
of all fragments, an entry is flattened to the text with a carriage return in front of each line
feed, of the same sources, or fails with the same failure; and the same directives are followed. -/
theorem flatten_withReturns (fragments : FragmentMap) (marker : String) (entry : Path)
    (hreturn : '\r' ∉ marker.toList) (hfeed : '\n' ∉ marker.toList) :
    (fragments.withReturns.source.flatten marker entry).result =
        (fragments.source.flatten marker entry).result.map
          (fun flat => ⟨Text.withReturns flat.text, flat.sources⟩) ∧
      (fragments.withReturns.source.flatten marker entry).inclusions =
        (fragments.source.flatten marker entry).inclusions := by
  have hexpand : fragments.withReturns.source.expand marker [] entry.normalize =
      (fragments.source.expand marker [] entry.normalize).withReturns :=
        expand_withReturns hreturn hfeed [] entry.normalize
  rw [FragmentSource.flatten, FragmentSource.flatten, hexpand]
  exact ⟨rfl, rfl⟩

/-- Fragments with lines of all ends: with a return already, without an end, and a marker right in
front of the end. -/
def mixedEnds : FragmentMap :=
  .ofList [(⟨"a"⟩, "x\r\n#include b\ny"), (⟨"b"⟩, "B"), (⟨"m"⟩, "\n#include\n")]

theorem flatten_mixedEnds :
    '\r' ∉ standardMarker.toList ∧ '\n' ∉ standardMarker.toList ∧
    (mixedEnds.withReturns.source.flatten standardMarker ⟨"a"⟩).result =
      .ok ⟨"x\r\r\nBy", [⟨"a"⟩, ⟨"b"⟩]⟩ ∧
    (mixedEnds.withReturns.source.flatten standardMarker ⟨"m"⟩).result =
      .error (.malformedInclude ⟨"m"⟩ 2) := by
  let a : Path := ⟨"a"⟩
  let b : Path := ⟨"b"⟩
  let m : Path := ⟨"m"⟩
  have hreturn : '\r' ∉ standardMarker.toList := by decide +kernel
  have hfeed : '\n' ∉ standardMarker.toList := by decide +kernel
  have hafter : mixedEnds.source.reader.after standardMarker a 8 =
      .running ⟨[⟨[⟨[.name "a"], a⟩], b⟩], "x\r\nBy", [a, b], [], none⟩ := by cbv
  have hfault : mixedEnds.source.reader.after standardMarker m 3 =
      .ended ⟨[], .error (.malformedInclude m 2)⟩ := by cbv
  have hflat := FragmentSource.result_flatten_of_after hafter
  have hfailed := FragmentSource.flatten_eq_of_after hfault
  refine ⟨hreturn, hfeed, ?_, ?_⟩
  · rw [(flatten_withReturns mixedEnds standardMarker a hreturn hfeed).1, hflat]
    decide +kernel
  · rw [(flatten_withReturns mixedEnds standardMarker m hreturn hfeed).1, hfailed]
    rfl

end FragmentMap

end ShaderEmbed
