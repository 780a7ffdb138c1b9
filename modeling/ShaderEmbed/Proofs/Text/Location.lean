import Mathlib.Data.List.Induction
import Mathlib.Data.List.TakeWhile
import Mathlib.Data.String.Basic
import ShaderEmbed.Config.FileForm
import ShaderEmbed.Proofs.Path.NormalForm

/-!
# Where a location is

`offsetAt?` goes the way back from a location: down to its line, which is what is between two line
feeds, and along the line to its column. It arrives at the offset that was located, and at nothing
else (`offsetAt?_eq_some_iff`), so that a location names one offset. Each character leads on to a
location behind the one before (`behind_before_append`), and so later offsets lie behind earlier
ones. The column is also the length of what follows the last line feed, counted in characters
(`columnBySlice?_eq`).

An offset that lies on no boundary is located at the end of the text, so what is reported of a
configuration file that cannot be read always names a boundary of its text, whatever reads it
(`locate_identifies`).
-/

namespace ShaderEmbed.Text

open String (utf8Len)

/-! ## The way back -/

/-- The offset that lies some lines down and some characters along, in lines that are put together
by line feeds. -/
def offsetAmong? : List (List Char) → Nat → Nat → Option Nat
  | [], _, _ => none
  | line :: _, 0, along => if along ≤ line.length then some (utf8Len (line.take along)) else none
  | line :: below, down + 1, along =>
    (offsetAmong? below down along).map fun offset => utf8Len line + 1 + offset

/-- The offset at a line and a column of a text, if the text reaches there. -/
def offsetAt? (s : List Char) : Location → Option Nat
  | ⟨down + 1, along + 1⟩ => offsetAmong? ((cut '\n' s).1 :: (cut '\n' s).2) down along
  | _ => none

/-- One location is on an earlier line than another, or further to the front on the same line. -/
def Location.Before (a b : Location) : Prop :=
  a.line < b.line ∨ a.line = b.line ∧ a.column < b.column

/-! ## The column by the last line feed -/

/-- The offset of the last line feed. -/
def lastFeed? : List Char → Option Nat
  | [] => none
  | c :: rest =>
    match lastFeed? rest with
    | some feed => some (c.utf8Size + feed)
    | none => if c = '\n' then some 0 else none

/-- The characters from an offset on; from an offset that is no boundary there is no such slice. -/
def sliceFrom? : List Char → Nat → Option (List Char)
  | s, 0 => some s
  | [], _ + 1 => none
  | c :: rest, offset@(_ + 1) =>
    if c.utf8Size ≤ offset then sliceFrom? rest (offset - c.utf8Size) else none

/-- The column behind some characters, by the slice that starts behind their last line feed. -/
def columnBySlice? (passed : List Char) : Option Nat :=
  match lastFeed? passed with
  | none => some (passed.length + 1)
  | some feed => (sliceFrom? passed (feed + 1)).map fun slice => slice.length + 1

/-! ## Boundaries -/

section Boundaries

variable {s passed rest : List Char} {offset : Nat}

theorem before?_cons (c : Char) (rest : List Char) (offset : Nat) :
    before? (c :: rest) (c.utf8Size + offset) = (before? rest offset).map (c :: ·) := by
  obtain ⟨n, hn⟩ := Nat.exists_eq_succ_of_ne_zero (Nat.add_pos_left c.utf8Size_pos offset).ne'
  rw [hn, before?, ← hn, if_pos (Nat.le_add_right _ _), Nat.add_sub_cancel_left]

theorem before?_append (passed rest : List Char) :
    before? (passed ++ rest) (utf8Len passed) = some passed := by
  induction passed with
  | nil => simp [before?]
  | cons c passed ih =>
    rw [List.cons_append, String.utf8Len_cons, Nat.add_comm, before?_cons, ih, Option.map_some]

theorem prefix_of_before? (h : before? s offset = some passed) :
    passed <+: s ∧ utf8Len passed = offset := by
  fun_induction before? s offset generalizing passed with
  | case1 s =>
    cases h
    exact ⟨List.nil_prefix, rfl⟩
  | case2 => cases h
  | case3 c rest n hle ih =>
    obtain ⟨more, hmore, rfl⟩ := Option.map_eq_some_iff.mp h
    obtain ⟨hbegins, hlen⟩ := ih hmore
    refine ⟨List.cons_prefix_cons.mpr ⟨rfl, hbegins⟩, ?_⟩
    rw [String.utf8Len_cons]
    omega
  | case4 => cases h

theorem before?_eq_some_iff :
    before? s offset = some passed ↔ passed <+: s ∧ utf8Len passed = offset := by
  constructor
  · exact prefix_of_before?
  · rintro ⟨⟨rest, rfl⟩, rfl⟩
    exact before?_append passed rest

/-- A valid position of a text is one behind the beginning of its characters. -/
theorem isValid_iff (content : String) (offset : Nat) :
    String.Pos.Raw.IsValid content ⟨offset⟩ ↔ ∃ passed, passed <+: content.toList ∧
    utf8Len passed = offset := by
  rw [String.Pos.Raw.isValid_iff_exists_append]
  constructor
  · rintro ⟨front, back, rfl, hpos⟩
    refine ⟨front.toList, by simp, ?_⟩
    rw [String.utf8Len_toList]
    exact (congrArg String.Pos.Raw.byteIdx hpos).symm
  · rintro ⟨passed, ⟨back, hback⟩, rfl⟩
    refine ⟨String.ofList passed, String.ofList back, ?_, by simp⟩
    rw [← String.ofList_append, hback, String.ofList_toList]

/-- Of two beginnings of a text, the one of fewer bytes is the beginning of the other. -/
theorem exists_append_of_utf8Len_lt {later : List Char} (h : passed <+: s) (h' : later <+: s)
    (hlt : utf8Len passed < utf8Len later) : ∃ c more, later = passed ++ c :: more := by
  rcases List.prefix_or_prefix_of_prefix h h' with ⟨more, rfl⟩ | hback
  · cases more with
    | nil => simp at hlt
    | cons c more => exact ⟨c, more, rfl⟩
  · exact absurd (String.utf8Len_le_of_prefix hback) (Nat.not_le.mpr hlt)

theorem prefix_append_cons_iff {front : List Char} {c : Char} :
    passed <+: front ++ c :: rest ↔ passed <+: front ∨ ∃ more, more <+: rest ∧
    passed = front ++ c :: more := by
  constructor
  · rintro ⟨after, hafter⟩
    rcases List.append_eq_append_iff.mp hafter with ⟨more, rfl, -⟩ | ⟨more, rfl, hmore⟩
    · exact Or.inl (List.prefix_append passed more)
    · cases more with
      | nil => exact Or.inl (by simp)
      | cons d more =>
        obtain ⟨rfl, rfl⟩ := List.cons.inj hmore
        exact Or.inr ⟨more, List.prefix_append more after, rfl⟩
  · rintro (h | ⟨more, ⟨after, rfl⟩, rfl⟩)
    · exact h.trans (List.prefix_append front _)
    · exact ⟨after, by simp⟩

end Boundaries

/-! ## Locations behind characters -/

section Behind

open Location

variable {passed front rest : List Char}

theorem behind_of_notMem (h : '\n' ∉ passed) : behind passed = ⟨1, passed.length + 1⟩ := by
  have hall : ∀ c ∈ passed.reverse, decide (c ≠ '\n') = true := by
    intro c hc
    rw [decide_eq_true_iff]
    rintro rfl
    exact h (List.mem_reverse.mp hc)
  rw [behind, List.count_eq_zero.mpr h, List.takeWhile_eq_self_iff.mpr hall, List.length_reverse]

theorem behind_concat (passed : List Char) (c : Char) :
    behind (passed ++ [c]) =
      if c = '\n' then ⟨(behind passed).line + 1, 1⟩ else
        ⟨(behind passed).line, (behind passed).column + 1⟩ := by
  by_cases hc : c = '\n'
  · subst hc
    simp [behind]
  · simp [behind, hc]

/-- Behind a line feed lines go on and columns are counted anew. -/
theorem behind_append_newline (front rest : List Char) :
    behind (front ++ '\n' :: rest) =
      ⟨front.count '\n' + 1 + (behind rest).line, (behind rest).column⟩ := by
  induction rest using List.reverseRecOn with
  | nil => exact behind_concat front '\n'
  | append_singleton rest c ih =>
    rw [← List.cons_append, ← List.append_assoc, behind_concat, behind_concat, ih]
    split <;> rfl

theorem behind_line_append (h : '\n' ∉ front) (rest : List Char) :
    behind (front ++ '\n' :: rest) = ⟨(behind rest).line + 1, (behind rest).column⟩ := by
  rw [behind_append_newline, List.count_eq_zero.mpr h, Nat.zero_add, Nat.add_comm]

theorem utf8Len_append_newline (front rest : List Char) :
    utf8Len (front ++ '\n' :: rest) = utf8Len front + 1 + utf8Len rest := by
  have hfeed : '\n'.utf8Size = 1 := rfl
  rw [String.utf8Len_append, String.utf8Len_cons, hfeed, Nat.add_comm (utf8Len rest), Nat.add_assoc]

theorem Location.Before.trans {a b c : Location} (h : a.Before b) (h' : b.Before c) :
    a.Before c := by
  unfold Before at *
  omega

theorem Location.Before.irrefl (a : Location) : ¬ a.Before a := by
  unfold Before
  omega

/-- Every character leads on. -/
theorem behind_before_concat (passed : List Char) (c : Char) :
    (behind passed).Before (behind (passed ++ [c])) := by
  rw [behind_concat]
  split
  · exact Or.inl (Nat.lt_succ_self _)
  · exact Or.inr ⟨rfl, Nat.lt_succ_self _⟩

theorem behind_before_append (passed : List Char) (c : Char) (more : List Char) :
    (behind passed).Before (behind (passed ++ c :: more)) := by
  induction more generalizing passed c with
  | nil => exact behind_before_concat passed c
  | cons d more ih =>
    have hmore := ih (passed ++ [c]) d
    rw [List.append_assoc, List.singleton_append] at hmore
    exact (behind_before_concat passed c).trans hmore

/-! ## The column by the last line feed -/

theorem sliceFrom?_append (passed rest : List Char) :
    sliceFrom? (passed ++ rest) (utf8Len passed) = some rest := by
  induction passed with
  | nil => simp [sliceFrom?]
  | cons c passed ih =>
    obtain ⟨n, hn⟩ :=
      Nat.exists_eq_succ_of_ne_zero (Nat.add_pos_right (utf8Len passed) c.utf8Size_pos).ne'
    rw [List.cons_append, String.utf8Len_cons, hn, sliceFrom?, ← hn, if_pos (Nat.le_add_left _ _),
      Nat.add_sub_cancel, ih]

theorem lastFeed?_of_notMem (h : '\n' ∉ passed) : lastFeed? passed = none := by
  induction passed with
  | nil => rfl
  | cons c rest ih =>
    simp only [List.mem_cons, not_or] at h
    rw [lastFeed?, ih h.2]
    exact if_neg (Ne.symm h.1)

theorem lastFeed?_append_newline (h : '\n' ∉ rest) :
    lastFeed? (front ++ '\n' :: rest) = some (utf8Len front) := by
  induction front with
  | nil =>
    rw [List.nil_append, lastFeed?, lastFeed?_of_notMem h]
    rfl
  | cons c front ih => rw [List.cons_append, lastFeed?, ih, String.utf8Len_cons, Nat.add_comm]

/-- What is cut off behind the last line feed is there, and the column is counted in it. -/
theorem columnBySlice?_eq (passed : List Char) :
    columnBySlice? passed = some (behind passed).column := by
  by_cases hfeed : '\n' ∈ passed
  · obtain ⟨back, front, hreverse, hback⟩ := List.eq_append_cons_of_mem (List.mem_reverse.mpr hfeed)
    obtain rfl : passed = front.reverse ++ '\n' :: back.reverse := by
      rw [← List.reverse_reverse passed, hreverse]
      simp
    have hrest : '\n' ∉ back.reverse := fun h => hback (List.mem_reverse.mp h)
    have hslice := sliceFrom?_append (front.reverse ++ ['\n']) back.reverse
    rw [String.utf8Len_append, List.append_assoc] at hslice
    rw [columnBySlice?, lastFeed?_append_newline hrest,
      behind_append_newline, behind_of_notMem hrest]
    exact congrArg (Option.map fun slice => slice.length + 1) hslice
  · rw [columnBySlice?, lastFeed?_of_notMem hfeed, behind_of_notMem hfeed]

end Behind

/-! ## Arriving where one was located -/

section Arriving

open Location

variable {line s : List Char} {below : List (List Char)} {down along offset : Nat}

/-- A line is passed along by the beginnings of it. -/
theorem offsetAmong?_zero_iff (hline : '\n' ∉ line) :
    offsetAmong? (line :: below) 0 along = some offset ↔
    ∃ passed, passed <+: line ∧ utf8Len passed = offset ∧ behind passed = ⟨1, along + 1⟩ := by
  have hbehind {passed : List Char} (h : passed <+: line) : behind passed =
      ⟨1, passed.length + 1⟩ :=
    behind_of_notMem fun hmem => hline (h.subset hmem)
  rw [offsetAmong?]
  constructor
  · intro h
    split at h
    · rename_i hle
      cases h
      refine ⟨line.take along, List.take_prefix along line, rfl, ?_⟩
      rw [hbehind (List.take_prefix along line), List.length_take, Nat.min_eq_left hle]
    · cases h
  · rintro ⟨passed, hbegins, rfl, hpassed⟩
    rw [hbehind hbegins] at hpassed
    obtain rfl : passed.length = along := by simpa using hpassed
    rw [if_pos hbegins.length_le, ← List.prefix_iff_eq_take.mp hbegins]

theorem offsetAmong?_eq_some_iff (hline : '\n' ∉ line) (hbelow : ∀ other ∈ below, '\n' ∉ other) :
    offsetAmong? (line :: below) down along = some offset ↔
      ∃ passed, passed <+: uncut '\n' (line, below) ∧ utf8Len passed = offset ∧
      behind passed = ⟨down + 1, along + 1⟩ := by
  induction below generalizing line down offset with
  | nil =>
    have hwhole : uncut '\n' (line, []) = line := List.append_nil line
    rw [hwhole]
    cases down with
    | zero => exact offsetAmong?_zero_iff hline
    | succ down =>
      -- below the only line there is nothing
      refine iff_of_false (by simp [offsetAmong?]) ?_
      rintro ⟨passed, hbegins, -, hpassed⟩
      rw [behind_of_notMem fun hmem => hline (hbegins.subset hmem)] at hpassed
      cases hpassed
  | cons next others ih =>
    obtain ⟨hnext, hothers⟩ := List.forall_mem_cons.mp hbelow
    have hwhole : uncut '\n' (line, next :: others) = line ++ '\n' :: uncut '\n' (next, others) :=
      rfl
    rw [hwhole]
    cases down with
    | zero =>
      rw [offsetAmong?_zero_iff hline]
      refine exists_congr fun passed => ⟨fun h => ⟨h.1.trans (List.prefix_append line _), h.2⟩, ?_⟩
      rintro ⟨hbegins, hlen, hpassed⟩
      rcases prefix_append_cons_iff.mp hbegins with hfirst | ⟨more, -, rfl⟩
      · exact ⟨hfirst, hlen, hpassed⟩
      · -- behind the line feed one is on a later line
        rw [behind_line_append hline] at hpassed
        have hlater := congrArg Location.line hpassed
        simp [behind] at hlater
    | succ down =>
      rw [offsetAmong?, Option.map_eq_some_iff]
      constructor
      · rintro ⟨rest, hrest, rfl⟩
        obtain ⟨more, hmore, rfl, hbehind⟩ := (ih hnext hothers).mp hrest
        refine ⟨line ++ '\n' :: more,
          prefix_append_cons_iff.mpr (Or.inr ⟨more, hmore, rfl⟩), ?_, ?_⟩
        · exact utf8Len_append_newline line more
        · rw [behind_line_append hline, hbehind]
      · rintro ⟨passed, hbegins, rfl, hpassed⟩
        rcases prefix_append_cons_iff.mp hbegins with hfirst | ⟨more, hmore, rfl⟩
        · rw [behind_of_notMem fun hmem => hline (hfirst.subset hmem)] at hpassed
          cases hpassed
        · rw [behind_line_append hline] at hpassed
          obtain ⟨hdown, halong⟩ := Location.mk.inj hpassed
          have hbehind : behind more = ⟨down + 1, along + 1⟩ := by
            rw [← Nat.succ.inj hdown, ← halong]
          exact ⟨utf8Len more, (ih hnext hothers).mpr ⟨more, hmore, rfl, hbehind⟩,
            (utf8Len_append_newline line more).symm⟩

/-- The way back from a location arrives at the offset behind which it is, and nowhere else. -/
theorem offsetAt?_eq_some_iff {location : Location} : offsetAt? s location = some offset ↔
    ∃ passed, passed <+: s ∧ utf8Len passed = offset ∧ behind passed = location := by
  have hcut : uncut '\n' ((cut '\n' s).1, (cut '\n' s).2) = s := uncut_cut '\n' s
  obtain ⟨line, column⟩ := location
  cases line with
  | zero =>
    refine iff_of_false (by simp [offsetAt?]) ?_
    rintro ⟨passed, -, -, hpassed⟩
    exact absurd (congrArg Location.line hpassed) (Nat.succ_ne_zero _)
  | succ down =>
    cases column with
    | zero =>
      refine iff_of_false (by simp [offsetAt?]) ?_
      rintro ⟨passed, -, -, hpassed⟩
      exact absurd (congrArg Location.column hpassed) (Nat.succ_ne_zero _)
    | succ along =>
      rw [offsetAt?,
        offsetAmong?_eq_some_iff (notMem_cut_head '\n' s) (notMem_cut_tail '\n' s), hcut]

end Arriving

/-! ## Located offsets -/

section Located

variable {content : String} {offset later : Nat}

theorem isValid_iff_isSome :
    String.Pos.Raw.IsValid content ⟨offset⟩ ↔ (before? content.toList offset).isSome := by
  simp only [isValid_iff, Option.isSome_iff_exists, before?_eq_some_iff]

theorem locate_of_beginning {s passed : List Char} (h : passed <+: s) :
    locate s (utf8Len passed) = .behind passed := by
  rw [locate, before?_eq_some_iff.mpr ⟨h, rfl⟩, Option.getD_some]

theorem locate_before (h : String.Pos.Raw.IsValid content ⟨offset⟩)
    (h' : String.Pos.Raw.IsValid content ⟨later⟩) (hlt : offset < later) :
    (locate content.toList offset).Before (locate content.toList later) := by
  obtain ⟨passed, hpassed, rfl⟩ := (isValid_iff content offset).mp h
  obtain ⟨beyond, hbeyond, rfl⟩ := (isValid_iff content later).mp h'
  obtain ⟨c, more, rfl⟩ := exists_append_of_utf8Len_lt hpassed hbeyond hlt
  rw [locate_of_beginning hpassed, locate_of_beginning hbeyond]
  exact behind_before_append passed c more

theorem locate_before_iff (h : String.Pos.Raw.IsValid content ⟨offset⟩)
    (h' : String.Pos.Raw.IsValid content ⟨later⟩) :
    (locate content.toList offset).Before (locate content.toList later) ↔ offset < later := by
  constructor
  · intro hbefore
    by_contra hle
    rcases Nat.eq_or_lt_of_le (Nat.le_of_not_lt hle) with rfl | hlt
    · exact Location.Before.irrefl _ hbefore
    · exact Location.Before.irrefl _ (hbefore.trans (locate_before h' h hlt))
  · exact locate_before h h'

theorem offsetAt?_locate (h : String.Pos.Raw.IsValid content ⟨offset⟩) :
    offsetAt? content.toList (locate content.toList offset) = some offset := by
  obtain ⟨passed, hpassed, rfl⟩ := (isValid_iff content offset).mp h
  exact offsetAt?_eq_some_iff.mpr ⟨passed, hpassed, rfl, (locate_of_beginning hpassed).symm⟩

theorem isValid_end (content : String) : String.Pos.Raw.IsValid content ⟨content.utf8ByteSize⟩ :=
  (isValid_iff content _).mpr ⟨content.toList, List.prefix_rfl, String.utf8Len_toList content⟩

/-- What is no boundary counts as the end of the text. -/
theorem locate_of_not_isValid (h : ¬ String.Pos.Raw.IsValid content ⟨offset⟩) :
    locate content.toList offset = locate content.toList content.utf8ByteSize := by
  have hnone : before? content.toList offset = none := by
    rwa [isValid_iff_isSome, Option.not_isSome_iff_eq_none] at h
  rw [locate, hnone, ← String.utf8Len_toList, locate_of_beginning List.prefix_rfl, Option.getD_none]

/-- Every offset is located where a boundary is: itself, or else the end. -/
theorem exists_isValid_locate (content : String) (offset : Nat) :
    ∃ boundary, String.Pos.Raw.IsValid content ⟨boundary⟩ ∧
      (boundary = offset ∨ ¬ String.Pos.Raw.IsValid content ⟨offset⟩ ∧
        boundary = content.utf8ByteSize) ∧
      locate content.toList boundary = locate content.toList offset := by
  by_cases h : String.Pos.Raw.IsValid content ⟨offset⟩
  · exact ⟨offset, h, Or.inl rfl, rfl⟩
  · exact ⟨content.utf8ByteSize, isValid_end content, Or.inr ⟨h, rfl⟩,
      (locate_of_not_isValid h).symm⟩

/-- What is refused was refused by the reader, and is told with the location of the offset that the
reader told. -/
theorem exists_unread_of_parse {reader : ConfigReader} {file : Path} {error : ConfigError}
    (h : Config.parse reader file content = .error error) :
    ∃ refusal, reader content = .error refusal ∧
      error = .parse file (refusal.offset.map (locate content.toList))
        (fold " " refusal.message) := by
  unfold Config.parse at h
  cases hread : reader content with
  | error refusal =>
    rw [hread] at h
    exact ⟨refusal, rfl, (Except.error.inj h).symm⟩
  | ok config =>
    rw [hread] at h
    cases h

end Located

/-- The location of a boundary names that boundary: going down to its line and along to its column
arrives there. So different boundaries have different locations, and the later one has the later
location. The slice in which the column is counted is there for any offset, and an offset that is no
boundary is located at the end. Whatever reads the texts of configurations: what is reported of one
that cannot be read is the location of the offset that the reader told, and it leads back to this
offset, or to the end if the offset is no boundary. -/
theorem locate_identifies (content : String) :
    (∀ offset, String.Pos.Raw.IsValid content ⟨offset⟩ →
      offsetAt? content.toList (locate content.toList offset) = some offset ∧
        ∀ later, String.Pos.Raw.IsValid content ⟨later⟩ →
          (locate content.toList offset = locate content.toList later ↔ offset = later) ∧
            ((locate content.toList offset).Before (locate content.toList later) ↔
              offset < later)) ∧
      (∀ offset, ¬ String.Pos.Raw.IsValid content ⟨offset⟩ →
        locate content.toList offset = locate content.toList content.utf8ByteSize) ∧
      (∀ offset, columnBySlice? ((before? content.toList offset).getD content.toList) =
        some (locate content.toList offset).column) ∧
      ∀ (reader : ConfigReader) file error, Config.parse reader file content = .error error →
        ∃ refusal, reader content = .error refusal ∧
          error = .parse file (refusal.offset.map (locate content.toList))
            (fold " " refusal.message) ∧
          ∀ offset, refusal.offset = some offset →
          ∃ boundary, String.Pos.Raw.IsValid content ⟨boundary⟩ ∧
            (boundary = offset ∨ ¬ String.Pos.Raw.IsValid content ⟨offset⟩ ∧
              boundary = content.utf8ByteSize) ∧
            locate content.toList boundary = locate content.toList offset ∧
            offsetAt? content.toList (locate content.toList offset) = some boundary := by
  refine ⟨fun offset h => ⟨offsetAt?_locate h, fun later h' => ⟨?_, locate_before_iff h h'⟩⟩,
    fun offset h =>
    locate_of_not_isValid h, fun offset => columnBySlice?_eq _, fun reader file error h => ?_⟩
  · constructor
    · intro heq
      have harrived := offsetAt?_locate h
      rw [heq, offsetAt?_locate h'] at harrived
      exact (Option.some.inj harrived).symm
    · exact fun heq => congrArg (locate content.toList) heq
  · obtain ⟨refusal, hread, rfl⟩ := exists_unread_of_parse h
    refine ⟨refusal, hread, rfl, fun offset hoffset => ?_⟩
    obtain ⟨boundary, hboundary, hwhich, heq⟩ := exists_isValid_locate content offset
    exact ⟨boundary, hboundary, hwhich, heq, heq ▸ offsetAt?_locate hboundary⟩

/-- A text with wide characters and a carriage return, which take one column each. -/
def wide : String := "# é\r\n日本 = 1\n"

theorem locate_identifies_wide :
    (String.Pos.Raw.IsValid wide ⟨9⟩ ∧ locate wide.toList 9 = ⟨2, 2⟩ ∧
      offsetAt? wide.toList ⟨2, 2⟩ = some 9) ∧
      (¬ String.Pos.Raw.IsValid wide ⟨7⟩ ∧ locate wide.toList 7 = ⟨3, 1⟩) ∧
      Config.parse FileForm.read ⟨"shadergen.toml"⟩ wide =
        .error (.parse ⟨"shadergen.toml"⟩ (some ⟨2, 1⟩) "invalid key") ∧
      FileForm.read wide = .error ⟨some 6, "invalid key"⟩ ∧
      offsetAt? wide.toList ⟨2, 1⟩ = some 6 := by
  have hvalid : String.Pos.Raw.IsValid wide ⟨9⟩ := isValid_iff_isSome.mpr (by decide)
  have hvalid' : String.Pos.Raw.IsValid wide ⟨6⟩ := isValid_iff_isSome.mpr (by decide)
  have hinside : ¬ String.Pos.Raw.IsValid wide ⟨7⟩ :=
    fun h => absurd (isValid_iff_isSome.mp h) (by decide)
  have hlocated : locate wide.toList 9 = ⟨2, 2⟩ := by decide
  have hread : FileForm.read wide = .error ⟨some 6, "invalid key"⟩ := by rfl
  have hrefused : Config.parse FileForm.read ⟨"shadergen.toml"⟩ wide =
      .error (.parse ⟨"shadergen.toml"⟩ (some ⟨2, 1⟩) "invalid key") := by rfl
  obtain ⟨harrives, hend, -, hreported⟩ := locate_identifies wide
  have harrived := (harrives 9 hvalid).1
  rw [hlocated] at harrived
  obtain ⟨refusal, hread', -, hback⟩ := hreported _ _ _ hrefused
  cases hread.symm.trans hread'
  obtain ⟨boundary, -, hwhich, -, hback⟩ := hback 6 rfl
  obtain rfl : boundary = 6 := hwhich.resolve_right fun hnot => hnot.1 hvalid'
  rw [show locate wide.toList 6 = ⟨2, 1⟩ by decide] at hback
  exact ⟨⟨hvalid, hlocated, harrived⟩, ⟨hinside, (hend 7 hinside).trans (by decide)⟩,
    hrefused, hread, hback⟩

end ShaderEmbed.Text
