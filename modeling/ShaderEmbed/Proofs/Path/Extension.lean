import Mathlib.Data.List.TakeWhile
import ShaderEmbed.Proofs.Path.Child

/-!
# Extensions of names

A name is taken apart at its last dot (`splitExtension_dot`), unless it has none or the only one
leads it (`splitExtension_of_whole`). From this follows what putting an extension in place of the
old one makes of a name (`withExtension_dot`): it is spelled behind the stem, except that the names
of two dots and an extension lose their extension and become the step upwards.
-/

namespace ShaderEmbed

namespace Path

theorem last_dot_cases (s : List Char) :
    '.' ∉ s ∨ ∃ front behind, s = front ++ '.' :: behind ∧ '.' ∉ behind := by
  by_cases hdot : '.' ∈ s
  · obtain ⟨before, after, hsplit, hbefore⟩ :=
      List.eq_append_cons_of_mem (List.mem_reverse.mpr hdot)
    refine Or.inr ⟨after.reverse, before.reverse, ?_, by simpa using hbefore⟩
    have hreverse := congrArg List.reverse hsplit
    simpa using hreverse
  · exact Or.inl hdot

/-- What `takeWhile` and `dropWhile` make of a text read from its end up to its last dot. -/
theorem takeWhile_reverse_dot (front : List Char) {behind : List Char} (h : '.' ∉ behind) :
    (front ++ '.' :: behind).reverse.takeWhile (· ≠ '.') = behind.reverse ∧
      (front ++ '.' :: behind).reverse.dropWhile (· ≠ '.') = '.' :: front.reverse := by
  have hall : ∀ c ∈ behind.reverse, decide (c ≠ '.') = true := by
    intro c hc
    have hmem : c ∈ behind := List.mem_reverse.mp hc
    simp only [decide_eq_true_eq]
    rintro rfl
    exact h hmem
  have hreverse : (front ++ '.' :: behind).reverse = behind.reverse ++
      '.' :: front.reverse := by simp
  rw [hreverse, List.takeWhile_append_of_pos hall, List.dropWhile_append_of_pos hall]
  simp

theorem isName_ofList_iff {s : List Char} :
    Component.IsName (String.ofList s) ↔ s ≠ [] ∧ s ≠ ['.'] ∧ s ≠ ['.', '.'] ∧ '/' ∉ s := by
  simp only [Component.IsName, ne_eq, ← String.toList_inj, String.toList_ofList]
  rfl

section

variable {name : String}

theorem splitExtension_dot {front behind : List Char} (hname : name.toList = front ++ '.' :: behind)
    (h : '.' ∉ behind) (hfront : front ≠ []) (hdots : name ≠ "..") :
    splitExtension name = (String.ofList front, some (String.ofList behind)) := by
  obtain ⟨htake, hdrop⟩ := takeWhile_reverse_dot front h
  obtain ⟨c, rest, hrest⟩ := List.exists_cons_of_ne_nil (List.reverse_ne_nil_iff.mpr hfront)
  unfold splitExtension
  rw [if_neg hdots, hname, htake, hdrop, hrest]
  have hback : (c :: rest).reverse = front := by rw [← hrest, List.reverse_reverse]
  simp only [hback, List.reverse_reverse]

/-- A name without a dot, or with none but the one that leads it, has no extension. -/
def IsWhole (name : String) : Prop :=
  '.' ∉ name.toList ∨ ∃ behind, name.toList = '.' :: behind ∧ '.' ∉ behind

theorem splitExtension_of_whole (h : IsWhole name) : splitExtension name = (name, none) := by
  unfold splitExtension
  split
  · rfl
  rcases h with hdot | ⟨behind, hname, hbehind⟩
  · have hdrop : name.toList.reverse.dropWhile (· ≠ '.') = [] := by
      refine List.dropWhile_eq_nil_iff.mpr fun c hc => ?_
      simp only [decide_eq_true_eq]
      rintro rfl
      exact hdot (List.mem_reverse.mp hc)
    rw [hdrop]
  · obtain ⟨-, hdrop⟩ := takeWhile_reverse_dot [] hbehind
    rw [hname, show '.' :: behind = [] ++ '.' :: behind from rfl, hdrop]
    rfl

/-- A name has no extension, or something in front of one. -/
theorem whole_or_dot (name : String) :
    IsWhole name ∨ ∃ front behind, name.toList = front ++ '.' :: behind ∧
    '.' ∉ behind ∧ front ≠ [] := by
  rcases last_dot_cases name.toList with hdot | ⟨front, behind, hname, hbehind⟩
  · exact Or.inl (Or.inl hdot)
  · rcases eq_or_ne front [] with rfl | hfront
    · exact Or.inl (Or.inr ⟨behind, hname, hbehind⟩)
    · exact Or.inr ⟨front, behind, hname, hbehind, hfront⟩

/-! ## Putting an extension on a name -/

theorem fileName_of_isName (h : Component.IsName name) : (Path.mk name).fileName = some name := by
  have hjoin : Path.empty.child name = ⟨name⟩ := by
    simp [child, join, not_isAbsolute_of_notMem h.2.2.2, empty]
  rw [← hjoin, fileName_child .empty h]

theorem onStem_of_isName (h : Component.IsName name) (extension : String) :
    (Path.mk name).onStem extension = ⟨(splitExtension name).1 ++ "." ++ extension⟩ := by
  obtain ⟨-, htail⟩ := head_of_isName h.2.2.2
  simp [onStem, fileStem, fileName_of_isName h, htail, trimInner]

theorem onStem_of_not_isName (h : (Path.mk name).fileName = none) (extension : String) :
    (Path.mk name).onStem extension = ⟨name⟩ := by
  simp [onStem, fileStem, h]

theorem withExtension_of_not_isName (h : (Path.mk name).fileName = none) (extension : String) :
    (Path.mk name).withExtension extension = ⟨name⟩ := by
  simp [withExtension, h, onStem_of_not_isName]

theorem withExtension_of_whole (hname : Component.IsName name)
    (h : IsWhole name) (extension : String) :
    (Path.mk name).withExtension extension = ⟨name ++ "." ++ extension⟩ := by
  simp [withExtension, fileName_of_isName hname, splitExtension_of_whole h, onStem_of_isName hname]

/-- The old extension is taken off up to its dot, and what is left may be the step upwards. -/
theorem withExtension_dot (hname : Component.IsName name) {front behind : List Char}
    (hsplit : name.toList = front ++ '.' :: behind) (h : '.' ∉ behind)
    (hfront : front ≠ []) (extension : String) :
    (Path.mk name).withExtension extension =
      if front = ['.'] then ⟨".."⟩ else ⟨String.ofList front ++ "." ++ extension⟩ := by
  have hkept : String.ofList (name.toList.take (name.length - (String.ofList behind).length)) =
      String.ofList (front ++ ['.']) := by
    have hlength : name.length - (String.ofList behind).length = (front ++ ['.']).length := by
      rw [← String.length_toList, hsplit, String.length_ofList]
      simp only [List.length_append, List.length_cons, List.length_nil]
      omega
    have happend : name.toList = (front ++ ['.']) ++ behind := by
      rw [hsplit, List.append_assoc]; rfl
    rw [hlength, happend, List.take_left']
    rfl
  have hold : (Path.mk name).withExtension extension =
      (Path.mk (String.ofList (front ++ ['.']))).onStem extension := by
    simp only [withExtension, fileName_of_isName hname,
      splitExtension_dot hsplit h hfront hname.2.2.1, Option.bind_some, hkept]
  rw [hold]
  split
  · rename_i hdot
    have hup : (Path.mk (String.ofList (front ++ ['.']))).fileName = none := by
      rw [hdot]
      decide
    rw [onStem_of_not_isName hup, hdot]
    rfl
  · rename_i hdot
    -- a dot behind characters makes a name, unless it makes the step upwards
    have hkeptName : Component.IsName (String.ofList (front ++ ['.'])) := by
      refine isName_ofList_iff.mpr ⟨by simp, by simpa using hfront, ?_, ?_⟩
      · exact fun hdots => hdot (List.append_cancel_right hdots)
      · exact fun hmem => hname.2.2.2 (by simpa [hsplit] using Or.inl hmem)
    have hstem : splitExtension (String.ofList (front ++ ['.'])) = (String.ofList front, some "") :=
      splitExtension_dot (String.toList_ofList) (by simp) hfront hkeptName.2.2.1
    rw [onStem_of_isName hkeptName, hstem]

end

end Path

end ShaderEmbed
