import Mathlib.Data.List.Infix
import Mathlib.Data.List.Induction
import ShaderEmbed.Proofs.Path.Inside

/-!
# The way up from a place

The path of a place that is given by names has the path of the directory above as its parent
(`parent_ofPlace`). So its ancestors are the paths of the places on the way to it, the place itself
first and the root last (`ancestors_ofPlace`).
-/

namespace ShaderEmbed.Path

open Component (IsName)

variable {place : Place} {name : String}

theorem parent_root : (ofPlace []).parent = none := by decide +kernel

theorem ofPlace_of_ne_nil (hne : place ≠ []) : ofPlace place = ofSegments "" place := by
  obtain ⟨first, rest, rfl⟩ := List.exists_cons_of_ne_nil hne
  exact ofPlace_cons first rest

/-- The spelling of a place ends in its last name. -/
theorem toList_ofPlace_append (place : Place) (name : String) :
    (ofPlace (place ++ [name])).text.toList =
    place.flatMap (fun other => '/' :: other.toList) ++ '/' :: name.toList := by
  rw [ofPlace_of_ne_nil (by simp)]
  simp [ofSegments, Text.uncut, List.flatMap_map]

/-- No slash follows the spelling of a place below the root. -/
theorem getLast?_ofPlace_append (place : Place) (h : IsName name) :
    ∃ c, c ≠ '/' ∧ (ofPlace (place ++ [name])).text.toList.getLast? = some c := by
  rcases List.eq_nil_or_concat name.toList with hnil | ⟨before, c, hlast⟩
  · exact absurd (String.toList_eq_nil_iff.mp hnil) h.1
  · rw [List.concat_eq_append] at hlast
    refine ⟨c, ?_, ?_⟩
    · rintro rfl
      exact h.2.2.2 (by simp [hlast])
    · rw [toList_ofPlace_append, hlast, ← List.cons_append,
        ← List.append_assoc, List.getLast?_concat]

/-- The way to a place starts at the root and goes by its names. -/
theorem route_ofPlace (h : ∀ other ∈ place ++ [name], IsName other) :
    FileTree.route (ofPlace (place ++ [name])) = (true, place ++ [name]) := by
  have habsolute : (ofPlace (place ++ [name])).isAbsolute = true := by
    rw [isAbsolute, toList_ofPlace_append, decide_eq_true_eq]
    cases place <;> rfl
  rw [FileTree.route, if_pos habsolute, ofPlace_of_ne_nil (by simp),
    tail_ofSegments (by decide) fun other hother => (h other hother).2.2.2]

theorem child_ofPlace (h : ∀ other ∈ place ++ [name], IsName other) :
    (ofPlace place).child name = ofPlace (place ++ [name]) := by
  have hrelative : (Path.mk name).isAbsolute = false :=
    not_isAbsolute_of_notMem (h name (by simp)).2.2.2
  rcases List.eq_nil_or_concat place with rfl | ⟨front, last, rfl⟩
  · rw [List.nil_append, ofPlace_cons]
    simp [child, join, hrelative, ofPlace, ofComponents, ofSegments, Text.uncut]
  · rw [List.concat_eq_append] at h ⊢
    obtain ⟨c, hc, hlast⟩ := getLast?_ofPlace_append front (h last (by simp))
    have hjoined : (ofPlace (front ++ [last])).child name =
        (ofPlace (front ++ [last])).slash ⟨name⟩ := by
      simp [child, join, hrelative, hlast, hc, slash]
    have hspelled : ((ofPlace (front ++ [last])).child name).text.toList =
        (ofPlace (front ++ [last] ++ [name])).text.toList := by
      rw [hjoined, toList_slash, toList_ofPlace_append, toList_ofPlace_append]
      simp
    exact congrArg Path.mk (String.toList_injective hspelled)

theorem parent_ofPlace (h : ∀ other ∈ place ++ [name], IsName other) :
    (ofPlace (place ++ [name])).parent = some (ofPlace place) := by
  have hslash : ∀ other ∈ place ++ [name], '/' ∉ other.toList :=
    fun other hother => (h other hother).2.2.2
  have hempty : '/' ∉ "".toList := by decide
  rw [ofPlace_of_ne_nil (by simp), parent, tail_ofSegments hempty hslash,
    head_ofSegments hempty hslash, trimInner_of_names h, List.reverse_append,
      List.reverse_singleton, List.singleton_append]
  simp only [List.reverse_reverse]
  rw [trimInner_of_names fun other hother => h other (List.mem_append_left _ hother)]
  cases place with
  | nil => rfl
  | cons first rest => rw [ofPlace_cons]; simp

theorem ancestorsUpTo_ofPlace {steps : Nat} (h : ∀ other ∈ place, IsName other)
    (hsteps : place.length ≤ steps) :
    ancestorsUpTo steps (ofPlace place) = place.inits.reverse.map ofPlace := by
  induction place using List.reverseRecOn generalizing steps with
  | nil =>
    cases steps with
    | zero => rfl
    | succ steps =>
      rw [ancestorsUpTo, parent_root]
      rfl
  | append_singleton place name ih =>
    cases steps with
    | zero => simp at hsteps
    | succ steps =>
      rw [ancestorsUpTo, parent_ofPlace h]
      have hplace : ancestorsUpTo steps (ofPlace place) = place.inits.reverse.map ofPlace :=
        ih (fun other hother => h other (List.mem_append_left _ hother)) (by simpa using hsteps)
      simp [hplace, List.inits_append]

theorem length_components_ofPlace (h : ∀ other ∈ place, IsName other) :
    (ofPlace place).components.length = place.length + 1 := by
  have hroot : (ofSegments "" []).tail = [] := by decide
  have hcomponents := components_ofPlace_append [] h
  rw [List.nil_append, hroot] at hcomponents
  simp [hcomponents]

/-- The ancestors of a place are the places on the way to it, the last one first. -/
theorem ancestors_ofPlace (h : ∀ other ∈ place, IsName other) :
    (ofPlace place).ancestors = place.inits.reverse.map ofPlace := by
  refine ancestorsUpTo_ofPlace h ?_
  rw [length_components_ofPlace h]
  exact Nat.le_succ _

end ShaderEmbed.Path
