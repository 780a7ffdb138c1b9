import ShaderEmbed.Proofs.Path.Child

/-!
# Parents as beginnings

The parent of a path is spelled as the path begins, and a slash follows (`parent_cases`), unless it
is the root or the working directory. So a walk to a path goes the way to each of its ancestors
first (`mem_ancestors_of_parent`).
-/

namespace ShaderEmbed.Path

open FileTree

/-- The path begins as the other is spelled, and there is a name behind the slash that follows. -/
def Continues (p q : Path) : Prop := ∃ s : Path, p = q.slash s ∧ HasName (s.head :: s.tail)

variable {p q r : Path} {segments : List String}

theorem slash_slash (p q r : Path) : (p.slash q).slash r = p.slash (q.slash r) := by
  simp [slash, String.append_assoc]

theorem Continues.trans (h : p.Continues q) (h' : q.Continues r) : p.Continues r := by
  obtain ⟨s, rfl, hname⟩ := h
  obtain ⟨t, rfl, -⟩ := h'
  refine ⟨t.slash s, slash_slash r t s, ?_⟩
  obtain ⟨name, hmem, hne⟩ := hname
  rw [head_slash, tail_slash]
  exact ⟨name, by simp only [List.mem_cons, List.mem_append] at hmem ⊢; tauto, hne⟩

theorem ofSegments_head_tail (p : Path) : ofSegments p.head p.tail = p := by
  have hspelled := Text.uncut_cut '/' p.text.toList
  cases p
  simp [ofSegments, head, tail, Function.comp_def, hspelled]

theorem ofSegments_append (first : String) (front : List String)
    (segment : String) (rest : List String) :
    ofSegments first (front ++ segment :: rest) =
      (ofSegments first front).slash (ofSegments segment rest) := by
  simp [ofSegments, slash, Text.uncut, ← String.toList_inj]

/-- What is cut off in front of the segments that stand for nothing. -/
theorem exists_trimInner (segments : List String) :
    ∃ blanks, segments = trimInner segments ++ blanks := by
  obtain ⟨front, hfront⟩ :=
    List.dropWhile_suffix (fun segment => (innerComponent segment).isNone) (l := segments.reverse)
  refine ⟨front.reverse, ?_⟩
  rw [trimInner, ← List.reverse_append, hfront, List.reverse_reverse]

theorem isSome_of_trimInner {before : List String} {last : String}
    (h : (trimInner segments).reverse = last :: before) : (innerComponent last).isSome := by
  rw [trimInner, List.reverse_reverse] at h
  have hhead :=
    List.head?_dropWhile_not (fun segment => (innerComponent segment).isNone) segments.reverse
  rw [h] at hhead
  simpa [← Option.isSome_iff_ne_none] using hhead

theorem parent_cases (h : p.parent = some q) : q = .empty ∨ q = ⟨"/"⟩ ∨ p.Continues q := by
  unfold parent at h
  split at h
  · rename_i last before hlast
    simp only [Option.some.injEq] at h
    split at h
    · exact Or.inr (Or.inl h.symm)
    · -- the tail is what is kept, then blanks, the last name, and blanks again
      obtain ⟨blanks, hblanks⟩ := exists_trimInner before.reverse
      obtain ⟨more, hmore⟩ := exists_trimInner p.tail
      have htrimmed : trimInner p.tail = before.reverse ++ [last] := by
        rw [← List.reverse_reverse (trimInner p.tail), hlast, List.reverse_cons]
      have htail : p.tail = trimInner before.reverse ++ (blanks ++ last :: more) := by
        rw [hmore, htrimmed]
        nth_rewrite 1 [hblanks]
        simp
      have hlast' : last ≠ "" := by
        rintro rfl
        exact absurd (isSome_of_trimInner hlast) (by decide)
      refine Or.inr (Or.inr ?_)
      obtain ⟨segment, rest, hsegments⟩ : ∃ segment rest,
          blanks ++ last :: more = segment :: rest :=
        List.exists_cons_of_ne_nil (by simp)
      have hslash : ∀ other ∈ segment :: rest, '/' ∉ other.toList := by
        intro other hother
        refine p.notMem_tail other ?_
        rw [htail, hsegments]
        exact List.mem_append_right _ hother
      obtain ⟨hsegment, hrest⟩ := List.forall_mem_cons.mp hslash
      refine ⟨ofSegments segment rest, ?_, ?_⟩
      · rw [← h, ← ofSegments_append, ← hsegments, ← htail, ofSegments_head_tail]
      · rw [head_ofSegments hsegment hrest, tail_ofSegments hsegment hrest, ← hsegments]
        exact ⟨last, by simp, hlast'⟩
  · split at h <;> cases h
    exact Or.inl rfl

/-- A proper ancestor of a path is the working directory, the root, or how the path begins. -/
theorem mem_ancestors_of_parent {steps : Nat} (hparent : p.parent = some r)
    (h : q ∈ ancestorsUpTo steps r) :
    q = .empty ∨ q = ⟨"/"⟩ ∨ p.Continues q := by
  have hempty : parent .empty = none := by decide +kernel
  have hroot : parent ⟨"/"⟩ = none := by decide +kernel
  induction steps generalizing p r with
  | zero =>
    obtain rfl := List.mem_singleton.mp h
    exact parent_cases hparent
  | succ steps ih =>
    unfold ancestorsUpTo at h
    split at h
    · rename_i s hs
      rcases List.mem_cons.mp h with rfl | h
      · exact parent_cases hparent
      · rcases ih hs h with hq | hq | hq
        · exact Or.inl hq
        · exact Or.inr (Or.inl hq)
        · rcases parent_cases hparent with rfl | rfl | hp
          · cases hempty.symm.trans hs
          · cases hroot.symm.trans hs
          · exact Or.inr (Or.inr (hp.trans hq))
    · obtain rfl := List.mem_singleton.mp h
      exact parent_cases hparent

/-- A walk to a path goes the way to how it begins first. -/
theorem Continues.route (h : p.Continues q) (hne : q ≠ .empty) :
    ∃ more, HasName more ∧ route p = ((route q).1, (route q).2 ++ more) := by
  obtain ⟨s, rfl, hname⟩ := h
  refine ⟨s.head :: s.tail, hname, ?_⟩
  rw [route_slash]
  by_cases habsolute : q.isAbsolute = true
  · simp [hne, FileTree.route, habsolute]
  · simp [hne, FileTree.route, habsolute]

/-- A walk to a path without components that lead up does not go up. -/
theorem notMem_route (h : .up ∉ p.components) : ".." ∉ (route p).2 := by
  have htail : ".." ∉ p.tail := fun hmem =>
    h (List.mem_append_right _ (List.mem_filterMap.mpr ⟨"..", hmem, by decide⟩))
  have hhead : p.head ≠ ".." := by
    intro hup
    refine h (List.mem_append_left _ ?_)
    simp [headComponent, hup]
  unfold FileTree.route
  split
  · exact htail
  · simp [hhead.symm, htail]

end ShaderEmbed.Path
