import ShaderEmbed.Proofs.Path.Inside
import ShaderEmbed.Proofs.Path.Location

/-!
# Paths moved below a directory

A relative path that is joined to a directory folds its components onto the place of the directory
(`place_join`). As long as it does not go up from where it starts, folding takes place above the
directory and leaves it alone (`foldl_fold_append`): a path that stays inside names the place behind
that of the directory (`place_join_of_isInside`).
-/

namespace ShaderEmbed

namespace Component

variable {components done below : List Component}

theorem up_mem_fold {c : Component} (hup : .up ∈ done) (hc : c ≠ .root) : .up ∈ fold done c := by
  cases c with
  | root => exact absurd rfl hc
  | here => exact hup
  | name text => exact List.mem_cons_of_mem _ hup
  | up =>
    cases done with
    | nil => cases hup
    | cons last rest =>
      cases last with
      | root => cases rest <;> simp_all [fold]
      | here => simp [fold]
      | up => simp [fold]
      | name text =>
        rw [fold]
        simpa using hup

/-- What goes up from where it starts does not come back. -/
theorem up_mem_foldl (hroot : .root ∉ components) (hup : .up ∈ done) :
    .up ∈ components.foldl fold done := by
  induction components generalizing done with
  | nil => exact hup
  | cons c rest ih =>
    rw [List.mem_cons, not_or] at hroot
    exact ih hroot.2 (up_mem_fold hup (Ne.symm hroot.1))

theorem fold_append {c : Component} (hc : c ≠ .root) (hroot : .root ∉ done)
    (hup : .up ∉ fold done c) :
    fold (done ++ below) c = fold done c ++ below := by
  cases c with
  | root => exact absurd rfl hc
  | here => rfl
  | name text => rfl
  | up =>
    cases done with
    | nil => simp [fold] at hup
    | cons last rest =>
      cases last with
      | root => simp at hroot
      | here => simp [fold] at hup
      | up => simp [fold] at hup
      | name text => rfl

/-- Components that do not go up from where they start leave alone what is below. -/
theorem foldl_fold_append (hroot : .root ∉ components) (hdone : .root ∉ done)
    (hup : .up ∉ components.foldl fold done) :
    components.foldl fold (done ++ below) = components.foldl fold done ++ below := by
  induction components generalizing done with
  | nil => rfl
  | cons c rest ih =>
    rw [List.mem_cons, not_or] at hroot
    have hc : c ≠ .root := Ne.symm hroot.1
    rw [List.foldl_cons] at hup
    have hstep : .up ∉ fold done c := fun hmem => hup (up_mem_foldl hroot.2 hmem)
    have hkept : .root ∉ fold done c := by
      rw [Path.root_mem_fold_iff]
      exact not_or.mpr ⟨hdone, hc⟩
    rw [List.foldl_cons, fold_append hc hdone hstep, ih hroot.2 hkept hup, List.foldl_cons]

theorem foldl_fold_names (names : List String) (done : List Component) :
    (names.map .name).foldl fold done = (names.map .name).reverse ++ done := by
  induction names generalizing done with
  | nil => rfl
  | cons name rest ih => simp [fold, ih]

end Component

namespace Path

open Component

variable {p q : Path} {names : List String}

theorem place_join (p : Path) (hq : q.isAbsolute = false) :
    (p.join q).place = (q.components.foldl fold p.place.reverse).reverse := by
  rcases p.join_cases with ⟨rfl, hjoin⟩ | ⟨s, hs, hjoin⟩
  · rw [hjoin q hq]
    rfl
  · have hdots : ∀ done, fold done .here = done := fun _ => rfl
    rw [hjoin q hq, foldl_components_of_relative hdots hq, place, components_slash hs, normal,
      List.foldl_append, place, normal, List.reverse_reverse]

theorem IsInside.not_isAbsolute (h : p.IsInside) : p.isAbsolute = false := by
  obtain ⟨names, hplace, -⟩ := exists_names_of_isInside h
  by_contra habsolute
  rw [Bool.not_eq_false, ← root_mem_components_iff, ← root_mem_place_iff, hplace] at habsolute
  simp at habsolute

theorem root_notMem_components (h : p.isAbsolute = false) : .root ∉ p.components := by
  rw [root_mem_components_iff, h]
  exact Bool.false_ne_true

/-- A path that is read from one directory and does not leave it is read from any other as well:
what is below its directory stays below it. -/
theorem place_join_append {directory moved : Path} {below : List Component}
    (hmoved : moved.place = below ++ directory.place) (hroot : .root ∉ directory.place)
    (h : (directory.join q).IsInside) (hq : q.isAbsolute = false) :
    (moved.join q).place = below ++ (directory.join q).place := by
  obtain ⟨names, hplace, -⟩ := exists_names_of_isInside h
  have hfolded : q.components.foldl fold directory.place.reverse =
      (directory.join q).place.reverse := by
    rw [place_join directory hq, List.reverse_reverse]
  have hup : .up ∉ q.components.foldl fold directory.place.reverse := by
    rw [hfolded, hplace]
    simp
  rw [place_join moved hq, hmoved, List.reverse_append,
    foldl_fold_append (root_notMem_components hq) (by simpa using hroot) hup, hfolded]
  simp

/-- A path that stays inside names a place behind that of the directory. -/
theorem place_join_of_isInside (p : Path) (h : q.IsInside) :
    (p.join q).place = p.place ++ q.place := by
  have hempty : empty.place = [] := by decide
  have hq := h.not_isAbsolute
  have halone : (empty.join q).place = q.place := by
    rw [place_join empty hq, hempty]
    rfl
  have hinside : (empty.join q).IsInside := by
    intro c hc
    rw [halone] at hc
    exact h c hc
  rw [place_join_append (by rw [hempty, List.append_nil])
    (by rw [hempty]; exact List.not_mem_nil) hinside hq, halone]

/-! ## Names -/

theorem components_ofNames (h : ∀ name ∈ names, IsName name) :
    (ofNames names).components = names.map .name := by
  cases names with
  | nil => decide
  | cons name rest =>
    obtain ⟨hname, hrest⟩ := List.forall_mem_cons.mp h
    refine components_ofComponents (Or.inr hname) ?_
    intro c hc
    obtain ⟨other, hother, rfl⟩ := List.mem_map.mp hc
    exact hrest other hother

theorem place_of_names (h : p.components = names.map .name) : p.place = names.map .name := by
  rw [place, h, normal, foldl_fold_names, List.append_nil, List.reverse_reverse]

theorem isInside_of_names (h : p.components = names.map .name) : p.IsInside := by
  intro c hc
  rw [place_of_names h] at hc
  obtain ⟨name, -, rfl⟩ := List.mem_map.mp (List.mem_of_head? hc)
  exact ⟨by simp, by simp⟩

theorem place_ofNames (h : ∀ name ∈ names, IsName name) : (ofNames names).place = names.map .name :=
  place_of_names (components_ofNames h)

theorem isInside_ofNames (h : ∀ name ∈ names, IsName name) : (ofNames names).IsInside :=
  isInside_of_names (components_ofNames h)

/-- The names of a path in a directory come behind the components of the directory. -/
theorem components_join_ofNames (p : Path) (h : ∀ name ∈ names, IsName name) (hne : names ≠ []) :
    (p.join (ofNames names)).components = p.components ++ names.map .name := by
  have hrelative : (ofNames names).isAbsolute = false := (spelled_ofNames h).1
  rcases p.join_cases with ⟨rfl, hjoin⟩ | ⟨s, hs, hjoin⟩
  · have hempty : empty.components = [] := by decide
    rw [hjoin _ hrelative, hempty, components_ofNames h, List.nil_append]
  · rw [hjoin _ hrelative, components_slash hs, head_tail_ofNames h hne,
      filterMap_innerComponent_names h]

/-- The parent of a path of names is the path of all but the last. -/
theorem parent_ofNames {last : String} (h : ∀ name ∈ names ++ [last], IsName name) :
    (ofNames (names ++ [last])).parent = some (ofNames names) := by
  have hsegments := head_tail_ofNames h (by simp)
  have hlast : innerComponent last = some (.name last) :=
    innerComponent_of_isName (h last (by simp))
  cases names with
  | nil =>
    obtain ⟨hhead, htail⟩ := List.cons.inj hsegments
    have hname : last ≠ "" := (h last (by simp)).1
    rw [parent, htail, hhead]
    simp [trimInner, hname, ofNames, ofComponents]
  | cons first rest =>
    obtain ⟨hhead, htail⟩ := List.cons.inj (hsegments.trans (List.cons_append ..))
    have hfirst : first ≠ "" := (h first (by simp)).1
    have hkept : trimInner rest = rest :=
      trimInner_of_names fun name hname => h name (by simp [hname])
    have hwhole : (trimInner (rest ++ [last])).reverse = last ::
        rest.reverse := by simp [trimInner, hlast]
    rw [parent, htail, hwhole, hhead]
    simp [hkept, hfirst, ofNames, ofComponents, Component.segment, Function.comp_def]

end Path

end ShaderEmbed
