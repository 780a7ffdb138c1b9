import ShaderEmbed.File.Tree
import ShaderEmbed.Proofs.Path.Child

/-!
# Where a path leads

A path leads from a directory to a place, component by component: a name goes down, `..` goes up and
stays at the root, and the root goes to the root (`Path.locate`). Folding components keeps where
they lead (`locate_eq_foldl_place`), and to follow two joined paths is to follow the one and then
the other (`locate_join`).

Two paths that lead to the same place from every directory have the same normal form
(`place_eq_of_sameLocation`): of the names of a directory that is deep enough, the steps upwards of
the one leave as many as those of the other. Hence the normal form is the only canonical path that
leads where a path leads (`normalize_unique_canonical`).
-/

namespace ShaderEmbed

/-! ## Following components -/

namespace Component

/-- Where one component leads from a directory. -/
def step (directory : Place) : Component → Place
  | .root => []
  | .here => directory
  | .up => directory.dropLast
  | .name text => directory ++ [text]

/-- Folding a component into those that are done leads where it leads behind them. -/
theorem foldl_step_fold (done : List Component) (c : Component) (directory : Place) :
    (fold done c).reverse.foldl step directory = step (done.reverse.foldl step directory) c := by
  cases c with
  | root => simp [fold, step]
  | here => simp [fold, step]
  | name text => simp [fold, step]
  | up =>
    cases done with
    | nil => simp [fold, step]
    | cons last below =>
      cases last with
      | root => cases below <;> simp [fold, step]
      | here => simp [fold, step]
      | up => simp [fold, step]
      | name text => simp [fold, step]

theorem foldl_step_normal (components : List Component) (directory : Place) :
    (normal components).foldl step directory = components.foldl step directory := by
  have hdone (done : List Component) :
      (components.foldl fold done).reverse.foldl step directory =
        components.foldl step (done.reverse.foldl step directory) := by
    induction components generalizing done with
    | nil => rfl
    | cons c rest ih => rw [List.foldl_cons, ih, foldl_step_fold, List.foldl_cons]
  exact hdone []

theorem foldl_step_names (names : List String) (directory : Place) :
    (names.map .name).foldl step directory = directory ++ names := by
  induction names generalizing directory with
  | nil => simp
  | cons name rest ih => simp [step, ih]

theorem foldl_step_ups (ups : Nat) (directory : Place) :
    (List.replicate ups .up).foldl step directory = directory.take (directory.length - ups) := by
  induction ups generalizing directory with
  | zero => simp
  | succ ups ih =>
    rw [List.replicate_succ, List.foldl_cons, ih, step, List.dropLast_eq_take,
      List.take_take, List.length_take]
    congr 1
    omega

/-! ## The shape of a normal form -/

theorem Folded.suffix {front back : List Component} (h : Folded (front ++ back)) : Folded back := by
  induction front with
  | nil => exact h
  | cons c front ih =>
    cases c with
    | root =>
      obtain ⟨-, rfl⟩ := List.append_eq_nil_iff.mp h
      trivial
    | here => exact h.elim
    | up => exact folded_of_forall_up fun c hc => h c (List.mem_append_right _ hc)
    | name text => exact ih h.2

theorem Folded.exists_names {done : List Component} (h : Folded done) :
    ∃ names : List String, done = names.map .name ++ [.root] ∨
    ∃ ups, done = names.map .name ++ List.replicate ups .up := by
  induction done with
  | nil => exact ⟨[], Or.inr ⟨0, rfl⟩⟩
  | cons c below ih =>
    cases c with
    | root =>
      obtain rfl : below = [] := h
      exact ⟨[], Or.inl rfl⟩
    | here => exact h.elim
    | up =>
      refine ⟨[], Or.inr ⟨below.length + 1, ?_⟩⟩
      rw [List.replicate_succ, ← List.eq_replicate_of_mem h]
      rfl
    | name text =>
      obtain ⟨names, rfl | ⟨ups, rfl⟩⟩ := ih h.2
      · exact ⟨text :: names, Or.inl rfl⟩
      · exact ⟨text :: names, Or.inr ⟨ups, rfl⟩⟩

end Component

namespace Path

open Component

variable {p q : Path}

/-- Where a path leads from a directory. -/
def locate (p : Path) (directory : Place) : Place := p.components.foldl step directory

/-- Two paths lead to the same place, whatever directory they are read from. -/
def SameLocation (p q : Path) : Prop :=
  ∀ directory : Place, (∀ name ∈ directory, IsName name) → p.locate directory = q.locate directory

/-- A path without a component that stays, and with none that leads up but at its front: behind a
name or the root there is none. -/
structure IsCanonical (p : Path) : Prop where
  plain : .here ∉ p.components
  leading : ∀ before after, p.components = before ++ .up :: after → ∀ c ∈ before, c = .up

theorem exists_place_eq (p : Path) :
    ∃ names : List String, p.place = .root :: names.map .name ∨
      ∃ ups, p.place = List.replicate ups .up ++ names.map .name := by
  obtain ⟨done, hfolded, hdone⟩ := p.exists_folded
  obtain ⟨names, rfl | ⟨ups, rfl⟩⟩ := hfolded.exists_names
  · exact ⟨names.reverse, Or.inl (by simp [hdone])⟩
  · exact ⟨names.reverse, Or.inr ⟨ups, by simp [hdone]⟩⟩

/-! ## Following paths -/

theorem locate_eq_foldl_place (p : Path) (directory : Place) :
    p.locate directory = p.place.foldl step directory :=
  (foldl_step_normal p.components directory).symm

theorem locate_eq_of_place_eq (h : p.place = q.place) (directory : Place) :
    p.locate directory = q.locate directory := by
  rw [locate_eq_foldl_place, locate_eq_foldl_place, h]

theorem root_notMem_tail (p : Path) : .root ∉ p.tail.filterMap innerComponent := by
  intro hmem
  obtain ⟨segment, hsegment, hroot⟩ := List.mem_filterMap.mp hmem
  exact isInner_of_innerComponent (p.notMem_tail segment hsegment) hroot

theorem headComponent_of_isAbsolute (h : p.isAbsolute = true) : p.headComponent = some .root := by
  simp [headComponent, head_of_isAbsolute h, h]

theorem root_mem_components_iff : .root ∈ p.components ↔ p.isAbsolute = true := by
  constructor
  · intro hmem
    rcases List.mem_append.mp hmem with hhead | htail
    · by_contra hrelative
      have hnone : p.headComponent ≠ some .root := by
        unfold headComponent
        grind
      exact hnone (by simpa using hhead)
    · exact absurd htail p.root_notMem_tail
  · intro habsolute
    simp [components, headComponent_of_isAbsolute habsolute]

theorem locate_join (p q : Path) (directory : Place) :
    (p.join q).locate directory = q.locate (p.locate directory) := by
  cases habsolute : q.isAbsolute with
  | true =>
    -- what starts at the root does not depend on the directory
    simp only [join_of_isAbsolute habsolute, locate, components,
      headComponent_of_isAbsolute habsolute]
    rfl
  | false =>
    have hfirst (place : Place) : q.locate place =
        ((q.head :: q.tail).filterMap innerComponent).foldl step place :=
      foldl_components_of_relative (fun _ => rfl) habsolute place
    rcases p.join_cases with ⟨rfl, hjoin⟩ | ⟨s, hs, hjoin⟩
    · rw [hjoin q habsolute]
      rfl
    · rw [hjoin q habsolute, hfirst, locate, components_slash hs, List.foldl_append]
      rfl

/-! ## One normal form for one location -/

/-- Of two directories, the one of names `a` and the other of names `b`, the same number is left in
front of the same names. -/
theorem eq_of_replicate_append {left left' : Nat} {names names' : List String}
    (h : ∀ name ∈ ["a", "b"], List.replicate left name ++ names =
      List.replicate left' name ++ names') :
    left = left' ∧ names = names' := by
  have hle {left left' : Nat} {names names' : List String} (hle : left ≤ left')
      (h : ∀ name ∈ ["a", "b"], List.replicate left name ++ names =
        List.replicate left' name ++ names') :
      left = left' ∧ names = names' := by
    obtain ⟨more, rfl⟩ := Nat.exists_eq_add_of_le hle
    have hmore : ∀ name ∈ ["a", "b"], names = List.replicate more name ++ names' := by
      intro name hname
      have heq := h name hname
      rw [← List.replicate_append_replicate, List.append_assoc] at heq
      exact List.append_cancel_left heq
    cases more with
    | zero => exact ⟨rfl, hmore "a" (by simp)⟩
    | succ more =>
      have hfirst := (hmore "a" (by simp)).symm.trans (hmore "b" (by simp))
      simp [List.replicate_succ] at hfirst
  rcases Nat.le_total left left' with hless | hless
  · exact hle hless h
  · obtain ⟨hleft, hnames⟩ := hle hless fun name hname => (h name hname).symm
    exact ⟨hleft.symm, hnames.symm⟩

theorem place_eq_of_sameLocation (h : p.SameLocation q) : p.place = q.place := by
  have hdeep (depth : Nat) (name : String) (hname : name ∈ ["a", "b"]) :
      p.place.foldl step (List.replicate depth name) =
        q.place.foldl step (List.replicate depth name) := by
    rw [← locate_eq_foldl_place, ← locate_eq_foldl_place]
    refine h _ fun other hother => ?_
    have hnames : ∀ name ∈ ["a", "b"], IsName name := by decide
    exact hnames other (List.eq_of_mem_replicate hother ▸ hname)
  obtain ⟨names, hp | ⟨ups, hp⟩⟩ := p.exists_place_eq <;> obtain ⟨names', hq | ⟨ups', hq⟩⟩ :=
    q.exists_place_eq
  · have heq := hdeep 0 "a" (by simp)
    simp only [hp, hq, List.foldl_cons, foldl_step_names, List.append_cancel_left_eq] at heq
    rw [hp, hq, heq]
  · -- from a directory that is deep enough, a relative path comes to a place that begins as the
    -- directory does
    have heq : ∀ name ∈ ["a", "b"], List.replicate 0 name ++ names =
        List.replicate 1 name ++ names' := by
      intro name hname
      simpa [hp, hq, step, foldl_step_names, foldl_step_ups] using hdeep (ups' + 1) name hname
    cases (eq_of_replicate_append heq).1
  · have heq : ∀ name ∈ ["a", "b"], List.replicate 1 name ++ names =
        List.replicate 0 name ++ names' := by
      intro name hname
      simpa [hp, hq, step, foldl_step_names, foldl_step_ups] using hdeep (ups + 1) name hname
    cases (eq_of_replicate_append heq).1
  · -- each path leaves of the directory what the other goes up
    have heq : ∀ name ∈ ["a", "b"], List.replicate ups' name ++ names =
        List.replicate ups name ++ names' := by
      intro name hname
      simpa [hp, hq, foldl_step_names, foldl_step_ups] using hdeep (ups + ups') name hname
    obtain ⟨hleft, rfl⟩ := eq_of_replicate_append heq
    rw [hp, hq, hleft]

theorem normalize_eq_iff : p.normalize = q.normalize ↔ p.SameLocation q := by
  constructor
  · intro heq directory _
    refine locate_eq_of_place_eq ?_ directory
    rw [← p.place_normalize, heq, place_normalize]
  · intro h
    rw [normalize, normalize, place_eq_of_sameLocation h]

theorem place_eq_of_normalize_eq (h : p.normalize = q.normalize) : p.place = q.place := by
  rw [← p.place_normalize, h, place_normalize]

theorem normalize_eq_of_place_eq (h : p.place = q.place) : p.normalize = q.normalize := by
  rw [normalize, normalize, h]

/-- What is joined to a directory may be normalized before. -/
theorem normalize_join_congr (p : Path) {q r : Path} (h : q.normalize = r.normalize) :
    (p.join q).normalize = (p.join r).normalize := by
  rw [normalize_eq_iff]
  intro directory _
  rw [locate_join, locate_join, locate_eq_of_place_eq (place_eq_of_normalize_eq h)]

/-! ## Canonical paths -/

theorem eq_nil_of_components_root {before after : List Component}
    (h : p.components = before ++ .root :: after) :
    before = [] := by
  have htail := p.root_notMem_tail
  rw [components] at h
  cases hhead : p.headComponent with
  | none =>
    rw [hhead] at h
    refine absurd ?_ htail
    rw [show p.tail.filterMap innerComponent = before ++ .root :: after from h]
    simp
  | some c =>
    rw [hhead] at h
    cases before with
    | nil => rfl
    | cons d before =>
      refine absurd ?_ htail
      have hwhole : c :: p.tail.filterMap innerComponent = d :: (before ++ .root :: after) := h
      rw [(List.cons.inj hwhole).2]
      simp

/-- The components of a canonical path, up to any of them, are folded. -/
theorem IsCanonical.folded (h : p.IsCanonical) {front back : List Component}
    (hsplit : p.components = front ++ back) :
    Folded front.reverse := by
  induction front using List.reverseRecOn generalizing back with
  | nil => trivial
  | append_singleton front c ih =>
    rw [List.append_assoc, List.singleton_append] at hsplit
    have hmem : c ∈ p.components := by simp [hsplit]
    rw [List.reverse_append, List.reverse_singleton, List.singleton_append]
    cases c with
    | root =>
      obtain rfl := eq_nil_of_components_root hsplit
      rfl
    | here => exact absurd hmem h.plain
    | up => exact fun d hd => h.leading front back hsplit d (List.mem_reverse.mp hd)
    | name text =>
      have hname : IsName text := by simpa [IsInner] using isInner_of_mem_components hmem
      exact ⟨hname, ih hsplit⟩

theorem isCanonical_iff : p.IsCanonical ↔ p.components = p.place := by
  constructor
  · intro h
    have hsplit : p.components = p.components ++ [] := (List.append_nil _).symm
    have hfolded := (h.folded hsplit).foldl_reverse
    rw [List.reverse_reverse] at hfolded
    rw [place, normal, hfolded, List.reverse_reverse]
  · intro h
    obtain ⟨done, hfolded, hdone⟩ := p.exists_folded
    have hfront {before after : List Component}
        {c : Component} (hsplit : p.components = before ++ c :: after) :
        Folded (c :: before.reverse) := by
      have hback : done = after.reverse ++ c :: before.reverse := by
        rw [← List.reverse_reverse done, ← hdone, ← h, hsplit]
        simp
      rw [hback] at hfolded
      exact hfolded.suffix
    refine ⟨fun hmem => ?_, fun before after hsplit => ?_⟩
    · obtain ⟨before, after, hsplit⟩ := List.append_of_mem hmem
      exact hfront hsplit
    · have hups : ∀ c ∈ before.reverse, c = .up := hfront hsplit
      simpa using hups

theorem isCanonical_normalize (p : Path) : p.normalize.IsCanonical := by
  rw [isCanonical_iff, components_normalize, place_normalize]

theorem root_mem_fold_iff (done : List Component) (c : Component) :
    .root ∈ fold done c ↔ .root ∈ done ∨ c = .root := by
  cases c with
  | root => simp [fold]
  | here => simp [fold]
  | name text => simp [fold]
  | up =>
    cases done with
    | nil => simp [fold]
    | cons last below =>
      cases last with
      | root => cases below <;> simp [fold]
      | here => simp [fold]
      | up => simp [fold]
      | name text => simp [fold]

theorem root_mem_place_iff : .root ∈ p.place ↔ .root ∈ p.components := by
  have hdone (components done : List Component) :
      .root ∈ components.foldl fold done ↔ .root ∈ done ∨ .root ∈ components := by
    induction components generalizing done with
    | nil => simp
    | cons c rest ih =>
      rw [List.foldl_cons, ih, root_mem_fold_iff, List.mem_cons, or_assoc, eq_comm (a := c)]
  rw [place, normal, List.mem_reverse, hdone]
  simp

@[simp] theorem isAbsolute_normalize (p : Path) : p.normalize.isAbsolute = p.isAbsolute := by
  rw [Bool.eq_iff_iff, ← root_mem_components_iff, ← root_mem_components_iff,
    components_normalize, root_mem_place_iff]

/-- The normal form of a path is canonical, starts at the root just if the path does, and is the
only canonical path that leads where the path leads. Normalizing again changes nothing, joining may
be done before or after, and two paths have the same normal form just if they lead to the same place
from every directory. -/
theorem normalize_unique_canonical (p : Path) :
    p.normalize.IsCanonical ∧ p.normalize.isAbsolute = p.isAbsolute ∧
      (∀ q : Path, q.IsCanonical ∧ q.SameLocation p ↔ q.same p.normalize) ∧
      p.normalize.normalize = p.normalize ∧
      (∀ q : Path, (p.join q).normalize = (p.normalize.join q.normalize).normalize) ∧
      ∀ q : Path, p.normalize = q.normalize ↔ p.SameLocation q := by
  have hlocate (r : Path) (directory : Place) : r.normalize.locate directory = r.locate directory :=
    locate_eq_of_place_eq r.place_normalize directory
  refine ⟨p.isCanonical_normalize, p.isAbsolute_normalize, fun q => ?_, p.normalize_normalize,
    fun q => ?_, fun q => normalize_eq_iff⟩
  · rw [same, decide_eq_true_iff, components_normalize, isCanonical_iff]
    constructor
    · rintro ⟨hcanonical, hsame⟩
      rw [hcanonical, place_eq_of_sameLocation hsame]
    · intro hcomponents
      have hplace : q.place = p.place := by
        rw [← p.place_normalize, place, hcomponents, ← components_normalize]
        rfl
      exact ⟨hcomponents.trans hplace.symm,
        fun directory _ => locate_eq_of_place_eq hplace directory⟩
  · rw [normalize_eq_iff]
    intro directory _
    rw [locate_join, locate_join, hlocate, hlocate]

end Path

end ShaderEmbed
