import Mathlib.Data.List.Basic
import ShaderEmbed.Proofs.File.Below
import ShaderEmbed.Proofs.Path.Child

/-!
# Paths that stay inside

A path stays inside the directory that it is read from if its normal form is relative and does not
start with two dots. Such a path is a list of names (`exists_names_of_isInside`), and so are the
segments of its normal form, but for the empty path, which is spelled by one empty segment
(`spelled_ofNames`). The components of a place below a directory are those of the directory and the
names (`components_ofPlace_append`).
-/

namespace ShaderEmbed

open FileTree

namespace Path

/-- The normal form of the path is relative and does not start with two dots. -/
def IsInside (p : Path) : Prop := ∀ c, p.place.head? = some c → c ≠ .root ∧ c ≠ .up

def ofNames (names : List String) : Path := ofComponents (names.map .name)

theorem names_of_folded {done : List Component} (h : Component.Folded done)
    (hlast : ∀ c, done.getLast? = some c → c ≠ .root ∧ c ≠ .up) :
    ∃ names : List String, done = names.map .name ∧ ∀ name ∈ names, Component.IsName name := by
  induction done with
  | nil => exact ⟨[], rfl, by simp⟩
  | cons c below ih =>
    have hbelow : ∀ d, below.getLast? = some d → d ≠ .root ∧ d ≠ .up := by
      intro d hd
      exact hlast d (by rw [List.getLast?_cons, hd]; rfl)
    cases c with
    | root =>
      obtain rfl : below = [] := h
      exact absurd rfl (hlast .root rfl).1
    | here => exact h.elim
    | up =>
      -- below dots that lead upwards there are only more of them
      have hall : ∀ d ∈ Component.up :: below, d = .up := by
        intro d hd
        rcases List.mem_cons.mp hd with rfl | hd
        · rfl
        · exact h d hd
      have hsome := List.getLast?_eq_some_getLast (List.cons_ne_nil Component.up below)
      exact absurd (hall _ (List.getLast_mem _)) (hlast _ hsome).2
    | name text =>
      obtain ⟨hname, hfolded⟩ := h
      obtain ⟨names, rfl, hnames⟩ := ih hfolded hbelow
      exact ⟨text :: names, rfl, List.forall_mem_cons.mpr ⟨hname, hnames⟩⟩

/-- A path that stays inside is a list of names. -/
theorem exists_names_of_isInside {p : Path} (h : p.IsInside) :
    ∃ names : List String, p.place = names.map .name ∧ ∀ name ∈ names, Component.IsName name := by
  obtain ⟨done, hfolded, hdone⟩ := p.exists_folded
  obtain ⟨names, rfl, hnames⟩ :=
    names_of_folded hfolded fun c hc => h c (by rw [hdone, List.head?_reverse, hc])
  refine ⟨names.reverse, ?_, by simpa using hnames⟩
  rw [hdone, List.map_reverse]

theorem isPlain_of_isName {name : String} (h : Component.IsName name) :
    IsPlain name := ⟨h.1, h.2.1, h.2.2.1⟩

section Spelling

variable {names : List String}

theorem head_tail_ofNames (h : ∀ name ∈ names, Component.IsName name) (hne : names ≠ []) :
    (ofNames names).head :: (ofNames names).tail = names := by
  obtain ⟨name, rest, rfl⟩ := List.exists_cons_of_ne_nil hne
  obtain ⟨hname, hrest⟩ := List.forall_mem_cons.mp h
  have hspelled : ofNames (name :: rest) = ofSegments name rest := by
    simp [ofNames, ofComponents, Component.segment, Function.comp_def]
  have hothers : ∀ segment ∈ rest, '/' ∉ segment.toList :=
    fun segment hsegment => (hrest segment hsegment).2.2.2
  rw [hspelled, head_ofSegments hname.2.2.2 hothers, tail_ofSegments hname.2.2.2 hothers]

/-- The segments of the path lead down by its names. -/
theorem spelled_ofNames (h : ∀ name ∈ names, Component.IsName name) :
    (ofNames names).isAbsolute = false ∧ ".." ∉ (ofNames names).head :: (ofNames names).tail ∧
      descents ((ofNames names).head :: (ofNames names).tail) = names := by
  rcases eq_or_ne names [] with rfl | hne
  · have hempty : (ofNames []).head :: (ofNames []).tail = [""] := by decide +kernel
    refine ⟨by decide +kernel, ?_, ?_⟩
    · rw [hempty]
      decide
    · rw [hempty]
      rfl
  · have hsegments := head_tail_ofNames h hne
    refine ⟨?_, ?_, ?_⟩
    · -- a path that starts at the root has an empty first segment
      by_contra habsolute
      rw [Bool.not_eq_false] at habsolute
      have hempty : (ofNames names).head = "" := head_of_isAbsolute habsolute
      have hmem : (ofNames names).head ∈ (ofNames names).head :: (ofNames names).tail :=
        List.mem_cons_self
      rw [hsegments, hempty] at hmem
      exact (h "" hmem).1 rfl
    · rw [hsegments]
      intro hmem
      exact (h _ hmem).2.2.1 rfl
    · rw [hsegments]
      exact descents_of_forall_plain fun name hname => isPlain_of_isName (h name hname)

theorem filterMap_innerComponent_names (h : ∀ name ∈ names, Component.IsName name) :
    names.filterMap innerComponent = names.map .name := by
  rw [List.filterMap_eq_map_iff_forall_eq_some]
  intro name hname
  exact innerComponent_of_isName (h name hname)

theorem trimInner_of_names (h : ∀ name ∈ names, Component.IsName name) :
    trimInner names = names := by
  rcases List.eq_nil_or_concat names with rfl | ⟨front, name, rfl⟩
  · rfl
  · have hname : innerComponent name = some (.name name) :=
      innerComponent_of_isName (h name (by simp))
    simp [trimInner, hname]

theorem tail_ofSegments_append {first : String} {front back : List String} (hne : back ≠ [])
    (hback : ∀ segment ∈ back, '/' ∉ segment.toList) :
    (ofSegments first (front ++ back)).tail = (ofSegments first front).tail ++ back := by
  obtain ⟨segment, rest, rfl⟩ := List.exists_cons_of_ne_nil hne
  obtain ⟨hsegment, hrest⟩ := List.forall_mem_cons.mp hback
  have hspelled : (ofSegments first (front ++ segment :: rest)).text.toList =
      (ofSegments first front).text.toList ++ '/' :: (ofSegments segment rest).text.toList := by
    simp [ofSegments, Text.uncut]
  rw [tail, hspelled, Text.cut_append_cons, cut_ofSegments hsegment hrest]
  simp [tail, Function.comp_def]

theorem ofPlace_cons (name : String) (rest : Place) :
    ofPlace (name :: rest) = ofSegments "" (name :: rest) := by
  simp [ofPlace, ofComponents, Component.segment, Function.comp_def]

/-- The components of a place below a directory end in the names that lead there. -/
theorem components_ofPlace_append (top : Place) (h : ∀ name ∈ names, Component.IsName name) :
    (ofPlace (top ++ names)).components =
      .root :: (ofSegments "" top).tail.filterMap innerComponent ++ names.map .name := by
  have hplace (place : Place) : (ofPlace place).components =
      .root :: (ofSegments "" place).tail.filterMap innerComponent := by
    cases place with
    | nil => decide +kernel
    | cons name rest =>
      have hfirst : (ofSegments "" (name :: rest)).headComponent = some .root := by
        simp [headComponent, head, isAbsolute, ofSegments, Text.uncut, Text.cut]
      rw [ofPlace_cons, components, hfirst]
      rfl
  rw [hplace]
  rcases eq_or_ne names [] with rfl | hne
  · simp
  · have hslash : ∀ name ∈ names, '/' ∉ name.toList := fun name hname => (h name hname).2.2.2
    rw [tail_ofSegments_append hne hslash, List.filterMap_append, filterMap_innerComponent_names h]
    rfl

/-- Different names below a directory have different components. -/
theorem components_ofPlace_inj (top : Place) {names' : List String}
    (h : ∀ name ∈ names, Component.IsName name) (h' : ∀ name ∈ names', Component.IsName name) :
    (ofPlace (top ++ names)).components = (ofPlace (top ++ names')).components ↔
    names = names' := by
  rw [components_ofPlace_append top h, components_ofPlace_append top h', List.append_cancel_left_eq]
  have hinjective : Function.Injective Component.name := fun a b hab => Component.name.inj hab
  exact (List.map_injective_iff.mpr hinjective).eq_iff

end Spelling

end Path

end ShaderEmbed
