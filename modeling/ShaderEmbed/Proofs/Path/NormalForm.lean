import ShaderEmbed.Path.Normal

/-!
# The normal form of a path

Normalizing spells the place of a path. Here it is shown that the spelling is faithful: the
components of a normalized path are its place (`components_normalize`), so that a path and its
normal form name the same place (`place_normalize`), normalizing twice is normalizing once
(`normalize_normalize`), and normalized paths are equal as soon as their places are
(`eq_of_place_eq`).

The proof keeps the components that are done in the order in which `Component.fold` holds them, the
last one first. `Component.Folded` describes what `fold` leaves: names above a root, or names above
dots that lead upwards.
-/

namespace ShaderEmbed

/-! ## Cutting what was put together -/

namespace Text

theorem cut_append_of_notMem {sep : Char} {front : List Char} (rest : List Char) (h : sep ∉ front) :
    cut sep (front ++ rest) = (front ++ (cut sep rest).1, (cut sep rest).2) := by
  induction front with
  | nil => rfl
  | cons c front ih =>
    simp only [List.mem_cons, not_or] at h
    simp [cut, Ne.symm h.1, ih h.2]

theorem cut_uncut {sep : Char} {head : List Char} {tail : List (List Char)} (hhead : sep ∉ head)
    (htail : ∀ piece ∈ tail, sep ∉ piece) : cut sep (uncut sep (head, tail)) = (head, tail) := by
  induction tail generalizing head with
  | nil => simpa [uncut] using cut_of_notMem hhead
  | cons piece others ih =>
    have hrest := ih (htail piece List.mem_cons_self) fun p hp =>
      htail p (List.mem_cons_of_mem _ hp)
    have hsep : cut sep (sep :: uncut sep (piece, others)) = ([], piece :: others) := by
      simp [cut, hrest]
    have happ := cut_append_of_notMem (sep :: uncut sep (piece, others)) hhead
    rw [hsep] at happ
    simpa [uncut] using happ

end Text

/-! ## Components that can be spelled -/

namespace Component

/-- A name that a segment of a path can spell. -/
def IsName (text : String) : Prop := text ≠ "" ∧ text ≠ "." ∧ text ≠ ".." ∧ '/' ∉ text.toList

instance (text : String) : Decidable (IsName text) :=
  inferInstanceAs (Decidable (text ≠ "" ∧ text ≠ "." ∧ text ≠ ".." ∧ '/' ∉ text.toList))

/-- A component that a segment behind a slash can spell. -/
def IsInner : Component → Prop
  | up => True
  | name text => IsName text
  | _ => False

theorem IsInner.cases {c : Component} (h : c.IsInner) :
    c = .up ∨ ∃ text, IsName text ∧ c = .name text := by
  cases c with
  | root => exact h.elim
  | here => exact h.elim
  | up => exact Or.inl rfl
  | name text => exact Or.inr ⟨text, h, rfl⟩

theorem IsInner.innerComponent_segment {c : Component} (h : c.IsInner) :
    Path.innerComponent c.segment = some c := by
  rcases h.cases with rfl | ⟨text, ⟨hempty, hdot, hdots, -⟩, rfl⟩
  · rfl
  · simp [Path.innerComponent, segment, hempty, hdot, hdots]

theorem IsInner.notMem_segment {c : Component} (h : c.IsInner) : '/' ∉ c.segment.toList := by
  rcases h.cases with rfl | ⟨text, ⟨-, -, -, hslash⟩, rfl⟩
  · decide
  · exact hslash

end Component

namespace Path

theorem isInner_of_innerComponent {segment : String} {c : Component} (hslash : '/' ∉ segment.toList)
    (h : innerComponent segment = some c) : c.IsInner := by
  unfold innerComponent at h
  split at h
  · cases h
  · split at h
    · cases h
    · split at h
      · cases h
        trivial
      · cases h
        exact ⟨by assumption, by assumption, by assumption, hslash⟩

theorem notMem_head (p : Path) : '/' ∉ p.head.toList := by
  simpa [head] using Text.notMem_cut_head '/' p.text.toList

theorem notMem_tail (p : Path) : ∀ segment ∈ p.tail, '/' ∉ segment.toList := by
  intro segment hsegment
  obtain ⟨piece, hpiece, rfl⟩ := List.mem_map.mp hsegment
  simpa using Text.notMem_cut_tail '/' p.text.toList piece hpiece

/-- A component of a path is the root, a dot, or one that a segment behind a slash can spell. -/
theorem isInner_of_mem_components {p : Path} {c : Component} (h : c ∈ p.components) :
    c = .root ∨ c = .here ∨ c.IsInner := by
  rcases List.mem_append.mp h with hhead | htail
  · have hc : p.headComponent = some c := by simpa using hhead
    unfold headComponent at hc
    split at hc
    · split at hc <;> cases hc
      exact Or.inl rfl
    · split at hc
      · cases hc
        exact Or.inr (Or.inl rfl)
      · split at hc
        · cases hc
          exact Or.inr (Or.inr trivial)
        · cases hc
          exact Or.inr (Or.inr ⟨by assumption, by assumption, by assumption, p.notMem_head⟩)
  · obtain ⟨segment, hsegment, hc⟩ := List.mem_filterMap.mp htail
    exact Or.inr (Or.inr (isInner_of_innerComponent (p.notMem_tail segment hsegment) hc))

theorem cut_ofSegments {first : String} {others : List String} (hfirst : '/' ∉ first.toList)
    (hothers : ∀ segment ∈ others, '/' ∉ segment.toList) :
    Text.cut '/' (ofSegments first others).text.toList =
      (first.toList, others.map String.toList) := by
  have htail : ∀ piece ∈ others.map String.toList, '/' ∉ piece := by simpa using hothers
  simpa [ofSegments] using Text.cut_uncut hfirst htail

theorem head_ofSegments {first : String} {others : List String} (hfirst : '/' ∉ first.toList)
    (hothers : ∀ segment ∈ others, '/' ∉ segment.toList) :
    (ofSegments first others).head = first := by
  rw [head, cut_ofSegments hfirst hothers, String.ofList_toList]

theorem tail_ofSegments {first : String} {others : List String} (hfirst : '/' ∉ first.toList)
    (hothers : ∀ segment ∈ others, '/' ∉ segment.toList) :
    (ofSegments first others).tail = others := by
  rw [tail, cut_ofSegments hfirst hothers]
  simp [Function.comp_def]

theorem filterMap_innerComponent {inner : List Component} (h : ∀ c ∈ inner, c.IsInner) :
    (inner.map Component.segment).filterMap innerComponent = inner := by
  induction inner with
  | nil => rfl
  | cons c rest ih =>
    rw [List.map_cons, List.filterMap_cons_some (h c List.mem_cons_self).innerComponent_segment,
      ih fun d hd => h d (List.mem_cons_of_mem _ hd)]

/-- Spelling components and reading them again gives the components, where each can be spelled in
its place. -/
theorem components_ofComponents {c : Component} {inner : List Component}
    (hc : c = .root ∨ c.IsInner) (hinner : ∀ d ∈ inner, d.IsInner) :
    (ofComponents (c :: inner)).components = c :: inner := by
  have hothers : ∀ segment ∈ inner.map Component.segment, '/' ∉ segment.toList := by
    intro segment hsegment
    obtain ⟨d, hd, rfl⟩ := List.mem_map.mp hsegment
    exact (hinner d hd).notMem_segment
  rcases hc with rfl | hc
  · cases inner with
    | nil => decide
    | cons d rest =>
      -- the root is spelled by the slash behind an empty first segment
      have hroot : '/' ∉ (Component.segment .root).toList := by decide
      have habsolute : (ofSegments (Component.segment .root)
          ((d :: rest).map Component.segment)).isAbsolute = true := by
        simp [isAbsolute, ofSegments, Text.uncut, Component.segment]
      simp only [ofComponents, components, headComponent, head_ofSegments hroot hothers,
        tail_ofSegments hroot hothers, filterMap_innerComponent hinner, habsolute]
      rfl
  · have hspelled : ofComponents (c :: inner) =
        ofSegments c.segment (inner.map Component.segment) := by
      rcases hc.cases with rfl | ⟨text, -, rfl⟩
      · rfl
      · rfl
    have hhead : (ofComponents (c :: inner)).headComponent = some c := by
      unfold headComponent
      rw [hspelled, head_ofSegments hc.notMem_segment hothers]
      rcases hc.cases with rfl | ⟨text, ⟨hempty, hdot, hdots, -⟩, rfl⟩
      · rfl
      · simp [Component.segment, hempty, hdot, hdots]
    rw [components, hhead, hspelled, tail_ofSegments hc.notMem_segment hothers,
      filterMap_innerComponent hinner]
    rfl

end Path

/-! ## What folding leaves -/

namespace Component

/-- The normal forms, the last component first: names above a root, or names above dots that lead
upwards. -/
def Folded : List Component → Prop
  | [] => True
  | .root :: below => below = []
  | .here :: _ => False
  | .up :: below => ∀ c ∈ below, c = .up
  | .name text :: below => IsName text ∧ Folded below

theorem folded_of_forall_up {done : List Component} (h : ∀ c ∈ done, c = .up) : Folded done := by
  cases done with
  | nil => trivial
  | cons c below =>
    obtain rfl := h c List.mem_cons_self
    exact fun d hd => h d (List.mem_cons_of_mem _ hd)

/-- Folding one more component into a normal form leaves a normal form. -/
theorem Folded.fold {done : List Component} (h : Folded done) {c : Component}
    (hc : c = .root ∨ c = .here ∨ c.IsInner) : Folded (fold done c) := by
  cases c with
  | root => simp [Component.fold, Folded]
  | here => simpa [Component.fold] using h
  | up =>
    match done, h with
    | [], _ => simp [Component.fold, Folded]
    | .root :: below, h =>
      obtain rfl : below = [] := h
      simp [Component.fold, Folded]
    | .up :: below, h => exact fun d hd => (List.mem_cons.mp hd).elim id (h d)
    | .name text :: below, h => exact h.2
  | name text =>
    have hname : IsName text := by simpa [IsInner] using hc
    exact ⟨hname, h⟩

theorem folded_foldl {components done : List Component}
    (hcomponents : ∀ c ∈ components, c = .root ∨ c = .here ∨ c.IsInner) (hdone : Folded done) :
    Folded (components.foldl Component.fold done) := by
  induction components generalizing done with
  | nil => exact hdone
  | cons c rest ih =>
    exact ih (fun d hd => hcomponents d (List.mem_cons_of_mem _ hd))
      (hdone.fold (hcomponents c List.mem_cons_self))

theorem exists_folded_normal {components : List Component}
    (hcomponents : ∀ c ∈ components, c = .root ∨ c = .here ∨ c.IsInner) :
    ∃ done, Folded done ∧ normal components = done.reverse :=
  ⟨components.foldl Component.fold [], folded_foldl hcomponents trivial, rfl⟩

/-- A normal form is left as it is. -/
theorem Folded.foldl_reverse {done : List Component} (h : Folded done) :
    done.reverse.foldl Component.fold [] = done := by
  induction done with
  | nil => rfl
  | cons c below ih =>
    rw [List.reverse_cons, List.foldl_append]
    cases c with
    | root =>
      obtain rfl : below = [] := h
      rfl
    | here => exact h.elim
    | up =>
      rw [ih (folded_of_forall_up h)]
      cases below with
      | nil => rfl
      | cons d rest =>
        obtain rfl := h d List.mem_cons_self
        rfl
    | name text =>
      rw [ih h.2]
      rfl

theorem Folded.isInner_dropLast {done : List Component} (h : Folded done) :
    ∀ c ∈ done.dropLast, c.IsInner := by
  induction done with
  | nil => simp
  | cons c below ih =>
    cases below with
    | nil => simp
    | cons d rest =>
      have hhead : c.IsInner ∧ Folded (d :: rest) := by
        cases c with
        | root => cases h
        | here => exact h.elim
        | up => exact ⟨trivial, folded_of_forall_up h⟩
        | name text => exact h
      intro e he
      rcases List.mem_cons.mp he with rfl | he
      · exact hhead.1
      · exact ih hhead.2 e he

theorem Folded.getLast {done : List Component} {c : Component} (h : Folded (done ++ [c])) :
    c = .root ∨ c.IsInner := by
  induction done with
  | nil =>
    cases c with
    | root => exact Or.inl rfl
    | here => exact h.elim
    | up => exact Or.inr trivial
    | name text => exact Or.inr h.1
  | cons d rest ih =>
    cases d with
    | root => exact absurd h (by simp [Folded])
    | here => exact h.elim
    | up => exact Or.inr ((h c (by simp)) ▸ trivial)
    | name text => exact ih h.2

end Component

/-! ## Normal paths -/

namespace Path

theorem exists_folded (p : Path) : ∃ done, Component.Folded done ∧ p.place = done.reverse :=
  Component.exists_folded_normal fun _ hc => isInner_of_mem_components hc

theorem components_normalize (p : Path) : p.normalize.components = p.place := by
  unfold normalize
  cases hplace : p.place with
  | nil => rfl
  | cons c inner =>
    obtain ⟨done, hfolded, hdone⟩ := p.exists_folded
    obtain rfl : done = inner.reverse ++ [c] := by
      rw [← List.reverse_cons, ← hplace, hdone, List.reverse_reverse]
    refine components_ofComponents hfolded.getLast ?_
    intro d hd
    exact hfolded.isInner_dropLast d (by simpa using hd)

@[simp] theorem place_normalize (p : Path) : p.normalize.place = p.place := by
  obtain ⟨done, hfolded, hdone⟩ := p.exists_folded
  rw [place, components_normalize, Component.normal, hdone, hfolded.foldl_reverse]

@[simp] theorem normalize_normalize (p : Path) : p.normalize.normalize = p.normalize := by
  rw [normalize, place_normalize, normalize]

theorem eq_of_place_eq {p q : Path} (hp : p.normalize = p) (hq : q.normalize = q)
    (h : p.place = q.place) :
    p = q := by
  rw [← hp, ← hq, normalize, normalize, h]

end Path

end ShaderEmbed
