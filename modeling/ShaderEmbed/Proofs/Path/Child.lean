import ShaderEmbed.Proofs.File.Closed
import ShaderEmbed.Proofs.Path.NormalForm

/-!
# Paths below a directory

What joining a path to a directory does to its segments and components: those of the path come
behind those of the directory (`tail_slash`, `components_child`), so that a walk first goes through
the directory (`exists_route_join`). The name that a path ends in is the last thing it spells; a
path that ends in no name ends in dots or in a slash (`isDotted_of_fileName`).
-/

namespace ShaderEmbed

theorem Text.cut_append_cons (sep : Char) (front rest : List Char) :
    cut sep (front ++ sep :: rest) =
      ((cut sep front).1, (cut sep front).2 ++ (cut sep rest).1 :: (cut sep rest).2) := by
  induction front with
  | nil => simp [cut]
  | cons c front ih =>
    by_cases hc : c = sep
    · simp [cut, hc, ih]
    · simp [cut, hc, ih]

namespace Path

/-! ## Joining -/

/-- What is spelled by a path, a slash and another path. -/
def slash (s q : Path) : Path := ⟨s.text ++ "/" ++ q.text⟩

section

variable (s q : Path)

theorem toList_slash : (s.slash q).text.toList = s.text.toList ++ '/' :: q.text.toList := by
  simp [slash]

theorem head_slash : (s.slash q).head = s.head := by
  rw [head, toList_slash, Text.cut_append_cons, head]

theorem tail_slash : (s.slash q).tail = s.tail ++ q.head :: q.tail := by
  rw [tail, toList_slash, Text.cut_append_cons]
  simp [head, tail]

theorem isAbsolute_slash : (s.slash q).isAbsolute = (s = .empty || s.isAbsolute) := by
  rw [isAbsolute, toList_slash]
  cases htext : s.text.toList with
  | nil =>
    have hempty : s = .empty := by
      cases s
      simpa [empty] using htext
    simp [hempty]
  | cons c rest =>
    have hne : s ≠ .empty := by
      rintro rfl
      cases htext
    simp [isAbsolute, htext, hne]

end

/-- A relative path is joined to the empty path as it is, and to any other behind a slash, which may
be there already. -/
theorem join_cases (p : Path) :
    (p = .empty ∧ ∀ q, q.isAbsolute = false → p.join q = q) ∨
      ∃ s, (p = s ∧ s ≠ .empty ∨ p = s.slash .empty) ∧ ∀ q, q.isAbsolute = false →
      p.join q = s.slash q := by
  rcases List.eq_nil_or_concat p.text.toList with htext | ⟨front, c, htext⟩
  · have hempty : p = .empty := by
      cases p
      simpa [empty] using htext
    refine Or.inl ⟨hempty, fun q hq => ?_⟩
    subst hempty
    simp [join, hq, empty]
  · rw [List.concat_eq_append] at htext
    have hlast : p.text.toList.getLast? = some c := by simp [htext]
    refine Or.inr ?_
    by_cases hc : c = '/'
    · subst hc
      have hspelled : p.text = String.ofList front ++ "/" := by simp [← String.toList_inj, htext]
      refine ⟨⟨String.ofList front⟩, Or.inr ?_, fun q hq => ?_⟩
      · cases p
        simpa [slash, empty] using hspelled
      · simp [join, hq, slash, hspelled]
    · refine ⟨p, Or.inl ⟨rfl, ?_⟩, fun q hq => by simp [join, hq, hlast, hc, slash]⟩
      rintro rfl
      simp [empty] at htext

theorem join_of_isAbsolute {p q : Path} (h : q.isAbsolute = true) : p.join q = q := by
  simp [join, h]

/-! ## Components -/

theorem head_of_isAbsolute {p : Path} (h : p.isAbsolute = true) : p.head = "" := by
  obtain ⟨rest, hrest⟩ := List.head?_eq_some_iff.mp (by simpa [isAbsolute] using h)
  simp [head, hrest, Text.cut]

theorem headComponent_of_head_of_isAbsolute {p q : Path} (hhead : p.head = q.head)
    (habsolute : p.isAbsolute = q.isAbsolute) : p.headComponent = q.headComponent := by
  simp only [headComponent, hhead, habsolute]

theorem components_slash {p s : Path} (h : p = s ∧ s ≠ .empty ∨ p = s.slash .empty) (q : Path) :
    (s.slash q).components = p.components ++ (q.head :: q.tail).filterMap innerComponent := by
  rcases h with ⟨rfl, hne⟩ | rfl
  · have hfirst :=
      headComponent_of_head_of_isAbsolute (head_slash p q) (by simp [isAbsolute_slash, hne])
    simp [components, hfirst, tail_slash]
  · have hfirst :=
      headComponent_of_head_of_isAbsolute ((head_slash s q).trans (head_slash s .empty).symm)
      (by simp [isAbsolute_slash])
    have hempty : innerComponent (head .empty) = none ∧ tail .empty = [] := by decide
    simp [components, hfirst, tail_slash, hempty]

/-- The first segment of a relative path is read as any other, but that a dot is a component there.
It does not count for what passes dots by. -/
theorem foldl_components_of_relative {α : Type} {f : α → Component → α}
    (hf : ∀ a, f a .here = a) {q : Path} (h : q.isAbsolute = false) (a : α) :
    q.components.foldl f a = ((q.head :: q.tail).filterMap innerComponent).foldl f a := by
  have hhead : q.headComponent.toList.foldl f a = (innerComponent q.head).toList.foldl f a := by
    unfold headComponent innerComponent
    simp only [h, Bool.false_eq_true, if_false]
    split_ifs <;> simp [hf]
  rw [components, List.foldl_append, hhead, ← List.foldl_append]
  cases hinner : innerComponent q.head with
  | none => rw [List.filterMap_cons_none hinner]; rfl
  | some c => rw [List.filterMap_cons_some hinner]; rfl

theorem head_of_isName {name : String} (h : '/' ∉ name.toList) :
    (Path.mk name).head = name ∧ (Path.mk name).tail = [] := by
  simp [head, tail, Text.cut_of_notMem h]

theorem not_isAbsolute_of_notMem {name : String} (h : '/' ∉ name.toList) :
    (Path.mk name).isAbsolute = false := by
  simp only [isAbsolute, decide_eq_false_iff_not]
  intro hfirst
  exact h (List.mem_of_mem_head? hfirst)

theorem innerComponent_of_isName {name : String} (h : Component.IsName name) :
    innerComponent name = some (.name name) := by
  obtain ⟨hempty, hdot, hdots, -⟩ := h
  simp [innerComponent, hempty, hdot, hdots]

/-- A name in a directory is spelled behind the directory. -/
theorem exists_child_eq (p : Path) :
    ∃ front : String, ∀ name : String, '/' ∉ name.toList → p.child name = ⟨front ++ name⟩ := by
  rcases p.join_cases with ⟨-, hjoin⟩ | ⟨s, -, hjoin⟩
  · refine ⟨"", fun name hname => ?_⟩
    rw [child, hjoin _ (not_isAbsolute_of_notMem hname), String.empty_append]
  · refine ⟨s.text ++ "/", fun name hname => ?_⟩
    rw [child, hjoin _ (not_isAbsolute_of_notMem hname), slash]

theorem components_child (p : Path) {name : String} (h : Component.IsName name) :
    (p.child name).components = p.components ++ [.name name] := by
  obtain ⟨hhead, htail⟩ := head_of_isName h.2.2.2
  have hrelative := not_isAbsolute_of_notMem h.2.2.2
  have hinner := innerComponent_of_isName h
  unfold child
  rcases p.join_cases with ⟨rfl, hjoin⟩ | ⟨s, hs, hjoin⟩
  · obtain ⟨hempty, hdot, hdots, -⟩ := h
    have hnone : components .empty = [] := by decide
    rw [hjoin _ hrelative, hnone]
    simp [components, headComponent, hhead, htail, hempty, hdot, hdots]
  · rw [hjoin _ hrelative, components_slash hs, hhead, htail]
    simp [hinner]

theorem fileName_child (p : Path) {name : String} (h : Component.IsName name) :
    (p.child name).fileName = some name := by
  simp [fileName, components_child p h]

theorem isName_of_fileName {p : Path} {name : String} (h : p.fileName = some name) :
    Component.IsName name := by
  unfold fileName at h
  split at h
  · rename_i text hlast
    cases h
    rcases isInner_of_mem_components (List.mem_of_getLast? hlast) with heq | heq | hinner
    · cases heq
    · cases heq
    · exact hinner
  · cases h

/-- The name that a path ends in is still the end of its normal form. -/
theorem fileName_normalize {p : Path} {name : String} (h : p.fileName = some name) :
    p.normalize.fileName = some name := by
  unfold fileName at h
  split at h
  · rename_i text hlast
    cases h
    obtain ⟨before, hbefore⟩ := List.getLast?_eq_some_iff.mp hlast
    have hplace : p.place = Component.normal before ++ [.name name] := by
      rw [place, hbefore, Component.normal, Component.normal, List.foldl_append]
      simp [Component.fold]
    simp [fileName, components_normalize, hplace]
  · cases h

/-! ## Walking below a directory -/

open FileTree

theorem route_slash (s q : Path) :
    route (s.slash q) =
      ((s = .empty || s.isAbsolute : Bool),
        (if s = .empty then [] else (route s).2) ++ q.head :: q.tail) := by
  rw [route, isAbsolute_slash, head_slash, tail_slash]
  by_cases hempty : s = .empty
  · have htail : tail .empty = [] := by decide
    simp [hempty, htail]
  · by_cases habsolute : s.isAbsolute <;> simp [hempty, habsolute, route]

/-- The walk to a path below a directory starts with segments that do not depend on the path. -/
theorem exists_route_join (p : Path) :
    ∃ fromRoot front, ∀ q, q.isAbsolute = false →
    route (p.join q) = (fromRoot, front ++ q.head :: q.tail) := by
  rcases p.join_cases with ⟨rfl, hjoin⟩ | ⟨s, -, hjoin⟩
  · exact ⟨false, [], fun q hq => by simp [hjoin q hq, route, hq]⟩
  · exact ⟨_, _, fun q hq => by rw [hjoin q hq, route_slash]⟩

/-- A name in a directory that has a name itself is spelled behind a slash. -/
theorem child_child_eq (p : Path) {name below : String} (hname : Component.IsName name)
    (hbelow : '/' ∉ below.toList) :
    p.child name ≠ .empty ∧ (p.child name).child below = (p.child name).slash ⟨below⟩ := by
  have hne : name.toList ≠ [] := by simpa using hname.1
  have hlast : (p.child name).text.toList.getLast? = name.toList.getLast? := by
    obtain ⟨front, hfront⟩ := p.exists_child_eq
    rw [hfront name hname.2.2.2, String.toList_append]
    simp [List.getLast?_append, List.getLast?_eq_some_getLast hne]
  obtain ⟨c, hc⟩ : ∃ c, name.toList.getLast? = some c := by
    rw [← Option.isSome_iff_exists]
    simpa using hname.1
  have hslash : c ≠ '/' := by
    rintro rfl
    exact hname.2.2.2 (List.mem_of_getLast? hc)
  constructor
  · intro hempty
    rw [hempty, hc] at hlast
    cases hlast
  · rw [child, join, not_isAbsolute_of_notMem hbelow, hlast, hc]
    simp [hslash, slash]

/-- The walk to a name in a directory that has a name itself goes the way to the directory first. -/
theorem route_child_child (p : Path) {name below : String} (hname : Component.IsName name)
    (hbelow : '/' ∉ below.toList) :
    route ((p.child name).child below) =
      ((route (p.child name)).1, (route (p.child name)).2 ++ [below]) := by
  obtain ⟨hne, hjoin⟩ := p.child_child_eq hname hbelow
  obtain ⟨hhead, htail⟩ := head_of_isName hbelow
  rw [hjoin, route_slash, hhead, htail]
  simp only [hne, decide_false, Bool.false_or, if_false, Prod.mk.injEq, and_true]
  unfold route
  split <;> simp_all

theorem isDotted_segments {p : Path} (h : p.fileName = none) : IsDotted (p.head :: p.tail) := by
  have hlast (text : String) : p.components.getLast? ≠ some (.name text) := by
    intro hname
    simp [fileName, hname] at h
  rcases List.eq_nil_or_concat p.tail with htail | ⟨before, segment, htail⟩
  · refine ⟨p.head, by simp [htail], ?_⟩
    rintro ⟨hempty, hdot, hdots⟩
    exact hlast p.head (by simp [components, htail, headComponent, hempty, hdot, hdots])
  · refine ⟨segment, by simp [htail, List.getLast?_cons], ?_⟩
    rintro ⟨hempty, hdot, hdots⟩
    have hinner : innerComponent segment = some (.name segment) := by
      simp [innerComponent, hempty, hdot, hdots]
    exact hlast segment (by simp [components, htail, hinner])

/-- A path that ends in no name ends in dots or in a slash, wherever it is joined. -/
theorem isDotted_of_fileName {p : Path} (h : p.fileName = none) (directory : Path) :
    IsDotted (route (directory.join p)).2 := by
  have hsegments := isDotted_segments h
  cases habsolute : p.isAbsolute with
  | true =>
    have hroute : route p = (true, p.tail) := by simp [route, habsolute]
    rw [join_of_isAbsolute habsolute]
    have hne := route_ne_nil p
    rw [hroute] at hne ⊢
    exact hsegments.tail hne
  | false =>
    obtain ⟨fromRoot, front, hroute⟩ := directory.exists_route_join
    rw [hroute p habsolute]
    exact hsegments.append front

end Path

end ShaderEmbed
