import ShaderEmbed.Proofs.Fragment.Directive
import ShaderEmbed.Proofs.Fragment.Unfolding
import ShaderEmbed.Proofs.Path.NormalForm
import ShaderEmbed.Proofs.Text.LineCut

/-!
# What a fragment stands for

`Derives` gives a fragment in memory the text and the sources it stands for, by rules that know no
stack and no guard and read a line as it is spelled: a line stands for itself, a directive for the
fragment it names. A fragment that takes part in a cycle stands for nothing.

* `Derives.unique`: a fragment stands for at most one text and one list of sources.
* `derives_of_expand`: an expansion that succeeds, under any stack, yields what the fragment stands
  for.
* `expand_of_derives`: a fragment that stands for something expands under every stack of fragments
  that enclose it. The sources of a fragment are longer than those of every fragment inside it, so
  none of the enclosing fragments is met again, and the guard stays silent.
* `flatten_eq_ok_iff`: flattening succeeds with a result exactly when the fragment stands for it.
-/

namespace ShaderEmbed

namespace FragmentMap

/-! ## The rules -/

mutual

/-- A fragment and what it stands for: its lines, taken together, behind the fragment itself as the
first source. -/
inductive Derives (fragments : FragmentMap) (marker : String) : Path → String → List Path → Prop
  | fragment {p : Path} {content text : String} {pieces : List (List Char)} {sources : List Path}
      (hget : fragments.get? p = some content) (hcut : Text.CutsInto content.toList pieces)
      (hlines : DerivesLines fragments marker p (pieces.map String.ofList) text sources) :
      Derives fragments marker p text (p :: sources)

/-- Lines of the fragment at a path and what they stand for. -/
inductive DerivesLines (fragments : FragmentMap) (marker : String) :
    Path → List String → String → List Path → Prop
  | nil {p : Path} : DerivesLines fragments marker p [] "" []
  | ordinary {p : Path} {line text : String} {rest : List String} {sources : List Path}
      (hline : Line.Spelled marker line .ordinary)
      (hrest : DerivesLines fragments marker p rest text sources) :
      DerivesLines fragments marker p (line :: rest) (line ++ text) sources
  | directive {p : Path} {line reference text restText : String} {rest : List String}
      {sources restSources : List Path} (hline : Line.Spelled marker line (.includes reference))
      (hsub : Derives fragments marker
        ((p.parent.getD .empty).join ⟨reference⟩).normalize text sources)
      (hrest : DerivesLines fragments marker p rest restText restSources) :
      DerivesLines fragments marker p (line :: rest) (text ++ restText) (sources ++ restSources)

end

variable {fragments : FragmentMap} {marker : String} {p : Path}
  {text : String} {sources : List Path}

theorem derives_iff : fragments.Derives marker p text sources ↔
    ∃ content rest, fragments.get? p = some content ∧ sources = p :: rest ∧
      fragments.DerivesLines marker p (Text.terminatedLines content) text rest := by
  constructor
  · rintro ⟨hget, hcut, hlines⟩
    obtain rfl := Text.cutsInto_iff.mp hcut
    exact ⟨_, _, hget, rfl, hlines⟩
  · rintro ⟨content, rest, hget, rfl, hlines⟩
    exact .fragment hget (Text.cutsInto_cutLines _) hlines

/-- Induction over the rules: `P` is shown of fragments and `Q` of their lines. -/
theorem Derives.induct {P : Path → String → List Path → Prop}
    {Q : Path → List String → String → List Path → Prop}
    (hfragment : ∀ {p content text pieces sources}, fragments.get? p = some content →
      Text.CutsInto content.toList pieces →
      fragments.DerivesLines marker p (pieces.map String.ofList) text sources →
      Q p (pieces.map String.ofList) text sources → P p text (p :: sources))
    (hnil : ∀ {p}, Q p [] "" [])
    (hordinary : ∀ {p line text rest sources}, Line.Spelled marker line .ordinary →
      fragments.DerivesLines marker p rest text sources → Q p rest text sources →
      Q p (line :: rest) (line ++ text) sources)
    (hdirective : ∀ {p line reference text restText rest sources restSources},
      Line.Spelled marker line (.includes reference) →
      fragments.Derives marker (included p reference) text sources →
      fragments.DerivesLines marker p rest restText restSources →
      P (included p reference) text sources → Q p rest restText restSources →
      Q p (line :: rest) (text ++ restText) (sources ++ restSources))
    (h : fragments.Derives marker p text sources) : P p text sources :=
  @Derives.rec fragments marker (fun p text sources _ => P p text sources)
    (fun p lines text sources _ => Q p lines text sources) hfragment hnil hordinary
    hdirective p text sources h

/-! ## One meaning at most -/

theorem Derives.unique {text' : String} {sources' : List Path}
    (h : fragments.Derives marker p text sources) (h' : fragments.Derives marker p text' sources') :
    text = text' ∧ sources = sources' := by
  revert text' sources'
  refine Derives.induct
    (P := fun p text sources => ∀ {text' sources'}, fragments.Derives marker p text' sources' →
      text = text' ∧ sources = sources')
    (Q := fun p lines text sources => ∀ {text' sources'},
      fragments.DerivesLines marker p lines text' sources' →
      text = text' ∧ sources = sources') ?_ ?_ ?_ ?_ h
  · intro p content text pieces sources hget hcut _ ih text' sources' h'
    obtain ⟨hget', hcut', hlines'⟩ := h'
    obtain rfl := Option.some.inj (hget.symm.trans hget')
    obtain rfl := (Text.cutsInto_iff.mp hcut).trans (Text.cutsInto_iff.mp hcut').symm
    obtain ⟨rfl, rfl⟩ := ih hlines'
    exact ⟨rfl, rfl⟩
  · intro p text' sources' h'
    cases h'
    exact ⟨rfl, rfl⟩
  · intro p line text rest sources hline _ ih text' sources' h'
    cases h' with
    | ordinary _ hrest' =>
      obtain ⟨rfl, rfl⟩ := ih hrest'
      exact ⟨rfl, rfl⟩
    | directive hline' _ _ => cases hline.unique hline'
  · intro p line reference text restText rest sources restSources hline _ _
      ihsub ihrest text' sources' h'
    cases h' with
    | ordinary hline' _ => cases hline.unique hline'
    | directive hline' hsub' hrest' =>
      cases hline.unique hline'
      obtain ⟨rfl, rfl⟩ := ihsub hsub'
      obtain ⟨rfl, rfl⟩ := ihrest hrest'
      exact ⟨rfl, rfl⟩

/-! ## From an expansion to the rules -/

theorem read_of_get? {content : String} (h : fragments.get? p = some content) :
    fragments.source.read p = .ok content := by
  simp only [source, h]

theorem derivesLines_of_expandLines {stack : List Active} {sub : Path → Attempt}
    {number : Nat} {lines : List String} {flat : Flattened}
    (hsub : ∀ next flat, (sub next).result = .ok flat →
      fragments.Derives marker next flat.text flat.sources)
    (h : (expandLines marker stack p sub number lines).result = .ok flat) :
    fragments.DerivesLines marker p lines flat.text flat.sources := by
  induction lines generalizing number flat with
  | nil =>
    cases h
    exact .nil
  | cons line rest ih =>
    cases hline : Line.classify marker line with
    | ordinary =>
      rw [expandLines_ordinary hline, Attempt.result_afterText] at h
      obtain ⟨more, hmore, rfl⟩ := exists_of_map_eq_ok h
      exact .ordinary (Line.classify_eq_iff.mp hline) (ih hmore)
    | blank =>
      rw [expandLines_blank hline] at h
      cases h
    | includes reference =>
      rw [expandLines_includes hline] at h
      cases hresult : (sub (included p reference)).result with
      | error e =>
        rw [Attempt.result_followedBy_of_error hresult] at h
        cases h
      | ok inner =>
        rw [Attempt.result_followedBy_of_ok hresult] at h
        obtain ⟨more, hmore, rfl⟩ := exists_of_map_eq_ok h
        exact .directive (Line.classify_eq_iff.mp hline) (hsub _ _ hresult) (ih hmore)

theorem derives_of_expand {stack : List Active} {flat : Flattened}
    (h : (fragments.source.expand marker stack p).result = .ok flat) :
    fragments.Derives marker p flat.text flat.sources := by
  induction stack, p using FragmentSource.expand.induct fragments.source generalizing flat with
  | case1 stack p e hid => cases hid
  | case2 stack p id hid hactive =>
    rw [FragmentSource.expand_of_active hid hactive] at h
    cases h
  | case3 stack p id hid hnew e hread =>
    rw [FragmentSource.expand_of_read_error hid hnew hread] at h
    cases h
  | case4 stack p id hid hnew content hread ih =>
    rw [FragmentSource.expand_of_read hid hnew hread, Attempt.result_entered] at h
    obtain ⟨inner, hinner, rfl⟩ := exists_of_map_eq_ok h
    have hlines := derivesLines_of_expandLines (fun next flat hflat => ih next hflat) hinner
    exact derives_iff.mpr ⟨content, inner.sources, get?_of_read hread, rfl, hlines⟩

/-! ## From the rules to an expansion -/

/-- The fragments on a stack, each normal and identified by its place. -/
def Lexical (stack : List Active) : Prop :=
  ∀ entry ∈ stack, entry.identity = entry.path.place ∧ entry.path.normalize = entry.path

theorem Lexical.push {stack : List Active} (h : Lexical stack) (hnormal : p.normalize = p) :
    Lexical (stack ++ [⟨p.place, p⟩]) := by
  intro entry hentry
  rcases List.mem_append.mp hentry with hentry | hentry
  · exact h entry hentry
  · obtain rfl := List.mem_singleton.mp hentry
    exact ⟨rfl, hnormal⟩

theorem Lexical.mem_identities_iff {stack : List Active} (h : Lexical stack)
    (hnormal : p.normalize = p) :
    p.place ∈ stack.map Active.identity ↔ p ∈ stack.map Active.path := by
  constructor
  · intro hmem
    obtain ⟨entry, hentry, hplace⟩ := List.mem_map.mp hmem
    obtain ⟨hidentity, hentryNormal⟩ := h entry hentry
    exact List.mem_map.mpr
      ⟨entry, hentry, Path.eq_of_place_eq hentryNormal hnormal (hidentity.symm.trans hplace)⟩
  · intro hmem
    obtain ⟨entry, hentry, rfl⟩ := List.mem_map.mp hmem
    exact List.mem_map.mpr ⟨entry, hentry, (h entry hentry).1⟩

/-- The fragments of a list enclose something that adds a number of sources: each stands for more
sources. -/
def Encloses (fragments : FragmentMap) (marker : String) (paths : List Path) (size : Nat) : Prop :=
  ∀ q ∈ paths, ∃ text sources, fragments.Derives marker q text sources ∧ size < sources.length

theorem Encloses.mono {paths : List Path} {size smaller : Nat}
    (h : fragments.Encloses marker paths size) (hle : smaller ≤ size) :
    fragments.Encloses marker paths smaller := by
  intro q hq
  obtain ⟨text, sources, hderives, hlt⟩ := h q hq
  exact ⟨text, sources, hderives, by omega⟩

theorem Encloses.push {paths : List Path} {size : Nat} (h : fragments.Encloses marker paths size)
    (hderives : fragments.Derives marker p text sources) (hlt : size < sources.length) :
    fragments.Encloses marker (paths ++ [p]) size := by
  intro q hq
  rcases List.mem_append.mp hq with hq | hq
  · exact h q hq
  · obtain rfl := List.mem_singleton.mp hq
    exact ⟨text, sources, hderives, hlt⟩

/-- A fragment is none of those that enclose it: it would stand for more sources than it does. -/
theorem Encloses.notMem {paths : List Path} (h : fragments.Encloses marker paths sources.length)
    (hderives : fragments.Derives marker p text sources) : p ∉ paths := by
  intro hmem
  obtain ⟨text', sources', hderives', hlt⟩ := h p hmem
  obtain ⟨-, rfl⟩ := hderives.unique hderives'
  exact Nat.lt_irrefl _ hlt

/-- A fragment that stands for something expands to it inside all fragments that enclose it. -/
theorem expand_of_derives {stack : List Active} (h : fragments.Derives marker p text sources)
    (hnormal : p.normalize = p) (hstack : Lexical stack)
    (hencloses : fragments.Encloses marker (stack.map Active.path) sources.length) :
    (fragments.source.expand marker stack p).result = .ok ⟨text, sources⟩ := by
  revert stack
  refine Derives.induct
    (P := fun p text sources => p.normalize = p → ∀ {stack}, Lexical stack →
      fragments.Encloses marker (stack.map Active.path) sources.length →
      (fragments.source.expand marker stack p).result = .ok ⟨text, sources⟩)
    (Q := fun p lines text sources => ∀ {stack number}, Lexical stack →
      fragments.Encloses marker (stack.map Active.path) sources.length →
      (expandLines marker stack p (fragments.source.expand marker stack) number lines).result =
        .ok ⟨text, sources⟩) ?_ ?_ ?_ ?_ h hnormal
  · intro p content text pieces sources hget hcut hlines ih hnormal stack hstack hencloses
    -- the guard is silent here, and the fragment encloses its own lines: it adds itself to their
    -- sources
    have hderives := Derives.fragment hget hcut hlines
    have hnew : p.place ∉ stack.map Active.identity :=
      fun hmem => hencloses.notMem hderives ((hstack.mem_identities_iff hnormal).mp hmem)
    have hinner : fragments.Encloses marker
        ((stack ++ [Active.mk p.place p]).map Active.path) sources.length := by
      rw [List.map_append]
      exact (hencloses.mono (Nat.le_succ _)).push hderives (Nat.lt_succ_self _)
    obtain rfl := Text.cutsInto_iff.mp hcut
    rw [FragmentSource.expand_of_read rfl hnew (read_of_get? hget),
      Attempt.result_entered, Text.terminatedLines, ih (hstack.push hnormal) hinner]
    rfl
  · intro p stack number _ _
    rfl
  · intro p line text rest sources hline _ ih stack number hstack hencloses
    rw [expandLines_ordinary hline.classify_eq, Attempt.result_afterText, ih hstack hencloses]
    rfl
  · intro p line reference text restText rest sources restSources hline _ _ ihsub ihrest
      stack number hstack hencloses
    rw [List.length_append] at hencloses
    have hfirst := ihsub (Path.normalize_normalize _) hstack (hencloses.mono (Nat.le_add_right _ _))
    have hlater := hencloses.mono (Nat.le_add_left _ _)
    rw [expandLines_includes hline.classify_eq, Attempt.result_followedBy_of_ok hfirst,
      ihrest hstack hlater]
    rfl

/-! ## Flattening -/

theorem flatten_of_derives (h : fragments.Derives marker p.normalize text sources) :
    (fragments.source.flatten marker p).result = .ok ⟨text, sources⟩ :=
  expand_of_derives h (Path.normalize_normalize p) (fun _ hentry => absurd hentry List.not_mem_nil)
    (fun _ hq => absurd hq List.not_mem_nil)

/-- Flattening yields a text and its sources exactly when the rules derive them for the normalized
entry. The guard against cycles neither refuses a fragment whose expansion is finite nor changes the
outcome. -/
theorem flatten_eq_ok_iff (fragments : FragmentMap) (marker : String) (entry : Path) (text : String)
    (sources : List Path) :
    (fragments.source.flatten marker entry).result = .ok ⟨text, sources⟩ ↔
      fragments.Derives marker entry.normalize text sources :=
  ⟨fun h => derives_of_expand h, flatten_of_derives⟩

end FragmentMap

end ShaderEmbed
