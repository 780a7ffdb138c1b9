import Mathlib.Data.Finset.Card
import Mathlib.Data.List.Forall2
import ShaderEmbed.Proofs.Fragment.Reads
import ShaderEmbed.Proofs.Path.Location

/-!
# How paths are spelled

A path enters an expansion in four places: where a fragment is added, where one is looked up, in the
entry, and in the reference of a directive. In each of them only its normal form counts. What a
reference names depends on the normal form of the reference (`included_congr`); fragments that were
added in the same order under other spellings, with texts whose directives spell their references in
another way (`Respelled`), are found under the same paths (`respelledMap_ofList`); and so the two
expansions are one and the same (`flatten_of_respelled`).

`FragmentMap.size_ofList` and `FragmentMap.read_ofList` say what a sequence of additions comes to.
-/

namespace ShaderEmbed

/-! ## References -/

theorem included_congr (path : Path) {reference reference' : String}
    (h : (Path.mk reference).normalize = (Path.mk reference').normalize) :
    included path reference = included path reference' :=
  Path.normalize_join_congr _ h

/-- A line with another spelling of its reference, if it is a directive that has one. -/
inductive RespelledLine (marker : String) : String → String → Prop
  | same (line : String) : RespelledLine marker line line
  | reference {line line' reference reference' : String}
      (h : Line.classify marker line = .includes reference)
      (h' : Line.classify marker line' = .includes reference')
      (hspelled : (Path.mk reference).normalize = (Path.mk reference').normalize) :
      RespelledLine marker line line'

/-- A text with other spellings of the references of its directives. -/
def RespelledText (marker text text' : String) : Prop :=
  List.Forall₂ (RespelledLine marker) (Text.terminatedLines text) (Text.terminatedLines text')

/-- A fragment that is added under another spelling of its path, with other spellings of its
references. -/
structure Respelled (marker : String) (fragment fragment' : Path × String) : Prop where
  path : fragment.1.normalize = fragment'.1.normalize
  text : RespelledText marker fragment.2 fragment'.2

theorem expandLines_of_respelled {marker : String} {stack : List Active} {path : Path}
    {sub sub' : Path → Attempt} {number : Nat} {lines lines' : List String}
    (h : List.Forall₂ (RespelledLine marker) lines lines')
    (hsub : ∀ next, sub' next = sub next) :
    expandLines marker stack path sub' number lines' =
      expandLines marker stack path sub number lines := by
  induction h generalizing number with
  | nil => rfl
  | @cons line line' rest rest' hline hrest ih =>
    cases hline with
    | same =>
      cases hkind : Line.classify marker line with
      | ordinary => rw [expandLines_ordinary hkind, expandLines_ordinary hkind, ih]
      | blank => rw [expandLines_blank hkind, expandLines_blank hkind]
      | includes reference => rw [expandLines_includes hkind, expandLines_includes hkind, hsub, ih]
    | reference hkind hkind' hspelled =>
      -- both references name one fragment
      rw [expandLines_includes hkind, expandLines_includes hkind',
        included_congr path hspelled, hsub, ih]

namespace FragmentMap

variable {marker : String} {fragments fragments' : FragmentMap} {p q : Path} {text : String}
  {inserts inserts' : List (Path × String)}

/-! ## Sequences of additions -/

theorem ofList_append_singleton (inserts : List (Path × String)) (p : Path) (text : String) :
    ofList (inserts ++ [(p, text)]) = (ofList inserts).insert p text := by
  rw [ofList, List.foldl_append]
  rfl

/-- The places of fragments, each once. -/
def keys (fragments : FragmentMap) : List Identity := fragments.entries.map (·.1)

theorem keys_insert (fragments : FragmentMap) (p : Path) (text : String) :
    (fragments.insert p text).keys = p.place :: fragments.keys.filter (· ≠ p.place) := by
  simp [keys, insert, List.filter_map, Function.comp_def]

theorem nodup_keys_ofList (inserts : List (Path × String)) : (ofList inserts).keys.Nodup := by
  induction inserts using List.reverseRecOn with
  | nil => exact List.nodup_nil
  | append_singleton inserts last ih =>
    rw [ofList_append_singleton, keys_insert, List.nodup_cons]
    exact ⟨by simp, ih.filter _⟩

theorem mem_keys_ofList (inserts : List (Path × String)) (place : Identity) :
    place ∈ (ofList inserts).keys ↔ place ∈ inserts.map (·.1.place) := by
  induction inserts using List.reverseRecOn with
  | nil => rfl
  | append_singleton inserts last ih =>
    rw [ofList_append_singleton, keys_insert, List.mem_cons, List.mem_filter, ih,
      List.map_append, List.mem_append]
    by_cases hlast : place = last.1.place <;> simp [hlast]

/-- There are as many fragments as normal forms of paths were added. -/
theorem size_ofList (inserts : List (Path × String)) :
    (ofList inserts).size = (inserts.map (·.1.normalize)).toFinset.card := by
  have hplaces : (ofList inserts).keys.toFinset =
      (inserts.map (·.1.normalize)).toFinset.image Path.components := by
    ext place
    rw [List.mem_toFinset, mem_keys_ofList, Finset.mem_image]
    simp [Path.components_normalize]
  have hinjective : Set.InjOn Path.components (inserts.map (·.1.normalize)).toFinset := by
    intro p hp q hq hcomponents
    obtain ⟨added, -, rfl⟩ := List.mem_map.mp (List.mem_toFinset.mp hp)
    obtain ⟨other, -, rfl⟩ := List.mem_map.mp (List.mem_toFinset.mp hq)
    rw [Path.components_normalize, Path.components_normalize] at hcomponents
    exact Path.normalize_eq_of_place_eq hcomponents
  calc (ofList inserts).size = (ofList inserts).keys.length := by rw [size, keys, List.length_map]
    _ = (ofList inserts).keys.toFinset.card :=
      (List.toFinset_card_of_nodup (nodup_keys_ofList inserts)).symm
    _ = (inserts.map (·.1.normalize)).toFinset.card := by
      rw [hplaces, Finset.card_image_of_injOn hinjective]

/-- Additions elsewhere do not change what is found. -/
theorem get?_ofList_append {more : List (Path × String)}
    (h : ∀ added ∈ more, added.1.normalize ≠ q.normalize) :
    (ofList (inserts ++ more)).get? q = (ofList inserts).get? q := by
  induction more using List.reverseRecOn with
  | nil => rw [List.append_nil]
  | append_singleton more last ih =>
    have hlast : q.place ≠ last.1.place := by
      intro hplace
      exact h last (by simp) (Path.normalize_eq_of_place_eq hplace.symm)
    rw [← List.append_assoc, ofList_append_singleton, get?_insert, if_neg hlast]
    exact ih fun added hadded => h added (List.mem_append_left _ hadded)

/-- What was added last at the location of a path is read there, under every spelling; where nothing
was added, nothing is found. -/
theorem read_ofList (inserts : List (Path × String)) (q : Path) :
    (∀ before p text after, inserts = before ++ (p, text) :: after → p.normalize = q.normalize →
      (∀ later ∈ after, later.1.normalize ≠ q.normalize) →
        (ofList inserts).source.read q = .ok text) ∧
    ((∀ added ∈ inserts, added.1.normalize ≠ q.normalize) →
      (ofList inserts).source.read q = .error (.notFound q)) := by
  constructor
  · rintro before p text after rfl hspelled hafter
    have hget : (ofList (before ++ (p, text) :: after)).get? q = some text := by
      rw [List.append_cons, get?_ofList_append hafter, ofList_append_singleton, get?_insert,
        if_pos (Path.place_eq_of_normalize_eq hspelled.symm)]
    simp only [source, hget]
  · intro helsewhere
    have hget : (ofList inserts).get? q = none := by
      rw [← List.nil_append inserts, get?_ofList_append helsewhere]
      rfl
    simp only [source, hget]

/-! ## Other spellings -/

/-- Fragments that are found under the same paths, with other spellings of their references. -/
def RespelledMap (marker : String) (fragments fragments' : FragmentMap) : Prop :=
  ∀ p, Option.Rel (RespelledText marker) (fragments.get? p) (fragments'.get? p)

theorem RespelledMap.insert {added added' : Path × String}
    (h : RespelledMap marker fragments fragments') (hadded : Respelled marker added added') :
    RespelledMap marker (fragments.insert added.1 added.2)
      (fragments'.insert added'.1 added'.2) := by
  intro q
  have hplace : added'.1.place = added.1.place := (Path.place_eq_of_normalize_eq hadded.path).symm
  rw [get?_insert, get?_insert, hplace]
  split
  · exact .some hadded.text
  · exact h q

theorem respelledMap_ofList (h : List.Forall₂ (Respelled marker) inserts inserts') :
    RespelledMap marker (ofList inserts) (ofList inserts') := by
  have hfrom {held held' : FragmentMap} (hheld : RespelledMap marker held held') :
      RespelledMap marker (inserts.foldl (fun held added => held.insert added.1 added.2) held)
        (inserts'.foldl (fun held added => held.insert added.1 added.2) held') := by
    induction h generalizing held held' with
    | nil => exact hheld
    | cons hadded _ ih => exact ih (hheld.insert hadded)
  exact hfrom fun _ => .none

theorem RespelledMap.read (h : RespelledMap marker fragments fragments') (p : Path) :
    (∃ text text', fragments.source.read p = .ok text ∧ fragments'.source.read p = .ok text' ∧
      RespelledText marker text text') ∨
      fragments.source.read p = .error (.notFound p) ∧
      fragments'.source.read p = .error (.notFound p) := by
  have hrel := h p
  simp only [source]
  revert hrel
  generalize fragments.get? p = found
  generalize fragments'.get? p = found'
  intro hrel
  cases hrel with
  | some htext => exact Or.inl ⟨_, _, rfl, rfl, htext⟩
  | none => exact Or.inr ⟨rfl, rfl⟩

/-- Fragments that differ in spelling are expanded alike. -/
theorem expand_of_respelled (h : RespelledMap marker fragments fragments')
    (stack : List Active) (p : Path) :
    fragments'.source.expand marker stack p = fragments.source.expand marker stack p := by
  have hidentity : fragments'.source.identity = fragments.source.identity := rfl
  refine FragmentSource.expand_related (R := fun attempt attempt' => attempt' = attempt) hidentity
    (fun _ => rfl) ?_ ?_ stack p
  · intro p e hread
    rcases h.read p with ⟨text, -, hfound, -, -⟩ | ⟨hmissing, hmissing'⟩
    · cases hfound.symm.trans hread
    · rw [hmissing', ← hmissing, hread]
  · intro stack p text hread hnext
    rcases h.read p with ⟨found, text', hfound, hread', htext⟩ | ⟨hmissing, -⟩
    · obtain rfl : found = text := Except.ok.inj (hfound.symm.trans hread)
      exact ⟨text', hread', by rw [expandLines_of_respelled htext hnext]⟩
    · cases hmissing.symm.trans hread

/-- Spelling does not matter. Where the same fragments are added in the same order, under any
spelling of their paths and with any spelling of their references, an entry is expanded alike under
each of its spellings: the directives that are followed, the text, the sources, and every failure
are the same. There are as many fragments as normal forms of paths were added, and a path is read as
what was added last at its location. -/
theorem flatten_of_respelled {entry entry' : Path}
    (hinserts : List.Forall₂ (Respelled marker) inserts inserts')
    (hentry : entry.normalize = entry'.normalize) :
    (ofList inserts').source.flatten marker entry' = (ofList inserts).source.flatten marker entry ∧
      (ofList inserts).size = (inserts.map (·.1.normalize)).toFinset.card ∧
      (∀ before p text after q, inserts = before ++ (p, text) :: after → p.normalize = q.normalize →
        (∀ later ∈ after, later.1.normalize ≠ q.normalize) →
          (ofList inserts).source.read q = .ok text) ∧
      ∀ q, (∀ added ∈ inserts, added.1.normalize ≠ q.normalize) →
      (ofList inserts).source.read q = .error (.notFound q) := by
  refine ⟨?_, size_ofList inserts, ?_, ?_⟩
  · rw [FragmentSource.flatten, FragmentSource.flatten, ← hentry,
      expand_of_respelled (respelledMap_ofList hinserts)]
  · intro before p text after q
    exact (read_ofList inserts q).1 before p text after
  · intro q
    exact (read_ofList inserts q).2

/-- Two fragments, of which the second was added twice. -/
def replaced : List (Path × String) :=
  [(⟨"./a"⟩, "#include b//c\nx\n"), (⟨"b/c"⟩, "old\n"), (⟨"b/./c"⟩, "y\n")]

/-- The fragments of `replaced` under other spellings. -/
def replacedElsewhere : List (Path × String) :=
  [(⟨"d/../a"⟩, "#include ./b/d/../c \nx\n"), (⟨"b/c/"⟩, "old\n"), (⟨"a/../b//c"⟩, "y\n")]

theorem flatten_of_respelled_replaced :
    (ofList replacedElsewhere).source.flatten standardMarker ⟨"a/."⟩ =
      (ofList replaced).source.flatten standardMarker ⟨"a"⟩ ∧
    ((ofList replaced).source.flatten standardMarker ⟨"a"⟩).result =
      .ok ⟨"y\nx\n", [⟨"a"⟩, ⟨"b/c"⟩]⟩ ∧
    (ofList replaced).size = 2 ∧ (ofList replaced).source.read ⟨"b/../b/c"⟩ = .ok "y\n" ∧
    (ofList replaced).source.read ⟨"../a"⟩ = .error (.notFound ⟨"../a"⟩) := by
  have hlines : Text.terminatedLines "#include b//c\nx\n" = ["#include b//c\n", "x\n"] := by
    decide +kernel
  have hlines' : Text.terminatedLines "#include ./b/d/../c \nx\n" =
      ["#include ./b/d/../c \n", "x\n"] := by decide +kernel
  have hkept (text : String) : RespelledText standardMarker text text :=
    List.forall₂_same.mpr fun line _ => .same line
  have htext : RespelledText standardMarker "#include b//c\nx\n" "#include ./b/d/../c \nx\n" := by
    rw [RespelledText, hlines, hlines']
    have hkind : Line.classify standardMarker "#include b//c\n" =
        .includes "b//c" := by decide +kernel
    have hkind' : Line.classify standardMarker "#include ./b/d/../c \n" =
        .includes "./b/d/../c" := by decide +kernel
    exact .cons (.reference hkind hkind' (by decide +kernel)) (.cons (.same _) .nil)
  have hinserts : List.Forall₂ (Respelled standardMarker) replaced replacedElsewhere :=
    .cons ⟨by decide +kernel, htext⟩
      (.cons ⟨by decide +kernel, hkept _⟩ (.cons ⟨by decide +kernel, hkept _⟩ .nil))
  have hentry : (Path.mk "a").normalize = (Path.mk "a/.").normalize := by decide +kernel
  have hafter : (ofList replaced).source.reader.after standardMarker ⟨"a"⟩ 7 =
      .running ⟨[⟨[⟨[.name "a"], ⟨"a"⟩⟩], ⟨"b/c"⟩⟩], "y\nx\n", [⟨"a"⟩, ⟨"b/c"⟩], [], none⟩ :=
    Progress.eq_running_of_moment? (by decide +kernel)
  obtain ⟨hsame, hsize, hread, hmissing⟩ := flatten_of_respelled hinserts hentry
  refine ⟨hsame, FragmentSource.result_flatten_of_after hafter, ?_, ?_,
    hmissing _ (by decide +kernel)⟩
  · rw [hsize]
    decide +kernel
  · exact hread (replaced.take 2) ⟨"b/./c"⟩ "y\n" [] _ rfl (by decide +kernel) (by simp)

end FragmentMap

end ShaderEmbed
