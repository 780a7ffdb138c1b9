import Mathlib.Data.List.Forall2
import ShaderEmbed.Proofs.Fragment.Unfolding
import ShaderEmbed.Proofs.Path.Inside

/-!
# Fragments in memory and in a directory

A directory of texts without links can be held in memory, each file under the names that lead to it
from the directory (`FragmentMap.Mirrors`). The two sources do not do the same: the one looks up a
lexical place, and the other asks for the place of a file, and reads it, by walking a path. But
where no path met leaves the directory, the walk comes to the lexical place
(`Mirrors.eq_of_canonical`), so that both name the same fragments and refuse to enter the same ones
again.

Hence an entry is flattened alike from both (`Mirrors.flatten_agree`): to the same text and sources,
or with the same failure, except that a fragment which is missing in memory may be there as a
directory, or below a file, and is then refused for another reason. The induction follows the
expansion over the memory; it carries that the fragments being expanded are the same ones
(`Paired`).
-/

namespace ShaderEmbed

open FileTree

/-! ## Outcomes -/

/-- What an expansion comes to over fragments in memory, and what over files. -/
inductive SameOutcome : Except ShaderError Flattened → Except ShaderError Flattened → Prop
  | ok (flat : Flattened) : SameOutcome (.ok flat) (.ok flat)
  | cyclic (path : Path) (chain : List Path) :
      SameOutcome (.error (.cyclicInclude path chain)) (.error (.cyclicInclude path chain))
  | malformed (path : Path) (line : Nat) :
      SameOutcome (.error (.malformedInclude path line)) (.error (.malformedInclude path line))
  | missing (p : Path) : SameOutcome (.error (.notFound p)) (.error (.notFound p))
  | unreadable (p : Path) (reason : FileError) :
      SameOutcome (.error (.notFound p)) (.error (.read p reason))

theorem SameOutcome.map {result result' : Except ShaderError Flattened}
    (h : SameOutcome result result') (f : Flattened → Flattened) :
    SameOutcome (result.map f) (result'.map f) := by
  cases h with
  | ok flat => exact .ok (f flat)
  | cyclic path chain => exact .cyclic path chain
  | malformed path line => exact .malformed path line
  | missing p => exact .missing p
  | unreadable p reason => exact .unreadable p reason

theorem sameOutcome_ofFile (p : Path) (reason : FileError) :
    SameOutcome (.error (.notFound p)) (.error (.ofFile p reason)) := by
  unfold ShaderError.ofFile
  split
  · exact .missing p
  · exact .unreadable p reason

namespace Attempt

/-- Two attempts meet the same directives and come to the same. -/
structure Same (memory files : Attempt) : Prop where
  inclusions : files.inclusions.map Inclusion.path = memory.inclusions.map Inclusion.path
  outcome : SameOutcome memory.result files.result

/-- No directive that was followed leads outside. -/
def IsInside (attempt : Attempt) : Prop := ∀ inclusion ∈ attempt.inclusions, inclusion.path.IsInside

theorem Same.fail {e e' : ShaderError} (h : SameOutcome (.error e) (.error e')) :
    Same (fail e) (fail e') := ⟨rfl, h⟩

variable {memory files : Attempt}

theorem Same.afterText (h : memory.Same files) (line : String) :
    (memory.afterText line).Same (files.afterText line) :=
  ⟨h.inclusions, h.outcome.map _⟩

theorem Same.entered (h : memory.Same files) (path : Path) :
    (memory.entered path).Same (files.entered path) :=
  ⟨h.inclusions, h.outcome.map _⟩

/-- What stands behind a directive matters only if its fragment expands. -/
theorem Same.followedBy {stack stack' : List Active} {path : Path} (h : memory.Same files)
    {rest rest' : Unit → Attempt}
    (hrest : ∀ flat, memory.result = .ok flat → (rest ()).Same (rest' ())) :
    (memory.followedBy ⟨stack, path⟩ rest).Same (files.followedBy ⟨stack', path⟩ rest') := by
  obtain ⟨inclusions, result⟩ := memory
  obtain ⟨inclusions', result'⟩ := files
  obtain ⟨hinclusions, houtcome⟩ := h
  have hfailed {e e' : ShaderError} (houtcome : SameOutcome (.error e) (.error e')) :
      Same (Attempt.followedBy ⟨stack, path⟩ ⟨inclusions, .error e⟩ rest)
        (Attempt.followedBy ⟨stack', path⟩ ⟨inclusions', .error e'⟩ rest') :=
    ⟨congrArg (path :: ·) hinclusions, houtcome⟩
  cases houtcome with
  | ok flat =>
    obtain ⟨hafter, houtcome⟩ := hrest flat rfl
    refine ⟨?_, houtcome.map _⟩
    simp only [Attempt.followedBy, List.cons_append, List.map_append, List.map_cons, hafter]
    exact congrArg (path :: · ++ _) hinclusions
  | cyclic path chain => exact hfailed (.cyclic path chain)
  | malformed path line => exact hfailed (.malformed path line)
  | missing p => exact hfailed (.missing p)
  | unreadable p reason => exact hfailed (.unreadable p reason)

theorem IsInside.of_followedBy {stack : List Active} {path : Path}
    {first : Attempt} {rest : Unit → Attempt} (h : (first.followedBy ⟨stack, path⟩ rest).IsInside) :
    path.IsInside ∧ first.IsInside ∧ ∀ flat, first.result = .ok flat → (rest ()).IsInside := by
  obtain ⟨inclusions, result⟩ := first
  cases result with
  | error e =>
    have hpath := h ⟨stack, path⟩ List.mem_cons_self
    refine ⟨hpath, fun other hother => h other (List.mem_cons_of_mem _ hother), ?_⟩
    intro flat hflat
    cases hflat
  | ok flat =>
    have hpath := h ⟨stack, path⟩ List.mem_cons_self
    refine ⟨hpath, fun other hother => ?_, fun _ _ other hother => ?_⟩
    · exact h other (List.mem_cons_of_mem _ (List.mem_append_left _ hother))
    · exact h other (List.mem_cons_of_mem _ (List.mem_append_right _ hother))

end Attempt

theorem same_expandLines {marker : String} {stack stack' : List Active} {path : Path}
    {sub sub' : Path → Attempt}
    (hsub : ∀ reference, (included path reference).IsInside →
      (sub (included path reference)).IsInside →
      (sub (included path reference)).Same (sub' (included path reference)))
    {number : Nat} {lines : List String}
    (hinside : (expandLines marker stack path sub number lines).IsInside) :
    (expandLines marker stack path sub number lines).Same
      (expandLines marker stack' path sub' number lines) := by
  induction lines generalizing number with
  | nil => exact ⟨rfl, .ok _⟩
  | cons line rest ih =>
    cases hline : Line.classify marker line with
    | ordinary =>
      rw [expandLines_ordinary hline] at hinside
      rw [expandLines_ordinary hline, expandLines_ordinary hline]
      exact (ih hinside).afterText line
    | blank =>
      rw [expandLines_blank hline, expandLines_blank hline]
      exact .fail (.malformed path number)
    | includes reference =>
      rw [expandLines_includes hline] at hinside
      obtain ⟨hnext, hincluded, hrest⟩ := hinside.of_followedBy
      rw [expandLines_includes hline, expandLines_includes hline]
      have hfirst := hsub reference hnext hincluded
      exact hfirst.followedBy fun flat hflat => ih (hrest flat hflat)

/-! ## Mirrors -/

namespace FragmentMap

/-- Fragments in memory that are the files below a directory, each under the names that lead there.
Nothing lies below the directory but directories and texts, and each of these can be read. -/
structure Mirrors (fragments : FragmentMap) (tree : FileTree) (cwd : Place) (root : Path)
    (top : Place) : Prop where
  closed : tree.IsClosed
  reached : tree.canonical cwd (root.child ".") = .ok top
  plain : ∀ names entry, tree.get? (top ++ names) = some entry →
    entry = .directory ∨ ∃ text runnable, entry = .file (Text.encode text) runnable
  readable : ∀ names content runnable, tree.get? (top ++ names) = some (.file content runnable) →
    (∀ name ∈ names, IsFileName name) ∧ IsSpellable (root.join (Path.ofNames names)) ∧
    pathSize (top ++ names) ≤ pathLimit
  same : ∀ names text, fragments.entries.lookup (names.map .name) = some text ↔
    ∃ runnable, tree.get? (top ++ names) = some (.file (Text.encode text) runnable)

namespace Mirrors

variable {fragments : FragmentMap} {tree : FileTree} {cwd : Place} {root : Path}
  {top : Place} {names : List String} (h : fragments.Mirrors tree cwd root top)
include h

theorem linkless : tree.IsLinkless top := by
  intro names target hlink
  rcases h.plain names _ hlink with heq | ⟨text, runnable, heq⟩
  · cases heq
  · cases heq

/-- The walk along a path from the root goes to the directory first. -/
theorem walk_eq {limit : Option Nat} (hlimit : limit = some pathLimit ∨ limit = none) :
    tree.get? top = some .directory ∧ ∃ links, ∀ p : Path, p.isAbsolute = false →
      walk tree .pass limit linkLimit (startOf cwd (root.join p)) (route (root.join p)).2 =
        walk tree .pass limit links top (p.head :: p.tail) := by
  obtain ⟨fromRoot, front, hroute⟩ := root.exists_route_join
  obtain ⟨-, -, hwalk, -⟩ := canonical_eq_ok_iff.mp h.reached
  have hdot : (Path.mk ".").isAbsolute = false := by decide
  have hstart {p : Path} (hp : p.isAbsolute = false) : startOf cwd (root.join p) =
      if fromRoot then [] else cwd := by
    rw [startOf, hroute p hp]
  rw [Path.child, hstart hdot, hroute _ hdot] at hwalk
  have hlimited : walk tree .pass limit linkLimit (if fromRoot then [] else
      cwd) (front ++ ["."]) = .ok top := by
    rcases hlimit with rfl | rfl
    · exact hwalk
    · exact walk_none_of_walk hwalk
  obtain ⟨hdirectory, links, heq⟩ := exists_walk_of_dot hlimited
  refine ⟨hdirectory, links, fun p hp => ?_⟩
  rw [hstart hp, hroute p hp]
  exact heq _

theorem directory : tree.get? top = some .directory := (h.walk_eq (Or.inr rfl)).1

/-- A path inside leads nowhere but to the place that its names lead to. -/
theorem eq_of_walk {limit : Option Nat} (hlimit : limit = some pathLimit ∨ limit = none)
    (hnames : ∀ name ∈ names, Component.IsName name) {place : Place}
    (hwalk : walk tree .pass limit linkLimit (startOf cwd (root.join (Path.ofNames names)))
      (route (root.join (Path.ofNames names))).2 = .ok place) : place = top ++ names := by
  obtain ⟨hrelative, hdown, hdescents⟩ := Path.spelled_ofNames hnames
  obtain ⟨-, links, heq⟩ := h.walk_eq hlimit
  rw [heq _ hrelative] at hwalk
  rw [eq_of_walk_below h.linkless hdown hwalk, hdescents]

theorem eq_of_canonical (hnames : ∀ name ∈ names, Component.IsName name) {place : Place}
    (hplace : tree.canonical cwd (root.join (Path.ofNames names)) = .ok place) :
    place = top ++ names :=
  h.eq_of_walk (Or.inl rfl) hnames (canonical_eq_ok_iff.mp hplace).2.2.1

section Files

variable {content : Bytes} {runnable : Bool}
  (hfile : tree.get? (top ++ names) = some (.file content runnable))
include hfile

theorem isName_of_file : ∀ name ∈ names, Component.IsName name :=
  fun name hname => ((h.readable names content runnable hfile).1 name hname).isName

/-- A file below the directory is found under its names. -/
theorem walk_file {limit : Option Nat} (hlimit : limit = some pathLimit ∨ limit = none) :
    walk tree .pass limit linkLimit (startOf cwd (root.join (Path.ofNames names)))
      (route (root.join (Path.ofNames names))).2 = .ok (top ++ names) := by
  obtain ⟨hnames, -, hsize⟩ := h.readable names content runnable hfile
  have hisName := h.isName_of_file hfile
  have hne : names ≠ [] := by
    rintro rfl
    rw [List.append_nil, h.directory] at hfile
    cases hfile
  obtain ⟨-, links, heq⟩ := h.walk_eq hlimit
  rw [heq _ (Path.spelled_ofNames hisName).1, Path.head_tail_ofNames hisName hne]
  refine h.closed.walk_below h.linkless (fun name hname => ?_) hfile ?_
  · exact ⟨Path.isPlain_of_isName (hisName name hname), (hnames name hname).short⟩
  · rintro size rfl
    rcases hlimit with heq | heq
    · cases heq
      exact hsize
    · cases heq

theorem canonical_file :
    tree.canonical cwd (root.join (Path.ofNames names)) = .ok (top ++ names) := by
  obtain ⟨-, hspellable, -⟩ := h.readable names content runnable hfile
  exact canonical_eq_ok_iff.mpr ⟨hspellable.noZero, hspellable.nonempty,
    h.walk_file hfile (Or.inl rfl), _, hfile⟩

theorem readBytes_file : tree.readBytes cwd (root.join (Path.ofNames names)) = .ok content := by
  obtain ⟨-, hspellable, -⟩ := h.readable names content runnable hfile
  have hfind : find tree .pass cwd (root.join (Path.ofNames names)) = .ok (top ++ names) :=
    find_eq_ok_iff.mpr ⟨hspellable, h.walk_file hfile (Or.inr rfl)⟩
  exact readBytes_of_look_file (look_eq_ok_iff.mpr ⟨hfind, hfile⟩)

theorem identity_file : (FragmentSource.ofDirectory tree cwd root).identity (Path.ofNames names) =
    .ok (Path.ofPlace (top ++ names)).components := by
  simp only [FragmentSource.ofDirectory, h.canonical_file hfile]
  rfl

end Files

theorem read_file {text : String} {runnable : Bool}
    (hfile : tree.get? (top ++ names) = some (.file (Text.encode text) runnable)) :
    (FragmentSource.ofDirectory tree cwd root).read (Path.ofNames names) = .ok text := by
  simp only [FragmentSource.ofDirectory, readText, h.readBytes_file hfile, Text.decode_encode]
  rfl

theorem readText_missing (hnames : ∀ name ∈ names, Component.IsName name)
    (hnone : ∀ content runnable, tree.get? (top ++ names) ≠ some (.file content runnable)) :
    ∃ reason, tree.readText cwd (root.join (Path.ofNames names)) = .error reason := by
  cases hread : tree.readText cwd (root.join (Path.ofNames names)) with
  | error reason => exact ⟨reason, rfl⟩
  | ok text =>
    obtain ⟨place, entry, hlook, hentry⟩ := look_of_readText hread
    obtain ⟨hfind, hplace⟩ := look_eq_ok_iff.mp hlook
    obtain rfl := h.eq_of_walk (Or.inr rfl) hnames (find_eq_ok_iff.mp hfind).2
    rcases h.plain names entry hplace with rfl | ⟨text', runnable, rfl⟩
    · exact absurd rfl hentry
    · exact absurd hplace (hnone _ _)

end Mirrors

/-! ## The fragments being expanded -/

/-- One fragment, as it is held while it is expanded over the memory and over the files. -/
structure Paired (tree : FileTree) (top : Place) (memory files : Active) : Prop where
  path : files.path = memory.path
  names : ∃ names content runnable, tree.get? (top ++ names) = some (.file content runnable) ∧
    memory.identity = names.map .name ∧ files.identity = (Path.ofPlace (top ++ names)).components

theorem paths_of_paired {tree : FileTree} {top : Place} {stack stack' : List Active}
    (hstack : List.Forall₂ (Paired tree top) stack stack') :
    stack'.map Active.path = stack.map Active.path := by
  induction hstack with
  | nil => rfl
  | cons hpaired _ ih => rw [List.map_cons, List.map_cons, hpaired.path, ih]

namespace Mirrors

variable {fragments : FragmentMap} {tree : FileTree} {cwd : Place} {root : Path}
  {top : Place} {names : List String} {stack stack' : List Active}

/-- What is being expanded over the memory is a file, and being expanded over the files. -/
theorem exists_paired (hstack : List.Forall₂ (Paired tree top) stack stack')
    (hmem : names.map .name ∈ stack.map Active.identity) :
    (∃ content runnable, tree.get? (top ++ names) = some (.file content runnable)) ∧
      (Path.ofPlace (top ++ names)).components ∈ stack'.map Active.identity := by
  induction hstack with
  | nil => cases hmem
  | @cons a b rest rest' hpaired _ ih =>
    rcases List.mem_cons.mp hmem with hhead | hmem
    · obtain ⟨names', content, runnable, hfile, hmemory, hfiles⟩ := hpaired.names
      have hinjective : Function.Injective Component.name := fun a b hab => Component.name.inj hab
      obtain rfl := List.map_injective_iff.mpr hinjective (hhead.trans hmemory)
      refine ⟨⟨content, runnable, hfile⟩, ?_⟩
      rw [List.map_cons, hfiles]
      exact List.mem_cons_self
    · obtain ⟨hfile, hmem'⟩ := ih hmem
      exact ⟨hfile, List.mem_cons_of_mem _ hmem'⟩

/-- What is being expanded over the files is being expanded over the memory. -/
theorem mem_of_paired (h : fragments.Mirrors tree cwd root top)
    (hstack : List.Forall₂ (Paired tree top) stack stack')
    (hnames : ∀ name ∈ names, Component.IsName name)
    (hmem : (Path.ofPlace (top ++ names)).components ∈ stack'.map Active.identity) :
    names.map .name ∈ stack.map Active.identity := by
  induction hstack with
  | nil => cases hmem
  | @cons a b rest rest' hpaired _ ih =>
    rcases List.mem_cons.mp hmem with hhead | hmem
    · obtain ⟨names', content, runnable, hfile, hmemory, hfiles⟩ := hpaired.names
      rw [hfiles, Path.components_ofPlace_inj top hnames (h.isName_of_file hfile)] at hhead
      subst hhead
      rw [List.map_cons, hmemory]
      exact List.mem_cons_self
    · exact List.mem_cons_of_mem _ (ih hmem)

variable {marker : String}

/-- Where nothing is held in memory, nothing is entered in the directory. -/
theorem same_missing (h : fragments.Mirrors tree cwd root top)
    (hstack : List.Forall₂ (Paired tree top) stack stack')
    (hnames : ∀ name ∈ names, Component.IsName name)
    (hnone : fragments.entries.lookup (names.map .name) = none)
    (hnew : names.map .name ∉ stack.map Active.identity) :
    (Attempt.fail (.notFound (Path.ofNames names))).Same
      ((FragmentSource.ofDirectory tree cwd root).expand marker stack' (Path.ofNames names)) := by
  cases hid : (FragmentSource.ofDirectory tree cwd root).identity (Path.ofNames names) with
  | error e =>
    rw [FragmentSource.expand_of_identity_error hid]
    simp only [FragmentSource.ofDirectory] at hid
    cases hplace : tree.canonical cwd (root.join (Path.ofNames names)) with
    | error reason =>
      rw [hplace] at hid
      cases hid
      exact .fail (sameOutcome_ofFile _ reason)
    | ok place =>
      rw [hplace] at hid
      cases hid
  | ok id =>
    obtain ⟨place, hplace, rfl⟩ := exists_of_map_eq_ok (eq_ok_of_mapError hid)
    obtain rfl := h.eq_of_canonical hnames hplace
    have hfree : ∀ content runnable, tree.get? (top ++ names) ≠ some (.file content runnable) := by
      intro content runnable hfile
      rcases h.plain names _ hfile with heq | ⟨text, runnable', heq⟩
      · cases heq
      · rw [heq] at hfile
        rw [(h.same names text).mpr ⟨_, hfile⟩] at hnone
        cases hnone
    obtain ⟨reason, hreason⟩ := h.readText_missing hnames hfree
    have hread : (FragmentSource.ofDirectory tree cwd root).read (Path.ofNames names) =
        .error (.ofFile (Path.ofNames names) reason) := by
      simp only [FragmentSource.ofDirectory, hreason]
      rfl
    rw [FragmentSource.expand_of_read_error hid
      (fun hmem => hnew (h.mem_of_paired hstack hnames hmem)) hread]
    exact .fail (sameOutcome_ofFile _ reason)

/-- A path in normal form that stays inside is written with the names of its identity in memory. -/
theorem exists_names_of_identity {p : Path} {id : Identity} (hnormal : p.normalize = p)
    (hp : p.IsInside) (hid : fragments.source.identity p = .ok id) :
    ∃ names, p = Path.ofNames names ∧ id = names.map .name ∧
    ∀ name ∈ names, Component.IsName name := by
  obtain ⟨names, hplace, hnames⟩ := Path.exists_names_of_isInside hp
  refine ⟨names, ?_, (Except.ok.inj hid).symm.trans hplace, hnames⟩
  rw [← hnormal, Path.normalize, hplace, Path.ofNames]

/-- An expansion over the memory and one over the files come to the same inside the same
fragments. -/
theorem same_expand (h : fragments.Mirrors tree cwd root top)
    (hstack : List.Forall₂ (Paired tree top) stack stack') {p : Path} (hnormal : p.normalize = p)
    (hp : p.IsInside) (hinside : (fragments.source.expand marker stack p).IsInside) :
    (fragments.source.expand marker stack p).Same
      ((FragmentSource.ofDirectory tree cwd root).expand marker stack' p) := by
  induction stack, p using FragmentSource.expand.induct fragments.source generalizing stack' with
  | case1 stack p e hid => cases hid
  | case2 stack p id hid hactive =>
    obtain ⟨names, rfl, rfl, hnames⟩ := exists_names_of_identity hnormal hp hid
    obtain ⟨⟨content, runnable, hfile⟩, hactive'⟩ := exists_paired hstack hactive
    rw [FragmentSource.expand_of_active hid hactive,
      FragmentSource.expand_of_active (h.identity_file hfile) hactive', paths_of_paired hstack]
    exact .fail (.cyclic _ _)
  | case3 stack p id hid hnew e hread =>
    obtain ⟨names, rfl, rfl, hnames⟩ := exists_names_of_identity hnormal hp hid
    obtain ⟨hget, rfl⟩ := get?_of_read_error hread
    rw [get?, Except.ok.inj hid] at hget
    rw [FragmentSource.expand_of_read_error hid hnew hread]
    exact h.same_missing hstack hnames hget hnew
  | case4 stack p id hid hnew text hread ih =>
    obtain ⟨names, rfl, rfl, hnames⟩ := exists_names_of_identity hnormal hp hid
    have hget := get?_of_read hread
    rw [get?, Except.ok.inj hid] at hget
    obtain ⟨runnable, hfile⟩ := (h.same names text).mp hget
    have hnew' : (Path.ofPlace (top ++ names)).components ∉ stack'.map Active.identity :=
      fun hmem => hnew (h.mem_of_paired hstack hnames hmem)
    have hpaired : Paired tree top ⟨names.map .name, Path.ofNames names⟩
        ⟨(Path.ofPlace (top ++ names)).components, Path.ofNames names⟩ :=
          ⟨rfl, names, _, runnable, hfile, rfl, rfl⟩
    have hinner := List.rel_append hstack (List.Forall₂.cons hpaired .nil)
    rw [FragmentSource.expand_of_read hid hnew hread] at hinside
    rw [FragmentSource.expand_of_read hid hnew hread,
      FragmentSource.expand_of_read (h.identity_file hfile) hnew' (h.read_file hfile)]
    refine Attempt.Same.entered (same_expandLines (fun reference hnext hincluded => ?_) hinside) _
    exact ih _ hinner (Path.normalize_normalize _) hnext hincluded

end Mirrors

/-! ## Flattening -/

/-- Two attempts follow the same directives, and come to the same text and sources or fail in the
same way. What the one misses, the other misses too or cannot read. -/
structure FlattenAlike (memory files : Attempt) : Prop where
  inclusions : files.inclusions.map Inclusion.path = memory.inclusions.map Inclusion.path
  ok_iff : ∀ flat, memory.result = .ok flat ↔ files.result = .ok flat
  cyclic_iff : ∀ path chain,
    memory.result = .error (.cyclicInclude path chain) ↔
    files.result = .error (.cyclicInclude path chain)
  malformed_iff : ∀ path line,
    memory.result = .error (.malformedInclude path line) ↔
    files.result = .error (.malformedInclude path line)
  missing_iff : ∀ p, memory.result = .error (.notFound p) ↔
    files.result = .error (.notFound p) ∨ ∃ reason, files.result = .error (.read p reason)

theorem flattenAlike_of_same {memory files : Attempt} (h : memory.Same files) :
    FlattenAlike memory files := by
  obtain ⟨inclusions, result⟩ := memory
  obtain ⟨inclusions', result'⟩ := files
  obtain ⟨hinclusions, houtcome⟩ := h
  refine ⟨hinclusions, ?_, ?_, ?_, ?_⟩
  · intro flat
    cases houtcome <;> simp
  · intro path chain
    cases houtcome <;> simp
  · intro path line
    cases houtcome <;> simp
  · intro p
    cases houtcome <;> simp

/-- An entry is flattened alike from the memory and from the directory that it mirrors, as long as
neither the entry nor an include that is met leaves the directory. -/
theorem Mirrors.flatten_agree {fragments : FragmentMap} {tree : FileTree} {cwd : Place}
    {root : Path} {top : Place} (h : fragments.Mirrors tree cwd root top) {marker : String}
    {entry : Path} (hentry : entry.IsInside)
    (hmet : (fragments.source.flatten marker entry).IsInside) :
    FlattenAlike (fragments.source.flatten marker entry)
      ((FragmentSource.ofDirectory tree cwd root).flatten marker entry) := by
  have hnormal : entry.normalize.IsInside := by
    intro c hc
    rw [Path.place_normalize] at hc
    exact hentry c hc
  exact flattenAlike_of_same (h.same_expand .nil (Path.normalize_normalize entry) hnormal hmet)

/-! ## Example -/

def includingFragments : FragmentMap :=
  ⟨[([.name "a"], "#include b\n"), ([.name "b"], "void main();\n")]⟩

def includingTree : FileTree :=
  ((FileTree.empty.put ["s"] .directory).put ["s", "a"] (.file (Text.encode "#include b\n"))).put
    ["s", "b"] (.file (Text.encode "void main();\n"))

theorem inclusions_including :
    (includingFragments.source.flatten standardMarker ⟨"a"⟩).inclusions =
      [⟨[⟨[.name "a"], ⟨"a"⟩⟩], ⟨"b"⟩⟩] := by
  have hnormal : (Path.mk "a").normalize = ⟨"a"⟩ := by decide +kernel
  have hlines : Text.terminatedLines "#include b\n" = ["#include b\n"] := by decide +kernel
  have hline : Line.classify standardMarker "#include b\n" = .includes "b" := by decide +kernel
  have hincluded : included ⟨"a"⟩ "b" = ⟨"b"⟩ := by decide +kernel
  have hlines' : Text.terminatedLines "void main();\n" = ["void main();\n"] := by decide +kernel
  have hline' : Line.classify standardMarker "void main();\n" = .ordinary := by decide +kernel
  have hid : includingFragments.source.identity ⟨"a"⟩ = .ok [.name "a"] := rfl
  have hid' : includingFragments.source.identity ⟨"b"⟩ = .ok [.name "b"] := rfl
  have hread : includingFragments.source.read ⟨"a"⟩ = .ok "#include b\n" := rfl
  have hread' : includingFragments.source.read ⟨"b"⟩ = .ok "void main();\n" := rfl
  have hinner : includingFragments.source.expand standardMarker [⟨[.name "a"], ⟨"a"⟩⟩] ⟨"b"⟩ =
      .entered ⟨"b"⟩ (.afterText "void main();\n" .done) := by
    rw [FragmentSource.expand_of_read hid' (by decide) hread', hlines', expandLines_ordinary hline']
    rfl
  rw [FragmentSource.flatten, hnormal, FragmentSource.expand_of_read hid (by simp) hread, hlines,
    expandLines_includes hline, hincluded, List.nil_append, hinner]
  rfl

theorem get?_includingTree (names : List String) :
    includingTree.get? (["s"] ++ names) =
      if names = ["b"] then some (.file (Text.encode "void main();\n"))
      else if names = ["a"] then some (.file (Text.encode "#include b\n"))
      else if names = [] then some .directory else none := by
  have hempty : FileTree.empty.get? ("s" :: names) = none := by
    simp [FileTree.get?, FileTree.empty, entryAt]
  simp [includingTree, get?_put, hempty]

theorem lookup_including (names : List String) :
    includingFragments.entries.lookup (names.map .name) =
      if names = ["b"] then some "void main();\n" else if names = ["a"] then some "#include b\n"
        else none := by
  have hinjective : Function.Injective (List.map Component.name) :=
    List.map_injective_iff.mpr fun a b hab => Component.name.inj hab
  by_cases hb : names = ["b"]
  · subst hb
    rfl
  by_cases ha : names = ["a"]
  · subst ha
    rfl
  have hna : (names.map Component.name == [.name "a"]) = false := by
    rw [beq_eq_false_iff_ne]
    exact fun heq => ha (hinjective heq)
  have hnb : (names.map Component.name == [.name "b"]) = false := by
    rw [beq_eq_false_iff_ne]
    exact fun heq => hb (hinjective heq)
  rw [if_neg hb, if_neg ha, includingFragments, List.lookup_cons, hna, List.lookup_cons, hnb]
  rfl

theorem reached_including : includingTree.canonical [] ((Path.mk "s").child ".") = .ok ["s"] := by
  have hroute : route ((Path.mk "s").child ".") = (false, ["s", "."]) := by decide +kernel
  have hdirectory : includingTree.get? ["s"] = some .directory := get?_includingTree []
  have hname : FileTree.Passes .pass (some pathLimit) [] "s" ["."] :=
    ⟨⟨by decide, by decide, by decide⟩, by decide +kernel, rfl⟩
  have hinto : Step includingTree .pass (some pathLimit) ⟨linkLimit, [], ["s", "."]⟩
      ⟨linkLimit, ["s"], ["."]⟩ :=
    .into rfl hname hdirectory (by simp)
  have hstay : Step includingTree .pass (some pathLimit) ⟨linkLimit, ["s"], ["."]⟩
      ⟨linkLimit, ["s"], []⟩ :=
    .stay hdirectory (Or.inr rfl)
  refine canonical_eq_ok_iff.mpr ⟨by decide +kernel, by decide +kernel, ?_, _, hdirectory⟩
  rw [startOf, hroute]
  exact walk_eq_ok_iff.mpr ⟨_, .tail (.single hinto) hstay, .arrived⟩

theorem mirrors_including : includingFragments.Mirrors includingTree [] ⟨"s"⟩ ["s"] where
  closed := ((isClosed_empty.put rfl (by simp)).put rfl (by decide)).put rfl (by decide)
  reached := reached_including
  plain names entry hentry := by
    rw [get?_includingTree] at hentry
    split at hentry
    · exact Or.inr ⟨_, false, (Option.some.inj hentry).symm⟩
    · split at hentry
      · exact Or.inr ⟨_, false, (Option.some.inj hentry).symm⟩
      · split at hentry <;> cases hentry
        exact Or.inl rfl
  readable names content runnable hfile := by
    rw [get?_includingTree] at hfile
    split at hfile
    · subst names
      exact ⟨by decide +kernel, ⟨by decide +kernel, by decide +kernel, by decide +kernel⟩,
        by decide +kernel⟩
    · split at hfile
      · subst names
        exact ⟨by decide +kernel, ⟨by decide +kernel, by decide +kernel, by decide +kernel⟩,
          by decide +kernel⟩
      · split at hfile <;> cases hfile
  same names text := by
    rw [get?_includingTree, lookup_including]
    split
    · simp [Text.encode_injective.eq_iff]
    · split
      · simp [Text.encode_injective.eq_iff]
      · split <;> simp

theorem flatten_agree_including :
    includingFragments.Mirrors includingTree [] ⟨"s"⟩ ["s"] ∧ (Path.mk "a").IsInside ∧
      (includingFragments.source.flatten standardMarker ⟨"a"⟩).IsInside ∧
      FlattenAlike (includingFragments.source.flatten standardMarker ⟨"a"⟩)
        ((FragmentSource.ofDirectory includingTree [] ⟨"s"⟩).flatten standardMarker ⟨"a"⟩) := by
  have hentry : (Path.mk "a").IsInside := by
    rintro c ⟨rfl⟩
    exact ⟨by simp, by simp⟩
  have hmet : (includingFragments.source.flatten standardMarker ⟨"a"⟩).IsInside := by
    intro inclusion hinclusion
    rw [inclusions_including, List.mem_singleton] at hinclusion
    subst hinclusion
    rintro c ⟨rfl⟩
    exact ⟨by simp, by simp⟩
  exact ⟨mirrors_including, hentry, hmet, mirrors_including.flatten_agree hentry hmet⟩

end FragmentMap

end ShaderEmbed
