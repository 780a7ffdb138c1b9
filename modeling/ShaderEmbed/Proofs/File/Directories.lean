import ShaderEmbed.Proofs.File.Access

/-!
# What making directories adds

Making the directories of a path adds directories at free places, whether it succeeds or not
(`AddsDirectories`), and each of them is what one of the paths on the way leads to (`AddsAlong`,
`addsAlong_makeDirectories`).
-/

namespace ShaderEmbed.FileTree

/-- `later` has the same as `tree`, and directories where `tree` has nothing. -/
def AddsDirectories (tree later : FileTree) : Prop :=
  ∀ place, later.get? place = tree.get? place ∨ tree.get? place = none ∧
  later.get? place = some .directory

/-- `later` has the same as `tree`, and directories where `tree` has nothing, each of them at the
end of a listed path. -/
def AddsAlong (tree later : FileTree) (cwd : Place) (paths : List Path) : Prop :=
  ∀ place, later.get? place = tree.get? place ∨
    tree.get? place = none ∧ ∃ q ∈ paths, later.look cwd q = .ok (place, .directory)

section Added

variable {tree later last : FileTree} {cwd : Place} {paths : List Path}

theorem AddsDirectories.grows (h : tree.AddsDirectories later) : tree.Grows later := by
  intro place entry hentry
  rcases h place with hsame | ⟨hnone, -⟩
  · exact ⟨entry, hsame.trans hentry, .same⟩
  · rw [hnone] at hentry
    cases hentry

theorem AddsDirectories.get? (h : tree.AddsDirectories later) {place : Place} {entry : Entry}
    (hentry : entry ≠ .directory) :
    later.get? place = some entry ↔ tree.get? place = some entry := by
  rcases h place with hsame | ⟨hnone, hmade⟩
  · rw [hsame]
  · simp [hnone, hmade, Ne.symm hentry]

theorem AddsDirectories.sameFiles (h : tree.AddsDirectories later) : tree.SameFiles later :=
  fun _ _ _ => h.get? (by simp)

theorem AddsAlong.adds (h : tree.AddsAlong later cwd paths) : tree.AddsDirectories later := by
  intro place
  rcases h place with hsame | ⟨hnone, q, -, hlook⟩
  · exact Or.inl hsame
  · exact Or.inr ⟨hnone, (look_eq_ok_iff.mp hlook).2⟩

theorem AddsAlong.refl (tree : FileTree) (cwd : Place) (paths : List Path) :
    tree.AddsAlong tree cwd paths :=
  fun _ => Or.inl rfl

/-- What was added first is still at the end of its path when more is added. -/
theorem AddsAlong.trans (h : tree.AddsAlong later cwd paths) (h' : later.AddsAlong last cwd paths) :
    tree.AddsAlong last cwd paths := by
  intro place
  rcases h' place with hsame | ⟨hnone, hlast⟩
  · rcases h place with hsame' | ⟨hnone, q, hq, hlook⟩
    · exact Or.inl (hsame.trans hsame')
    · obtain ⟨now, hnow, hfits⟩ := h'.adds.grows.look hlook
      cases hfits
      exact Or.inr ⟨hnone, q, hq, hnow⟩
  · rcases h place with hsame' | ⟨-, q, -, hlook⟩
    · exact Or.inr ⟨hsame'.symm.trans hnone, hlast⟩
    · rw [(look_eq_ok_iff.mp hlook).2] at hnone
      cases hnone

theorem AddsAlong.mono {more : List Path} (h : tree.AddsAlong later cwd paths)
    (hsub : paths ⊆ more) :
    tree.AddsAlong later cwd more := by
  intro place
  rcases h place with hsame | ⟨hnone, q, hq, hlook⟩
  · exact Or.inl hsame
  · exact Or.inr ⟨hnone, q, hsub hq, hlook⟩

end Added

/-! ## One directory -/

section Directories

variable {tree made : FileTree} {cwd : Place} {p : Path}

theorem IsClosed.makeDirectory_eq_ok_iff (h : tree.IsClosed) :
    tree.makeDirectory cwd p = .ok made ↔
      ∃ place, find tree .name cwd p = .ok place ∧ tree.IsFree place ∧ ¬ processes <+: place ∧
        made = tree.put place .directory := by
  unfold makeDirectory
  cases hfind : find tree .name cwd p with
  | error e => simp
  | ok place =>
    simp only [Except.ok.injEq, exists_eq_left']
    rcases h.free_or_taken_of_find hfind with hfree | ⟨entry, hentry⟩
    · simp only [hfree.none, make, hfree, true_and, List.isPrefixOf_iff_prefix]
      by_cases hplace : processes <+: place
      · simp [hplace]
      · simp [hplace, eq_comm (a := made)]
    · simp only [hentry, reduceCtorEq, false_iff, not_and]
      intro hfree
      rw [hfree.none] at hentry
      cases hentry

theorem addsDirectories_put {place : Place} (h : tree.get? place = none) :
    tree.AddsDirectories (tree.put place .directory) := by
  intro other
  by_cases hne : other = place
  · subst hne
    have hroot : other ≠ [] := by
      rintro rfl
      cases h
    exact Or.inr ⟨h, get?_put_self _ hroot⟩
  · exact Or.inl (get?_put_of_ne _ _ hne)

/-- A directory that was made is found where nothing was. -/
theorem walk_of_made {later : FileTree} {ending : Ending} {limit : Option Nat}
    {links : Nat} {here place : Place} {segments : List String} (hclosed : tree.IsClosed)
    (hgrows : tree.Grows later) (hne : segments ≠ [])
    (hwalk : walk tree ending limit links here segments = .ok place)
    (hfree : tree.get? place = none) (hmade : later.get? place = some .directory) :
    walk later .pass limit links here segments = .ok place := by
  obtain ⟨s, hsteps, hends⟩ := walk_eq_ok_iff.mp hwalk
  cases hends with
  | arrived =>
    obtain ⟨entry, hentry, -⟩ := hclosed.arrived hsteps hne rfl
    cases hfree.symm.trans hentry
  | @missing links here name rest hhere hplain hsound _ hblank =>
    have hpasses : Passes .pass limit here name rest :=
      ⟨hplain, nameFault?_eq_none_iff.mpr ⟨by simp, (nameFault?_eq_none_iff.mp hsound).2⟩, rfl⟩
    have hinto : Step later .pass limit ⟨links, here, name :: rest⟩ ⟨links, here ++ [name], rest⟩ :=
      .into (hgrows.directory hhere) hpasses hmade (by simp)
    have hblanks : Steps later .pass limit ⟨links, here ++ [name], rest⟩
        ⟨links, here ++ [name], []⟩ := by
      simpa using steps_of_blank hmade hblank []
    exact walk_eq_ok_iff.mpr ⟨_, ((hsteps.pass.mono hgrows).tail hinto).trans hblanks, .arrived⟩
  | reached _ _ _ hentry _ => cases hfree.symm.trans hentry

theorem IsClosed.addsAlong_makeDirectory (h : tree.IsClosed)
    (hmade : tree.makeDirectory cwd p = .ok made) :
    tree.AddsAlong made cwd [p] ∧ made.IsClosed := by
  obtain ⟨place, hfind, hfree, -, rfl⟩ := h.makeDirectory_eq_ok_iff.mp hmade
  refine ⟨fun other => ?_, h.put hfree.above (by simp)⟩
  have hadds := addsDirectories_put hfree.none
  by_cases hne : other = place
  · subst hne
    obtain ⟨hspellable, hwalk⟩ := find_eq_ok_iff.mp hfind
    have hdirectory : (tree.put other .directory).get? other = some .directory :=
      get?_put_self _ hfree.ne_nil
    have hwalk' := walk_of_made h hadds.grows (route_ne_nil p) hwalk hfree.none hdirectory
    have hlook := look_eq_ok_iff.mpr ⟨find_eq_ok_iff.mpr ⟨hspellable, hwalk'⟩, hdirectory⟩
    exact Or.inr ⟨hfree.none, p, List.mem_singleton_self p, hlook⟩
  · exact Or.inl (get?_put_of_ne _ _ hne)

/-! ## Chains of directories -/

/-- Whether a chain of directories is made to its end or not, directories along the chain are all it
adds. -/
theorem IsClosed.addsAlong_makeChain (h : tree.IsClosed) (cwd : Place) (paths : List Path) :
    tree.AddsAlong (tree.makeChain cwd paths).1 cwd paths ∧
    (tree.makeChain cwd paths).1.IsClosed := by
  induction paths with
  | nil => exact ⟨.refl tree cwd _, h⟩
  | cons p parents ih =>
    have hkept : tree.AddsAlong tree cwd (p :: parents) ∧ tree.IsClosed := ⟨.refl tree cwd _, h⟩
    have hfirst : [p] ⊆ p :: parents := by simp
    unfold makeChain
    split
    · exact hkept
    split
    · obtain ⟨hadds, hclosed⟩ := h.addsAlong_makeDirectory ‹_›
      exact ⟨hadds.mono hfirst, hclosed⟩
    split
    · cases hparents : tree.makeChain cwd parents with
      | mk above result =>
        rw [hparents] at ih
        obtain ⟨hadds, hclosed⟩ := ih
        have habove := hadds.mono (List.subset_cons_self p parents)
        cases result with
        | error e => exact ⟨habove, hclosed⟩
        | ok =>
          simp only
          split
          · obtain ⟨hadds', hclosed'⟩ := hclosed.addsAlong_makeDirectory ‹_›
            exact ⟨habove.trans (hadds'.mono hfirst), hclosed'⟩
          · split <;> exact ⟨habove, hclosed⟩
    · split <;> exact hkept

theorem IsClosed.addsAlong_makeDirectories (h : tree.IsClosed) (cwd : Place) (p : Path) :
    tree.AddsAlong (tree.makeDirectories cwd p).1 cwd p.ancestors ∧
    (tree.makeDirectories cwd p).1.IsClosed :=
  h.addsAlong_makeChain cwd p.ancestors

end Directories

end ShaderEmbed.FileTree
