import Mathlib.Data.List.Induction
import ShaderEmbed.Proofs.File.Walk

/-!
# Closed trees

A file tree is closed if whatever it holds lies in a directory that it holds, too. Putting something
into a directory and clearing a place keep a tree closed.

In a closed tree a walk arrives at something, or at a free name in a directory
(`free_or_taken_of_walk`); a walk to a file to be written never arrives at a link, and if the path
ends in dots or in a slash it arrives at a directory (`directory_of_walk_dotted`).
-/

namespace ShaderEmbed.FileTree

/-- Whatever the tree holds lies in a directory that it holds, too. -/
def IsClosed (tree : FileTree) : Prop :=
  ∀ above name, (tree.get? (above ++ [name])).isSome → tree.get? above = some .directory

theorem isClosed_empty : empty.IsClosed := by
  intro above name h
  simp [get?, empty, entryAt] at h

section Changes

variable {tree : FileTree}

theorem IsClosed.dropLast (h : tree.IsClosed) {place : Place} {entry : Entry}
    (hplace : tree.get? place = some entry) :
    tree.get? place.dropLast = some .directory := by
  rcases List.eq_nil_or_concat place with rfl | ⟨above, name, rfl⟩
  · rfl
  · rw [List.concat_eq_append] at hplace ⊢
    rw [List.dropLast_concat]
    exact h above name (by simp [hplace])

/-- Nothing lies below a place that holds nothing. -/
theorem IsClosed.below (h : tree.IsClosed) {place below : Place} (hplace : tree.get? place = none)
    (hbelow : place <+: below) : tree.get? below = none := by
  obtain ⟨names, rfl⟩ := hbelow
  induction names using List.reverseRecOn with
  | nil => simpa using hplace
  | append_singleton names name ih =>
    rw [← List.append_assoc]
    by_contra hsome
    have hdirectory := h (place ++ names) name (Option.isSome_iff_ne_none.mpr hsome)
    rw [ih] at hdirectory
    cases hdirectory

theorem get?_put_of_ne (place : Place) (entry : Entry) {other : Place} (hne : other ≠ place) :
    (tree.put place entry).get? other = tree.get? other := by
  by_cases hroot : other = []
  · rw [hroot, get?_root, get?_root]
  · rw [get?_put tree place entry hroot, if_neg hne]

theorem get?_put_self {place : Place} (entry : Entry) (hroot : place ≠ []) :
    (tree.put place entry).get? place = some entry := by
  rw [get?_put tree place entry hroot, if_pos rfl]

theorem IsClosed.put (h : tree.IsClosed) {place : Place} {entry : Entry}
    (habove : tree.get? place.dropLast = some .directory)
    (hentry : tree.get? place = some .directory → entry = .directory) :
    (tree.put place entry).IsClosed := by
  intro above name hname
  have hself : above ++ [name] ≠ above := by simp
  by_cases hplace : above ++ [name] = place
  · subst hplace
    rw [List.dropLast_concat] at habove
    rw [get?_put_of_ne _ _ hself.symm, habove]
  · rw [get?_put_of_ne _ _ hplace] at hname
    have hdirectory := h above name hname
    by_cases habovePlace : above = place
    · subst habovePlace
      rcases eq_or_ne above [] with rfl | hroot
      · rfl
      · rw [get?_put_self entry hroot, hentry hdirectory]
    · rw [get?_put_of_ne _ _ habovePlace, hdirectory]

theorem get?_clear_elsewhere {place other : Place} (h : ¬ place <+: other) :
    (tree.clear place).get? other = tree.get? other := by
  by_cases hroot : other = []
  · rw [hroot, get?_root, get?_root]
  · rw [get?_clear tree place hroot, if_neg (by rwa [List.isPrefixOf_iff_prefix])]

theorem get?_clear_below {place other : Place} (hroot : other ≠ []) (h : place <+: other) :
    (tree.clear place).get? other = none := by
  rw [get?_clear tree place hroot, if_pos (List.isPrefixOf_iff_prefix.mpr h)]

theorem IsClosed.clear (h : tree.IsClosed) (place : Place) : (tree.clear place).IsClosed := by
  intro above name hname
  have hkept : ¬ place <+: above ++ [name] := by
    intro hbelow
    rw [get?_clear_below (by simp) hbelow] at hname
    cases hname
  rw [get?_clear_elsewhere hkept] at hname
  rw [get?_clear_elsewhere fun hbelow => hkept (hbelow.trans (List.prefix_append _ _))]
  exact h above name hname

end Changes

/-! ## Where walks arrive -/

theorem route_ne_nil (p : Path) : (route p).2 ≠ [] := by
  unfold route
  split
  · rename_i habsolute
    -- the slash in front is followed by a segment
    unfold Path.tail
    unfold Path.isAbsolute at habsolute
    cases htext : p.text.toList with
    | nil => simp [htext] at habsolute
    | cons c rest =>
      obtain rfl : c = '/' := by simpa [htext] using habsolute
      simp [Text.cut]
  · simp

section Arrival

variable {tree : FileTree} {ending : Ending} {limit : Option Nat}

/-- When all segments are walked, the walk stands at something that is no link. -/
theorem IsClosed.arrived (h : tree.IsClosed) {s s' : Stand} (hsteps : Steps tree ending limit s s')
    (hne : s.ahead ≠ []) (hover : s'.ahead = []) :
    ∃ entry, tree.get? s'.here = some entry ∧ ∀ target, entry ≠ .link target := by
  rcases Relation.ReflTransGen.cases_tail hsteps with rfl | ⟨before, -, hstep⟩
  · exact absurd hover hne
  · cases hstep with
    | stay hhere _ => exact ⟨_, hhere, by simp⟩
    | up hhere => exact ⟨_, h.dropLast hhere, by simp⟩
    | follow _ _ _ =>
      obtain ⟨hroute, -⟩ := List.append_eq_nil_iff.mp hover
      exact absurd hroute (route_ne_nil _)
    | into _ _ hentry hlink => exact ⟨_, hentry, hlink⟩

/-- A place that holds nothing yet, in a directory. -/
structure IsFree (tree : FileTree) (place : Place) : Prop where
  none : tree.get? place = none
  above : tree.get? place.dropLast = some .directory

theorem IsFree.ne_nil {place : Place} (h : tree.IsFree place) : place ≠ [] := by
  rintro rfl
  cases h.none

theorem isFree_of_missing {here : Place} {name : String} (hhere : tree.get? here = some .directory)
    (hentry : tree.get? (here ++ [name]) = none) : tree.IsFree (here ++ [name]) :=
  ⟨hentry, by rwa [List.dropLast_concat]⟩

theorem IsClosed.free_or_taken_of_walk (h : tree.IsClosed) {links : Nat} {here place : Place}
    {segments : List String} (hne : segments ≠ [])
    (hwalk : walk tree ending limit links here segments = .ok place) :
    tree.IsFree place ∨ ∃ entry, tree.get? place = some entry := by
  obtain ⟨s, hsteps, hends⟩ := walk_eq_ok_iff.mp hwalk
  cases hends with
  | arrived =>
    obtain ⟨entry, hentry, -⟩ := h.arrived hsteps hne rfl
    exact Or.inr ⟨entry, hentry⟩
  | missing hhere _ _ hentry _ => exact Or.inl (isFree_of_missing hhere hentry)
  | reached _ _ _ hentry _ => exact Or.inr ⟨_, hentry⟩

theorem IsClosed.not_link_of_walk_write (h : tree.IsClosed) {links : Nat} {here place : Place}
    {segments : List String} (hne : segments ≠ [])
    (hwalk : walk tree .write limit links here segments = .ok place) (target : String) :
    tree.get? place ≠ some (.link target) := by
  obtain ⟨s, hsteps, hends⟩ := walk_eq_ok_iff.mp hwalk
  cases hends with
  | arrived =>
    obtain ⟨entry, hentry, hlink⟩ := h.arrived hsteps hne rfl
    rw [hentry]
    exact fun heq => hlink target (Option.some.inj heq)
  | missing _ _ _ hentry _ => simp [hentry]
  | reached _ _ _ _ hreached => cases hreached

/-- Segments that end in an empty one or in dots. -/
def IsDotted (segments : List String) : Prop :=
  ∃ segment, segments.getLast? = some segment ∧ ¬ IsPlain segment

theorem IsDotted.ne_nil {segments : List String} (h : IsDotted segments) : segments ≠ [] := by
  rintro rfl
  obtain ⟨segment, hlast, -⟩ := h
  cases hlast

/-- Segments that end in dots still do so behind their first one, unless that was the dots. -/
theorem IsDotted.tail {segment : String} {rest : List String} (h : IsDotted (segment :: rest))
    (hne : rest ≠ []) :
    IsDotted rest := by
  obtain ⟨last, hlast, hplain⟩ := h
  rw [List.getLast?_cons_of_ne_nil hne] at hlast
  exact ⟨last, hlast, hplain⟩

theorem IsDotted.rest_ne_nil {name : String} {rest : List String} (h : IsDotted (name :: rest))
    (hname : IsPlain name) :
    rest ≠ [] := by
  rintro rfl
  obtain ⟨last, hlast, hplain⟩ := h
  cases hlast
  exact hplain hname

theorem IsDotted.append {rest : List String} (h : IsDotted rest) (front : List String) :
    IsDotted (front ++ rest) := by
  obtain ⟨last, hlast, hplain⟩ := h
  exact ⟨last, by rw [List.getLast?_append, hlast]; rfl, hplain⟩

/-- What one step makes of segments that end in dots: they still do, or the walk stands at a
directory. -/
theorem IsClosed.step_dotted (h : tree.IsClosed) {s s' : Stand}
    (hstep : Step tree ending limit s s') (hdotted : IsDotted s.ahead) :
    IsDotted s'.ahead ∨ s'.ahead = [] ∧ tree.get? s'.here = some .directory := by
  cases hstep with
  | @stay links here segment rest hhere _ =>
    rcases eq_or_ne rest [] with rfl | hne
    · exact Or.inr ⟨rfl, hhere⟩
    · exact Or.inl (hdotted.tail hne)
  | @up links here rest hhere =>
    rcases eq_or_ne rest [] with rfl | hne
    · exact Or.inr ⟨rfl, h.dropLast hhere⟩
    · exact Or.inl (hdotted.tail hne)
  | follow _ hname _ => exact Or.inl ((hdotted.tail (hdotted.rest_ne_nil hname.plain)).append _)
  | into _ hname _ _ => exact Or.inl (hdotted.tail (hdotted.rest_ne_nil hname.plain))

theorem IsClosed.steps_dotted (h : tree.IsClosed) {s s' : Stand}
    (hsteps : Steps tree ending limit s s') (hdotted : IsDotted s.ahead) :
    IsDotted s'.ahead ∨ s'.ahead = [] ∧ tree.get? s'.here = some .directory := by
  induction hsteps with
  | refl => exact Or.inl hdotted
  | tail _ hstep ih =>
    rcases ih with hdotted | ⟨hover, -⟩
    · exact h.step_dotted hstep hdotted
    · cases hstep <;> cases hover

/-- The file to be written at the end of a path that ends in dots or in a slash is a directory. -/
theorem IsClosed.directory_of_walk_dotted (h : tree.IsClosed) {links : Nat} {here place : Place}
    {segments : List String} (hdotted : IsDotted segments)
    (hwalk : walk tree .write limit links here segments = .ok place) :
    tree.get? place = some .directory := by
  obtain ⟨s, hsteps, hends⟩ := walk_eq_ok_iff.mp hwalk
  have hlast := h.steps_dotted hsteps hdotted
  cases hends with
  | arrived =>
    rcases hlast with hdotted | ⟨-, hhere⟩
    · exact absurd rfl hdotted.ne_nil
    · exact hhere
  | missing _ hplain hsound _ hblank =>
    rcases hlast with hdotted | ⟨hover, -⟩
    · exact absurd ⟨rfl, hdotted.rest_ne_nil hplain, hblank⟩ (nameFault?_eq_none_iff.mp hsound).1
    · cases hover
  | reached _ _ _ _ hreached => cases hreached

/-- What is found at the end of a path that ends in dots or in a slash is a directory. -/
theorem IsClosed.eq_directory_of_dotted (h : tree.IsClosed) {links : Nat}
    {here place : Place} {segments : List String} {entry : Entry} (hdotted : IsDotted segments)
    (hwalk : walk tree .pass limit links here segments = .ok place)
    (hentry : tree.get? place = some entry) : entry = .directory := by
  obtain ⟨s, hsteps, hends⟩ := walk_eq_ok_iff.mp hwalk
  have hlast := h.steps_dotted hsteps hdotted
  cases hends with
  | arrived =>
    rcases hlast with hdotted | ⟨-, hhere⟩
    · exact absurd rfl hdotted.ne_nil
    · exact Option.some.inj (hentry.symm.trans hhere)
  | missing _ _ _ hnone _ => cases hentry.symm.trans hnone
  | reached _ _ _ _ hreached => cases hreached

end Arrival

/-! ## Walks to what has come to be -/

section Made

variable {tree later : FileTree} {ending : Ending} {limit : Option Nat}
  {links : Nat} {here place : Place} {segments : List String}

theorem Step.pass {s s' : Stand} (h : Step tree ending limit s s') :
    Step tree .pass limit s s' := by
  simpa only [Stand.before, List.append_nil] using h.pass_before []

theorem Steps.pass {s s' : Stand} (h : Steps tree ending limit s s') :
    Steps tree .pass limit s s' :=
  Relation.ReflTransGen.mono (fun _ _ => Step.pass) _ _ h

/-- A file that was written is found where it was to be written. -/
theorem walk_of_written (hgrows : tree.Grows later)
    (hwalk : walk tree .write limit links here segments = .ok place)
    {entry : Entry} (hentry : later.get? place = some entry)
    (hlink : ∀ target, entry ≠ .link target) :
    walk later .pass limit links here segments = .ok place := by
  obtain ⟨s, hsteps, hends⟩ := walk_eq_ok_iff.mp hwalk
  have hsteps' := hsteps.pass.mono hgrows
  cases hends with
  | arrived => exact walk_eq_ok_iff.mpr ⟨_, hsteps', .arrived⟩
  | @missing links here name rest hhere hplain hsound _ hblank =>
    obtain ⟨hslash, hshort⟩ := nameFault?_eq_none_iff.mp hsound
    obtain rfl : rest = [] := by
      by_contra hne
      exact hslash ⟨rfl, hne, hblank⟩
    have hpasses : Passes .pass limit here name [] :=
      ⟨hplain, nameFault?_eq_none_iff.mpr ⟨by simp, hshort⟩, rfl⟩
    have hlast : Step later .pass limit ⟨links, here, [name]⟩ ⟨links, here ++ [name], []⟩ :=
      .into (hgrows.directory hhere) hpasses hentry hlink
    exact walk_eq_ok_iff.mpr ⟨_, hsteps'.tail hlast, .arrived⟩
  | reached _ _ _ _ hreached => cases hreached

/-- A directory that was made is passed on the way to what lies in it. -/
theorem exists_steps_of_made (hgrows : tree.Grows later)
    (hwalk : walk tree ending limit links here segments = .ok place)
    (hfree : tree.get? place = none) (hmade : later.get? place = some .directory) {ending' : Ending}
    {more : List String} (hmore : HasName more)
    (hne : segments ≠ []) (hclosed : tree.IsClosed) :
    ∃ links', Steps later ending' limit ⟨links, here, segments ++ more⟩ ⟨links', place, more⟩ := by
  obtain ⟨s, hsteps, hends⟩ := walk_eq_ok_iff.mp hwalk
  have hsteps' : Steps later ending' limit ⟨links, here, segments ++ more⟩ (s.before more) :=
    (hsteps.mono hgrows).before hmore
  cases hends with
  | arrived =>
    obtain ⟨entry, hentry, -⟩ := hclosed.arrived hsteps hne rfl
    rw [hfree] at hentry
    cases hentry
  | @missing links here name rest hhere hplain hsound _ hblank =>
    have hpasses : Passes ending' limit here name (rest ++ more) := by
      refine ⟨hplain, nameFault?_of_hasName hmore hsound, isReached_of_hasName ending' ?_⟩
      obtain ⟨segment, hmem, hsegment⟩ := hmore
      exact ⟨segment, List.mem_append_right _ hmem, hsegment⟩
    have hinto : Step later ending' limit ⟨links, here, name :: (rest ++ more)⟩
        ⟨links, here ++ [name], rest ++ more⟩ :=
      .into (hgrows.directory hhere) hpasses hmade (by simp)
    exact ⟨links, (hsteps'.tail hinto).trans (steps_of_blank hmade hblank more)⟩
  | reached _ _ _ hentry _ =>
    rw [hfree] at hentry
    cases hentry

end Made

end ShaderEmbed.FileTree
