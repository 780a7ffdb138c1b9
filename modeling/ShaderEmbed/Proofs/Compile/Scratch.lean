import ShaderEmbed.Compile.Scratch
import ShaderEmbed.Proofs.File.Directories
import ShaderEmbed.Proofs.Path.Child
import ShaderEmbed.Proofs.Run.Outcome

/-!
# Inside a scratch directory

A scratch directory is made in a directory that is there, where nothing was (`Scratch.Opened`), or
the job in it is not begun at all (`Scratch.within_cases`). What has a name in it is one step from
its place, whatever its path goes through (`Opened.find_child_eq_ok_iff`); so a file is written
there just if its name and its path are short enough, and is read back. When a job has changed
nothing outside of its scratch directory, clearing the directory leaves the tree as it was
(`Opened.alike_clear`).
-/

namespace ShaderEmbed

open FileTree

namespace Scratch

/-! ## Names -/

namespace Name

theorem toList_text (name : Name) : name.text.toList = nameStart.toList ++ name.code := by
  simp [text]

theorem isName (name : Name) : Component.IsName name.text := by
  have hstart : name.text ≠ "" ∧ name.text ≠ "." ∧ name.text ≠ ".." := by
    refine ⟨?_, ?_, ?_⟩ <;>
    · intro heq
      have hlist := congrArg (·.toList.take 3) heq
      simp only [toList_text] at hlist
      revert hlist
      simp [nameStart]
  refine ⟨hstart.1, hstart.2.1, hstart.2.2, ?_⟩
  rw [toList_text, List.mem_append, not_or]
  refine ⟨by decide, fun hmem => ?_⟩
  exact absurd (name.mem_alphabet _ hmem) (by decide)

end Name

/-! ## A directory that was made -/

/-- A path and a place where a scratch directory can be made under a chosen parent. -/
structure Opened (world : World) (chosen : Option Path) (path : Path) (place : Place) : Prop where
  named : ∃ (above : Path) (n : Name), parent world chosen = .ok above ∧ path = above.child n.text
  found : find world.tree .name world.cwd path = .ok place
  free : world.tree.IsFree place
  outside : ¬ processes <+: place

abbrev inside (world : World) (place : Place) : FileTree := world.tree.put place .directory

section

variable {α : Type} {world : World} {chosen : Option Path} {path : Path} {place : Place}
  {later : FileTree} {below : String}

theorem make_cases (hclosed : world.tree.IsClosed) (chosen : Option Path) :
    (∃ reason, make chosen world = ⟨[], world, .error (.scratch reason)⟩) ∨
      ∃ path place, Opened world chosen path place ∧
        make chosen world = ⟨[], world.withTree (inside world place), .ok (path, place)⟩ := by
  cases hfresh : fresh world chosen with
  | error reason => exact Or.inl ⟨reason, by simp only [make, hfresh]⟩
  | ok path =>
    cases hfind : find world.tree .name world.cwd path with
    | error reason => exact Or.inl ⟨.located reason path, by simp only [make, hfresh, hfind]⟩
    | ok place =>
      cases hmade : world.tree.makeDirectory world.cwd path with
      | error reason =>
        exact Or.inl ⟨.located reason path, by simp only [make, hfresh, hfind, hmade]⟩
      | ok tree =>
        obtain ⟨place', hfind', hfree, houtside, rfl⟩ := hclosed.makeDirectory_eq_ok_iff.mp hmade
        obtain rfl : place = place' := Except.ok.inj (hfind.symm.trans hfind')
        obtain ⟨parent, hparent, rfl⟩ := exists_of_map_eq_ok hfresh
        refine Or.inr ⟨_, place, ⟨⟨parent, _, hparent, rfl⟩, hfind, hfree, houtside⟩, ?_⟩
        simp only [make, hfresh, hfind, hmade]
        rfl

theorem opened_of_make (hclosed : world.tree.IsClosed) {events : List Event} {opened : World}
    (hmake : make chosen world = ⟨events, opened, .ok (path, place)⟩) :
    Opened world chosen path place ∧ opened = world.withTree (inside world place) := by
  rcases make_cases hclosed chosen with ⟨reason, hfailed⟩ | ⟨path', place', hopened, hmade⟩
  · cases hmake.symm.trans hfailed
  · cases hmake.symm.trans hmade
    exact ⟨hopened, rfl⟩

/-- Once its scratch directory is made, a job is done in it, and the directory is cleared in any
case. -/
theorem within_of_make {job : Path → Job ShaderError α} {opened left : World} {events : List Event}
    {result : Except ShaderError α} (hmake : make chosen world = ⟨[], opened, .ok (path, place)⟩)
    (hjob : job path opened = ⟨events, left, result⟩) :
    within chosen job world = ⟨events, left.withTree (left.tree.clear place), result⟩ := by
  have hdone : (job path).inAnyCase (·.clear place) opened =
      ⟨events, left.withTree (left.tree.clear place), result⟩ := Job.inAnyCase_of_eq hjob
  unfold within
  rw [Job.bind_of_ok hmake]
  exact hdone

/-- A job in a scratch directory is not begun at all, or done in the directory. -/
theorem within_cases (hclosed : world.tree.IsClosed) (chosen : Option Path)
    (job : Path → Job ShaderError α) :
    (∃ reason, within chosen job world = ⟨[], world, .error (.scratch reason)⟩) ∨
      ∃ path place, Opened world chosen path place ∧ ∀ events left result,
        job path (world.withTree (inside world place)) = ⟨events, left, result⟩ →
          within chosen job world = ⟨events, left.withTree (left.tree.clear place), result⟩ := by
  rcases make_cases hclosed chosen with ⟨reason, hmake⟩ | ⟨path, place, hopened, hmake⟩
  · exact Or.inl ⟨reason, Job.bind_of_error hmake⟩
  · exact Or.inr ⟨path, place, hopened, fun events left result => within_of_make hmake⟩

namespace Opened

theorem grows_inside (h : Opened world chosen path place) : world.tree.Grows (inside world place) :=
  (addsDirectories_put h.free.none).grows

theorem isClosed_inside (h : Opened world chosen path place) (hclosed : world.tree.IsClosed) :
    (inside world place).IsClosed :=
  hclosed.put h.free.above (by simp)

theorem get?_inside (h : Opened world chosen path place) :
    (inside world place).get? place = some .directory :=
  get?_put_self _ h.free.ne_nil

/-- What a path leads to, it leads to still when a scratch directory has been made. -/
theorem look_inside (h : Opened world chosen path place) {p : Path} {spot : Place} {entry : Entry}
    (hlook : world.tree.look world.cwd p = .ok (spot, entry)) :
    (inside world place).look world.cwd p = .ok (spot, entry) := by
  refine h.grows_inside.look_of_keeps (fun spot entry hlook => ?_) hlook
  have hentry := (look_eq_ok_iff.mp hlook).2
  rw [get?_put_of_ne, hentry]
  rintro rfl
  rw [h.free.none] at hentry
  cases hentry

/-- Nothing is in a scratch directory that has just been made. -/
theorem isFree_below (h : Opened world chosen path place) (hclosed : world.tree.IsClosed)
    (below : String) :
    (inside world place).IsFree (place ++ [below]) := by
  refine isFree_of_missing h.get?_inside ?_
  rw [get?_put_of_ne _ _ (by simp)]
  exact hclosed.below h.free.none (List.prefix_append _ _)

/-- What is spelled below the scratch directory is found one step from it. -/
theorem find_child_eq_ok_iff (h : Opened world chosen path place) (hclosed : world.tree.IsClosed)
    (hgrows : world.tree.Grows later) (hmade : later.get? place = some .directory)
    (hbelow : Component.IsName below)
    (hlink : ∀ target, later.get? (place ++ [below]) ≠ some (.link target))
    {ending : FileTree.Ending} {found : Place} :
    find later ending world.cwd (path.child below) = .ok found ↔
      (IsSpellable (path.child below) ∧ below.utf8ByteSize ≤ nameLimit) ∧
      found = place ++ [below] := by
  obtain ⟨parent, n, -, hnamed⟩ := h.named
  obtain ⟨-, hwalk⟩ := find_eq_ok_iff.mp h.found
  have hname : HasName [below] := ⟨below, List.mem_singleton_self _, hbelow.1⟩
  have hroute : route (path.child below) = ((route path).1, (route path).2 ++ [below]) := by
    rw [hnamed]
    exact Path.route_child_child parent n.isName hbelow.2.2.2
  obtain ⟨links, hsteps⟩ : ∃ links,
      Steps later ending none ⟨linkLimit, startOf world.cwd path, (route path).2 ++ [below]⟩
      ⟨links, place, [below]⟩ :=
    exists_steps_of_made hgrows hwalk h.free.none hmade hname (route_ne_nil path) hclosed
  have hplain : IsPlain below := ⟨hbelow.1, hbelow.2.1, hbelow.2.2.1⟩
  have hstart : startOf world.cwd (path.child below) = startOf world.cwd path := by
    simp only [startOf, hroute]
  have hfault : nameFault? ending none (place ++ [below]) below [] = none ↔
      below.utf8ByteSize ≤ nameLimit := by
    simp [nameFault?_eq_none_iff]
  rw [find_eq_ok_iff, hstart, hroute, walk_of_steps hsteps,
    walk_name_eq_ok_iff hplain hmade (Or.inr hlink), hfault, and_assoc]

section Files

variable {content : Bytes}

/-- A file is written to a scratch directory just if its name and its path are short enough. -/
theorem writeBytes_eq_ok_iff (h : Opened world chosen path place) (hclosed : world.tree.IsClosed)
    (hbelow : Component.IsName below) :
    (inside world place).writeBytes world.cwd (path.child below) content = .ok later ↔
      (IsSpellable (path.child below) ∧ below.utf8ByteSize ≤ nameLimit) ∧
        later = (inside world place).put (place ++ [below]) (.file content) := by
  have hfree := h.isFree_below hclosed below
  have hfind {found : Place} : find (inside world place) .write world.cwd (path.child below) =
      .ok found ↔ _ :=
    h.find_child_eq_ok_iff hclosed h.grows_inside h.get?_inside hbelow (by simp [hfree.none])
  have houtside : ¬ processes <+: place ++ [below] := by
    intro hunder
    rcases List.prefix_concat_iff.mp hunder with heq | hunder
    · -- the system's own directory lies at the root, and a scratch directory does not
      have hlength := congrArg List.length heq
      simp only [processes, List.length_append, List.length_singleton] at hlength
      exact h.free.ne_nil (List.length_eq_zero_iff.mp (by omega))
    · exact h.outside hunder
  rw [(h.isClosed_inside hclosed).writeBytes_eq_ok_iff]
  constructor
  · rintro ⟨found, hfound, hwrote⟩
    obtain ⟨hshort, rfl⟩ := hfind.mp hfound
    refine ⟨hshort, ?_⟩
    cases hwrote with
    | null hdevice | full hdevice =>
      rw [hfree.none] at hdevice
      cases hdevice
    | replaced hfile =>
      rw [hfree.none] at hfile
      cases hfile
    | made => rfl
  · rintro ⟨hshort, rfl⟩
    exact ⟨_, hfind.mpr ⟨hshort, rfl⟩, .made hfree houtside⟩

theorem isClosed_written (h : Opened world chosen path place) (hclosed : world.tree.IsClosed)
    (hbelow : Component.IsName below)
    (hwrite : (inside world place).writeBytes world.cwd (path.child below) content = .ok later) :
    later.IsClosed := by
  obtain ⟨-, rfl⟩ := (h.writeBytes_eq_ok_iff hclosed hbelow).mp hwrite
  have hfree := h.isFree_below hclosed below
  exact (h.isClosed_inside hclosed).put hfree.above (by simp [hfree.none])

/-- Nothing is read from a scratch directory before something is written there. -/
theorem readBytes_inside (h : Opened world chosen path place) (hclosed : world.tree.IsClosed)
    (hbelow : Component.IsName below) :
    (inside world place).readBytes world.cwd (path.child below) ≠ .ok content := by
  intro hread
  have hfree := h.isFree_below hclosed below
  obtain ⟨found, entry, hlook, -⟩ := look_of_readBytes hread
  obtain ⟨hfind, hentry⟩ := look_eq_ok_iff.mp hlook
  obtain ⟨-, rfl⟩ :=
    (h.find_child_eq_ok_iff hclosed h.grows_inside h.get?_inside hbelow
      (by simp [hfree.none])).mp hfind
  rw [hfree.none] at hentry
  cases hentry

theorem grows_written (h : Opened world chosen path place) (hclosed : world.tree.IsClosed)
    (hbelow : Component.IsName below)
    (hwrite : (inside world place).writeBytes world.cwd (path.child below) content = .ok later) :
    world.tree.Grows later := by
  obtain ⟨-, rfl⟩ := (h.writeBytes_eq_ok_iff hclosed hbelow).mp hwrite
  refine h.grows_inside.trans fun other entry hentry => ⟨entry, ?_, .same⟩
  rw [get?_put_of_ne _ _ ?_, hentry]
  rintro rfl
  rw [(h.isFree_below hclosed below).none] at hentry
  cases hentry

/-- What was written to a scratch directory is what its path leads to. -/
theorem look_written (h : Opened world chosen path place) (hclosed : world.tree.IsClosed)
    (hbelow : Component.IsName below)
    (hwrite : (inside world place).writeBytes world.cwd (path.child below) content = .ok later) :
    later.look world.cwd (path.child below) = .ok (place ++ [below], .file content) := by
  have hgrows := h.grows_written hclosed hbelow hwrite
  obtain ⟨hshort, rfl⟩ := (h.writeBytes_eq_ok_iff hclosed hbelow).mp hwrite
  have hwrote : ((inside world place).put (place ++ [below]) (.file content)).get?
      (place ++ [below]) =
      some (.file content) := get?_put_self _ (h.isFree_below hclosed below).ne_nil
  have hmade : ((inside world place).put (place ++ [below]) (.file content)).get? place =
      some .directory := by
    rw [get?_put_of_ne _ _ (by simp), h.get?_inside]
  refine look_eq_ok_iff.mpr ⟨?_, hwrote⟩
  exact (h.find_child_eq_ok_iff hclosed hgrows hmade hbelow (by simp [hwrote])).mpr ⟨hshort, rfl⟩

theorem readBytes_written (h : Opened world chosen path place) (hclosed : world.tree.IsClosed)
    (hbelow : Component.IsName below)
    (hwrite : (inside world place).writeBytes world.cwd (path.child below) content = .ok later) :
    later.readBytes world.cwd (path.child below) = .ok content :=
  readBytes_of_look_file (h.look_written hclosed hbelow hwrite)

theorem alike_clear (h : Opened world chosen path place) (hclosed : world.tree.IsClosed)
    (hkept : ∀ spot, ¬ place <+: spot → later.get? spot = world.tree.get? spot) :
    world.tree.Alike (later.clear place) :=
  hclosed.alike_clear h.free.none hkept

theorem get?_inside_of_not_prefix {spot : Place} (hspot : ¬ place <+: spot) :
    (inside world place).get? spot = world.tree.get? spot := by
  refine get?_put_of_ne _ _ ?_
  rintro rfl
  exact hspot (List.prefix_refl _)

/-- What was written in a scratch directory is seen nowhere else. -/
theorem get?_written (h : Opened world chosen path place) (hclosed : world.tree.IsClosed)
    (hbelow : Component.IsName below)
    (hwrite : (inside world place).writeBytes world.cwd (path.child below) content = .ok later)
    {spot : Place} (hspot : ¬ place <+: spot) : later.get? spot = world.tree.get? spot := by
  obtain ⟨-, rfl⟩ := (h.writeBytes_eq_ok_iff hclosed hbelow).mp hwrite
  rw [get?_put_of_ne, get?_inside_of_not_prefix hspot]
  rintro rfl
  exact hspot (List.prefix_append _ _)

end Files

end Opened

end

end Scratch

end ShaderEmbed
