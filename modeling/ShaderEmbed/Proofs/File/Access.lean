import ShaderEmbed.Fragment.Source
import ShaderEmbed.Proofs.File.Closed
import ShaderEmbed.Proofs.Path.Child

/-!
# What reading and writing see and leave

Spec lemmas for the operations on files. A path that leads to something goes on leading there in a
tree that has grown (`Grows.look`). Writing a file changes one place and no other
(`writeBytes_eq_ok_iff`), and what was written is read back, unless the path leads to a device
(`Wrote.look`).

Trees that hold the same everywhere are alike: no operation that reads tells them apart.
-/

namespace ShaderEmbed.FileTree

/-! ## Finding and looking -/

/-- A path that the system takes. -/
structure IsSpellable (p : Path) : Prop where
  noZero : '\x00' ∉ p.text.toList
  nonempty : p ≠ .empty
  short : p.text.utf8ByteSize ≤ pathLimit

def startOf (cwd : Place) (p : Path) : Place := if (route p).1 then [] else cwd

section Finding

variable {tree later : FileTree} {ending : Ending} {cwd place : Place} {p : Path} {entry : Entry}

theorem find_eq_ok_iff :
    find tree ending cwd p = .ok place ↔
      IsSpellable p ∧ walk tree ending none linkLimit (startOf cwd p) (route p).2 = .ok place := by
  unfold find startOf
  constructor
  · intro h
    split at h
    · cases h
    rename_i hzero
    split at h
    · cases h
    rename_i hempty
    split at h
    · cases h
    rename_i hshort
    exact ⟨⟨by simpa using hzero, hempty, Nat.le_of_not_lt hshort⟩, eq_ok_of_mapError h⟩
  · rintro ⟨⟨hzero, hempty, hshort⟩, hwalk⟩
    rw [if_neg (by simpa using hzero), if_neg hempty, if_neg (Nat.not_lt_of_le hshort)]
    simp only [hwalk]
    rfl

theorem look_eq_ok_iff :
    look tree cwd p = .ok (place, entry) ↔ find tree .pass cwd p = .ok place ∧
    tree.get? place = some entry := by
  unfold look
  cases hfind : find tree .pass cwd p with
  | error e => simp
  | ok found =>
    cases hentry : tree.get? found with
    | none =>
      simp only [hentry, reduceCtorEq, Except.ok.injEq, false_iff, not_and]
      rintro rfl
      simp [hentry]
    | some other =>
      simp only [hentry, Except.ok.injEq, Prod.mk.injEq]
      constructor
      · rintro ⟨rfl, rfl⟩
        exact ⟨rfl, hentry⟩
      · rintro ⟨rfl, hplace⟩
        exact ⟨rfl, Option.some.inj (hentry.symm.trans hplace)⟩

theorem canonical_eq_ok_iff :
    canonical tree cwd p = .ok place ↔
      '\x00' ∉ p.text.toList ∧ p ≠ .empty ∧
        walk tree .pass (some pathLimit) linkLimit (startOf cwd p) (route p).2 = .ok place ∧
          ∃ entry, tree.get? place = some entry := by
  unfold canonical startOf
  constructor
  · intro h
    split at h
    · cases h
    rename_i hzero
    split at h
    · cases h
    rename_i hempty
    simp only at h
    split at h
    · cases h
    rename_i found hwalk
    split at h
    · rename_i hsome
      cases h
      exact ⟨by simpa using hzero, hempty, hwalk, Option.isSome_iff_exists.mp hsome⟩
    · cases h
  · rintro ⟨hzero, hempty, hwalk, entry, hentry⟩
    rw [if_neg (by simpa using hzero), if_neg hempty]
    simp [hwalk, hentry]

theorem Grows.look (h : tree.Grows later) (hlook : tree.look cwd p = .ok (place, entry)) :
    ∃ now, later.look cwd p = .ok (place, now) ∧ entry.Fits now := by
  obtain ⟨hfind, hentry⟩ := look_eq_ok_iff.mp hlook
  obtain ⟨hspelled, hwalk⟩ := find_eq_ok_iff.mp hfind
  obtain ⟨now, hnow, hfits⟩ := h place entry hentry
  exact ⟨now, look_eq_ok_iff.mpr ⟨find_eq_ok_iff.mpr ⟨hspelled, walk_of_grows h hwalk hentry⟩,
    hnow⟩, hfits⟩

theorem Grows.canonical (h : tree.Grows later) (hplace : tree.canonical cwd p = .ok place) :
    later.canonical cwd p = .ok place := by
  obtain ⟨hzero, hempty, hwalk, entry, hentry⟩ := canonical_eq_ok_iff.mp hplace
  obtain ⟨now, hnow, -⟩ := h place entry hentry
  exact canonical_eq_ok_iff.mpr ⟨hzero, hempty, walk_of_grows h hwalk hentry, now, hnow⟩

theorem IsClosed.free_or_taken_of_find (h : tree.IsClosed)
    (hfind : find tree ending cwd p = .ok place) :
    tree.IsFree place ∨ ∃ entry, tree.get? place = some entry :=
  h.free_or_taken_of_walk (route_ne_nil p) (find_eq_ok_iff.mp hfind).2

/-- A name in a directory is found there, unless it is that of a link that is passed. -/
theorem walk_name_eq_ok_iff {limit : Option Nat} {links : Nat} {here found : Place} {name : String}
    (hname : IsPlain name) (hhere : tree.get? here = some .directory)
    (hlink : ending.isReached [] = true ∨
      ∀ target, tree.get? (here ++ [name]) ≠ some (.link target)) :
    walk tree ending limit links here [name] = .ok found ↔
      nameFault? ending limit (here ++ [name]) name [] = none ∧ found = here ++ [name] := by
  obtain ⟨hempty, hdot, hdots⟩ := hname
  have hnil (place : Place) : walk tree ending limit links place [] = .ok place := by rw [walk]
  rw [walk]
  cases nameFault? ending limit (here ++ [name]) name [] with
  | some fault => simp [hhere, hempty, hdot, hdots]
  | none =>
    cases hentry : tree.get? (here ++ [name]) with
    | none => simp [hhere, hempty, hdot, hdots, eq_comm (a := found)]
    | some entry =>
      cases entry with
      | link target =>
        rcases hlink with hreached | hlink
        · simp [hhere, hempty, hdot, hdots, hreached, eq_comm (a := found)]
        · exact absurd hentry (hlink target)
      | directory | file | device => simp [hhere, hempty, hdot, hdots, hnil, eq_comm (a := found)]

/-- A name that a file can have. -/
structure IsFileName (name : String) : Prop where
  isName : Component.IsName name
  noZero : '\x00' ∉ name.toList
  short : name.utf8ByteSize ≤ nameLimit

instance (name : String) : Decidable (IsFileName name) :=
  decidable_of_iff (Component.IsName name ∧ '\x00' ∉ name.toList ∧ name.utf8ByteSize ≤ nameLimit)
    ⟨fun ⟨hname, hzero, hshort⟩ => ⟨hname, hzero, hshort⟩,
      fun ⟨hname, hzero, hshort⟩ => ⟨hname, hzero, hshort⟩⟩

section Names

variable {name : String}

theorem IsFileName.route_eq (h : IsFileName name) : route ⟨name⟩ = (false, [name]) := by
  obtain ⟨hhead, htail⟩ := Path.head_of_isName h.isName.2.2.2
  simp [route, Path.not_isAbsolute_of_notMem h.isName.2.2.2, hhead, htail]

theorem IsFileName.walk_eq (h : IsFileName name) {limit : Option Nat} {links : Nat}
    (hcwd : tree.get? cwd = some .directory)
    (hlink : ∀ target, tree.get? (cwd ++ [name]) ≠ some (.link target))
    (hlimit : ∀ size, limit = some size → pathSize (cwd ++ [name]) ≤ size) :
    walk tree ending limit links (startOf cwd ⟨name⟩) (route ⟨name⟩).2 = .ok (cwd ++ [name]) := by
  obtain ⟨hempty, hdot, hdots, -⟩ := h.isName
  rw [startOf, h.route_eq]
  exact (walk_name_eq_ok_iff ⟨hempty, hdot, hdots⟩ hcwd (Or.inr hlink)).mpr
    ⟨nameFault?_eq_none_iff.mpr ⟨by simp, h.short, hlimit⟩, rfl⟩

theorem IsFileName.ne_empty (h : IsFileName name) : Path.mk name ≠ .empty :=
  fun heq => h.isName.1 (congrArg Path.text heq)

/-- A name leads to what the working directory has under it. -/
theorem IsFileName.find_eq (h : IsFileName name) (hcwd : tree.get? cwd = some .directory)
    (hlink : ∀ target, tree.get? (cwd ++ [name]) ≠ some (.link target)) :
    find tree ending cwd ⟨name⟩ = .ok (cwd ++ [name]) :=
  find_eq_ok_iff.mpr ⟨⟨h.noZero, h.ne_empty, Nat.le_trans h.short (by decide)⟩,
    h.walk_eq hcwd hlink (by simp)⟩

theorem IsFileName.canonical_eq (h : IsFileName name) (hcwd : tree.get? cwd = some .directory)
    (hentry : tree.get? (cwd ++ [name]) = some entry) (hlink : ∀ target, entry ≠ .link target)
    (hlimit : pathSize (cwd ++ [name]) ≤ pathLimit) :
    canonical tree cwd ⟨name⟩ = .ok (cwd ++ [name]) := by
  have hnot : ∀ target, tree.get? (cwd ++ [name]) ≠ some (.link target) := by
    simpa [hentry] using hlink
  exact canonical_eq_ok_iff.mpr ⟨h.noZero, h.ne_empty, h.walk_eq hcwd hnot (by simpa using hlimit),
    entry, hentry⟩

end Names

end Finding

/-! ## Trees that hold the same -/

/-- The two trees hold the same everywhere. -/
def Alike (tree other : FileTree) : Prop := ∀ place, other.get? place = tree.get? place

/-- The two trees hold the same files. -/
def SameFiles (tree other : FileTree) : Prop :=
  ∀ place content runnable, other.get? place = some (.file content runnable) ↔
    tree.get? place = some (.file content runnable)

section Alike

variable {tree other last : FileTree} {ending : Ending}
  {limit : Option Nat} {cwd : Place} {p : Path}

theorem Alike.refl (tree : FileTree) : tree.Alike tree := fun _ => rfl

theorem Alike.symm (h : tree.Alike other) : other.Alike tree := fun place => (h place).symm

theorem Alike.trans (h : tree.Alike other) (h' : other.Alike last) : tree.Alike last :=
  fun place => (h' place).trans (h place)

theorem Alike.sameFiles (h : tree.Alike other) : tree.SameFiles other := by
  intro place content runnable
  rw [h place]

theorem SameFiles.trans (h : tree.SameFiles other) (h' : other.SameFiles last) :
    tree.SameFiles last :=
  fun place content runnable => (h' place content runnable).trans (h place content runnable)

theorem Alike.grows (h : tree.Alike other) : tree.Grows other :=
  fun place entry hentry => ⟨entry, (h place).trans hentry, .same⟩

theorem Alike.isClosed (h : tree.Alike other) (hclosed : tree.IsClosed) : other.IsClosed := by
  intro above name hname
  rw [h] at hname ⊢
  exact hclosed above name hname

/-- A tree is as it was when all that changed lies below a place that was free, and that place is
cleared. -/
theorem IsClosed.alike_clear (h : tree.IsClosed) {place : Place} (hfree : tree.get? place = none)
    (hkept : ∀ spot, ¬ place <+: spot → other.get? spot = tree.get? spot) :
    tree.Alike (other.clear place) := by
  intro spot
  rcases eq_or_ne spot [] with rfl | hroot
  · rfl
  by_cases hbelow : place <+: spot
  · rw [get?_clear_below hroot hbelow, h.below hfree hbelow]
  · rw [get?_clear_elsewhere hbelow, hkept spot hbelow]

theorem Alike.walk (h : tree.Alike other) (links : Nat) (here : Place) (segments : List String) :
    walk other ending limit links here segments = walk tree ending limit links here segments := by
  fun_induction FileTree.walk tree ending limit links here segments <;> rw [FileTree.walk]
  all_goals simp_all only [h _]
  all_goals simp_all

theorem Alike.find (h : tree.Alike other) : find other ending cwd p = find tree ending cwd p := by
  simp only [FileTree.find, h.walk]

theorem Alike.look (h : tree.Alike other) : other.look cwd p = tree.look cwd p := by
  simp only [FileTree.look, h.find, h _]

theorem Alike.readBytes (h : tree.Alike other) : other.readBytes cwd p = tree.readBytes cwd p := by
  simp only [FileTree.readBytes, h.look]

end Alike

/-! ## Writing a file -/

/-- What a write makes of a tree: a device keeps nothing, a file is replaced, and a file is made
where nothing is. -/
inductive Wrote (tree : FileTree) (place : Place) (content : Bytes) : FileTree → Prop
  | null (hdevice : tree.get? place = some (.device .null)) : Wrote tree place content tree
  | full (hdevice : tree.get? place = some (.device .full)) (hcontent : content = []) :
      Wrote tree place content tree
  | replaced {old : Bytes} {runnable : Bool} (hfile : tree.get? place = some (.file old runnable)) :
      Wrote tree place content (tree.put place (.file content runnable))
  | made (hfree : tree.IsFree place) (hplace : ¬ processes <+: place) :
      Wrote tree place content (tree.put place (.file content))

section Writing

variable {tree later : FileTree} {cwd place other : Place} {p : Path} {content : Bytes}

theorem IsClosed.writeBytes_eq_ok_iff (h : tree.IsClosed) :
    tree.writeBytes cwd p content = .ok later ↔
      ∃ place, find tree .write cwd p = .ok place ∧ tree.Wrote place content later := by
  unfold writeBytes
  cases hfind : find tree .write cwd p with
  | error e => simp
  | ok place =>
    have hfree := h.free_or_taken_of_find hfind
    have hlink := h.not_link_of_walk_write (route_ne_nil p) (find_eq_ok_iff.mp hfind).2
    simp only [Except.ok.injEq, exists_eq_left']
    constructor
    · intro hwrite
      cases hentry : tree.get? place with
      | none =>
        obtain hfree | ⟨entry, hsome⟩ := hfree
        · simp only [hentry, make] at hwrite
          split at hwrite <;> cases hwrite
          exact .made hfree (by rwa [List.isPrefixOf_iff_prefix] at *)
        · rw [hentry] at hsome
          cases hsome
      | some entry =>
        simp only [hentry] at hwrite
        cases entry with
        | directory => cases hwrite
        | file old runnable =>
          cases hwrite
          exact .replaced hentry
        | link target => exact absurd hentry (hlink target)
        | device kind =>
          cases kind with
          | null =>
            cases hwrite
            exact .null hentry
          | full =>
            simp only at hwrite
            split at hwrite <;> cases hwrite
            exact .full hentry ‹_›
    · intro hwrote
      cases hwrote with
      | null hdevice => simp [hdevice]
      | full hdevice hcontent => simp [hdevice, hcontent]
      | replaced hfile => simp [hfile]
      | made hfree hplace => simp [hfree.none, make, hplace]

/-- Nothing is written to a path that ends in dots or in a slash. -/
theorem IsClosed.writeBytes_of_dotted (h : tree.IsClosed)
    (hdotted : IsDotted (route p).2) (cwd : Place) (content : Bytes) :
    ∃ reason, tree.writeBytes cwd p content = .error reason := by
  unfold writeBytes
  cases hfind : find tree .write cwd p with
  | error reason => exact ⟨reason, rfl⟩
  | ok place =>
    have hdirectory := h.directory_of_walk_dotted hdotted (find_eq_ok_iff.mp hfind).2
    exact ⟨.system .isDirectory, by simp [hdirectory]⟩

theorem Wrote.get?_of_ne (h : tree.Wrote place content later) (hne : other ≠ place) :
    later.get? other = tree.get? other := by
  cases h with
  | null | full => rfl
  | replaced | made => exact get?_put_of_ne _ _ hne

/-- After a write there is a file with the content, unless a device was written to. -/
theorem Wrote.file_or_device (h : tree.Wrote place content later) :
    (∃ runnable, later.get? place = some (.file content runnable)) ∨
      ∃ kind, tree.get? place = some (.device kind) ∧ later = tree := by
  cases h with
  | null hdevice => exact Or.inr ⟨_, hdevice, rfl⟩
  | full hdevice => exact Or.inr ⟨_, hdevice, rfl⟩
  | @replaced old runnable hfile =>
    have hroot : place ≠ [] := by
      rintro rfl
      cases hfile
    exact Or.inl ⟨runnable, get?_put_self _ hroot⟩
  | made hfree => exact Or.inl ⟨false, get?_put_self _ hfree.ne_nil⟩

theorem Wrote.grows (h : tree.Wrote place content later) : tree.Grows later := by
  intro other entry hentry
  by_cases hne : other = place
  · subst hne
    rcases h.file_or_device with ⟨runnable, hfile⟩ | ⟨kind, -, rfl⟩
    · refine ⟨_, hfile, ?_⟩
      cases h with
      | null hdevice | full hdevice =>
        rw [hdevice] at hfile
        cases hfile
      | replaced hold =>
        rw [hold] at hentry
        cases hentry
        exact .file
      | made hfree =>
        rw [hfree.none] at hentry
        cases hentry
    · exact ⟨entry, hentry, .same⟩
  · exact ⟨entry, by rw [h.get?_of_ne hne, hentry], .same⟩

theorem Wrote.isClosed (h : tree.Wrote place content later) (hclosed : tree.IsClosed) :
    later.IsClosed := by
  cases h with
  | null | full => exact hclosed
  | replaced hfile => exact hclosed.put (hclosed.dropLast hfile) (by simp [hfile])
  | made hfree => exact hclosed.put hfree.above (by simp [hfree.none])

/-- What was written to a path is what the path leads to. -/
theorem Wrote.look (h : tree.Wrote place content later)
    (hfind : tree.find .write cwd p = .ok place) :
    (∃ runnable, later.look cwd p = .ok (place, .file content runnable)) ∨
      ∃ kind, tree.look cwd p = .ok (place, .device kind) ∧ later = tree := by
  obtain ⟨hspelled, hwalk⟩ := find_eq_ok_iff.mp hfind
  have hlook {entry : Entry} (hentry : later.get? place = some entry)
      (hlink : ∀ target, entry ≠ .link target) :
      later.look cwd p = .ok (place, entry) :=
    look_eq_ok_iff.mpr
      ⟨find_eq_ok_iff.mpr ⟨hspelled, walk_of_written h.grows hwalk hentry hlink⟩, hentry⟩
  rcases h.file_or_device with ⟨runnable, hfile⟩ | ⟨kind, hdevice, rfl⟩
  · exact Or.inl ⟨runnable, hlook hfile (by simp)⟩
  · exact Or.inr ⟨kind, hlook hdevice (by simp), rfl⟩

theorem Wrote.eq_of_look (h : tree.Wrote place content later)
    (hfind : tree.find .write cwd p = .ok place) {found : Place} {entry : Entry}
    (hlook : later.look cwd p = .ok (found, entry)) : place = found := by
  rcases h.look hfind with ⟨runnable, hfile⟩ | ⟨kind, hdevice, rfl⟩
  · cases hfile.symm.trans hlook
    rfl
  · cases hdevice.symm.trans hlook
    rfl

theorem readBytes_of_look_file {runnable : Bool}
    (h : tree.look cwd p = .ok (place, .file content runnable)) :
    tree.readBytes cwd p = .ok content := by
  simp only [FileTree.readBytes, h]

theorem readBytes_of_look_device {kind : Device} (h : tree.look cwd p = .ok (place, .device kind)) :
    tree.readBytes cwd p = .ok [] := by
  simp only [FileTree.readBytes, h]

theorem look_of_readBytes (h : tree.readBytes cwd p = .ok content) :
    ∃ place entry, tree.look cwd p = .ok (place, entry) ∧ entry ≠ .directory := by
  unfold FileTree.readBytes at h
  split at h
  · cases h
  · exact ⟨_, _, ‹_›, by simp⟩
  · exact ⟨_, _, ‹_›, by simp⟩
  · cases h

/-- Reading gives what the path leads to, wherever that stands. -/
theorem readBytes_congr {other : FileTree} {q : Path} {spot : Place} {entry : Entry}
    (h : tree.look cwd p = .ok (place, entry)) (h' : other.look cwd q = .ok (spot, entry)) :
    other.readBytes cwd q = tree.readBytes cwd p := by
  unfold FileTree.readBytes
  rw [h, h']
  cases entry <;> rfl

/-- What is written where nothing could be read is read back. -/
theorem IsClosed.readBytes_of_written (h : tree.IsClosed)
    (hold : ∀ old, tree.readBytes cwd p ≠ .ok old)
    (hwrite : tree.writeBytes cwd p content = .ok later) : later.readBytes cwd p = .ok content := by
  obtain ⟨place, hfind, hwrote⟩ := h.writeBytes_eq_ok_iff.mp hwrite
  rcases hwrote.look hfind with ⟨runnable, hfile⟩ | ⟨kind, hdevice, -⟩
  · exact readBytes_of_look_file hfile
  · exact absurd (readBytes_of_look_device hdevice) (hold [])

/-- The later tree has kept what a path leads to. -/
def Keeps (tree later : FileTree) (cwd : Place) (p : Path) : Prop :=
  ∀ place entry, tree.look cwd p = .ok (place, entry) → later.get? place = some entry

theorem Grows.look_of_keeps (h : tree.Grows later) (hkeeps : tree.Keeps later cwd p) {entry : Entry}
    (hlook : tree.look cwd p = .ok (place, entry)) : later.look cwd p = .ok (place, entry) := by
  obtain ⟨now, hnow, -⟩ := h.look hlook
  have hentry := (look_eq_ok_iff.mp hnow).2
  rw [hkeeps place entry hlook] at hentry
  cases hentry
  exact hnow

theorem Grows.readText_of_keeps (h : tree.Grows later) (hkeeps : tree.Keeps later cwd p)
    {text : String} (hread : tree.readText cwd p = .ok text) : later.readText cwd p = .ok text := by
  obtain ⟨place, entry, hlook, -⟩ := look_of_readText hread
  rw [← hread]
  simp only [readText, readBytes_congr hlook (h.look_of_keeps hkeeps hlook)]

/-- Nothing is read from a path that ends in dots or in a slash. -/
theorem IsClosed.readBytes_of_dotted (h : tree.IsClosed) (hdotted : IsDotted (route p).2) :
    tree.readBytes cwd p ≠ .ok content := by
  intro hread
  obtain ⟨place, entry, hlook, hentry⟩ := look_of_readBytes hread
  obtain ⟨hfind, hplace⟩ := look_eq_ok_iff.mp hlook
  exact hentry (h.eq_directory_of_dotted hdotted (find_eq_ok_iff.mp hfind).2 hplace)

theorem exists_look_of_readBytes (h : tree.readBytes cwd p = .ok content)
    (hcontent : content ≠ []) :
    ∃ place runnable, tree.look cwd p = .ok (place, .file content runnable) := by
  unfold FileTree.readBytes at h
  split at h
  · cases h
  · cases h
    exact ⟨_, _, ‹_›⟩
  · cases h
    exact absurd rfl hcontent
  · cases h

end Writing

end ShaderEmbed.FileTree
