import ShaderEmbed.Error
import ShaderEmbed.File.Access
import ShaderEmbed.Lookup
import ShaderEmbed.Path.Normal

/-!
# Where fragments come from

A source reads the fragments of a shader tree and tells which paths name the same fragment: it gives
each path an *identity*, and two spellings of one fragment have one identity. A source has finitely
many fragments; the list of their identities belongs to it, and is what makes the expansion of
includes come to an end.

Two sources are given here: fragments held in memory, and the files below a directory.
-/

namespace ShaderEmbed

/-- The identity of a fragment. -/
abbrev Identity := List Component

/-- Read access to the fragments of a shader tree. -/
structure FragmentSource where
  /-- The text of the fragment at a path. -/
  read : Path → Except ShaderError String
  /-- The identity of the fragment at a path. -/
  identity : Path → Except ShaderError Identity
  /-- The identities of the fragments that can be read. -/
  identities : List Identity
  /-- A fragment that can be read has a listed identity. -/
  identity_mem : ∀ {p id text}, identity p = .ok id → read p = .ok text → id ∈ identities

/-- Fragments held in memory, each at its lexical place. -/
structure FragmentMap where
  entries : List (Identity × String)
deriving DecidableEq, Repr, Inhabited

namespace FragmentMap

def empty : FragmentMap := ⟨[]⟩

/-- Adds a fragment, or replaces the one at the same place. -/
def insert (fragments : FragmentMap) (p : Path) (text : String) : FragmentMap :=
  ⟨(p.place, text) :: fragments.entries.filter (·.1 ≠ p.place)⟩

/-- The fragments of a list of paths and texts, later ones replacing earlier ones. -/
def ofList (fragments : List (Path × String)) : FragmentMap :=
  fragments.foldl (fun held fragment => held.insert fragment.1 fragment.2) empty

/-- The text at a path, under any spelling. -/
def get? (fragments : FragmentMap) (p : Path) : Option String := fragments.entries.lookup p.place

def size (fragments : FragmentMap) : Nat := fragments.entries.length

/-- A fragment that was added is found at its place, and every other place is as it was. -/
theorem get?_insert (fragments : FragmentMap) (p q : Path) (text : String) :
    (fragments.insert p text).get? q = if q.place = p.place then some text
      else fragments.get? q := by
  by_cases h : q.place = p.place
  · simp [get?, insert, h]
  · have hne : (q.place == p.place) = false := by simpa using h
    have hkept := lookup_filter_keys (fun key => decide (key ≠ p.place)) q.place fragments.entries
    simp only [get?, insert, List.lookup_cons, hne, h]
    simpa [h] using hkept

/-- Fragments in memory as a source: a path is its lexical place, and nothing else is consulted. -/
def source (fragments : FragmentMap) : FragmentSource where
  read p :=
    match fragments.get? p with
    | some text => .ok text
    | none => .error (.notFound p)
  identity p := .ok p.place
  identities := fragments.entries.map (·.1)
  identity_mem {p id text} hid hread := by
    cases hid
    split at hread
    · exact mem_keys_of_lookup (by assumption)
    · cases hread

end FragmentMap

/-- Why the file of a fragment could not be used: nothing there is a missing fragment. -/
def ShaderError.ofFile (p : Path) (reason : FileError) : ShaderError :=
  if reason.isMissing then .notFound p else .read p reason

/-- A result that is no failure in other words is none in its own. -/
theorem eq_ok_of_mapError {ε δ α : Type} {x : Except ε α} {f : ε → δ} {a : α}
    (h : x.mapError f = .ok a) :
    x = .ok a := by
  cases x with
  | error e => cases h
  | ok b => cases h; rfl

/-- A mapped result comes from a result. -/
theorem exists_of_map_eq_ok {ε α β : Type} {x : Except ε α} {f : α → β}
    {b : β} (h : x.map f = .ok b) :
    ∃ a, x = .ok a ∧ f a = b := by
  cases x with
  | error e => cases h
  | ok a => exact ⟨a, rfl, by cases h; rfl⟩

namespace FileTree

/-- What can be read is no directory. -/
theorem look_of_readText {tree : FileTree} {cwd : Place} {p : Path} {text : String}
    (h : tree.readText cwd p = .ok text) :
    ∃ place entry, tree.look cwd p = .ok (place, entry) ∧ entry ≠ .directory := by
  unfold readText readBytes at h
  split at h
  · cases h
  · rename_i hbytes
    split at hbytes
    · cases hbytes
    · exact ⟨_, _, by assumption, by simp⟩
    · exact ⟨_, _, by assumption, by simp⟩
    · cases hbytes

end FileTree

/-- The files below a directory as a source: the identity of a fragment is the place of its file. -/
def FragmentSource.ofDirectory (tree : FileTree) (cwd : Place) (root : Path) : FragmentSource where
  read p := (tree.readText cwd (root.join p)).mapError (.ofFile p)
  identity p :=
    ((tree.canonical cwd (root.join p)).map fun place => (Path.ofPlace place).components).mapError
      (.ofFile p)
  identities := tree.places.map fun place => (Path.ofPlace place).components
  identity_mem {p id text} hid hread := by
    obtain ⟨place, hplace, rfl⟩ := exists_of_map_eq_ok (eq_ok_of_mapError hid)
    obtain ⟨found, entry, hlook, hentry⟩ := FileTree.look_of_readText (eq_ok_of_mapError hread)
    obtain rfl := FileTree.look_of_canonical hplace hlook
    have hget := FileTree.get?_of_look hlook
    refine List.mem_map.2 ⟨found, FileTree.mem_places_of_get? hget ?_, rfl⟩
    rintro rfl
    exact hentry (by simpa using hget.symm)

end ShaderEmbed
