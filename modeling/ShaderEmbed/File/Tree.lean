import ShaderEmbed.Text.Utf8

/-!
# File trees

A file tree is a finite map from places to what is there. A place is the list of names that lead to
it from the root; the root itself is always a directory. The operations here know nothing of spelled
paths and links: they look at one place, put something there, or clear a place with everything below
it, and `get?_put`, `get?_clear` say what is seen afterwards. What lies in the same directory is
kept side by side, so that a place is found by its names one by one.
-/

namespace ShaderEmbed

/-- A place in a file tree: the names that lead to it from the root. -/
abbrev Place := List String

/-- The devices that take what is written to them: one forgets it, the other has no room for it.
Nothing is ever read from them. -/
inductive Device where
  | null
  | full
deriving DecidableEq, Repr

/-- What a place holds. A file may be one that can be started. Whether it may be read is not told:
in a tree every file can be. -/
inductive Entry where
  | directory
  | file (content : Bytes) (runnable : Bool := false)
  | link (target : String)
  | device (kind : Device)
deriving DecidableEq, Repr

/-- What lies side by side in a directory: a name with what it stands for, what lies below it, and
the others. A name that stands for nothing is only on the way to something. -/
inductive FileTree where
  | leaf
  | branch (name : String) (entry : Option Entry) (below others : FileTree)
deriving DecidableEq, Repr, Inhabited

namespace FileTree

def empty : FileTree := leaf

/-! ## Looking at a place -/

/-- What a place other than the root holds, if anything. -/
def entryAt : FileTree → Place → Option Entry
  | leaf, _ => none
  | _, [] => none
  | branch name entry below others, first :: rest =>
    if first = name then (if rest = [] then entry else below.entryAt rest) else
      others.entryAt (first :: rest)

def get? (tree : FileTree) (place : Place) : Option Entry :=
  if place = [] then some .directory else tree.entryAt place

@[simp] theorem get?_root (tree : FileTree) : tree.get? [] = some .directory := rfl

def isDirectoryAt (tree : FileTree) (place : Place) : Bool := tree.get? place = some .directory

/-! ## Putting something at a place -/

def single : Place → Entry → FileTree
  | [], _ => leaf
  | name :: rest, entry =>
    if rest = [] then branch name (some entry) leaf leaf else
      branch name none (single rest entry) leaf

def put : FileTree → Place → Entry → FileTree
  | leaf, place, entry => single place entry
  | tree, [], _ => tree
  | branch name old below others, first :: rest, entry =>
    if first = name then
      if rest = [] then branch name (some entry) below others else
        branch name old (below.put rest entry) others
    else branch name old below (others.put (first :: rest) entry)

theorem entryAt_single (place : Place) (entry : Entry) {other : Place} (hroot : other ≠ []) :
    (single place entry).entryAt other = if other = place then some entry else none := by
  induction place generalizing other with
  | nil => simp [single, entryAt, hroot]
  | cons name rest ih =>
    obtain ⟨first, more, rfl⟩ := List.exists_cons_of_ne_nil hroot
    by_cases hrest : rest = []
    · by_cases hname : first = name <;> by_cases hmore : more =
        [] <;> simp [single, entryAt, hrest, hname, hmore]
    · by_cases hname : first = name
      · by_cases hmore : more = []
        · simp [single, entryAt, hrest, hname, hmore, Ne.symm hrest]
        · simp [single, entryAt, hrest, hname, hmore, ih hmore]
      · simp [single, entryAt, hrest, hname]

theorem entryAt_put (tree : FileTree) (place : Place) (entry : Entry)
    {other : Place} (hroot : other ≠ []) :
    (tree.put place entry).entryAt other = if other = place then some entry
      else tree.entryAt other := by
  induction tree generalizing place other with
  | leaf => simp [put, entryAt, entryAt_single place entry hroot]
  | branch name old below others ihBelow ihOthers =>
    obtain ⟨second, more, rfl⟩ := List.exists_cons_of_ne_nil hroot
    cases place with
    | nil => simp [put]
    | cons first rest =>
      by_cases hfirst : first = name
      · by_cases hrest : rest = []
        · by_cases hsecond : second = name <;> by_cases hmore : more = [] <;>
            simp [put, entryAt, hfirst, hrest, hsecond, hmore]
        · by_cases hsecond : second = name
          · by_cases hmore : more = []
            · simp [put, entryAt, hfirst, hrest, hsecond, hmore, Ne.symm hrest]
            · simp [put, entryAt, hfirst, hrest, hsecond, hmore, ihBelow rest hmore]
          · simp [put, entryAt, hfirst, hrest, hsecond]
      · by_cases hsecond : second = name
        · simp [put, entryAt, hfirst, hsecond, Ne.symm hfirst]
        · simp [put, entryAt, hfirst, hsecond, ihOthers (first :: rest) hroot]

/-- What was put at a place is seen there, and every other place is as it was. -/
theorem get?_put (tree : FileTree) (place : Place) (entry : Entry)
    {other : Place} (hroot : other ≠ []) :
    (tree.put place entry).get? other = if other = place then some entry else tree.get? other := by
  simp [get?, hroot, entryAt_put tree place entry hroot]

/-! ## Clearing a place -/

/-- The tree without a place and all that is below it. -/
def clear : FileTree → Place → FileTree
  | leaf, _ => leaf
  | _, [] => leaf
  | branch name entry below others, first :: rest =>
    if first = name then
      -- a second branch of the name would come to light if the others were left as they are
      if rest = [] then others.clear (first :: rest) else
        branch name entry (below.clear rest) others
    else branch name entry below (others.clear (first :: rest))

theorem entryAt_clear (tree : FileTree) (place : Place) {other : Place} (hroot : other ≠ []) :
    (tree.clear place).entryAt other = if place.isPrefixOf other then none
      else tree.entryAt other := by
  induction tree generalizing place other with
  | leaf => simp [clear, entryAt]
  | branch name entry below others ihBelow ihOthers =>
    obtain ⟨second, more, rfl⟩ := List.exists_cons_of_ne_nil hroot
    cases place with
    | nil => simp [clear, entryAt]
    | cons first rest =>
      by_cases hfirst : first = name
      · by_cases hrest : rest = []
        · by_cases hsecond : second = name
          · subst hsecond
            simp [clear, hfirst, hrest, ihOthers [second] hroot]
          · simp [clear, entryAt, hfirst, hrest, hsecond, ihOthers [name] hroot, Ne.symm hsecond]
        · by_cases hsecond : second = name
          · by_cases hmore : more = []
            · simp [clear, entryAt, hfirst, hrest, hsecond, hmore]
            · simp [clear, entryAt, hfirst, hrest, hsecond, hmore, ihBelow rest hmore]
          · simp [clear, entryAt, hfirst, hrest, hsecond, Ne.symm hsecond]
      · by_cases hsecond : second = name
        · simp [clear, entryAt, hfirst, hsecond]
        · simp [clear, entryAt, hfirst, hsecond, ihOthers (first :: rest) hroot]

/-- Nothing is seen at a cleared place or below it, and every other place is as it was. -/
theorem get?_clear (tree : FileTree) (place : Place) {other : Place} (hroot : other ≠ []) :
    (tree.clear place).get? other = if place.isPrefixOf other then none else tree.get? other := by
  simp [get?, hroot, entryAt_clear tree place hroot]

/-! ## All places -/

/-- What a tree holds if its root is at a place, what is above in front of what is below. -/
def entriesFrom (above : Place) : FileTree → List (Place × Entry)
  | leaf => []
  | branch name entry below others =>
    let here := above ++ [name]
    entry.toList.map (here, ·) ++ below.entriesFrom here ++ others.entriesFrom above

/-- All that a tree holds, the root apart. -/
def entries (tree : FileTree) : List (Place × Entry) := tree.entriesFrom []

def places (tree : FileTree) : List Place := tree.entries.map (·.1)

theorem mem_entriesFrom {tree : FileTree} {place : Place} {entry : Entry}
    (h : tree.entryAt place = some entry) (above : Place) :
    (above ++ place, entry) ∈ tree.entriesFrom above := by
  induction tree generalizing above place with
  | leaf => simp [entryAt] at h
  | branch name own below others ihBelow ihOthers =>
    cases place with
    | nil => simp [entryAt] at h
    | cons first rest =>
      by_cases hfirst : first = name
      · by_cases hrest : rest = []
        · simp [entryAt, hfirst, hrest] at h
          simp [entriesFrom, hfirst, hrest, h]
        · simp only [entryAt, hfirst, hrest, if_true, if_false] at h
          have := ihBelow h (above ++ [name])
          simp only [List.append_assoc, List.singleton_append] at this
          simp [entriesFrom, hfirst, this]
      · simp only [entryAt, hfirst, if_false] at h
        simp [entriesFrom, ihOthers h above]

theorem mem_places_of_get? {tree : FileTree} {place : Place} {entry : Entry}
    (h : tree.get? place = some entry) (hroot : place ≠ []) : place ∈ tree.places := by
  simp only [get?, hroot, if_false] at h
  exact List.mem_map.2 ⟨(place, entry), by simpa [entries] using mem_entriesFrom h [], rfl⟩

def branchesAt : FileTree → Place → FileTree
  | tree, [] => tree
  | leaf, _ => leaf
  | branch name _ below others, first :: rest =>
    if first = name then below.branchesAt rest else others.branchesAt (first :: rest)

/-- The names that stand for something side by side. -/
def topNames : FileTree → List String
  | leaf => []
  | branch name entry _ others => if entry.isSome then name :: others.topNames else others.topNames

/-- The names directly below a place, in rising order. -/
def names (tree : FileTree) (place : Place) : List String :=
  (tree.branchesAt place).topNames.mergeSort fun a b => decide (a ≤ b)

end FileTree

end ShaderEmbed
