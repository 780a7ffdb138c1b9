import ShaderEmbed.File.Error
import ShaderEmbed.File.Tree

/-!
# From a path to a place

A path is walked segment by segment from the root or from the working directory. An empty segment or
a dot stays, `..` goes to the directory above, and a link is replaced by the segments of its target,
at most forty times in one walk. Each step needs a directory to stand on. A walk may end where
nothing is yet, provided only slashes follow: what to make of that is left to the operation.
-/

namespace ShaderEmbed

namespace FileTree

def linkLimit : Nat := 40

/-- The longest name, in bytes. -/
def nameLimit : Nat := 255

/-- The longest path, in bytes. -/
def pathLimit : Nat := 4095

/-- What a walk makes of the name at the end of a path. It passes a link there, and slashes behind
the name ask for a directory (`pass`); or it stops at the link unless slashes follow (`stop`); or it
is about the name itself, whatever it stands for and whether slashes follow or not (`name`); or it
is about a file to be written, which passes a link and which no name with slashes behind it can be
(`write`). -/
inductive Ending where
  | pass
  | stop
  | name
  | write
deriving DecidableEq, Repr

/-- Whether a walk ends at a name that has given segments behind it, even if the name is that of a
link. -/
def Ending.isReached (ending : Ending) (rest : List String) : Bool :=
  match ending with
  | .stop => rest = []
  | .name => rest.all (· = "")
  | _ => false

/-- How many bytes spell the path from the root to a place. -/
def pathSize (place : Place) : Nat := place.foldr (fun name size => 1 + name.utf8ByteSize + size) 0

/-- The segments of a path as a walk takes them, and whether they start at the root. -/
def route (p : Path) : Bool × List String :=
  if p.isAbsolute then (true, p.tail) else (false, p.head :: p.tail)

/-- Why a name cannot be asked for at a place, given the segments behind it. -/
def nameFault? (ending : Ending) (limit : Option Nat) (next : Place)
    (name : String) (rest : List String) :
    Option Errno :=
  if ending = .write && rest ≠ [] && rest.all (· = "") then some .isDirectory
  else if nameLimit < name.utf8ByteSize || limit.any (· < pathSize next) then some .nameTooLong
  else none

/-- A name that may be asked for under a limit may be asked for without one. -/
theorem nameFault?_none {ending : Ending} {limit : Option Nat} {next : Place}
    {name : String} {rest : List String} (h : nameFault? ending limit next name rest = none) :
    nameFault? ending none next name rest = none := by
  unfold nameFault? at *
  split at h
  · cases h
  · rename_i hslash
    split at h
    · cases h
    · rename_i hlong
      simp only [Bool.or_eq_true, not_or] at hlong
      rw [if_neg hslash, if_neg (by simpa using hlong.1)]

/-- The place that segments lead to from a place. With a limit, no place counts whose path from the
root is longer. -/
def walk (tree : FileTree) (ending : Ending) (limit : Option Nat) (links : Nat) (here : Place)
    (segments : List String) : Except Errno Place :=
  match segments with
  | [] => .ok here
  | segment :: rest =>
    match tree.get? here with
    | none => .error .noEntry
    | some .directory =>
      if segment = "" || segment = "." then walk tree ending limit links here rest
      -- links on the way were replaced, so this is the directory above the target of a link
      else if segment = ".." then walk tree ending limit links here.dropLast rest
      else
        match nameFault? ending limit (here ++ [segment]) segment rest with
        | some fault => .error fault
        | none =>
          match tree.get? (here ++ [segment]) with
          -- nothing is there yet: that may be the end of the walk, but not a step on the way
          | none => if rest.all (· = "") then .ok (here ++ [segment]) else .error .noEntry
          | some (.link target) =>
            if ending.isReached rest then .ok (here ++ [segment])
            else
              match links with
              | 0 => .error .linkLoop
              | links + 1 =>
                -- a relative target is read from the directory that holds the link
                let (fromRoot, segments) := route ⟨target⟩
                walk tree ending limit links (if fromRoot then [] else here) (segments ++ rest)
          | some _ =>
            if ending.isReached rest then .ok (here ++ [segment])
            else walk tree ending limit links (here ++ [segment]) rest
    | some _ => .error .notDirectory
termination_by (links, segments.length)

/-- The place that a path leads to from a working directory. -/
def find (tree : FileTree) (ending : Ending) (cwd : Place) (p : Path) : Except FileError Place :=
  if p.text.toList.contains '\x00' then .error .zeroInName
  else if p = .empty then .error (.system .noEntry)
  else if pathLimit < p.text.utf8ByteSize then .error (.system .nameTooLong)
  else
    let (fromRoot, segments) := route p
    (walk tree ending none linkLimit (if fromRoot then [] else cwd) segments).mapError .system

/-- A walk that a limit lets through is the walk without a limit. -/
theorem walk_none_of_walk {tree : FileTree} {ending : Ending} {limit : Option Nat} {links : Nat}
    {here place : Place} {segments : List String}
    (h : walk tree ending limit links here segments = .ok place) :
    walk tree ending none links here segments = .ok place := by
  fun_induction walk tree ending limit links here segments with
  | case1 => rw [walk, h]
  | case2 | case5 | case7 | case9 | case13 => cases h
  | case3 links here segment rest hhere hdot ih => simp [walk, hhere, hdot, ih h]
  | case4 links here rest hhere hdot ih => simp [walk, hhere, ih h]
  | case6 links here segment rest hhere hdot hup hfree hnone hlast =>
    rw [← h]
    simp only [walk, hhere, hdot, hup, nameFault?_none hfree, hnone, hlast, if_true,
      Bool.false_eq_true, if_false]
  | case8 links here segment rest hhere hdot hup hfree target hlink hreached =>
    rw [← h]
    simp only [walk, hhere, hdot, hup, nameFault?_none hfree, hlink, hreached, if_true,
      Bool.false_eq_true, if_false]
  | case10 here segment rest hhere hdot hup hfree target hlink hreached links
    fromRoot segments hroute ih =>
    rw [Nat.succ_eq_add_one, walk]
    simp only [hhere, hdot, hup, nameFault?_none hfree, hlink, hreached, hroute,
      Bool.false_eq_true, if_false]
    simpa using ih h
  | case11 links here segment rest hhere hdot hup hfree entry hentry hthere hreached =>
    rw [← h, walk]
    simp only [hhere, hdot, hup, nameFault?_none hfree, hthere, hreached, if_true,
      Bool.false_eq_true, if_false]
  | case12 links here segment rest hhere hdot hup hfree entry hentry hthere hreached ih =>
    rw [← ih h]
    simp only [walk, hhere, hdot, hup, nameFault?_none hfree, hthere, hreached,
      Bool.false_eq_true, if_false]

/-- What a path leads to, if it leads to something. -/
def look (tree : FileTree) (cwd : Place) (p : Path) : Except FileError (Place × Entry) :=
  match find tree .pass cwd p with
  | .error e => .error e
  | .ok place =>
    match tree.get? place with
    | none => .error (.system .noEntry)
    | some entry => .ok (place, entry)

/-- The place of what a path leads to. The path may be of any length, for it is followed name by
name; what has to be short enough is the path from the root to each place on the way. -/
def canonical (tree : FileTree) (cwd : Place) (p : Path) : Except FileError Place :=
  if p.text.toList.contains '\x00' then .error .zeroInName
  else if p = .empty then .error (.system .noEntry)
  else
    let (fromRoot, segments) := route p
    match walk tree .pass (some pathLimit) linkLimit (if fromRoot then [] else cwd) segments with
    | .error e => .error (.system e)
    | .ok place => if (tree.get? place).isSome then .ok place else .error (.system .noEntry)

/-- What a path leads to is what the tree has at the place. -/
theorem get?_of_look {tree : FileTree} {cwd place : Place} {p : Path} {entry : Entry}
    (h : tree.look cwd p = .ok (place, entry)) : tree.get? place = some entry := by
  unfold look at h
  split at h
  · cases h
  · split at h
    · cases h
    · cases h
      assumption

/-- What a path leads to stands at its canonical place. -/
theorem look_of_canonical {tree : FileTree} {cwd place found : Place} {p : Path} {entry : Entry}
    (h : tree.canonical cwd p = .ok place) (hlook : tree.look cwd p = .ok (found, entry)) :
    found = place := by
  have hwalk : walk tree .pass none linkLimit (if (route p).1 then [] else cwd) (route p).2 =
      .ok place := by
    unfold canonical at h
    split at h
    · cases h
    · split at h
      · cases h
      · simp only at h
        split at h
        · cases h
        · rename_i hplace
          split at h
          · cases h
            exact walk_none_of_walk hplace
          · cases h
  unfold look find at hlook
  split at hlook
  · cases hlook
  · rename_i hfind
    split at hlook
    · cases hlook
    · cases hlook
      split at hfind
      · cases hfind
      · split at hfind
        · cases hfind
        · split at hfind
          · cases hfind
          · simp only [hwalk] at hfind
            cases hfind
            rfl

end FileTree

/-- The path from the root to a place. -/
def Path.ofPlace (place : Place) : Path := .ofComponents (.root :: place.map .name)

end ShaderEmbed
