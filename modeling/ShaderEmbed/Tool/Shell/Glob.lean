import ShaderEmbed.File.Walk
import ShaderEmbed.Text.Pattern

/-!
# Patterns of scripts

In the patterns of scripts a star stands for any text, a question mark for any character, and
brackets for one of some characters, unless they are quoted. Such a pattern picks names in
directories, and parts of values.
-/

namespace ShaderEmbed.Shell

open Text

/-- A character of an expanded word. -/
structure Letter where
  char : Char
  quoted : Bool

def lettersText (letters : List Letter) : String := String.ofList (letters.map Letter.char)

def lettersOf (quoted : Bool) (text : List Char) : List Letter := text.map fun c => ⟨c, quoted⟩

/-- The pattern that some letters spell. The number bounds them. -/
def globPattern : Nat → List Letter → Pattern
  | 0, _ => .nothing
  | _, [] => .nothing
  | n + 1, letter :: rest =>
    let itself := Pattern.chain (.one (.single letter.char)) (globPattern n rest)
    if letter.quoted then itself
    else
      match letter.char with
      | '*' => .chain .anything (globPattern n rest)
      | '?' => .chain (.one .all) (globPattern n rest)
      | '[' =>
        match CharSet.ofBrackets (fun c => c = '!' || c = '^') (rest.map Letter.char) with
        | some (set, after) =>
          .chain (.one set) (globPattern n (rest.drop (rest.length - after.length)))
        | none => itself
      | '\\' =>
        match rest with
        | next :: rest => .chain (.one (.single next.char)) (globPattern n rest)
        | [] => itself
      | _ => itself

def patternOf (letters : List Letter) : Pattern := globPattern letters.length letters

/-- Whether some letters spell more than a text. -/
def isGlob (letters : List Letter) : Bool :=
  letters.any fun letter => !letter.quoted && "*?[".toList.contains letter.char

/-- A value without a part that fits at its start or at its end, the shortest such part or the
longest one. -/
def trimValue (operator : String) (pattern : Pattern) (value : List Char) : List Char :=
  let cuts := List.range (value.length + 1)
  let atStart (k : Nat) : Bool := pattern.fits (value.take k)
  let atEnd (k : Nat) : Bool := pattern.fits (value.drop k)
  match operator with
  | "#" => value.drop ((cuts.find? atStart).getD 0)
  | "##" => value.drop ((cuts.reverse.find? atStart).getD 0)
  | "%" => value.take ((cuts.reverse.find? atEnd).getD value.length)
  | _ => value.take ((cuts.find? atEnd).getD value.length)

def letterSegments : List Letter → List (List Letter)
  | [] => [[]]
  | letter :: rest =>
    match letterSegments rest with
    | [] => [[letter]]
    | first :: others =>
      if letter.char = '/' then [] :: first :: others else (letter :: first) :: others

/-- The names in a directory that fit. A name that starts with a dot has to be asked for. -/
def fittingNames (tree : FileTree) (cwd : Place) (above : String)
    (letters : List Letter) : List String :=
  match tree.look cwd ⟨if above = "" then "." else above⟩ with
  | .ok (place, .directory) =>
    ("." :: ".." :: tree.names place).filter fun name =>
      let isHidden := ".".toList.isPrefixOf name.toList
      (patternOf letters).fits name.toList &&
      (!isHidden || letters.head?.map Letter.char = some '.')
  | _ => []

/-- The paths that fit, given the part above that has been settled. -/
def fittingPaths (tree : FileTree) (cwd : Place) : String → List (List Letter) → List String
  | above, [] => [above]
  | above, letters :: rest =>
    let slash := if rest.isEmpty then "" else "/"
    if isGlob letters then
      (fittingNames tree cwd above letters).flatMap fun name =>
        fittingPaths tree cwd (above ++ name ++ slash) rest
    else fittingPaths tree cwd (above ++ lettersText letters ++ slash) rest

/-- The paths that a field stands for; one that fits no path stands for itself. -/
def pathsOf (tree : FileTree) (cwd : Place) (letters : List Letter) : List String :=
  if isGlob letters then
    let found := (fittingPaths tree cwd "" (letterSegments letters)).filter fun path =>
      (tree.find .stop cwd ⟨path⟩).toOption.any fun place => (tree.get? place).isSome
    if found.isEmpty then [lettersText letters] else found
  else [lettersText letters]

end ShaderEmbed.Shell
