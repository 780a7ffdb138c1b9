import ShaderEmbed.Tool.Grep
import ShaderEmbed.Tool.Printing

/-!
# Filtering

The programs that pass on what they read: a part of it, copies of it, other characters, or how much
it is.
-/

namespace ShaderEmbed.Program

/-- The content of a file, or of the input for a single dash. -/
def contentOf (start : ProgramStart) (file : String) : Except FileError Bytes :=
  if file = "-" then start.input.mapError .system else start.tree.readBytes start.cwd ⟨file⟩

def byteLines (content : Bytes) : List Bytes := (cutAfter '\n' (byteChars content)).map charBytes

/-! ## Parts -/

/-- How much of a content is asked for: a number of bytes or lines, and whether its sign turns the
meaning around. -/
structure Portion where
  ofBytes : Bool
  count : Nat
  turned : Bool

namespace Portion

def units (portion : Portion) (content : Bytes) : List Bytes :=
  if portion.ofBytes then content.map fun b => [b] else byteLines content

/-- The first units, or all but the last ones. -/
def front (portion : Portion) (content : Bytes) : Bytes :=
  let units := portion.units content
  (units.take (if portion.turned then units.length - portion.count else portion.count)).flatten

/-- The last units, or all from a certain one on. -/
def back (portion : Portion) (content : Bytes) : Bytes :=
  let units := portion.units content
  (units.drop (if portion.turned then portion.count - 1 else units.length - portion.count)).flatten

/-- The portion that options ask for; ten lines if they do not. One sign turns the meaning around,
the other is idle. -/
def ofOptions (turning idle : Char) (options : List (Char × String)) : Except String Portion :=
  match options.reverse.find? fun option => option.1 = 'c' || option.1 = 'n' with
  | none => .ok ⟨false, 10, false⟩
  | some (letter, text) =>
    let digits := match text.toList with
      | c :: rest => if c = turning || c = idle then rest else c :: rest
      | [] => []
    if digits.isEmpty || !digits.all Char.isDigit then
      .error ("invalid number of " ++ (if letter = 'c' then "bytes" else "lines") ++
        ": " ++ Shown.plainly text)
    else .ok ⟨letter = 'c', Text.digitsValue 10 digits, text.toList.head? = some turning⟩

end Portion

/-- Shows parts of files, each under its name if that is asked for. The flag tells whether nothing
was shown yet. -/
def showParts (part : Bytes → Bytes) (named : Bool) : Bool → List String → Program
  | _, [] => quit 0
  | first, file :: rest => fun start =>
    let name := if file = "-" then "standard input" else file
    let heading :=
      if named then tell ((if first then "" else "\n") ++ "==> " ++ name ++ " <==\n") else quit 0
    let shown (act : Program) : Program :=
      followedBy heading (followedBy act (showParts part named false rest))
    match contentOf start file with
    | .ok content =>
      shown (fun start => { say (part content) start with drained := file = "-" }) start
    | .error (.system .isDirectory) =>
      shown
        (complain 1 ("error reading " ++ Shown.always name ++ ": " ++ Errno.isDirectory.text)) start
    | .error e =>
      followedBy (complain 1 ("cannot open " ++ Shown.always name ++ " for reading: " ++ reason e))
        (showParts part named first rest) start

/-- Arguments where a number of lines may stand as an option of its own. -/
def withCount (arguments : List String) : List String :=
  match arguments with
  | [] => []
  | argument :: rest =>
    match argument.toList with
    | '-' :: c :: digits =>
      if (c :: digits).all Char.isDigit then "-n" :: String.ofList (c :: digits) :: rest
        else arguments
    | _ => arguments

def excerpt (turning idle : Char) (part : Portion → Bytes → Bytes) : Program := fun start =>
  taking ⟨"qvz", "cn",
    [("bytes", 'c'), ("lines", 'n'), ("quiet", 'q'), ("silent", 'q'), ("verbose", 'v')], false⟩ 1
    (fun options operands =>
      match Portion.ofOptions turning idle options with
      | .error text => complain 1 text
      | .ok portion =>
        let files := if operands.isEmpty then ["-"] else operands
        let named := !has options 'q' && (has options 'v' || 1 < files.length)
        showParts (part portion) named true files)
    { start with arguments := withCount start.arguments }

def head : Program := excerpt '-' '+' Portion.front

def tail : Program := excerpt '+' '-' Portion.back

/-! ## Copies -/

def tee : Program :=
  taking ⟨"aip", "", [("append", 'a'), ("ignore-interrupts", 'i')], false⟩ 1
    fun options operands start =>
    let content := start.input.toOption.getD []
    let write (file : String) : Program := fun start =>
      let old :=
        if has options 'a' then (start.tree.readBytes start.cwd ⟨file⟩).toOption.getD [] else []
      match start.tree.writeBytes start.cwd ⟨file⟩ (old ++ content) with
      | .ok tree => leave tree start
      | .error e => complain 1 (Shown.ifOdd file ++ ": " ++ reason e) start
    let told : Program := match start.input with
      | .ok _ => quit 0
      | .error e => complain 1 ("read error: " ++ e.text)
    { followedBy (each write operands) (followedBy (say content) told) start with drained := true }

/-! ## Other characters -/

/-- A text with its escapes read. Each character is told apart by whether it was written as
itself. -/
def unescaped : Nat → List Char → List (Char × Bool)
  | 0, _ => []
  | _, [] => []
  | _, ['\\'] => [('\\', false)]
  | n + 1, '\\' :: c :: rest =>
    if Text.isDigitIn 8 c then
      let (bytes, after) := octalEscape (c :: rest)
      (byteChars bytes).map (·, false) ++ unescaped n after
    else
      match escapeBytes (c :: rest) with
      | ([b], after) => (Char.ofNat b.toNat, false) :: unescaped n after
      | _ => (c, false) :: unescaped n rest
  | n + 1, c :: rest => (c, true) :: unescaped n rest

def everyChar : List Char := (List.range 256).map Char.ofNat

/-- The characters of a set: ranges, named classes and single characters. -/
def setChars : Nat → List (Char × Bool) → Except String (List Char)
  | 0, _ => .ok []
  | _, [] => .ok []
  | n + 1, ('[', true) :: (':', true) :: rest =>
    let name := String.ofList ((rest.map (·.1)).takeWhile (· ≠ ':'))
    match rest.drop name.length with
    | (':', true) :: (']', true) :: after =>
      match everyChar.filter
        (Text.CharSet.mk (Text.CharSet.classRanges name) false false).contains with
      | [] => .error ("invalid character class " ++ Shown.plainly name)
      | chars => (setChars n after).map (chars ++ ·)
    | _ => (setChars n ((':', true) :: rest)).map ('[' :: ·)
  | n + 1, (low, _) :: ('-', true) :: (high, _) :: rest =>
    if high < low then
      .error ("range-endpoints of " ++ Shown.plainly (String.ofList [low, '-', high]) ++
        " are in reverse collating sequence order")
    else (setChars n rest).map
      ((List.range' low.toNat (high.toNat + 1 - low.toNat)).map Char.ofNat ++ ·)
  | n + 1, (c, _) :: rest => (setChars n rest).map (c :: ·)

def readSet (text : String) : Except String (List Char) :=
  let chars := unescaped (text.utf8ByteSize + 1) (byteChars (Text.encode text))
  setChars (chars.length + 1) chars

/-- A text where a character of a set that follows itself is left out. -/
def squeezed (set : List Char) : List Char → List Char
  | a :: b :: rest =>
    if a = b && set.contains a then squeezed set (b :: rest) else a :: squeezed set (b :: rest)
  | short => short

/-- A list up to a length; the last element stands for those that are missing. -/
def paddedTo (length : Nat) (chars : List Char) : List Char :=
  chars ++ List.replicate (length - chars.length) (chars.getLastD ' ')

/-- What becomes of a text: characters of the first set are deleted, or become those of the second
one, and what follows itself is squeezed. -/
def transcribed (options : List (Char × String)) (first : List Char) (second? : Option (List Char))
    (text : List Char) : List Char :=
  let first := if has options 'c' || has options 'C' then
    everyChar.filter fun c => !first.contains c else first
  let deletes := has options 'd'
  let table := match second? with
    | some second =>
      if has options 't' then first.zip second else first.zip (paddedTo first.length second)
    | none => []
  let changed :=
    if deletes then text.filter fun c => !first.contains c
    else text.map fun c => (table.reverse.lookup c).getD c
  if has options 's' then squeezed (second?.getD first) changed else changed

def tr : Program :=
  taking ⟨"cCdst", "",
    [("complement", 'c'), ("delete", 'd'), ("squeeze-repeats", 's'), ("truncate-set1", 't')], true⟩
    1 fun options operands start =>
      let deletes := has options 'd'
      let squeezes := has options 's'
      let least := if deletes = squeezes then 2 else 1
      let most := if deletes && !squeezes then 1 else 2
      let sets : Except String (List Char × Option (List Char)) := do
        let first ← readSet (operands.headD "")
        let second? ← (operands[1]?).mapM readSet
        if !deletes && !has options 't' && second? = some [] && !first.isEmpty then
          throw "when not truncating set1, string2 must be non-empty"
        return (first, second?)
      if operands.isEmpty then misuse 1 "missing operand" start
      else if operands.length < least then
        misuse 1 ("missing operand after " ++ Shown.plainly (operands.getLastD "") ++
          "\nTwo strings must be given when " ++
          if squeezes then "both deleting and squeezing repeats." else "translating.") start
      else if most < operands.length then
        misuse 1 ("extra operand " ++ Shown.plainly (operands.getD most "") ++
          if operands.length = 2
            then "\nOnly one string may be given when deleting without squeezing repeats." else "")
          start
      else
        match sets, start.input with
        | .error text, _ => complain 1 text start
        | _, .error e => complain 1 ("read error: " ++ e.text) start
        | .ok (first, second?), .ok content =>
          let output := charBytes (transcribed options first second? (byteChars content))
          { say output start with drained := true }

/-! ## Amounts -/

/-- How many runs of other characters blanks cut a text into. -/
def wordCount (text : List Char) : Nat :=
  let isBlank (c : Char) : Bool := c = ' ' || '\t' ≤ c && c ≤ '\r'
  (((' ' :: text).zip text).filter fun (before, c) => isBlank before && !isBlank c).length

/-- How many lines, words and bytes a content has, as far as options ask. -/
def amounts (options : List (Char × String)) (content : Bytes) : List Nat :=
  let letters := if options.isEmpty then ['l', 'w', 'c'] else options.map (·.1)
  let text := byteChars content
  let all := [('l', text.count '\n'), ('w', wordCount text), ('m', text.length), ('c', text.length)]
  (all.filter fun amount => letters.contains amount.1).map (·.2)

def amountLine (width : Nat) (amounts : List Nat) (name : String) : String :=
  let column (n : Nat) : String :=
    let digits := toString n
    String.ofList (List.replicate (width - digits.length) ' ') ++ digits
  " ".intercalate (amounts.map column) ++ (if name = "" then "" else " " ++ name) ++ "\n"

/-- The width of the columns: that of the size of all files together, and more if something else is
among them. -/
def amountWidth (start : ProgramStart) (files : List String) : Nat :=
  let looked := files.filterMap fun file =>
    if file = "-" then some none
    else
      match start.tree.look start.cwd ⟨file⟩ with
      | .ok (_, .file content _) => some (some content.length)
      | .ok _ => some none
      | .error _ => none
  let size := (toString (looked.foldl (fun size found => size + found.getD 0) 0)).length
  if looked.contains none then max 7 size else size

def wc : Program :=
  taking ⟨"clmw", "", [("bytes", 'c'), ("chars", 'm'), ("lines", 'l'), ("words", 'w')], false⟩ 1
    fun options operands start =>
      let files := if operands.isEmpty then ["-"] else operands
      let isOne := files.length = 1 && (amounts options []).length = 1
      let width := if isOne then 1 else amountWidth start files
      let written (content : Bytes) (name : String) : Program :=
        tell (amountLine width (amounts options content) name)
      let one (file : String) : Program := fun start =>
        let name := if operands.isEmpty then "" else file
        match contentOf start file with
        | .ok content => { written content name start with drained := file = "-" }
        | .error e =>
          if file = "" then complain 1 "invalid zero-length file name" start
          else
            let told := complain 1 (Shown.ifOdd file ++ ": " ++ reason e)
            if e = .system .isDirectory then followedBy told (written [] name) start else told start
      let sums := files.map fun file => amounts options ((contentOf start file).toOption.getD [])
      let total := sums.foldl (List.zipWith (· + ·)) ((amounts options []).map fun _ => 0)
      followedBy (each one files)
        (if 1 < files.length then tell (amountLine width total "total") else quit 0) start

end ShaderEmbed.Program
