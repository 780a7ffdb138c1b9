import ShaderEmbed.Tool.Copying
import ShaderEmbed.Tool.Filtering

/-!
# Sorting

The programs that tell lines and names in order.
-/

namespace ShaderEmbed.Program

/-! ## Lines -/

/-- The decimal number that a line starts with, as a whole number and the count of its decimal
places. -/
def leadingNumber (line : List Char) : Int × Nat :=
  let text := line.dropWhile fun c => c = ' ' || c = '\t'
  let (negative, text) := match text with
    | '-' :: rest => (true, rest)
    | _ => (false, text)
  let whole := text.takeWhile Char.isDigit
  let places := match text.drop whole.length with
    | '.' :: rest => rest.takeWhile Char.isDigit
    | _ => []
  let value : Int := Text.digitsValue 10 (whole ++ places)
  (if negative then -value else value, places.length)

/-- How two decimal numbers compare. -/
def compareNumbers (first second : Int × Nat) : Ordering :=
  let scale (places : Nat) : Int := Nat.pow 10 places
  compare (first.1 * scale second.2) (second.1 * scale first.2)

/-- How two lines compare by what options ask to look at. -/
def compareKeys (options : List (Char × String)) (first second : List Char) : Ordering :=
  let key (line : List Char) : List Char :=
    let line := if has options 'b' then line.dropWhile (fun c => c = ' ' || c = '\t') else line
    if has options 'f' then line.map Char.toUpper else line
  if has options 'n' then compareNumbers (leadingNumber first) (leadingNumber second)
  else compareOfLessAndEq (key first) (key second)

/-- Whether a line may stand in front of another. Lines that compare alike are told apart by all of
their bytes, unless one of them is as good as the other. -/
def mayPrecede (options : List (Char × String)) (first second : List Char) : Bool :=
  let order := compareKeys options first second
  let order := if has options 'u' || has options 's' then order else
    order.then (compareOfLessAndEq first second)
  (if has options 'r' then order.swap else order) ≠ .gt

/-- Lines where one that compares like the one before it is left out. -/
def withoutRepeats (options : List (Char × String)) : List (List Char) → List (List Char)
  | first :: second :: rest =>
    let others := withoutRepeats options (second :: rest)
    if compareKeys options first second = .eq then first :: others.drop 1 else first :: others
  | short => short

def sortedBytes (options : List (Char × String)) (content : Bytes) : Bytes :=
  let lines := (cutAfter '\n' (byteChars content)).map (List.takeWhile (· ≠ '\n'))
  let sorted := lines.mergeSort (mayPrecede options)
  charBytes
    ((if has options 'u' then withoutRepeats options sorted else sorted).flatMap (· ++ ['\n']))

def sort : Program :=
  taking ⟨"bdfghimnrsuVz", "oST",
    [("reverse", 'r'), ("unique", 'u'), ("numeric-sort", 'n'), ("ignore-case", 'f'),
    ("stable", 's'), ("output", 'o')], false⟩ 2 fun options operands start =>
    let files := if operands.isEmpty then ["-"] else operands
    let outputs := (options.filter (·.1 = 'o')).map (·.2)
    let opened (file : String) : Except String FileTree :=
      let old := (start.tree.readBytes start.cwd ⟨file⟩).toOption.getD []
      (start.tree.writeBytes start.cwd ⟨file⟩ old).mapError fun e =>
        "open failed: " ++ Shown.ifOdd file ++ ": " ++ reason e
    let missing := files.findSome? fun file =>
      if file = "-" then none
      else
        match start.tree.look start.cwd ⟨file⟩ with
        | .ok _ => none
        | .error e => some ("cannot read: " ++ Shown.ifOdd file ++ ": " ++ reason e)
    let contents : Except String (List Bytes) := files.mapM fun file =>
      (contentOf start file).mapError fun e =>
        "read failed: " ++ Shown.ifOdd file ++ ": " ++ reason e
    if (outputs.filter fun output => some output ≠ outputs.head?) ≠ [] then
      complain 2 "multiple output files specified" start
    else
      match missing, (outputs.head?).mapM opened with
      | some text, _ => complain 2 text start
      | none, .error text => complain 2 text start
      | none, .ok tree? =>
        match contents with
        | .error text => followedBy (leave (tree?.getD start.tree)) (complain 2 text) start
        | .ok contents =>
          let output := sortedBytes options (contents.flatMap fun content =>
            if content.getLastD 10 = 10 then content else content ++ [10])
          match outputs.head? with
          | none => { say output start with drained := files.contains "-" }
          | some file =>
            match start.tree.writeBytes start.cwd ⟨file⟩ output with
            | .ok tree => leave tree start
            | .error e =>
              complain 2 ("write failed: " ++ Shown.ifOdd file ++ ": " ++ reason e) start

/-! ## Names -/

/-- A name with a sign behind it for what it stands for, if that is asked for. -/
def classified (options : List (Char × String)) (name : String) (entry : Option Entry) : String :=
  let all := has options 'F'
  name ++ match entry with
    | some .directory => if all || has options 'p' then "/" else ""
    | some (.link _) => if all then "@" else ""
    | some (.file _ true) => if all then "*" else ""
    | _ => ""

def sortedNames (options : List (Char × String)) (names : List String) : List String :=
  let sorted := names.mergeSort fun first second => !(second < first)
  if has options 'r' then sorted.reverse else sorted

def listedNames (options : List (Char × String)) (tree : FileTree) (place : Place) : List String :=
  let isHidden (name : String) : Bool := ".".toList.isPrefixOf name.toList
  let own := (tree.names place).filter fun name =>
    has options 'a' || has options 'A' || !isHidden name
  let names := sortedNames options (own ++ if has options 'a' then [".", ".."] else [])
  names.map fun name =>
    classified options name (if name = "." || name = ".." then some .directory else
      tree.get? (place ++ [name]))

/-- Tells the names in directories, and those of other files. Owners, sizes and times are not known,
so the long form is the short one. -/
def ls : Program :=
  taking ⟨"1abcdfghiklmnopqrstuvxABCDFGHLNQRSUXZ", "ITw",
    [("all", 'a'), ("almost-all", 'A'), ("directory", 'd'), ("classify", 'F'), ("reverse", 'r')],
      false⟩ 2 fun options operands start =>
    let files := if operands.isEmpty then ["."] else operands
    let asItself := ['d', 'l', 'o', 'g', 'F'].any (has options)
    let found (file : String) : Except FileError (Place × Entry) :=
      match start.tree.look start.cwd ⟨file⟩ with
      | .ok (place, .directory) =>
        if asItself then statName start ⟨file⟩ else .ok (place, .directory)
      | _ => statName start ⟨file⟩
    let isListed (file : String) : Bool :=
      match found file with
      | .ok (_, .directory) => !has options 'd'
      | _ => false
    let isPlain (file : String) : Bool := (found file).isOk && !isListed file
    let missing (file : String) : Program := fun start =>
      match found file with
      | .ok _ => quit 0 start
      | .error e => complain 2 ("cannot access " ++ Shown.always file ++ ": " ++ reason e) start
    let plain := (sortedNames options (files.filter isPlain)).map fun file =>
      classified options file ((found file).toOption.map (·.2)) ++ "\n"
    let listing (file : String) : String :=
      let place := ((found file).toOption.map (·.1)).getD []
      (if 1 < files.length then file ++ ":\n" else "") ++
        String.join ((listedNames options start.tree place).map (· ++ "\n"))
    let listings := (sortedNames options (files.filter isListed)).map listing
    let blocks := (if plain.isEmpty then [] else [String.join plain]) ++ listings
    followedBy (each missing files) (tell ("\n".intercalate blocks)) start

end ShaderEmbed.Program
