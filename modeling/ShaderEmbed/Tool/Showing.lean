import ShaderEmbed.Tool.Program

/-!
# Showing

The programs that show what is in files, and the parts of names.
-/

namespace ShaderEmbed.Program

/-! ## The content of files -/

/-- How lines are shown: which of them are numbered, whether empty lines that follow one another are
shown once, and which bytes are shown by signs. -/
structure LineStyle where
  numbered : Bool
  numbersFilled : Bool
  squeezed : Bool
  ends : Bool
  tabs : Bool
  visible : Bool

/-- Where a showing stands: the number of the last numbered line, how many line ends came last, and
whether a line has been started. -/
structure LinePlace where
  number : Nat
  ends : Nat
  started : Bool

/-- A byte by signs that are visible: a caret for control characters, `M-` for bytes beyond
ASCII. -/
def visibleByte (b : UInt8) : Bytes :=
  let low (b : UInt8) : Bytes := if b < 32 then [94, b + 64] else if b = 127 then [94, 63] else [b]
  if b < 128 then low b else [77, 45] ++ low (b - 128)

def lineNumber (n : Nat) : Bytes :=
  let digits := toString n
  Text.encode (String.ofList (List.replicate (6 - digits.length) ' ') ++ digits ++ "\t")

def showBytes (style : LineStyle) : LinePlace → Bytes → Bytes × LinePlace
  | place, [] => ([], place)
  | place, b :: rest =>
    if b = 10 then
      let isEmpty := !place.started
      if style.squeezed && isEmpty && 2 ≤ place.ends then showBytes style place rest
      else
        let counted := isEmpty && style.numbered && !style.numbersFilled
        let number := if counted then place.number + 1 else place.number
        let (others, last) := showBytes style ⟨number, place.ends + 1, false⟩ rest
        ((if counted then lineNumber number else []) ++ (if style.ends then [36] else []) ++
          10 :: others, last)
    else
      let counted := !place.started && style.numbered
      let number := if counted then place.number + 1 else place.number
      let shown :=
        if b = 9 then (if style.tabs then [94, 73] else [9])
          else if style.visible then visibleByte b else [b]
      let (others, last) := showBytes style ⟨number, 0, true⟩ rest
      ((if counted then lineNumber number else []) ++ shown ++ others, last)

/-- Shows files one after the other. A single dash, or no file at all, is the input. -/
def showFiles (style : LineStyle) : LinePlace → List String → Program
  | _, [] => quit 0
  | place, file :: rest => fun start =>
    let shown (isInput : Bool) (bytes : Bytes) : Program :=
      let (output, next) := showBytes style place bytes
      followedBy (fun start => { say output start with drained := isInput })
        (showFiles style next rest)
    let isInput := file = "-"
    match if isInput then start.input.mapError .system else
      start.tree.readBytes start.cwd ⟨file⟩ with
    | .ok bytes => shown isInput bytes start
    | .error e =>
      followedBy (complain 1 (Shown.ifOdd file ++ ": " ++ reason e))
        (showFiles style place rest) start

/-- Shows the content of files. An input that is closed cannot be closed once more. -/
def cat : Program :=
  taking ⟨"bnsuetvAET", "",
    [("number", 'n'), ("number-nonblank", 'b'), ("squeeze-blank", 's'), ("show-ends", 'E'),
    ("show-tabs", 'T'), ("show-nonprinting", 'v'), ("show-all", 'A')], false⟩ 1
      fun options operands start =>
    let any (letters : List Char) : Bool := letters.any (has options)
    let style : LineStyle :=
      ⟨any ['n', 'b'], any ['b'], any ['s'], any ['E', 'e', 'A'], any ['T', 't', 'A'],
        any ['v', 'e', 't', 'A']⟩
    let files := if operands.isEmpty then ["-"] else operands
    let shown := showFiles style ⟨0, 1, false⟩ files
    match start.input with
    | .ok _ => shown start
    | .error e =>
      if e = .badStream && files.contains "-" then
        followedBy shown (complain 1 ("closing standard input: " ++ e.text)) start
      else shown start

/-! ## The parts of names -/

/-- A path without the slashes behind it; a path of slashes is one slash. -/
def trimSlashes (path : String) : List Char :=
  match (path.toList.reverse.dropWhile (· = '/')).reverse with
  | [] => if path = "" then [] else ['/']
  | kept => kept

/-- The last name of a path without a given ending. -/
def baseName (path ending : String) : String :=
  let trimmed := trimSlashes path
  let name := if trimmed = ['/'] then trimmed else (trimmed.reverse.takeWhile (· ≠ '/')).reverse
  if ending.toList.isSuffixOf name && ending.toList ≠ name then
    String.ofList (name.take (name.length - ending.toList.length))
  else String.ofList name

def directoryName (path : String) : String :=
  let before := ((trimSlashes path).reverse.dropWhile (· ≠ '/')).reverse
  if before.isEmpty then "." else String.ofList (trimSlashes (String.ofList before))

def basename : Program :=
  taking ⟨"az", "s", [("multiple", 'a'), ("suffix", 's'), ("zero", 'z')], true⟩ 1
    fun options operands start =>
    let ended := if has options 'z' then "\x00" else "\n"
    match operands with
    | [] => misuse 1 "missing operand" start
    | path :: rest =>
      if has options 'a' || has options 's' then
        each (fun path => tell (baseName path ((options.lookup 's').getD "") ++ ended))
          operands start
      else
        match rest with
        | [] => tell (baseName path "" ++ ended) start
        | [ending] => tell (baseName path ending ++ ended) start
        | _ :: extra :: _ => misuse 1 ("extra operand " ++ Shown.plainly extra) start

def dirname : Program :=
  taking ⟨"z", "", [("zero", 'z')], false⟩ 1 fun options operands start =>
    if operands.isEmpty then misuse 1 "missing operand" start
    else each (fun path => tell (directoryName path ++ if has options 'z' then "\x00" else "\n"))
      operands start

/-! ## Waiting and starting -/

/-- Whether a text is a length of time: a decimal number and perhaps a unit. -/
def isInterval (text : String) : Bool :=
  let digits := match text.toList.reverse with
    | unit :: rest => if "smhd".toList.contains unit then rest.reverse else text.toList
    | [] => []
  let whole := digits.takeWhile Char.isDigit
  match digits.dropWhile Char.isDigit with
  | [] => !whole.isEmpty
  | '.' :: fraction => fraction.all Char.isDigit && !(whole.isEmpty && fraction.isEmpty)
  | _ => false

def sleep : Program :=
  taking ⟨"", "", [], false⟩ 1 fun _ operands start =>
    if operands.isEmpty then misuse 1 "missing operand" start
    else
      match operands.filter fun operand => !isInterval operand with
      | [] => quit 0 start
      | wrong =>
        warn 1 (String.join (wrong.map fun text =>
            start.name ++ ": invalid time interval " ++ Shown.plainly text ++ "\n") ++
          "Try '" ++ start.name ++ " --help' for more information.\n") start

/-- Complains about a program that it cannot start; without one there is nothing to be done. -/
def env : Program :=
  taking ⟨"i0v", "uCS", [("ignore-environment", 'i'), ("null", '0'), ("unset", 'u')],
    true⟩ 125 fun _ operands =>
    match operands.filter fun operand => !operand.toList.contains '=' with
    | [] => quit 0
    | name :: _ => complain 127 (Shown.always name ++ ": " ++ Errno.noEntry.text)

end ShaderEmbed.Program
