import ShaderEmbed.Tool.Program

/-!
# Testing conditions

A condition is a list of words: questions about files and texts, comparisons, and their negations
and combinations. Three words whose middle one compares are a comparison, whatever the others are.
-/

namespace ShaderEmbed.Program

/-- What a word can be in a condition. -/
inductive ConditionSign where
  | unary
  | binary
  | negation
  | both
  | either
  | opening
  | closing
deriving DecidableEq

def unarySigns : List String :=
  ["-r", "-w", "-x", "-e", "-f", "-d", "-c", "-b", "-p", "-u", "-g", "-k", "-s", "-t",
    "-z", "-n", "-h", "-L", "-O", "-G", "-S"]

def binarySigns : List String :=
  ["=", "!=", "<", ">", "-eq", "-ne", "-ge", "-gt", "-le", "-lt", "-nt", "-ot", "-ef"]

def conditionSign? (word : String) : Option ConditionSign :=
  if unarySigns.contains word then some .unary
  else if binarySigns.contains word then some .binary
  else [("!", .negation), ("-a", .both), ("-o", .either), ("(", .opening),
    (")", .closing)].lookup word

/-- What the first of some words is. A question with nothing to be asked about is a text. -/
def leadingSign : List String → Option ConditionSign
  | [] => none
  | [word] => (conditionSign? word).filter fun sign => sign ≠ .unary && sign ≠ .opening
  | [word, _] => conditionSign? word
  | word :: next :: _ =>
    (conditionSign? word).filter fun sign => sign ≠ .unary || conditionSign? next ≠ some .binary

/-- The answer to a question about a file or a text. -/
def askUnary (start : ProgramStart) (question argument : String) : Bool :=
  let path : Path := ⟨argument⟩
  let there := (start.tree.look start.cwd path).isOk
  match question with
  | "-n" => argument ≠ ""
  | "-z" => argument = ""
  | "-e" => there
  | "-r" => there
  | "-w" => there
  | "-O" => there
  | "-G" => there
  | "-f" => start.tree.isFile start.cwd path
  | "-d" => start.tree.isDirectory start.cwd path
  | "-c" => isDevice path
  | "-x" => isStartable path
  | "-s" =>
    match start.tree.readBytes start.cwd path with
    | .ok bytes => !bytes.isEmpty
    | .error _ => start.tree.isDirectory start.cwd path
  | "-L" => isLink path
  | "-h" => isLink path
  | _ => false
where
  isLink (path : Path) : Bool :=
    match (start.tree.find .stop start.cwd path).toOption.bind start.tree.get? with
    | some (.link _) => true
    | _ => false
  isDevice (path : Path) : Bool :=
    match start.tree.look start.cwd path with
    | .ok (_, .device _) => true
    | _ => false
  /-- Whether a path leads to a directory, or to a file that can be started. -/
  isStartable (path : Path) : Bool :=
    match start.tree.look start.cwd path with
    | .ok (_, .directory) => true
    | .ok (_, .file _ runnable) => runnable
    | _ => false

def conditionNumber (word : String) : Except String Int :=
  let isBlank (c : Char) : Bool := c = ' ' || ('\t' ≤ c && c ≤ '\r')
  let text := ((word.toList.dropWhile isBlank).reverse.dropWhile isBlank).reverse
  let (sign, digits) : Int × List Char := match text with
    | '-' :: rest => (-1, rest)
    | '+' :: rest => (1, rest)
    | _ => (1, text)
  if digits.isEmpty || !digits.all Char.isDigit then .error ("Illegal number: " ++ word)
  else .ok (sign * ((String.ofList digits).toNat?.getD 0 : Nat))

/-- A comparison of texts, of numbers, or of files. -/
def compareWords (start : ProgramStart) (left question right : String) : Except String Bool :=
  let numbers (holds : Int → Int → Bool) : Except String Bool := do
    return holds (← conditionNumber left) (← conditionNumber right)
  let place (word : String) : Option Place := (start.tree.canonical start.cwd ⟨word⟩).toOption
  match question with
  | "=" => .ok (left = right)
  | "!=" => .ok (left ≠ right)
  | "<" => .ok (decide (left < right))
  | ">" => .ok (decide (right < left))
  | "-eq" => numbers fun a b => a = b
  | "-ne" => numbers fun a b => a ≠ b
  | "-lt" => numbers fun a b => a < b
  | "-le" => numbers fun a b => a ≤ b
  | "-gt" => numbers fun a b => b < a
  | "-ge" => numbers fun a b => b ≤ a
  | "-ef" => .ok ((place left).isSome && place left = place right)
  | _ => .ok false

/-- What is answered at some point of a condition. -/
inductive ConditionPart where
  | whole
  | conjunction
  | negation
  | single

/-- The answer to a part of a condition, and the words from the last one of that part on. The number
bounds the depth of the reading. -/
def answer (start : ProgramStart) : Nat → ConditionPart → List String →
    Except String (Bool × List String)
  | 0, _, words => .ok (false, words)
  | n + 1, .whole, words => do
    let (first, words) ← answer start n .conjunction words
    if leadingSign (words.drop 1) = some .either then
      let (others, words) ← answer start n .whole (words.drop 2)
      return (first || others, words)
    else return (first, words)
  | n + 1, .conjunction, words => do
    let (first, words) ← answer start n .negation words
    if leadingSign (words.drop 1) = some .both then
      let (others, words) ← answer start n .conjunction (words.drop 2)
      return (first && others, words)
    else return (first, words)
  | n + 1, .negation, words =>
    if leadingSign words = some .negation then do
      if words.length ≤ 1 then return (true, words)
      let (inner, words) ← answer start n .negation (words.drop 1)
      return (!inner, words)
    else answer start n .single words
  | n + 1, .single, words =>
    match leadingSign words, words with
    | _, [] => .ok (false, [])
    | some .opening, _ :: rest => do
      if leadingSign rest = some .closing then return (false, rest)
      let (inner, words) ← answer start n .whole rest
      if leadingSign (words.drop 1) = some .closing then return (inner, words.drop 1)
      else throw "closing paren expected"
    | some .unary, question :: rest =>
      match rest with
      | [] => .error (question ++ ": argument expected")
      | argument :: _ => .ok (askUnary start question argument, rest)
    | _, left :: rest =>
      if leadingSign rest = some .binary then
        match rest with
        | question :: right :: more =>
          do return (← compareWords start left question right, right :: more)
        | question :: [] => .error (question ++ ": argument expected")
        | [] => .ok (left ≠ "", left :: rest)
      else .ok (left ≠ "", left :: rest)

def condition (start : ProgramStart) (words : List String) : Except String Bool :=
  let read (words : List String) : Except String Bool := do
    let (result, left) ← answer start (4 * words.length + 4) .whole words
    match left with
    | word :: _ :: _ =>
      throw (if word = "" then "unexpected operator" else word ++ ": unexpected operator")
    | _ => return result
  match words with
  | [] => .ok false
  | [first, second, third] =>
    if conditionSign? second = some .binary then compareWords start first second third
    else if first = "(" && third = ")" then read [second]
    else read words
  | ["(", second, third, ")"] => read [second, third]
  | _ => read words

def test : Program := fun start =>
  match condition start start.arguments with
  | .ok true => quit 0 start
  | .ok false => quit 1 start
  | .error text => complain 2 text start

def bracket : Program := fun start =>
  match start.arguments.reverse with
  | "]" :: arguments => test { start with arguments := arguments.reverse }
  | _ => complain 2 "missing ]" start

end ShaderEmbed.Program
