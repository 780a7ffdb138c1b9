import ShaderEmbed.Tool.Condition

/-!
# Testing conditions outside of the shell

The program that tests a condition on its own decides by the number of words how they are read: up
to four of them have a form each, and more are alternatives of combinations of terms.
-/

namespace ShaderEmbed.Program

def questionLetters : List Char := "bcdefghknoprstuwxzGLNOS".toList

def isQuestion (word : String) : Bool :=
  match word.toList with
  | ['-', _] => true
  | _ => false

def isComparison (word : String) : Bool :=
  ["=", "==", "!=", "-eq", "-ne", "-ge", "-gt", "-le", "-lt", "-nt", "-ot", "-ef"].contains word

/-- What reading a part of a condition comes to: the answer and the words that are left, or what is
wrong. -/
abbrev Judgement := Except String (Bool × List String)

/-- Tells that a word is missing. -/
def missingAfter (last : String) : Judgement :=
  .error ("missing argument after " ++ Shown.plainly last)

def judgeOne (last : String) : List String → Judgement
  | [] => missingAfter last
  | word :: rest => .ok (word ≠ "", rest)

def judgeQuestion (start : ProgramStart) (last : String) : List String → Judgement
  | question :: rest =>
    if !((question.toList[1]?).map questionLetters.contains).getD false then
      .error (Shown.plainly question ++ ": unary operator expected")
    else
      match rest with
      | [] => missingAfter last
      | argument :: rest =>
        if question = "-t" then
          match conditionNumber argument with
          | .ok _ => .ok (false, rest)
          | .error _ => .error ("invalid integer " ++ Shown.plainly argument)
        else .ok (askUnary start question argument, rest)
  | [] => missingAfter last

def judgeComparison (start : ProgramStart) (left question right : String) : Except String Bool :=
  let isNumber (word : String) : Bool := (conditionNumber word).isOk
  let numeric := ["-eq", "-ne", "-ge", "-gt", "-le", "-lt"].contains question
  if numeric && !isNumber left then .error ("invalid integer " ++ Shown.plainly left)
  else if numeric && !isNumber right then .error ("invalid integer " ++ Shown.plainly right)
  else compareWords start left (if question = "==" then "=" else question) right

/-- What is read at some point of a condition: so many words, or a part that takes as many as it
needs. -/
inductive JudgedPart where
  | counted (count : Nat)
  | either
  | both
  | term

/-- Reads a part of a condition. The number bounds the depth of the reading. -/
def judge (start : ProgramStart) (last : String) : Nat → JudgedPart → List String → Judgement
  | 0, _, _ => missingAfter last
  | _ + 1, .counted 1, words => judgeOne last words
  | n + 1, .counted 2, words =>
    match words with
    | "!" :: rest => negated (judge start last n (.counted 1) rest)
    | first :: _ => if isQuestion first then judgeQuestion start last words else missingAfter last
    | [] => missingAfter last
  | n + 1, .counted 3, words =>
    match words with
    | first :: second :: third :: rest =>
      if isComparison second then do return (← judgeComparison start first second third, rest)
      else if first = "!" then negated (judge start last n (.counted 2) (second :: third :: rest))
      else if first = "(" && third = ")" then .ok (second ≠ "", rest)
      else if second = "-a" || second = "-o" then judge start last n .either words
      else .error (Shown.plainly second ++ ": binary operator expected")
    | _ => missingAfter last
  | n + 1, .counted count, words =>
    match count, words with
    | 4, "!" :: rest => negated (judge start last n (.counted 3) rest)
    | 4, "(" :: second :: third :: ")" :: after => do
      let (answer, left) ← judge start last n (.counted 2) (second :: third :: ")" :: after)
      return (answer, left.drop 1)
    | _, _ => judge start last n .either words
  | n + 1, .either, words => do
    let (first, left) ← judge start last n .both words
    match left with
    | "-o" :: rest => do
      let (others, left) ← judge start last n .either rest
      return (first || others, left)
    | _ => return (first, left)
  | n + 1, .both, words => do
    let (first, left) ← judge start last n .term words
    match left with
    | "-a" :: rest => do
      let (others, left) ← judge start last n .both rest
      return (first && others, left)
    | _ => return (first, left)
  | n + 1, .term, words =>
    match words with
    | [] => missingAfter last
    | "!" :: rest => negated (judge start last n .term rest)
    | "(" :: rest => do
      let inside := 1 + ((rest.drop 1).takeWhile (· ≠ ")")).length
      let count := if inside ≤ 4 then inside else rest.length
      if rest.isEmpty then missingAfter last
      else
        let (answer, left) ← judge start last n (.counted count) rest
        match left with
        | ")" :: after => return (answer, after)
        | [] => throw "')' expected"
        | found :: _ => throw ("')' expected, found " ++ Shown.plainly found)
    | first :: second :: third :: rest =>
      if isComparison second then do return (← judgeComparison start first second third, rest)
      else if isQuestion first then judgeQuestion start last words
      else .ok (first ≠ "", second :: third :: rest)
    | first :: rest =>
      if isQuestion first then judgeQuestion start last words else .ok (first ≠ "", rest)
where
  negated (inner : Judgement) : Judgement := inner.map fun (answer, left) => (!answer, left)

def testAlone : Program := fun start =>
  let words := start.arguments
  if words.isEmpty then quit 1 start
  else
    match judge start (words.getLast?.getD "") (4 * words.length + 8)
      (.counted words.length) words with
    | .error text => complain 2 text start
    | .ok (_, extra :: _) => complain 2 ("extra argument " ++ Shown.plainly extra) start
    | .ok (answer, []) => quit (if answer then 0 else 1) start

def bracketAlone : Program := fun start =>
  match start.arguments.reverse with
  | "]" :: arguments => testAlone { start with arguments := arguments.reverse }
  | _ =>
    if start.arguments = ["--help"] || start.arguments = ["--version"] then quit 0 start
    else complain 2 "missing ']'" start

end ShaderEmbed.Program
