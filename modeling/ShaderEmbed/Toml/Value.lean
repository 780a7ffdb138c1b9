import ShaderEmbed.Toml.Moment
import ShaderEmbed.Toml.Node

/-!
# Keys and values

A value is told apart by its first character. Brackets and braces nest to a fixed depth.
-/

namespace ShaderEmbed.Toml

open Reading

/-- Brackets and braces may be open to this depth, and a dotted key may have this many parts. -/
def depthLimit : Nat := 79

def isBareChar (c : Char) : Bool :=
  ('A' ≤ c && c ≤ 'Z') || ('a' ≤ c && c ≤ 'z') || isDigit c || c = '_' || c = '-'

def bareKey : Reading String := do
  let content ← run isBareChar
  if content.isEmpty then
    refuse
  done (String.ofList content)

def keyName : Reading String := do
  match ← ahead with
  | '"' :: _ => basicString
  | '\'' :: _ => literalString
  | _ => bareKey

def keyPart : Reading Key := do
  spaces
  let place ← offset
  let name ← keyName
  spaces
  done ⟨name, place⟩

def key : Reading (List Key) :=
  checked (naming .key (separated1 keyPart (char '.'))) fun parts =>
    if depthLimit < parts.length then .error .tooDeep else .ok parts

def keyEnd : Reading Unit := wanting [.sign ".", .sign "="] (char '=')

/-- A dotted key taken apart into its path and its last part. -/
def splitKey : List Key → List Key × Key
  | [] => ([], ⟨"", 0⟩)
  | [last] => ([], last)
  | first :: rest =>
    let (path, last) := splitKey rest
    (first :: path, last)

def arrayItems (value : Reading Node) : Reading (List Node) := do
  match ← ahead with
  | ']' :: _ => done []
  | _ => do
    let items ← separated
      (do
        blanks
        let item ← value
        blanks
        done item)
      (char ',')
    -- one comma may stand behind the last value
    if !items.isEmpty then
      let _ ← optional (char ',')
    blanks
    done items

def array (value : Reading Node) : Reading Node := do
  let place ← offset
  char '['
  let items ← commit (arrayItems value)
  commit (wanting [.sign "]"] (naming .array (char ']')))
  done (.array place items)

/-- A field of an inline table: the path and the last part of its key, and its value. -/
def inlineField (value : Reading Node) : Reading (List Key × Key × Node) := do
  let parts ← key
  let (path, last) := splitKey parts
  commit do
    keyEnd
    spaces
    let node ← value
    spaces
    done (path, last, node)

def inlineTableOf (place : Nat) (fields : List (List Key × Key × Node)) :
    Except Reason (Table Node) :=
  fields.foldlM (fun table (path, last, node) => table.define true none path last node)
    (.start (some place) true)

def inlineTable (value : Reading Node) : Reading Node := do
  let place ← offset
  char '\x7b'
  let table ← commit (checked
    (do
      let fields ← separated (inlineField value) (char ',')
      spaces
      done fields)
    (inlineTableOf place))
  commit (wanting [.sign "\x7d"] (naming .inlineTable (char '\x7d')))
  done (.table table)

def likeString (p : Reading Node) : Reading Node :=
  wanting [.sign "\"", .sign "'"] (naming .string p)

def truth (place : Nat) (word : List Char) (value : Bool) : Reading Node := do
  commit (literal word)
  done (.truth place value)

def floatWord (place : Nat) (word : List Char) (value : Binary64) : Reading Node := do
  literal word
  done (.float place value)

def momentOrNumber (place : Nat) : Reading Node :=
  (moment >>= fun _ => done (.moment place)) <|>
  (float >>= fun x => done (.float place x)) <|>
  (integer >>= fun n => done (.integer place n))

/-- A value; the readings of what stands in brackets and braces are given. -/
def valueWith (array inlineTable : Reading Node) : Reading Node := do
  let place ← offset
  match ← ahead with
  | [] => refuse
  | c :: _ =>
    if c = '"' || c = '\'' then string >>= fun s => done (.text place s)
    else if c = '[' then array
    else if c = '\x7b' then inlineTable
    else if c = '+' || c = '-' || isDigit c then momentOrNumber place
    -- no number starts with either of these; it is read for the sake of the refusal
    else if c = '_' then wanting [.leadingDigit] (integer >>= fun n => done (.integer place n))
    else if c = '.' then wanting [.leadingDigit] (float >>= fun x => done (.float place x))
    else if c = 't' then likeString (truth place ['t', 'r', 'u', 'e'] true)
    else if c = 'f' then likeString (truth place ['f', 'a', 'l', 's', 'e'] false)
    else if c = 'i' then likeString (floatWord place ['i', 'n', 'f'] (.infinite false))
    else if c = 'n' then likeString (floatWord place ['n', 'a', 'n'] .undefined)
    else likeString refuse

/-- A value in which brackets and braces nest at most as deep as given. -/
def valueTo : Nat → Reading Node
  | 0 => valueWith (commit (refuseFor .tooDeep)) (commit (refuseFor .tooDeep))
  | depth + 1 => valueWith (array (valueTo depth)) (inlineTable (valueTo depth))

def value : Reading Node := valueTo depthLimit

end ShaderEmbed.Toml
