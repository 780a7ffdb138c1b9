import ShaderEmbed.Toml.Value

/-!
# Whole documents

A document is a sequence of statements: a field, a header that starts a table, or a header that adds
a table to an array of tables. A started table is kept apart until the next header, and then takes
its place in the document.
-/

namespace ShaderEmbed.Toml

open Reading

/-- The text of a key in a refusal: bare if it can be, else in the quotes that need no escapes if
there are such. -/
def Key.text (key : Key) : String :=
  let chars := key.name.toList
  let special (c : Char) : Bool := c ≠ '\t' && (c.toNat < 0x20 || c.toNat = 0x7f)
  if !chars.isEmpty && chars.all isBareChar then key.name
  else if !chars.any fun c => special c || c = '"' || c = '\\' then "\"" ++ key.name ++ "\""
  else if !chars.any fun c => special c || c = '\'' then "'" ++ key.name ++ "'"
  else "\"" ++ String.ofList (chars.flatMap escaped) ++ "\""
where
  /-- A character with the escape it needs. -/
  escaped (c : Char) : List Char :=
    if c = '\x08' then ['\\', 'b']
    else if c = '\t' then ['\\', 't']
    else if c = '\n' then ['\\', 'n']
    else if c = '\x0c' then ['\\', 'f']
    else if c = '\r' then ['\\', 'r']
    else if c = '"' then ['\\', '"']
    else if c = '\\' then ['\\', '\\']
    else if c.toNat < 0x20 || c.toNat = 0x7f then
      ['\\', 'u', '0', '0', hexDigit (c.toNat / 16), hexDigit (c.toNat % 16)]
    else [c]
  hexDigit (n : Nat) : Char := (Nat.digitChar n).toUpper

/-- A document that is being read: what is complete, the table that was started last, the path of
its header, and whether it is an element of an array of tables. -/
structure Draft where
  root : Table Node
  current : Table Node
  path : List Key
  element : Bool

namespace Draft

def empty : Draft := ⟨.start none false, .start none false, [], false⟩

/-- The refusal of a header whose last part names something that is there. -/
def repeatedHeader (path : List Key) (last : Key) : Reason :=
  .repeatedKey last.text (some (path.map Key.name))

/-- The complete document, the started table at its place. -/
def close (self : Draft) : Except Reason (Table Node) :=
  if self.path.isEmpty then .ok self.current
  else do
    let (path, last) := splitKey self.path
    let ((), closed) ← self.root.change false false (fun parent =>
      match self.element, parent.get? last.name with
      | true, some (.tables elements) =>
        .ok ((), parent.put last (.tables (elements ++ [self.current])))
      | true, none => .ok ((), parent.put last (.tables [self.current]))
      | false, none => .ok ((), parent.put last (.table self.current))
      | _, some _ => .error (repeatedHeader path last)) [] path
    return closed

/-- Starts a table. A table that was only implied by other headers is taken out and goes on. -/
def startTable (place : Nat) (parts : List Key) (self : Draft) : Except Reason Draft := do
  let root ← self.close
  let (path, last) := splitKey parts
  let (fields, root) ← root.change false false (fun parent =>
    match parent.get? last.name with
    | none => .ok ([], parent)
    | some (.table table) =>
      -- what a dotted key or braces made is not open to headers
      if table.implicit && !table.dotted && !table.inline then
        .ok (table.fields, parent.erase last.name)
      else .error (repeatedHeader path last)
    | some _ => .error (repeatedHeader path last)) [] path
  return ⟨root, ⟨some place, false, false, false, fields⟩, parts, false⟩

def startElement (place : Nat) (parts : List Key) (self : Draft) : Except Reason Draft := do
  let root ← self.close
  let (path, last) := splitKey parts
  let ((), root) ← root.change false false (fun parent =>
    match parent.get? last.name with
    | none => .ok ((), parent.put last (.tables []))
    | some (.tables _) => .ok ((), parent)
    | some _ => .error (repeatedHeader path last)) [] path
  return ⟨root, .start (some place) false, parts, true⟩

def define (parts : List Key) (node : Node) (self : Draft) : Except Reason Draft := do
  let (path, last) := splitKey parts
  let current ← self.current.define false (some (self.path.map Key.name)) path last node
  return { self with current := current }

end Draft

def fieldLine : Reading (List Key × Node) := do
  let parts ← key
  commit do
    keyEnd
    spaces
    let node ← value
    lineRest
    done (parts, node)

def tableHeader : Reading (List Key) := do
  char '['
  let parts ← commit key
  commit (wanting [.sign ".", .sign "]"] (char ']'))
  done parts

def elementHeader : Reading (List Key) := do
  literal ['[', '[']
  let parts ← commit key
  commit (wanting [.sign ".", .sign "]]"] (literal [']', ']']))
  done parts

def headerLine (draft : Draft) : Reading Draft := naming .tableHeader do
  let place ← offset
  match ← ahead with
  -- a last bracket could open either header and is refused as neither
  | ['['] => refuse
  | '[' :: '[' :: _ =>
    checked (do
      let parts ← elementHeader
      commit lineRest
      done parts) fun parts => draft.startElement place parts
  | _ =>
    checked (do
      let parts ← tableHeader
      commit lineRest
      done parts) fun parts => draft.startTable place parts

/-- One statement, or one comment; `none` if there is neither. -/
def statement (draft : Draft) : Reading (Option Draft) := do
  match ← ahead with
  | [] => done none
  | '#' :: _ => commit do
    comment
    lineEnd
    done (some draft)
  | '[' :: _ => do
    let draft ← commit (headerLine draft)
    done (some draft)
  | '\n' :: _ => newline >>= fun _ => done (some draft)
  | '\r' :: _ => do
    -- a carriage return alone is no statement: the document has to end in front of it
    let passed ← optional newline
    done (passed.map fun _ => draft)
  | _ => do
    let draft ← commit (checked fieldLine fun (parts, node) => draft.define parts node)
    done (some draft)

/-- The statements of a document, at most a given number. -/
def statements : Nat → Draft → Reading Draft
  | 0, draft => done draft
  | most + 1, draft => do
    match ← statement draft with
    | none => done draft
    | some draft => do
      spaces
      statements most draft

/-- A document, behind a byte order mark if there is one. -/
def document : Reading (Table Node) := do
  let _ ← optional (char '\uFEFF')
  spaces
  let draft ← fun cursor => statements cursor.rest.length .empty cursor
  ending
  checked (done draft) Draft.close

/-- Reads a document. -/
def parse (text : String) : Except Refusal (Table Node) :=
  (document ⟨text.toList, 0⟩).map (·.1)

end ShaderEmbed.Toml
