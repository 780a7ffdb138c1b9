import ShaderEmbed.Decimal.Binary64
import ShaderEmbed.Toml.Refusal

/-!
# Documents

A document is a table of named nodes. A node remembers where it was written, in bytes from the
beginning. A table that only stands on the way to another one is *implicit* and was written nowhere;
it is *dotted* if it stands in a dotted key rather than in a header. Tables in braces are *inline*
and cannot be added to.
-/

namespace ShaderEmbed.Toml

/-- A key and where it was written. -/
structure Key where
  name : String
  place : Nat
deriving Repr

/-- A table of nodes. -/
structure Table (ν : Type) where
  place : Option Nat
  inline : Bool
  implicit : Bool
  dotted : Bool
  fields : List (Key × ν)

/-- What a key may name. -/
inductive Node where
  | text (place : Nat) (value : String)
  | integer (place : Nat) (value : Int)
  | float (place : Nat) (value : Binary64)
  | truth (place : Nat) (value : Bool)
  | moment (place : Nat)
  | array (place : Nat) (items : List Node)
  | table (content : Table Node)
  | tables (elements : List (Table Node))

def Node.place? : Node → Option Nat
  | text place _ => some place
  | integer place _ => some place
  | float place _ => some place
  | truth place _ => some place
  | moment place => some place
  | array place _ => some place
  | table content => content.place
  | tables elements => elements.head?.bind Table.place

def Node.kind : Node → String
  | text .. => "string"
  | integer .. => "integer"
  | float .. => "float"
  | truth .. => "boolean"
  | moment .. => "datetime"
  | array .. => "array"
  | table content => if content.inline then "inline table" else "table"
  | tables _ => "array of tables"

namespace Table

def start (place : Option Nat) (inline : Bool) : Table Node := ⟨place, inline, false, false, []⟩

/-- A table that only stands on the way to another one. -/
def between (inline dotted : Bool) : Table Node := ⟨none, inline, true, dotted, []⟩

def get? {ν : Type} (self : Table ν) (name : String) : Option ν :=
  (self.fields.find? fun field => field.1.name = name).map (·.2)

/-- The table with a node under a key. A name that is there already keeps its key and its rank. -/
def put {ν : Type} (self : Table ν) (key : Key) (node : ν) : Table ν :=
  if (self.get? key.name).isSome then
    { self with fields := self.fields.map fun field =>
        if field.1.name = key.name then (field.1, node) else field }
  else { self with fields := self.fields ++ [(key, node)] }

def erase {ν : Type} (self : Table ν) (name : String) : Table ν :=
  { self with fields := self.fields.filter fun field => field.1.name ≠ name }

/-- Changes the table that a path leads to from a table, and yields something besides. Missing
tables on the way are made. A header leads through tables of all kinds but inline ones, and into the
last table of an array; a dotted key does not lead into a table that has a header. `passed` are the
names that led here. -/
def change {β : Type} (inline dotted : Bool) (f : Table Node → Except Reason (β × Table Node)) :
    List String → List Key → Table Node → Except Reason (β × Table Node)
  | _, [], self => f self
  | passed, key :: path, self =>
    match self.get? key.name with
    | none => do
      let (result, made) ← change inline dotted f (passed ++ [key.name]) path
          (between inline dotted)
      return (result, self.put key (.table made))
    | some (.tables elements) =>
      match elements.getLast? with
      | none => .error (.repeatedKey key.name none)
      | some last => do
        let (result, changed) ← change inline dotted f (passed ++ [key.name]) path last
        return (result, self.put key (.tables (elements.dropLast ++ [changed])))
    | some (.table child) =>
      -- braces add to their own tables only, and nothing else adds to those
      if child.inline ≠ inline then .error (.notTable (passed ++ [key.name]) "inline table")
      else if dotted && !child.implicit then .error (.repeatedKey key.name none)
      else do
        let (result, changed) ← change inline dotted f (passed ++ [key.name]) path child
        return (result, self.put key (.table changed))
    | some other => .error (.notTable (passed ++ [key.name]) other.kind)

/-- Gives a table a field by a dotted key, whose last part is the key of the field. `owner` is the
name of the table as a refusal gives it. -/
def define (inline : Bool) (owner : Option (List String)) (path : List Key)
    (key : Key) (node : Node) (self : Table Node) : Except Reason (Table Node) := do
  let ((), defined) ← change inline true (fun table =>
    -- a dotted key adds to tables that dotted keys made, and a plain key does not
    if table.dotted = path.isEmpty then .error (.repeatedKey key.name none)
    else if (table.get? key.name).isSome then .error (.repeatedKey key.name owner)
    else .ok ((), table.put key node)) [] path self
  return defined

end Table

end ShaderEmbed.Toml
