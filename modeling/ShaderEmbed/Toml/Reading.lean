import ShaderEmbed.Toml.Refusal

/-!
# Reading by parts

A reading takes something off the front of a text, or refuses. `either first second` takes the
second reading if the first refuses without commitment, and starts it where the first one started;
`commit` makes a refusal final. A refusal stands where the reader stood, which need not be where it
started.

Repetition ends because each repeated part takes a character: the number of characters left bounds
the number of parts.
-/

namespace ShaderEmbed.Toml

/-- What is left of a text, and how many bytes were taken off. -/
structure Cursor where
  rest : List Char
  offset : Nat

namespace Cursor

def next (cursor : Cursor) : Cursor :=
  match cursor.rest with
  | [] => cursor
  | c :: rest => ⟨rest, cursor.offset + c.utf8Size⟩

def skip : Nat → Cursor → Cursor
  | 0, cursor => cursor
  | n + 1, cursor => skip n cursor.next

end Cursor

/-- Takes something off the front of a text. -/
def Reading (α : Type) : Type := Cursor → Except Refusal (α × Cursor)

namespace Reading

variable {α β : Type}

def done (value : α) : Reading α := fun cursor => .ok (value, cursor)

def andThen (p : Reading α) (next : α → Reading β) : Reading β := fun cursor =>
  match p cursor with
  | .error refusal => .error refusal
  | .ok (value, cursor) => next value cursor

instance : Monad Reading where
  pure := done
  bind := andThen

def refuse : Reading α := fun cursor => .error (.plain cursor.offset)

def refuseFor (reason : Reason) : Reading α := fun cursor =>
  .error { Refusal.plain cursor.offset with reason := some reason }

def offset : Reading Nat := fun cursor => .ok (cursor.offset, cursor)

def ahead : Reading (List Char) := fun cursor => .ok (cursor.rest, cursor)

def skipOne : Reading Unit := fun cursor => .ok ((), cursor.next)

def satisfy (p : Char → Bool) : Reading Char := fun cursor =>
  match cursor.rest with
  | c :: _ => if p c then .ok (c, cursor.next) else refuse cursor
  | [] => refuse cursor

def char (c : Char) : Reading Unit := satisfy (· = c) >>= fun _ => done ()

/-- Takes a given text, or refuses where it starts. -/
def literal (text : List Char) : Reading Unit := fun cursor =>
  if text.isPrefixOf cursor.rest then .ok ((), cursor.skip text.length) else refuse cursor

/-- Takes the longest run of characters of a class. -/
def run (p : Char → Bool) : Reading (List Char) := fun cursor =>
  let taken := cursor.rest.takeWhile p
  .ok (taken, cursor.skip taken.length)

/-- A reading, or another if the first one refuses without commitment. -/
def either (first second : Reading α) : Reading α := fun cursor =>
  match first cursor with
  | .ok taken => .ok taken
  | .error refusal => if refusal.committed then .error refusal else second cursor

instance : OrElse (Reading α) := ⟨fun first second => either first (second ())⟩

def optional (p : Reading α) : Reading (Option α) :=
  either (p >>= fun value => done (some value)) (done none)

/-- Makes refusals final. -/
def commit (p : Reading α) : Reading α := fun cursor =>
  (p cursor).mapError fun refusal => { refusal with committed := true }

/-- Names the construct that is read, unless a refusal names one already. -/
def naming (construct : Construct) (p : Reading α) : Reading α := fun cursor =>
  (p cursor).mapError fun refusal =>
    { refusal with construct := refusal.construct.or (some construct) }

def wanting (wanted : List Wanted) (p : Reading α) : Reading α := fun cursor =>
  (p cursor).mapError fun refusal => { refusal with wanted := refusal.wanted ++ wanted }

/-- The meaning of what was read, or a refusal that stands where the reading started. -/
def checked (p : Reading α) (meaning : α → Except Reason β) : Reading β := fun cursor =>
  match p cursor with
  | .error refusal => .error refusal
  | .ok (value, after) =>
    match meaning value with
    | .ok result => .ok (result, after)
    | .error reason => refuseFor reason cursor

/-- The meaning of what was read; that it has none is final. -/
def settled (p : Reading α) (meaning : α → Except Reason β) : Reading β := fun cursor =>
  match p cursor with
  | .error refusal => .error refusal
  | .ok (value, after) =>
    match meaning value with
    | .ok result => .ok (result, after)
    | .error reason => commit (refuseFor reason) cursor

/-- As many parts as there are, at most a given number. -/
def upTo (p : Reading α) : Nat → Reading (List α)
  | 0 => done []
  | most + 1 => do
    match ← optional p with
    | none => done []
    | some first =>
      let others ← upTo p most
      done (first :: others)

/-- As many parts as there are, each of at least one character. -/
def many (p : Reading α) : Reading (List α) := fun cursor => upTo p cursor.rest.length cursor

def many1 (p : Reading α) : Reading (List α) := do
  let first ← p
  let others ← many p
  done (first :: others)

/-- Parts with separators between them, at least one. A separator without a part behind it is
left. -/
def separated1 (p : Reading α) (separator : Reading Unit) : Reading (List α) := do
  let first ← p
  let others ← many (separator >>= fun _ => p)
  done (first :: others)

/-- Parts with separators between them, perhaps none. -/
def separated (p : Reading α) (separator : Reading Unit) : Reading (List α) := do
  let parts ← optional (separated1 p separator)
  done (parts.getD [])

end Reading

end ShaderEmbed.Toml
