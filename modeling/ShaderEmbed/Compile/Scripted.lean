import ShaderEmbed.Compile.Compiler

/-!
# A compiler that answers from a script

The answers are looked up by the entry, and, for an entry that has none, by the name that the entry
ends in, so that an answer also serves for a copy elsewhere. An entry without an answer is not
found.
-/

namespace ShaderEmbed

/-- What a scripted compiler answers. -/
inductive ScriptedAnswer where
  | binary (bytes : Bytes)
  | failure (status : Int) (errors : String)
deriving DecidableEq, Repr

/-- The answers for entries, the latest first. -/
structure ScriptedCompiler where
  answers : List (Path × ScriptedAnswer)

namespace ScriptedCompiler

/-- The answers of a list in which a later one replaces an earlier one for the same path. -/
def ofList (answers : List (Path × ScriptedAnswer)) : ScriptedCompiler :=
  ⟨answers.foldl (fun kept answer => answer :: kept.filter fun other => !other.1.same answer.1) []⟩

def answer? (self : ScriptedCompiler) (entry : Path) : Option ScriptedAnswer :=
  match self.answers.find? fun answer => answer.1.same entry with
  | some answer => some answer.2
  | none =>
    match entry.fileName with
    | none => none
    | some name => (self.answers.find? fun answer => answer.1.fileName = some name).map (·.2)

def result (self : ScriptedCompiler) (entry : Path) : Except ShaderError Bytes :=
  match self.answer? entry with
  | some (.binary bytes) => .ok bytes
  | some (.failure status errors) => .error (.compilation entry (.code status) errors)
  | none => .error (.notFound entry)

def compiler (self : ScriptedCompiler) : Compiler where
  compile entry := Job.ofExcept (self.result entry)

end ScriptedCompiler

end ShaderEmbed
