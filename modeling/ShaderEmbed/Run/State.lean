/-!
# The progress of a run

A run is pending, then resolves its stages one after the other. When all are resolved it emits the
artifact, and ends by writing it or by finding it up to date. From any state before the end it may
fail.
-/

namespace ShaderEmbed

/-- Where a run stands. -/
inductive RunState where
  | pending
  | resolving (index : Nat) (stage : String)
  | allResolved
  | emitting
  | written
  | skipped
  | failed
deriving DecidableEq, Repr

namespace RunState

def text : RunState → String
  | pending => "pending"
  | resolving index stage => "resolving stage " ++ toString index ++ " (" ++ stage ++ ")"
  | allResolved => "all stages resolved"
  | emitting => "emitting"
  | written => "written"
  | skipped => "skipped"
  | failed => "failed"

def isTerminal : RunState → Bool
  | written => true
  | skipped => true
  | failed => true
  | _ => false

end RunState

end ShaderEmbed
