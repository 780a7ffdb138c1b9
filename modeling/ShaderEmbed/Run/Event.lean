import ShaderEmbed.Fragment.Expansion
import ShaderEmbed.Run.State

/-!
# What a run records

Events are the trace of a run, in the order in which they happen. Most of them are also log records,
a level and a text; that a compiler is asked for an entry is recorded without one.
-/

namespace ShaderEmbed

/-- How much a log record matters. -/
inductive LogLevel where
  | trace
  | debug
  | info
  | warn
deriving DecidableEq, Repr

def LogLevel.label : LogLevel → String
  | trace => "TRACE"
  | debug => "DEBUG"
  | info => "INFO"
  | warn => "WARN"

/-- Something that happens in a run. -/
inductive Event where
  /-- A run reaches a state. -/
  | reached (target : String) (state : RunState)
  /-- A directive is followed. -/
  | inclusion (step : Inclusion)
  /-- A compiler is asked for an entry. -/
  | asked (entry : Path)
  /-- A tool is started. -/
  | launched (tool entry output : Path)
  /-- A tool that succeeded had something to say. -/
  | warned (tool entry : Path) (words : String)
  /-- A stage is resolved. -/
  | built (stage : String) (bytes fragments : Nat)
  /-- A stage was made of a fragment. -/
  | consumed (stage : String) (source : Path)
  /-- An artifact is written. -/
  | wrote (output : Path)
  /-- An artifact is found up to date. -/
  | upToDate (output : Path)
  /-- A configured target is started. -/
  | building (target : String) (stages : Nat)
  /-- All configured targets are done. -/
  | summary (built written : Nat)
  /-- A configuration file is accepted. -/
  | loaded (path : Path)
  /-- No configuration file is found. -/
  | unconfigured (name : String)
deriving DecidableEq, Repr

namespace Event

/-- The fragment whose directive an inclusion follows, spelled. -/
def includer (step : Inclusion) : String :=
  match step.stack.getLast? with
  | some active => active.path.text
  | none => ""

/-- The log record of an event, if it has one. -/
def record? : Event → Option (LogLevel × String)
  | reached target state => some (.debug, "[" ++ target ++ "] " ++ state.text)
  | inclusion step => some (.trace, includer step ++ " includes " ++ step.path.text)
  | asked _ => none
  | launched tool entry output =>
    some (.debug, "Running " ++ tool.text ++ " on " ++ entry.text ++ " -> " ++ output.text)
  | warned tool entry words => some (.warn, tool.text ++ " (" ++ entry.text ++ "): " ++ words)
  | built stage bytes fragments =>
    some (.info, "Built " ++ stage ++ " shader (" ++ toString bytes ++
      " bytes from " ++ toString fragments ++ " fragment(s))")
  | consumed stage source => some (.debug, "  " ++ stage ++ " <- " ++ source.text)
  | wrote output => some (.info, "Wrote " ++ output.text)
  | upToDate output => some (.info, output.text ++ " is up to date")
  | building target stages =>
    some (.info, "Building target '" ++ target ++ "' (" ++ toString stages ++ " stage(s))")
  | summary total fresh =>
    some (.info, toString total ++ " target(s) built, " ++ toString fresh ++ " written, " ++
      toString (total - fresh) ++ " up to date")
  | loaded path => some (.info, "Loaded configuration from " ++ Text.quote path.text)
  | unconfigured name => some (.info, "No " ++ name ++ " found, using built-in targets")

/-- The entry that a compiler is asked for. -/
def askedFor? : Event → Option Path
  | asked entry => some entry
  | _ => none

def state? : Event → Option RunState
  | reached _ state => some state
  | _ => none

end Event

end ShaderEmbed
