/-!
# How a tool ended

A tool ends with a number of its own, or is ended by a signal.
-/

namespace ShaderEmbed

/-- How a tool ended. -/
inductive ExitStatus where
  | code (value : Int)
  | signal (number : Nat)
  | stated (text : String)
deriving DecidableEq, Repr

namespace ExitStatus

def signalNames : List String := [
  "HUP", "INT", "QUIT", "ILL", "TRAP", "ABRT", "BUS", "FPE", "KILL", "USR1", "SEGV",
    "USR2", "PIPE", "ALRM", "TERM",
  "STKFLT", "CHLD", "CONT", "STOP", "TSTP", "TTIN", "TTOU", "URG", "XCPU", "XFSZ",
  "VTALRM", "PROF", "WINCH", "IO",
  "PWR", "SYS"]

/-- The name of a signal with its usual beginning, in brackets, or nothing where it has none. -/
def signalName (number : Nat) : String :=
  match number with
  | 0 => ""
  | n + 1 =>
    match signalNames[n]? with
    | some name => " (SIG" ++ name ++ ")"
    | none => ""

def text : ExitStatus → String
  | code value => "exit status: " ++ toString value
  | signal number => "signal: " ++ toString number ++ signalName number
  | stated text => text

/-- Only the number zero tells success. -/
def isSuccess (status : ExitStatus) : Bool := status = code 0

end ExitStatus

end ShaderEmbed
