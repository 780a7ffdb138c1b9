import ShaderEmbed.Config.Error
import ShaderEmbed.Error

/-!
# Diagnostics

What ends a build is a failure of a run, a refused configuration, or a plain message, with contexts
around it that say what was being done. The chain lists the texts from the outermost context to the
failure of the system beneath, and the diagnostic is the chain on one line.
-/

namespace ShaderEmbed

/-- What a build failure goes back to. -/
inductive FailureCause where
  | shader (failure : ShaderError)
  | config (refusal : ConfigError)
  | stated (text : String)
deriving DecidableEq, Repr

/-- The texts of a cause: its own, and that of the failure of the system beneath, if there is
one. -/
def FailureCause.texts : FailureCause → List String
  | shader failure => failure.message :: (failure.reason?.map FileError.message).toList
  | config refusal => [refusal.message]
  | stated text => [text]

/-- Why a build ended. The contexts are listed from the outermost inward. -/
structure BuildFailure where
  contexts : List String
  cause : FailureCause
deriving DecidableEq, Repr

namespace BuildFailure

def ofCause (cause : FailureCause) : BuildFailure := ⟨[], cause⟩

def within (failure : BuildFailure) (context : String) : BuildFailure :=
  ⟨context :: failure.contexts, failure.cause⟩

def chain (failure : BuildFailure) : List String := failure.contexts ++ failure.cause.texts

/-- The text of a failure alone: its outermost one. -/
def message (failure : BuildFailure) : String := failure.chain.headD ""

def diagnostic (failure : BuildFailure) : String :=
  "[Error] " ++ Text.fold Text.bar (": ".intercalate failure.chain)

end BuildFailure

end ShaderEmbed
