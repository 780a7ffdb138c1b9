import ShaderEmbed.Run.Job

/-!
# Compilers

A compiler turns the entry of a binary stage into bytes. It is asked through `Compiler.ask`, which
records the entry.
-/

namespace ShaderEmbed

/-- Turns an entry into its compiled form. -/
structure Compiler where
  compile : Path → Job ShaderError Bytes

def Compiler.ask (compiler : Compiler) (entry : Path) : Job ShaderError Bytes := do
  Job.record (.asked entry)
  compiler.compile entry

end ShaderEmbed
