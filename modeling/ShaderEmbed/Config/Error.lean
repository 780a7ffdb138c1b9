import ShaderEmbed.File.Error
import ShaderEmbed.Text.Location

/-!
# Why a configuration is refused

As with runs, a refusal is its cause, and `ConfigError.message` puts it into words.
-/

namespace ShaderEmbed

/-- Why a configuration could not be had. -/
inductive ConfigError where
  | noDirectory (reason : FileError)
  | read (path : Path) (reason : FileError)
  | parse (path : Path) (location : Option Text.Location) (detail : String)
  | noTargets
  | unknownTarget (name : String) (known : List String)
  | invalidTarget (target reason : String)
  | invalidSetting (reason : String)
deriving DecidableEq, Repr

namespace ConfigError

def message : ConfigError → String
  | noDirectory reason => "Could not determine current directory: " ++ reason.message
  | read path reason => "Failed to read " ++ Text.quote path.text ++ ": " ++ reason.message
  | parse path (some location) detail =>
    "Failed to parse " ++ Text.quote path.text ++ " at line " ++ toString location.line ++
      ", column " ++ toString location.column ++ ": " ++ detail
  | parse path none detail => "Failed to parse " ++ Text.quote path.text ++ ": " ++ detail
  | noTargets => "No targets configured"
  | unknownTarget name known =>
    "Unknown target '" ++ name ++ "' (available: " ++ ", ".intercalate known ++ ")"
  | invalidTarget target reason => "Invalid target '" ++ target ++ "': " ++ reason
  | invalidSetting reason => "Invalid setting: " ++ reason

end ConfigError

end ShaderEmbed
