import ShaderEmbed.Config.Basic
import ShaderEmbed.Config.Error
import ShaderEmbed.Text.Identifier

/-!
# Checking a configuration

Every setting and every target is checked before anything runs, and the first fault in reading order
is reported: the marker, the header, the scope, the namespace, and then the targets one by one. A
target is at fault if its name was used before, or in itself: in its number of stages, in a stage,
in its symbol, or in its guard.
-/

namespace ShaderEmbed

/-- What is wrong with a target. -/
inductive TargetFault where
  | repeated
  | noStages
  | manyStages (count : Nat)
  | stageName (name : String)
  | repeatedStage (name : String)
  | stageKind (name : String) (kind wanted : StageKind)
  | symbolName (symbol : String)
  | strayGuard
  | straySymbol
  | guardName (guard : String)
deriving DecidableEq, Repr

/-- The word for a kind in a sentence about a target. -/
def StageKind.title : StageKind → String
  | .text => "Text"
  | .binary => "Binary"

namespace TargetFault

def message : TargetFault → String
  | repeated => "duplicate target name"
  | noStages => "no stages"
  | manyStages count => "text-single needs exactly one stage, found " ++ toString count
  | stageName name => "stage name '" ++ name ++ "' is not an identifier"
  | repeatedStage name => "duplicate stage '" ++ name ++ "'"
  | stageKind name kind wanted =>
    "stage '" ++ name ++ "' is " ++ kind.title ++ " but the target embeds " ++
      wanted.title ++ " content"
  | symbolName symbol => "symbol '" ++ symbol ++ "' is not an identifier"
  | straySymbol => "symbol is only used by text-single targets"
  | guardName guard => "guard '" ++ guard ++ "' is not an identifier"
  | strayGuard => "guard is only used by binary-blob targets"

end TargetFault

namespace TargetConfig

/-- Checks stages one by one, given the names of those before them. -/
def checkStages (mode : TargetMode) : List String → List StageSpec → Except TargetFault Unit
  | _, [] => .ok ()
  | seen, stage :: rest =>
    if !Text.isIdentifier stage.name then .error (.stageName stage.name)
    else if stage.name ∈ seen then .error (.repeatedStage stage.name)
    else if stage.kind ≠ mode.contentKind then
      .error (.stageKind stage.name stage.kind mode.contentKind)
    else checkStages mode (stage.name :: seen) rest

/-- Checks the symbol: it belongs to a single text and is an identifier. -/
def checkSymbol (target : TargetConfig) : Except TargetFault Unit :=
  match target.symbol with
  | none => .ok ()
  | some symbol =>
    if target.mode ≠ .textSingle then .error .straySymbol
    else if Text.isIdentifier symbol then .ok ()
    else .error (.symbolName symbol)

/-- Checks the guard: it belongs to byte tables and is an identifier. -/
def checkGuard (target : TargetConfig) : Except TargetFault Unit :=
  match target.guard with
  | none => .ok ()
  | some guard =>
    if target.mode ≠ .binaryBlob then .error .strayGuard
    else if Text.isIdentifier guard then .ok ()
    else .error (.guardName guard)

/-- Checks that a target can be emitted in its mode. -/
def check (target : TargetConfig) : Except TargetFault Unit := do
  if target.stages.isEmpty then
    throw .noStages
  if target.mode = .textSingle && target.stages.length ≠ 1 then
    throw (.manyStages target.stages.length)
  checkStages target.mode [] target.stages
  target.checkSymbol
  target.checkGuard

def validate (target : TargetConfig) : Except ConfigError Unit :=
  target.check.mapError fun fault => .invalidTarget target.name fault.message

end TargetConfig

namespace Config

/-- Checks targets one by one, given the names of those before them. -/
def checkTargets : List String → List TargetConfig → Except ConfigError Unit
  | _, [] => .ok ()
  | seen, target :: rest =>
    -- a repeated name is reported before anything in the target itself
    if target.name ∈ seen then .error (.invalidTarget target.name TargetFault.repeated.message)
    else do
      target.validate
      checkTargets (target.name :: seen) rest

/-- Whether a text has a character that is not white space. -/
def isSolid (s : String) : Bool := Text.trimmed s ≠ ""

/-- Checks the settings that are not part of a target. -/
def checkSettings (config : Config) : Except ConfigError Unit := do
  if !isSolid config.project.marker then
    throw (.invalidSetting "project.include_marker must not be empty")
  if !isSolid config.artifact.header then
    throw (.invalidSetting "artifact.header must not be empty")
  if !Text.isIdentifier config.artifact.scope then
    throw (.invalidSetting ("artifact.scope '" ++ config.artifact.scope ++
      "' is not an identifier"))
  if !Text.isNamespaceName config.artifact.space then
    throw (.invalidSetting ("artifact.namespace '" ++ config.artifact.space ++
      "' is not a namespace name"))

def validate (config : Config) : Except ConfigError Unit := do
  config.checkSettings
  if config.targets.isEmpty then
    throw .noTargets
  checkTargets [] config.targets

/-- The target with a name, or the refusal that lists the names there are. -/
def target (config : Config) (name : String) : Except ConfigError TargetConfig :=
  match config.target? name with
  | some target => .ok target
  | none => .error (.unknownTarget name config.targetNames)

end Config

end ShaderEmbed
