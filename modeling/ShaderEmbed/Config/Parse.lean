import ShaderEmbed.Config.Basic
import ShaderEmbed.Config.Error
import ShaderEmbed.Text.Lines

/-!
# The text of a configuration

What the text of a configuration file says is up to a reader of documents. A reader yields a
configuration, or it says why the text is none: in which words, and where it stood, if it can tell.
The refusal of the configuration names the place by line and column, and has the words on one line.
-/

namespace ShaderEmbed

/-- Why a reader takes no configuration from a text: the byte offset where it stood, if it tells
one, and its words. -/
structure Unread where
  offset : Option Nat
  message : String
deriving DecidableEq, Repr

/-- A reader of documents: what the text of a configuration file says. -/
abbrev ConfigReader := String → Except Unread Config

/-- The refusal of a configuration file whose text was not read. -/
def ConfigError.ofUnread (file : Path) (content : String) (refusal : Unread) : ConfigError :=
  .parse file (refusal.offset.map (Text.locate content.toList)) (Text.fold " " refusal.message)

/-- Reads the text of a configuration file; its path is only named in refusals. -/
def Config.parse (reader : ConfigReader) (file : Path)
    (content : String) : Except ConfigError Config :=
  (reader content).mapError (.ofUnread file content)

end ShaderEmbed
