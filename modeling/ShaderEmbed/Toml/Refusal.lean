/-!
# Why a document is refused

A refusal says where the reader stood, which construct it was reading, what it would have taken
there, and, where the text was well-formed but meant nothing, the reason. It is committed when no
other reading is possible.
-/

namespace ShaderEmbed.Toml

/-- The constructs that a refusal may name. -/
inductive Construct where
  | key
  | tableHeader
  | array
  | inlineTable
  | string
  | basicString
  | multilineBasicString
  | literalString
  | multilineLiteralString
  | escapeSequence
  | hexCode (digits : Nat)
  | integer
  | hexadecimal
  | octal
  | binary
  | float
  | moment
  | time
  | offset
deriving DecidableEq, Repr

def Construct.label : Construct → String
  | key => "key"
  | tableHeader => "table header"
  | array => "array"
  | inlineTable => "inline table"
  | string => "string"
  | basicString => "basic string"
  | multilineBasicString => "multiline basic string"
  | literalString => "literal string"
  | multilineLiteralString => "multiline literal string"
  | escapeSequence => "escape sequence"
  | hexCode digits => "unicode " ++ toString digits ++ "-digit hex code"
  | integer => "integer"
  | hexadecimal => "hexadecimal integer"
  | octal => "octal integer"
  | binary => "binary integer"
  | float => "floating-point number"
  | moment => "date-time"
  | time => "time"
  | offset => "time offset"

/-- What would have been taken. -/
inductive Wanted where
  | sign (text : String)
  | lineEnd
  | digit
  | leadingDigit
deriving DecidableEq, Repr

def Wanted.label : Wanted → String
  | sign text => "`" ++ text ++ "`"
  | lineEnd => "newline"
  | digit => "digit"
  | leadingDigit => "leading digit"

/-- Why well-formed text means nothing. -/
inductive Reason where
  | outOfRange
  | tooLarge
  | tooSmall
  | tooDeep
  | repeatedKey (name : String) (table : Option (List String))
  | notTable (path : List String) (kind : String)
deriving DecidableEq, Repr

def Reason.message : Reason → String
  | outOfRange => "value is out of range"
  | tooLarge => "number too large to fit in target type"
  | tooSmall => "number too small to fit in target type"
  | tooDeep => "recursion limit exceeded"
  | repeatedKey name none => "duplicate key `" ++ name ++ "`"
  | repeatedKey name (some []) => "duplicate key `" ++ name ++ "` in document root"
  | repeatedKey name (some table) =>
    "duplicate key `" ++ name ++ "` in table `" ++ ".".intercalate table ++ "`"
  | notTable path kind =>
    "dotted key `" ++ ".".intercalate path ++
      "` attempted to extend non-table type (" ++ kind ++ ")"

/-- Why a document is refused. The innermost construct is named, and the wants are listed from the
inside out. -/
structure Refusal where
  offset : Nat
  committed : Bool
  construct : Option Construct
  wanted : List Wanted
  reason : Option Reason
deriving DecidableEq, Repr

namespace Refusal

/-- A refusal that says nothing but where. -/
def plain (offset : Nat) : Refusal := ⟨offset, false, none, [], none⟩

/-- A refusal in words, on several lines. -/
def message (refusal : Refusal) : String :=
  let construct := refusal.construct.toList.map fun construct => "invalid " ++ construct.label
  let wanted :=
    if refusal.wanted.isEmpty then []
    else ["expected " ++ ", ".intercalate (refusal.wanted.map Wanted.label)]
  let reason := refusal.reason.toList.map Reason.message
  "\n".intercalate (construct ++ wanted ++ reason)

end Refusal

end ShaderEmbed.Toml
