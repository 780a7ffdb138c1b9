import ShaderEmbed.Text.Lines

/-!
# Include directives

A line is an include directive when it starts with the marker and nothing but white space follows
directly. What remains after trimming is the reference; a directive without one names no fragment.
Every other line is ordinary.
-/

namespace ShaderEmbed

/-- The marker that starts a directive unless another is chosen. -/
def standardMarker : String := "#include"

namespace Directive

/-- What is left of a line behind a marker, if the line starts with it. -/
def behind? : List Char → List Char → Option (List Char)
  | [], rest => some rest
  | _ :: _, [] => none
  | m :: marker, c :: rest => if m = c then behind? marker rest else none

/-- The reference of a directive, or nothing for an ordinary line. -/
def reference? (marker line : List Char) : Option (List Char) :=
  match behind? marker line with
  | none => none
  | some [] => some []
  | some (c :: rest) => if Text.isBlank c then some (Text.trim (c :: rest)) else none

end Directive

/-- What a line of a fragment does. -/
inductive Line where
  | ordinary
  | blank
  | includes (reference : String)
deriving DecidableEq, Repr

def Line.classify (marker line : String) : Line :=
  match Directive.reference? marker.toList line.toList with
  | none => .ordinary
  | some [] => .blank
  | some (c :: rest) => .includes (String.ofList (c :: rest))

end ShaderEmbed
