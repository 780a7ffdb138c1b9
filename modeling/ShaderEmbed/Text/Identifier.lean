import ShaderEmbed.Text.Cut

/-!
# Identifiers

The names that generated code may use: an ASCII letter or underscore, then ASCII letters, digits and
underscores. A namespace name is one or more of them joined by double colons.
-/

namespace ShaderEmbed.Text

def leadsIdentifier (c : Char) : Bool := c.isAlpha || c = '_'

def followsInIdentifier (c : Char) : Bool := c.isAlphanum || c = '_'

def spellsIdentifier : List Char → Bool
  | [] => false
  | c :: rest => leadsIdentifier c && rest.all followsInIdentifier

def isIdentifier (s : String) : Bool := spellsIdentifier s.toList

/-- The pieces of a text between double colons, taken from the left. -/
def cutColons : List Char → List (List Char)
  | [] => [[]]
  | ':' :: ':' :: rest => [] :: cutColons rest
  | c :: rest =>
    -- a single colon stays in its piece, which then spells no identifier
    match cutColons rest with
    | [] => [[c]]
    | piece :: others => (c :: piece) :: others

def isNamespaceName (s : String) : Bool := (cutColons s.toList).all spellsIdentifier

end ShaderEmbed.Text
