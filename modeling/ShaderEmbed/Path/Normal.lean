import ShaderEmbed.Path.Basic

/-!
# The lexical normal form of a path

Normalizing drops every dot and lets `..` cancel the name before it. A `..` that has nothing to
cancel is kept in a relative path, so that a path which leaves its directory stays visible, and is
dropped at the root.
-/

namespace ShaderEmbed

namespace Component

/-- One more component behind a normal list of components, which is held with its last component
first. -/
def fold : List Component → Component → List Component
  | done, .here => done
  | .name _ :: done, .up => done
  | [.root], .up => [.root]
  | done, .up => .up :: done
  | _, .root => [.root]
  | done, .name text => .name text :: done

def normal (components : List Component) : List Component :=
  (components.foldl fold []).reverse

end Component

namespace Path

/-- The place that a path names lexically. -/
def place (p : Path) : List Component := Component.normal p.components

/-- The normal form of a path. -/
def normalize (p : Path) : Path := ofComponents p.place

end Path

end ShaderEmbed
