import ShaderEmbed.Fragment.Directive
import ShaderEmbed.Fragment.Source

/-!
# Expanding includes

A fragment is flattened by putting, in place of each include directive, the expansion of the
fragment it names. The reference of a directive is read from the directory of the fragment that
holds it. Every other line is copied with its terminator.

`expand` carries the stack of fragments that are being expanded and refuses to enter one of them
again. Because a source lists the identities of its fragments, each fragment that is entered uses up
one of finitely many identities, and the expansion ends for every source. Each inclusion is
recorded, also in an expansion that fails.
-/

namespace ShaderEmbed

/-- Text without include directives, and the fragments it was made of in the order in which they
were entered. -/
structure Flattened where
  text : String
  sources : List Path
deriving DecidableEq, Repr

/-- A fragment that is being expanded. -/
structure Active where
  identity : Identity
  path : Path
deriving DecidableEq, Repr

/-- A directive that was followed: the fragments being expanded, the outermost first, and the
fragment it names. -/
structure Inclusion where
  stack : List Active
  path : Path
deriving DecidableEq, Repr

/-- An attempt to expand: the inclusions met, and the text or the failure they led to. -/
structure Attempt where
  inclusions : List Inclusion
  result : Except ShaderError Flattened

namespace Attempt

def fail (e : ShaderError) : Attempt := ⟨[], .error e⟩

def done : Attempt := ⟨[], .ok ⟨"", []⟩⟩

def afterText (line : String) (rest : Attempt) : Attempt :=
  ⟨rest.inclusions, rest.result.map fun flat => ⟨line ++ flat.text, flat.sources⟩⟩

/-- An attempt whose first source is the fragment entered. -/
def entered (path : Path) (lines : Attempt) : Attempt :=
  ⟨lines.inclusions, lines.result.map fun flat => ⟨flat.text, path :: flat.sources⟩⟩

/-- A followed directive and, if it succeeds, what comes behind it. -/
def followedBy (inclusion : Inclusion) (included : Attempt) (rest : Unit → Attempt) : Attempt :=
  match included.result with
  -- the lines behind a failed inclusion are not looked at
  | .error e => ⟨inclusion :: included.inclusions, .error e⟩
  | .ok flat =>
    let after := rest ()
    ⟨inclusion :: included.inclusions ++ after.inclusions,
      after.result.map fun more => ⟨flat.text ++ more.text, flat.sources ++ more.sources⟩⟩

end Attempt

/-- The fragment that a reference names when it stands in the fragment at a path. -/
def included (path : Path) (reference : String) : Path :=
  ((path.parent.getD .empty).join ⟨reference⟩).normalize

/-- Expands lines of the fragment at a path; `sub` expands the fragments they include, and the first
line has the given number. -/
def expandLines (marker : String) (stack : List Active) (path : Path) (sub : Path → Attempt) :
    Nat → List String → Attempt
  | _, [] => .done
  | number, line :: rest =>
    match Line.classify marker line with
    | .ordinary => .afterText line (expandLines marker stack path sub (number + 1) rest)
    | .blank => .fail (.malformedInclude path number)
    | .includes reference =>
      .followedBy ⟨stack, included path reference⟩ (sub (included path reference))
        fun _ => expandLines marker stack path sub (number + 1) rest

namespace FragmentSource

def unused (source : FragmentSource) (stack : List Active) : List Identity :=
  source.identities.filter fun id => id ∉ stack.map Active.identity

theorem unused_append (source : FragmentSource) (stack : List Active) (entry : Active) :
    source.unused (stack ++ [entry]) = (source.unused stack).filter fun id => id ≠
      entry.identity := by
  simp only [unused, List.filter_filter]
  congr 1
  funext id
  by_cases h : id = entry.identity <;> simp [h]

/-- A fragment that is not being expanded uses up an identity when it is entered. -/
theorem unused_lt (source : FragmentSource) {stack : List Active} {entry : Active}
    (hmem : entry.identity ∈ source.identities)
    (hnew : entry.identity ∉ stack.map Active.identity) :
    (source.unused (stack ++ [entry])).length < (source.unused stack).length := by
  rw [unused_append]
  refine List.length_filter_lt_length_iff_exists.2 ⟨entry.identity, ?_, by simp⟩
  exact List.mem_filter.2 ⟨hmem, by simpa using hnew⟩

set_option linter.unusedVariables false in
/-- Expands the fragment at a path while the fragments on the stack are being expanded. -/
def expand (source : FragmentSource) (marker : String) (stack : List Active)
    (path : Path) : Attempt :=
  match hid : source.identity path with
  | .error e => .fail e
  | .ok identity =>
    -- a cycle is found by identity, before the fragment is read again
    if hnew : identity ∈ stack.map Active.identity then
      .fail (.cyclicInclude path (stack.map Active.path ++ [path]))
    else
      match hread : source.read path with
      | .error e => .fail e
      | .ok text =>
        .entered path
          (expandLines marker (stack ++ [⟨identity, path⟩]) path
            (fun next => expand source marker (stack ++ [⟨identity, path⟩]) next) 1
              (Text.terminatedLines text))
termination_by (source.unused stack).length
decreasing_by exact source.unused_lt (source.identity_mem hid hread) hnew

/-- Flattens the fragment at a path. -/
def flatten (source : FragmentSource) (marker : String) (entry : Path) : Attempt :=
  source.expand marker [] entry.normalize

end FragmentSource

end ShaderEmbed
