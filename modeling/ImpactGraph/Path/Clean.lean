import ImpactGraph.Path.Basic

/-!
# The lexically clean form of a path

`Path.clean` simplifies a path without looking at any file: `.` parts go, a `..` removes the name
before it, and a `..` directly below the root is dropped.  What would be nothing is `.`.
-/

set_option autoImplicit false

namespace ImpactGraph
namespace Path

/-- Adds a part to the parts kept so far, latest first. -/
def cleanStep (kept : List Part) : Part → List Part
  | .current => kept
  | .parent =>
    match kept with
    | .root :: _ => kept
    | .name _ :: kept => kept
    | _ => .parent :: kept
  | part => part :: kept

/-- The parts of the clean form. -/
def cleanParts (parts : List Part) : List Part := (parts.foldl cleanStep []).reverse

/-- The text of a list of parts. -/
def textOfParts : List Part → String
  | [] => "."
  | .root :: parts => "/" ++ String.intercalate "/" (parts.map Part.text)
  | parts => String.intercalate "/" (parts.map Part.text)

/-- The shortest path that means the same without links. -/
def clean (p : Path) : Path := ofText (textOfParts (cleanParts p.parts))

end Path
end ImpactGraph
