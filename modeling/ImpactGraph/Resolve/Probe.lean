import ImpactGraph.Files.Basic

/-!
# Probing for a file

A specifier need not spell out the file it means.  `candidates` lists what is tried for a path: the
path itself, the path with each extension added, and an index file in the directory of that name.
-/

set_option autoImplicit false

namespace ImpactGraph
namespace Probe

/-- The paths that are tried, in order. -/
def candidates (base : Path) (extensions : List String) : List Path :=
  base ::
    extensions.map (fun ext ↦ .ofText (base.text ++ "." ++ ext)) ++
    extensions.map fun ext ↦ base.join (.ofText ("index." ++ ext))

/-- The first of the paths that leads to a regular file. -/
def firstFile : List Path → Files (Option Path)
  | [] => return none
  | p :: ps => do
    if ← Files.isFile p then return some p
    firstFile ps

end Probe
end ImpactGraph
