import ImpactGraph.Resolve.Alias
import ImpactGraph.Resolve.Probe

/-!
# Resolving specifiers

A specifier is what a module writes to name another one.  Names of external packages are left
alone; a specifier whose head is an alias is taken from the directory of the alias, any other from
the directory of the importing file.  The first candidate that is a regular file is what the
specifier resolves to.
-/

set_option autoImplicit false

namespace ImpactGraph

/-- What specifiers are resolved with. -/
structure Resolver where
  /-- The aliases. -/
  aliases : AliasTable
  /-- The names of external packages. -/
  external : List String
  /-- The extensions that are tried, in order. -/
  extensions : List String
  deriving Inhabited

/-- A specifier that resolves to no file. -/
structure ResolutionFault where
  /-- The file that imports. -/
  importer : Path
  /-- The specifier as written. -/
  specifier : String
  /-- The paths that were tried, in order. -/
  probes : List Path
  deriving Repr, Inhabited

namespace ResolutionFault

/-- The first segment of the specifier. -/
def head (fault : ResolutionFault) : String := headSegment fault.specifier

/-- The text of a fault. -/
def message (fault : ResolutionFault) : String :=
  s!"Cannot resolve '{fault.specifier}' from '{fault.importer.text}' " ++
    s!"({fault.probes.length} candidates tried)"

end ResolutionFault

/-- What a specifier stands for. -/
inductive Resolution
  /-- A file, by its canonical path. -/
  | file (path : Path)
  /-- A package that is left alone. -/
  | external
  /-- No file. -/
  | failed (fault : ResolutionFault)
  deriving Inhabited

namespace Resolver

/-- The package names under which a specifier may be listed: its head, and for a scoped name the
first two segments. -/
def packageNames (specifier : String) : List String :=
  let (head, rest) := splitHead specifier
  if head.startsWith "@" && specifier.toList.contains '/' then
    [head, head ++ "/" ++ headSegment rest]
  else [head]

/-- Whether a specifier names an external package. -/
def isExternal (r : Resolver) (specifier : String) : Bool :=
  (packageNames specifier).any (r.external.contains ·)

/-- The path that is probed for a specifier. -/
def base (r : Resolver) (importer : Path) (specifier : String) : Path :=
  match r.aliases.expand? specifier with
  | some path => path.clean
  | none => ((importer.parent?.getD importer).join (.ofText specifier)).clean

/-- The paths that are tried for a specifier, in order. -/
def probes (r : Resolver) (importer : Path) (specifier : String) : List Path :=
  Probe.candidates (r.base importer specifier) r.extensions

/-- Resolves a specifier of a file.  Where the canonical form of the file cannot be told, the probe
stands for it. -/
def resolve (r : Resolver) (importer : Path) (specifier : String) : Files Resolution := do
  if r.isExternal specifier then return .external
  let probes := r.probes importer specifier
  match ← Probe.firstFile probes with
  | none => return .failed ⟨importer, specifier, probes⟩
  | some probe =>
    match ← Files.canonical probe with
    | .ok path => return .file path
    | .error _ => return .file probe

end Resolver
end ImpactGraph
