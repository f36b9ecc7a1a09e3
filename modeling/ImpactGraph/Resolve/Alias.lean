import ImpactGraph.Path.Clean

/-!
# Aliases

An alias stands for a directory at the head of a specifier: with `@views` for `/repo/src/views`,
the specifier `@views/List.vue` is `/repo/src/views/List.vue`.  Only the whole first segment is
looked up, so `@viewsExtra/x` has nothing to do with `@views`.
-/

set_option autoImplicit false

namespace ImpactGraph

/-- The first segment of a specifier, and what follows its first separator, if there is one. -/
def splitHead (specifier : String) : String × String :=
  let chars := specifier.toList
  let head := chars.takeWhile (· != '/')
  (String.ofList head, String.ofList (chars.drop (head.length + 1)))

/-- The first segment of a specifier. -/
def headSegment (specifier : String) : String := (splitHead specifier).1

/-- Directories by the segment that stands for them. -/
abbrev AliasTable := SortedMap String Path

namespace AliasTable

/-- The table of configured aliases; a relative directory is taken from the root. -/
def ofConfig (root : Path) (aliases : List (String × Path)) : AliasTable :=
  SortedMap.ofList (aliases.map fun (name, dir) ↦
    (name, if dir.isAbsolute then dir.clean else (root.join dir).clean))

/-- The path that a specifier stands for, if its head is an alias. -/
def expand? (table : AliasTable) (specifier : String) : Option Path :=
  let (head, rest) := splitHead specifier
  (table.get? head).map fun dir ↦ if rest.isEmpty then dir else dir.join (.ofText rest)

end AliasTable
end ImpactGraph
