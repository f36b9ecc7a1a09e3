import ImpactGraph.Path.Basic

/-!
# Dialects

A module is read as JavaScript with JSX, as TypeScript without JSX, or as TypeScript with JSX.
The dialect comes from the extension of a file or from the language of a script block.
-/

set_option autoImplicit false

namespace ImpactGraph

/-- The language a module is read in. -/
inductive Dialect
  /-- JavaScript with JSX. -/
  | javaScript
  /-- TypeScript without JSX. -/
  | typeScript
  /-- TypeScript with JSX. -/
  | tsx
  deriving DecidableEq, Repr, Inhabited

namespace Dialect

/-- Whether type annotations are read. -/
def hasTypes : Dialect → Bool
  | .javaScript => false
  | .typeScript | .tsx => true

/-- Whether JSX is read. -/
def hasMarkup : Dialect → Bool
  | .typeScript => false
  | .javaScript | .tsx => true

/-- The dialect of a file, by its extension. -/
def ofPath (path : Path) : Dialect :=
  match path.extension? with
  | some "ts" | some "mts" | some "cts" => .typeScript
  | some "tsx" => .tsx
  | _ => .javaScript

/-- The dialect of a script block, by the language it names. -/
def ofLang (lang : String) : Dialect :=
  match lang with
  | "ts" => .typeScript
  | "tsx" => .tsx
  | _ => .javaScript

end Dialect
end ImpactGraph
