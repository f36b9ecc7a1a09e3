import ImpactGraph.Descriptor
import ImpactGraph.Source.Parser

/-!
# What a module imports

`Tree.imports` lists the places of a syntax tree that name another module, in the order of the
text.  A call of `import` names one only if its argument is a string or a template without
substitutions; whatever stands in its arguments is looked through all the same.

`ModuleFacts.ofText` reads a module for its imports and its descriptor.
-/

set_option autoImplicit false

namespace ImpactGraph
namespace Source

/-- How a module is named. -/
inductive ImportKind
  /-- `import … from '…'` or `import '…'`. -/
  | static
  /-- `import('…')`. -/
  | dynamic
  /-- `export … from '…'`. -/
  | reExport
  deriving DecidableEq, Repr, Inhabited

/-- A place that names another module. -/
structure ImportSite where
  /-- How the module is named. -/
  kind : ImportKind
  /-- The name as written, with its escapes read. -/
  specifier : String
  deriving DecidableEq, Repr, Inhabited

namespace Tree

/-- The text of a string, or of a template without substitutions. -/
def literal? : Tree → Option String
  | string value => some value
  | template value [] => some value
  | _ => none

/-- The site that a node is itself, apart from its children. -/
def site? : Tree → Option ImportSite
  | importDeclaration specifier => some ⟨.static, specifier⟩
  | exportAll specifier => some ⟨.reExport, specifier⟩
  | exportNamed (some specifier) _ => some ⟨.reExport, specifier⟩
  | importCall (argument :: _) => argument.literal?.map (⟨.dynamic, ·⟩)
  | _ => none

mutual

/-- The sites of a tree, in the order of the text. -/
def imports : Tree → List ImportSite
  | importDeclaration specifier => [⟨.static, specifier⟩]
  | exportAll specifier => [⟨.reExport, specifier⟩]
  | exportNamed (some specifier) ts => ⟨.reExport, specifier⟩ :: importsOf ts
  | exportNamed none ts => importsOf ts
  | importCall [] => []
  | importCall (argument :: options) =>
    match argument.literal? with
    | some specifier => ⟨.dynamic, specifier⟩ :: (imports argument ++ importsOf options)
    | none => imports argument ++ importsOf options
  | string _ => []
  | template _ ts => importsOf ts
  | node _ ts => importsOf ts

/-- The sites of trees, in the order of the text. -/
def importsOf : List Tree → List ImportSite
  | [] => []
  | t :: ts => imports t ++ importsOf ts

end
end Tree

/-! ## Facts of a module -/

/-- A module that cannot be read. -/
structure ParseFault where
  /-- The file of the module. -/
  path : Path
  /-- What is wrong with it. -/
  detail : String
  deriving Repr, Inhabited

/-- The text of a fault. -/
def ParseFault.message (fault : ParseFault) : String :=
  "Failed to parse '" ++ fault.path.text ++ "': " ++ fault.detail

/-- What is wrong with a text that is no module. -/
def syntaxDetail : String := "<syntax>"

/-- What a scan needs to know of a module. -/
structure ModuleFacts where
  /-- The modules it names, in the order of the text. -/
  imports : List ImportSite
  /-- What its marked comment says. -/
  descriptor : Descriptor
  deriving Inhabited

/-- Reads the facts of a module from its text. -/
def ModuleFacts.ofText (path : Path) (dialect : Dialect) (marker text : String) :
    Except ParseFault ModuleFacts :=
  match parse? dialect text with
  | none => .error ⟨path, syntaxDetail⟩
  | some m => .ok ⟨m.tree.imports, Descriptor.ofComments marker m.comments⟩

end Source
end ImpactGraph
