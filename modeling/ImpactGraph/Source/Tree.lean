/-!
# Syntax trees of modules

A `Tree` is the syntax tree of a module, in which the children of a node stand in the order of the
text.  The declarations and expressions that name other modules have constructors of their own;
every other construct is a `node` with its `Form`.

The functions here tell what the parser asks of an expression it has already read: whether it can
be assigned to, whether it is a plain name, and whether a shorthand such as `{a = 1}` was left
where only a pattern may hold it.
-/

set_option autoImplicit false

namespace ImpactGraph
namespace Source

/-- The form of a node: the construct it was read from. -/
inductive Form
  -- statements
  | module | block | emptyStatement | expressionStatement | labeled | conditional
  | loop | jump | withBlock | switch | switchCase | tryBlock | catchClause | debuggerStatement
  | variableList | declarator
  -- functions and classes
  | function | arrow | parameters | parameter | thisParameter | classDefinition | classBody
  | classMember | staticBlock | decorator | declares (name : String)
  -- patterns
  | objectPattern | arrayPattern | patternProperty | restPattern | defaultValue | hole
  -- expressions
  | name (text : String) | privateName (text : String) | thisValue | superValue | literal
  | array (trailingComma : Bool) | object (trailingComma : Bool) | property | shorthand
  | coverDefault | method | spread | parenthesized | sequence | unary | update | binary
  | logical (coalesce : Bool) | privateIn | ternary | assignment (plain : Bool) | yield | await
  | member | chain | call | new | metaProperty | taggedTemplate | templateText
  -- markup
  | markup | markupName | markupAttribute | markupContainer | markupText
  -- types
  | type | arrayType | tupleType | optionalType | restType | typeArguments | typeParameters | typed
  | castAs | castSatisfies | castPrefix | nonNull | instantiation
  -- declarations of types
  | typeAlias | interface | enumeration | enumMember | namespaceBlock | importEquals
  | exportEquals | exportNamespace | exportDefault
  deriving DecidableEq, Repr, Inhabited

/-- A syntax tree. -/
inductive Tree
  /-- `import … from 'specifier'` or `import 'specifier'`. -/
  | importDeclaration (specifier : String)
  /-- `export * from 'specifier'`. -/
  | exportAll (specifier : String)
  /-- `export {…} from 'specifier'`, `export {…}`, or an exported declaration. -/
  | exportNamed (specifier : Option String) (declaration : List Tree)
  /-- `import(…)`, with its argument and options. -/
  | importCall (arguments : List Tree)
  /-- A string. -/
  | string (value : String)
  /-- A template without a tag: the value of its first piece, and its substitutions. -/
  | template (value : String) (substitutions : List Tree)
  /-- Any other construct. -/
  | node (form : Form) (children : List Tree)
  deriving Repr, Inhabited

namespace Tree

/-- A node without children. -/
def leaf (form : Form) : Tree := node form []

/-- Whether a statement exports something. -/
def isExport : Tree → Bool
  | exportAll _ | exportNamed _ _ | node .exportDefault _ => true
  | _ => false

/-- The text of a plain name. -/
def name? : Tree → Option String
  | node (.name text) _ => some text
  | _ => none

/-- Whether the tree is a plain name. -/
def isName (t : Tree) : Bool := t.name?.isSome

/-- Whether the tree is a logical operation other than `??`. -/
def isAndOr : Tree → Bool
  | node (.logical false) _ => true
  | _ => false

/-- An expression without the parentheses, casts and marks of types around it. -/
def innermost : Tree → Tree
  | node .parenthesized [inner] | node .nonNull [inner] => innermost inner
  | node .castAs (inner :: _) | node .castSatisfies (inner :: _)
  | node .instantiation (inner :: _) => innermost inner
  | node .castPrefix [_, inner] => innermost inner
  | t => t

/-- Whether the tree is the type of an array or tuple. -/
def isArrayType : Tree → Bool
  | node .arrayType _ | node .tupleType _ => true
  | _ => false

/-- Whether a binding is a pattern, perhaps with a type or a default. -/
def isPattern : Tree → Bool
  | node .objectPattern _ | node .arrayPattern _ => true
  | node .typed (target :: _) | node .defaultValue (target :: _) => isPattern target
  | _ => false

/-- Whether parameters hold one for `this`. -/
def hasThisParameter : Tree → Bool
  | node .parameters (node .thisParameter _ :: _) => true
  | _ => false

/-- Whether the tree is a pair of braces in markup without an expression between them. -/
def isEmptyContainer : Tree → Bool
  | node .markupContainer [] => true
  | _ => false

/-- Whether a function has a body. -/
def hasBody : Tree → Bool
  | node .function parts => match parts.getLast? with
    | some (node .block _) => true
    | _ => false
  | _ => false

/-! ## Assignment targets -/

/-- Whether an expression is a target that is not a pattern: a name or member, perhaps in
parentheses, or under a cast. -/
def isSimpleTarget : Tree → Bool
  | node (.name _) _ | node .member _ => true
  | node .parenthesized [inner] => isSimpleTarget inner
  | t@(node .castAs _) | t@(node .castSatisfies _) | t@(node .castPrefix _) | t@(node .nonNull _) =>
    match innermost t with
    | node (.name _) _ | node .member _ => true
    | _ => false
  | _ => false

/-- An expression read as a target that is not a pattern. -/
def simpleTarget? (t : Tree) : Option Tree := if t.isSimpleTarget then some t else none

mutual

/-- An expression read as a target, which may be a pattern. -/
def target? : Tree → Option Tree
  | node (.array trailing) items => (arrayTargets? trailing items).map (node .arrayPattern)
  | node (.object trailing) properties =>
    (objectTargets? trailing properties).map (node .objectPattern)
  | t => simpleTarget? t

/-- A target with an optional default. -/
def targetWithDefault? : Tree → Option Tree
  | node (.assignment true) children => some (node .defaultValue children)
  | node (.assignment false) _ => none
  | t => target? t

/-- The items of an array read as targets; a rest is last, without a comma after it. -/
def arrayTargets? (trailing : Bool) : List Tree → Option (List Tree)
  | [] => some []
  | node .spread [inner] :: items =>
    if items.isEmpty && !trailing then (target? inner).map fun t ↦ [node .restPattern [t]]
    else none
  | node .hole _ :: items => (arrayTargets? trailing items).map (leaf .hole :: ·)
  | item :: items => do
    let t ← targetWithDefault? item
    let ts ← arrayTargets? trailing items
    return t :: ts

/-- The properties of an object read as targets; a rest is last, without a comma after it, and is
no pattern. -/
def objectTargets? (trailing : Bool) : List Tree → Option (List Tree)
  | [] => some []
  | node .spread [inner] :: properties =>
    if properties.isEmpty && !trailing then
      (simpleTarget? inner).map fun t ↦ [node .restPattern [t]]
    else none
  | node .property [key, value] :: properties => do
    let t ← targetWithDefault? value
    let ts ← objectTargets? trailing properties
    return node .patternProperty [key, t] :: ts
  | node .shorthand children :: properties =>
    (objectTargets? trailing properties).map (node .patternProperty children :: ·)
  | node .coverDefault children :: properties =>
    (objectTargets? trailing properties).map (node .patternProperty children :: ·)
  | _ => none

end

/-! ## Shorthands with a default -/

mutual

/-- Whether a shorthand with a default stands in the tree. -/
def hasCoverDefault : Tree → Bool
  | importDeclaration _ | exportAll _ | string _ => false
  | exportNamed _ ts | importCall ts | template _ ts => anyCoverDefault ts
  | node .coverDefault _ => true
  | node _ ts => anyCoverDefault ts

/-- Whether a shorthand with a default stands in one of the trees. -/
def anyCoverDefault : List Tree → Bool
  | [] => false
  | t :: ts => hasCoverDefault t || anyCoverDefault ts

end

end Tree
end Source
end ImpactGraph
