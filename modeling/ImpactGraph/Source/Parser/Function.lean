import ImpactGraph.Source.Parser.Type

/-!
# The grammar of bindings and functions

Names and patterns that bind variables, the parameters of functions, and function bodies.  Where
types are read a function may lack its body; it then ends like a statement.
-/

set_option autoImplicit false

namespace ImpactGraph
namespace Source
namespace Parser

/-! ## Bindings -/

/-- Reads `= value` after a binding, if it is there. -/
def initializer? (g : Rules) : Parser (List Tree) := do
  if ← eat .assign then return [← allowingIn (g (.assignment true))] else return []

/-- Reads a binding with the mark and type that may follow it. -/
def typedBinding (g : Rules) : Parser (List Tree) := do
  let target ← g .binding
  if ← hasTypes then
    let _ ← eat .question
  return target :: (← typeAnnotation? g)

/-- Reads a binding with what may follow it: a mark, a type and a default. -/
def bindingElement (g : Rules) : Parser Tree := do
  let target ← typedBinding g
  match target, (← initializer? g) with
  | [t], [] => return t
  | parts, [] => return .node .typed parts
  | parts, value => return .node .defaultValue (parts ++ value)

/-- Reads items with commas between them, of which one after `...` must be the last; a comma after
it is refused. -/
def commaListWithRest (close : Punct) (item rest : Parser Tree) : Parser (List Tree) := do
  let one : Parser (Tree × Bool) := do
    if ← atPunct .ellipsis then return (← rest, true) else return (← item, false)
  if ← atPunct close then return []
  let (first, isRest) ← one
  let (items, _, _) ← extend ([first], isRest, false) fun (read, hadRest, done) ↦ do
    if done then return none
    if ← atPunct close then return none
    expect .comma
    if ← atPunct close then
      refuseIf (hadRest && !(← context).ambient)
      return some (read, hadRest, true)
    refuseIf hadRest
    let (t, isRest) ← one
    return some (t :: read, hadRest || isRest, false)
  return items.reverse

/-- Reads `...` and a binding with its type. -/
def restBinding (g : Rules) : Parser Tree := do
  expect .ellipsis
  let target ← g .binding
  let type ← typeAnnotation? g
  require (!(← atPunct .assign))
  return .node .restPattern (target :: type)

/-- Reads a property of an object pattern; a name alone binds a variable of that name. -/
def patternProperty (g : Rules) : Parser Tree := do
  let bindable := (← token).isBinding
  let (key, _) ← propertyName g
  if bindable && !(← atPunct .colon) then
    match ← initializer? g with
    | [] => return .node .patternProperty [key]
    | value => return .node .patternProperty [.node .defaultValue (key :: value)]
  expect .colon
  return .node .patternProperty [key, ← bindingElement g]

/-- Reads a binding: a name, an object pattern or an array pattern. -/
def binding (g : Rules) : Parser Tree := do
  match ← token with
  | .punct .lbrace =>
    advance
    let properties ← commaListWithRest .rbrace (patternProperty g) (restBinding g)
    refuseIf (properties.any fun t ↦ match t with
      | .node .restPattern (inner :: _) => !inner.isName
      | _ => false)
    expect .rbrace
    return .node .objectPattern properties
  | .punct .lbracket =>
    advance
    let item : Parser Tree := do
      if ← atPunct .comma then return .leaf .hole
      bindingElement g
    let items ← commaListWithRest .rbracket item (restBinding g)
    expect .rbracket
    return .node .arrayPattern items
  | _ => return .leaf (.name (← bindingName))

/-! ## Decorators -/

/-- Reads decorators. -/
def decorators (g : Rules) : Parser (List Tree) :=
  manyUntil (do return !(← atPunct .at)) do
    advance
    let t ← within (fun c ↦ { c with decorates := true }) (g .leftHand)
    return .node .decorator [t]

/-! ## Parameters -/

/-- Words that make a parameter of a constructor a field. -/
def fieldModifiers : List String := accessWords ++ ["readonly", "override"]

/-- Reads a parameter.  Only parameters of the members of a class have decorators, and only those of
a constructor have modifiers; a field made by one is a plain name. -/
def parameter (g : Rules) (callable : Callable) : Parser Tree := do
  let marks ← decorators g
  let modifiers ← modifiers .never false
  let makesField := callable == .classConstructor && (← hasTypes)
  allowModifiers modifiers (if makesField then fieldModifiers else [])
  let target ← bindingElement g
  refuseIf (!marks.isEmpty && callable == .plain)
  refuseIf (!modifiers.isEmpty && target.isPattern)
  return .node .parameter (marks ++ [target])

/-- Reads the parameter for `this`, where types are read, and the comma that may follow it. -/
def thisParameter? (g : Rules) : Parser (List Tree) := do
  if !(← hasTypes) || !(← atWord "this") then return []
  bump
  let type ← typeAnnotation? g
  let _ ← eat .comma
  return [.node .thisParameter type]

/-- Reads parameters, with their parentheses. -/
def parameters (g : Rules) (callable : Callable) : Parser Tree := do
  expect .lparen
  let this ← thisParameter? g
  let params ← commaListWithRest .rparen (parameter g callable) (restBinding g)
  expect .rparen
  return .node .parameters (this ++ params)

/-! ## Bodies -/

/-- Reads statements up to a closing brace, which is left.  What they export does not count as
exported by the module. -/
def statements (g : Rules) : Parser (List Tree) :=
  withoutExports (manyUntil (atPunct .rbrace) (g (.statement .list)))

/-- Reads the body of a function, with its braces. -/
def functionBody (g : Rules) : Parser Tree := do
  expect .lbrace
  let body ← within (fun c ↦ { c with allowIn := true, returns := true }) (statements g)
  expect .rbrace
  return .node .block body

/-- Changes a context to the inside of a function. -/
def inFunction (async generator : Bool) (c : Context) : Context :=
  { c with awaits := async, yields := generator }

/-- Reads a function from its parameters on. -/
def functionRest (g : Rules) (async generator : Bool) (callable : Callable) : Parser Tree := do
  let parts ← within (fun c ↦ { inFunction async generator c with allowIn := true }) do
    let typeParams ← typeParameters? g
    let params ← g (.parameters callable)
    let result ← returnAnnotation? g
    let body ← if ← atPunct .lbrace then pure [← functionBody g] else pure []
    return typeParams ++ params :: result ++ body
  let f := Tree.node .function parts
  if !f.hasBody then
    require (← hasTypes)
    endStatement
  return f

/-- Reads the name of a function.  A required one is missed where the parameters follow at once, or
where a reserved word stands in its place. -/
def functionName? (required : Bool) : Parser (List Tree) := do
  if (← token).isBinding then return [.leaf (.declares (← bindingName))]
  if required then
    require (!(← atPunct .lparen) && !(← token).isName)
  return []

/-- Reads a function after `async`, if any: its name, if any, and the rest. -/
def function (g : Rules) (async isExpression nameRequired : Bool) : Parser Tree := do
  expectWord "function"
  let generator ← eat .star
  let inName := if isExpression then inFunction async generator else id
  let name ← within inName (functionName? nameRequired)
  match ← functionRest g async generator .plain with
  | .node form parts => return .node form (name ++ parts)
  | t => return t

end Parser
end Source
end ImpactGraph
