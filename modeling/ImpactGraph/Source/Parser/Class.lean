import ImpactGraph.Source.Parser.Function

/-!
# The grammar of classes

A class is read member by member: decorators, modifiers, the name, and then the rest that the name
calls for.  Most modifiers may stand before any member; the few that may not are refused here, and
so are the names that a member may not have.
-/

set_option autoImplicit false

namespace ImpactGraph
namespace Source
namespace Parser

/-! ## Accessors -/

/-- The parameters of a function without the one for `this` and a rest. -/
def plainParameters : Tree → List Tree
  | .node .function parts => parts.flatMap fun part ↦ match part with
    | .node .parameters ps => ps.filter fun p ↦ match p with
      | .node .parameter _ => true
      | _ => false
    | _ => []
  | _ => []

/-- Whether a function has a rest parameter. -/
def hasRestParameter : Tree → Bool
  | .node .function parts => parts.any fun part ↦ match part with
    | .node .parameters ps => ps.any fun p ↦ match p with
      | .node .restPattern _ => true
      | _ => false
    | _ => false
  | _ => false

/-- Whether a parameter has a default. -/
def hasDefault : Tree → Bool
  | .node .parameter parts => parts.any fun part ↦ match part with
    | .node .defaultValue _ => true
    | _ => false
  | _ => false

/-- Refuses a function as a getter or setter: a getter has no parameters, a setter has one, which is
no rest and has no default where types are read. -/
def checkAccessor (getter : Bool) (f : Tree) : Parser Unit := do
  let params := plainParameters f
  if getter then refuseIf (!params.isEmpty)
  else
    let types ← hasTypes
    refuseIf (params.length != 1 || hasRestParameter f || (types && params.any hasDefault))

/-! ## Members -/

/-- The name of a member. -/
structure MemberName where
  /-- The expression in brackets, if the name is one. -/
  computed : List Tree
  /-- The text of a plain name or string. -/
  text : Option String

/-- Reads the name of a member; one that starts with `#` needs no word that says who may use it. -/
def memberName (g : Rules) (modifiers : List String) : Parser MemberName := do
  match ← token with
  | .privateName text =>
    advance
    let access := modifiers.any (accessWords.contains ·)
    refuseIf (text == "constructor" || (access && (← hasTypes)))
    return ⟨[], none⟩
  | _ =>
    match ← propertyName g with
    | (key, true) => return ⟨[key], none⟩
    | (.string value, _) => return ⟨[], some value⟩
    | (key, _) => return ⟨[], key.name?⟩

/-- Refuses a static member that is called `prototype`, unless it is only declared. -/
def checkStaticName (name : MemberName) (modifiers : List String) : Parser Unit := do
  let c ← context
  refuseIf (modifiers.contains "static" && name.text == some "prototype" && !c.ambient)

/-- Refuses what a member that is a function may not be: one without a body has no decorators, and
an abstract one has no body. -/
def checkBody (f : Tree) (marks : List Tree) (modifiers : List String) : Parser Unit :=
  refuseIf (if f.hasBody then modifiers.contains "abstract" else !marks.isEmpty)

/-- Reads a getter or setter after its word. -/
def accessorMember (g : Rules) (marks : List Tree) (modifiers : List String) (getter : Bool) :
    Parser Tree := do
  let name ← memberName g modifiers
  refuseIf (modifiers.contains "async" || modifiers.contains "declare")
  checkStaticName name modifiers
  refuseIf (!modifiers.contains "static" && name.text == some "constructor")
  let f ← functionRest g false false .classMethod
  checkAccessor getter f
  checkBody f marks modifiers
  return .node .classMember (marks ++ name.computed ++ [f])

/-- Reads a method from its parameters on. -/
def methodMember (g : Rules) (marks : List Tree) (modifiers : List String) (name : MemberName)
    (generator : Bool) : Parser Tree := do
  let async := modifiers.contains "async"
  checkStaticName name modifiers
  refuseIf (!modifiers.contains "static" && name.text == some "constructor" && (async || generator))
  let f ← functionRest g async generator .classMethod
  checkBody f marks modifiers
  return .node .classMember (marks ++ name.computed ++ [f])

/-- Changes a context to the value of a field. -/
def inField (c : Context) : Context := { c with allowIn := true, yields := false, awaits := false }

/-- Reads a field after its name and the mark that may follow it. -/
def fieldMember (g : Rules) (marks : List Tree) (modifiers : List String) (name : MemberName)
    (optional : Bool) : Parser Tree := do
  let definite ← eat .bang
  let accessor := modifiers.contains "accessor"
  refuseIf (optional && (definite || accessor))
  checkStaticName name modifiers
  refuseIf (name.text == some "constructor")
  let type ← typeAnnotation? g
  let value ←
    if ← eat .assign then
      if accessor then pure [← g (.assignment true)]
      else pure [← within inField (g .expression)]
    else pure []
  refuseIf (modifiers.contains "abstract" && !value.isEmpty)
  endStatement
  return .node .classMember (marks ++ name.computed ++ type ++ value)

/-- Whether a constructor starts here: its name, plain or as a string, and its parameters. -/
def atConstructor : Parser Bool := ahead do
  match ← token with
  | .word "constructor" _ | .string "constructor" _ =>
    advance
    return (← atPunct .lparen) || (← atPunct .less)
  | _ => return false

/-- Reads a constructor, which is not asynchronous and has neither type parameters nor a parameter
for `this`. -/
def constructorMember (g : Rules) (marks : List Tree) (modifiers : List String) : Parser Tree := do
  advance
  refuseIf (modifiers.contains "async" || (← atPunct .less))
  let f ← functionRest g false false .classConstructor
  refuseIf (match f with
    | .node .function parts => parts.any Tree.hasThisParameter
    | _ => false)
  refuseIf (!f.hasBody && !marks.isEmpty)
  return .node .classMember (marks ++ [f])

/-- Reads a block that runs once. -/
def staticBlock (g : Rules) : Parser Tree := do
  bump
  expect .lbrace
  let body ← within (fun c ↦ { c with awaits := true, yields := false, returns := false })
    (statements g)
  expect .rbrace
  return .node .staticBlock body

/-- Reads a member of a class. -/
def classMember (g : Rules) : Parser Tree := do
  if ← eat .semicolon then return .leaf .classMember
  let marks ← decorators g
  let modifiers ← modifiers .always true
  if ← atStaticBlock then
    refuseIf (!marks.isEmpty || !modifiers.isEmpty)
    return ← staticBlock g
  refuseIf (modifiers.contains "const")
  let declared := modifiers.contains "declare"
  within (fun c ↦ { c with ambient := c.ambient || declared }) do
    if ← eatAccessor "get" then return ← accessorMember g marks modifiers true
    if ← eatAccessor "set" then return ← accessorMember g marks modifiers false
    if !modifiers.contains "static" && (← atConstructor) then
      return ← constructorMember g marks modifiers
    if ← atIndexSignature then
      refuseIf (!marks.isEmpty)
      return .node .classMember [← indexSignature g modifiers]
    let generator ← eat .star
    let name ← memberName g modifiers
    let optional ← eat .question
    if generator || (← atPunct .lparen) || (← atPunct .less) then
      methodMember g marks modifiers name generator
    else fieldMember g marks modifiers name optional

/-! ## Classes -/

/-- What stands between the name and the body of a class or interface. -/
structure Heritage where
  /-- What is extended. -/
  bases : List Tree
  /-- The types that are implemented. -/
  contracts : List Tree

/-- Reads items with commas between them, of which there is at least one. -/
def oneOrMore (item : Parser Tree) : Parser (List Tree) := do
  let first ← item
  let all ← extend [first] fun read ↦ do
    if ← eat .comma then return some ((← item) :: read) else return none
  return all.reverse

/-- Reads an expression that is extended, with its type arguments. -/
def base (g : Rules) : Parser Tree := do
  let t ← g .leftHand
  match t with
  | .node .instantiation _ => return t
  | _ =>
    match ← plainTypeArguments? g with
    | [] => return t
    | args => return .node .instantiation (t :: args)

/-- Reads the name of an implemented type, with its arguments. -/
def contract (g : Rules) : Parser Tree := do
  let name ← entityName
  return typeNode (name :: (← plainTypeArguments? g))

/-- Reads `extends`, which stands once, and `implements`, which stands once after it. -/
def heritage (g : Rules) : Parser Heritage := do
  let start : Heritage × Bool × Bool := (⟨[], []⟩, false, false)
  let (clauses, _, _) ← extend start fun (read, extended, implemented) ↦ do
    if ← eatWord "extends" then
      refuseIf (extended || implemented)
      return some ({ read with bases := ← oneOrMore (base g) }, true, implemented)
    if ← eatWord "implements" then
      refuseIf implemented
      return some ({ read with contracts := ← oneOrMore (contract g) }, extended, true)
    return none
  return clauses

/-- Reads the body of a class, with its braces. -/
def classBody (g : Rules) : Parser Tree := do
  expect .lbrace
  let members ← manyUntil (atPunct .rbrace) (classMember g)
  expect .rbrace
  return .node .classBody members

/-- Reads a class, whose decorators have been read; the current token stands for the word `class`,
whatever it is.  Of a list that is extended the first item is the base, and the others count for
nothing. -/
def classDefinition (g : Rules) (marks : List Tree) : Parser Tree := do
  bump
  let named ← do pure ((← token).isBinding && !(← atWord "implements"))
  let name ← if named then pure [Tree.leaf (.declares (← bindingName))] else pure []
  let typeParams ← typeParameters? g
  let clauses ← heritage g
  refuseIf (Tree.anyCoverDefault (clauses.bases.drop 1))
  let body ← classBody g
  return .node .classDefinition
    (marks ++ name ++ typeParams ++ clauses.bases.take 1 ++ clauses.contracts ++ [body])

end Parser
end Source
end ImpactGraph
