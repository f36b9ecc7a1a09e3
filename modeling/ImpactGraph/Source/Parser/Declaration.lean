import ImpactGraph.Source.Parser.Expression

/-!
# The grammar of declarations

Declarations of variables, functions and classes, and those that only a dialect with types has:
aliases, interfaces, enumerations and namespaces, with the modifiers before them.
-/

set_option autoImplicit false

namespace ImpactGraph
namespace Source
namespace Parser

/-! ## Variables -/

/-- Reads the binding of a variable with its marks, type and value; one that is marked as assigned
elsewhere has a type and no value.  The flag says whether a value is missing: a pattern has one, and
so has a constant. -/
def declarator (g : Rules) (constant : Bool) : Parser (Tree × Bool) := do
  let target ← g .binding
  let types ← hasTypes
  let elsewhere ←
    if types && target.isName && !(← onNewLine) then eat .bang else pure false
  if types then
    let _ ← eat .question
  let type ← typeAnnotation? g
  let value ← if ← eat .assign then pure [← g (.assignment true)] else pure []
  refuseIf (elsewhere && (type.isEmpty || !value.isEmpty))
  let missing := value.isEmpty && (constant || !target.isName)
  return (.node .declarator (target :: type ++ value), missing)

/-- Reads variables after the word that declares them.  The flag says whether a value is missing. -/
def declarators (g : Rules) (constant : Bool) : Parser (Tree × Bool) := do
  let (first, missing) ← declarator g constant
  let (all, missing) ← extend ([first], missing) fun (read, missing) ↦ do
    if ← eat .comma then
      let (t, lacks) ← declarator g constant
      return some (t :: read, missing || lacks)
    else return none
  return (.node .variableList all.reverse, missing)

/-- Reads `var`, `let` or `const` and its variables.  The flag says whether a value is missing. -/
def variableList (g : Rules) : Parser (Tree × Bool) := do
  let constant ← atWord "const"
  bump
  declarators g constant

/-- Refuses variables without a value that is missing, unless they are only declared. -/
def checkValues (missing : Bool) : Parser Unit := do refuseIf (missing && !(← context).ambient)

/-- Reads a declaration of variables as a statement. -/
def variableStatement (g : Rules) : Parser Tree := do
  let (t, missing) ← variableList g
  checkValues missing
  endStatement
  return t

/-- Whether `using`, perhaps after `await`, declares a variable here. -/
def atUsing : Parser Bool := ahead do
  if ← eatWord "await" then
    require (!(← onNewLine))
  expectWord "using"
  return !(← onNewLine) && (← token).isBinding && !(← atWord "in") && !(← atWord "instanceof")

/-- Whether every variable of a declaration is a plain name. -/
def declaresNamesOnly : Tree → Bool
  | .node .variableList items => items.all fun t ↦ match t with
    | .node .declarator (target :: _) => target.isName
    | _ => false
  | _ => false

/-- Reads `using`, perhaps after `await`, and its variables, which are plain names.  The flag says
whether a value is missing; in the head of a loop it may be. -/
def usingVariables (g : Rules) (inHead : Bool) : Parser (Tree × Bool) := do
  let _ ← eatWord "await"
  expectWord "using"
  let (t, missing) ← declarators g (!inHead)
  refuseIf (!declaresNamesOnly t)
  return (t, missing)

/-! ## Aliases and interfaces -/

/-- Reads `type A = T`. -/
def typeAlias (g : Rules) : Parser Tree := do
  expectWord "type"
  let _ ← bindingName
  let typeParams ← typeParameters? g
  expect .assign
  let type ←
    if (← atWord "intrinsic") && !(← beforeDot) then do
      bump
      pure (typeNode [])
    else freeType g
  endStatement
  return .node .typeAlias (typeParams ++ [type])

/-- Whether an expression names something: a name or `this`, perhaps in parentheses, or a plain
member of what names something. -/
def namesEntity : Tree → Bool
  | .node (.name _) _ | .node .thisValue _ => true
  | .node .parenthesized [inner] => !(inner matches .node .member _) && namesEntity inner
  | .node .member [owner] => namesEntity owner
  | _ => false

/-- Reads an interface, which extends what has a name and implements nothing. -/
def interface (g : Rules) : Parser Tree := do
  expectWord "interface"
  let _ ← bindingName
  let typeParams ← typeParameters? g
  let clauses ← heritage g
  let named := clauses.bases.all fun t ↦ match t with
    | .node .instantiation (base :: _) => namesEntity base
    | base => namesEntity base
  refuseIf (!named || !clauses.contracts.isEmpty)
  let body ← objectType g
  return .node .interface (typeParams ++ clauses.bases ++ [body])

/-! ## Enumerations -/

/-- Reads the name of a member of an enumeration: a name or a string, perhaps in brackets. -/
def enumMemberName : Parser Unit := do
  match ← token with
  | .string .. | .word .. => advance
  | .punct .lbracket =>
    advance
    match ← token with
    | .string .. => advance
    | .template (some _) true => advance
    | _ => fail
    expect .rbracket
  | _ => fail

/-- Reads a member of an enumeration. -/
def enumMember (g : Rules) : Parser Tree := do
  enumMemberName
  let value ← if ← eat .assign then pure [← g (.assignment true)] else pure []
  return .node .enumMember value

/-- Reads an enumeration. -/
def enumeration (g : Rules) : Parser Tree := do
  expectWord "enum"
  let _ ← bindingName
  expect .lbrace
  let (members, _) ← commaList .rbrace (enumMember g)
  expect .rbrace
  return .node .enumeration members

/-! ## Namespaces -/

/-- Reads the statements of a namespace, with their braces. -/
def namespaceBody (g : Rules) : Parser Tree := do
  expect .lbrace
  let body ← statements g
  expect .rbrace
  return .node .namespaceBlock body

/-- Reads a namespace, a module with a name or string, or the global one. -/
def namespaceDeclaration (g : Rules) : Parser Tree := do
  if ← eatWord "global" then return ← namespaceBody g
  let named ← atWord "namespace"
  bump
  match ← token with
  | .string .. =>
    require (!named)
    advance
    if ← atPunct .lbrace then return ← namespaceBody g
    endStatement
    return .leaf .namespaceBlock
  | _ =>
    let _ ← bindingName
    extend () fun _ ↦ do
      if ← eat .dot then
        let _ ← bindingName
        return some ()
      else return none
    namespaceBody g

/-! ## Imports by assignment -/

/-- Reads `= B.C` or `= require('x')` after the name of an import. -/
def importEquals : Parser Tree := do
  expect .assign
  if ← eatWord "require" then
    expect .lparen
    let _ ← stringLiteral
    expect .rparen
  else
    let _ ← entityName
  endStatement
  return .leaf .importEquals

/-- Reads an import by assignment, perhaps marked with `type`. -/
def importByAssignment : Parser Tree := do
  expectWord "import"
  let marked ← do pure ((← atWord "type") && (← hasTypes))
  let _ ← anyName
  if marked && (← token).isBinding then
    let _ ← anyName
  importEquals

/-! ## Declarations with modifiers -/

/-- Whether a declaration of a dialect with types starts here. -/
def atTypedDeclaration : Parser Bool := ahead do
  let skipped ← extend none fun (answer : Option Bool) ↦ do
    if answer.isSome then return none
    match ← token with
    | .word w _ =>
      if ["var", "let", "const", "function", "class", "enum"].contains w then
        return some (some true)
      else if w == "interface" || w == "type" then
        advance
        return some (some ((← token).isBinding && !(← onNewLine)))
      else if w == "module" || w == "namespace" then
        advance
        let named ← atToken fun t ↦ t.isBinding || match t with
          | .string .. => true
          | _ => false
        return some (some (named && !(← onNewLine)))
      else if ["abstract", "accessor", "async", "declare", "private", "protected", "public",
          "readonly"].contains w then
        advance
        if ← onNewLine then return some (some false)
        return some none
      else if w == "global" then
        advance
        match ← token with
        | .word next _ => return some (some (!isKeyword next || next == "export"))
        | t => return some (some (t.isPunct .lbrace))
      else if w == "import" then
        advance
        return some (some (match ← token with
          | .punct p => p == .star || p == .lbrace
          | .string .. => true
          | t => t.isIdentifier))
      else if w == "static" then
        advance
        return some none
      else return some (some false)
    | _ => return some (some false)
  return skipped.getD false

/-- Reads a declaration after its modifiers. -/
def declaration (g : Rules) (modifiers : List String) (marks : List Tree) : Parser Tree := do
  let types ← hasTypes
  let only (allowed : List String) : Parser Unit :=
    allowModifiers modifiers (if types then allowed else allowed.filter (· == "async"))
  let declared := modifiers.contains "declare"
  refuseIf (!marks.isEmpty && !(← atWord "class"))
  within (fun c ↦ { c with ambient := c.ambient || declared }) do
    match ← token with
    | .word w _ =>
      if w == "var" || w == "let" || w == "const" then
        only ["declare"]
        variableStatement g
      else if w == "function" then
        only ["declare", "async"]
        let generator ← ahead (do bump; atPunct .star)
        let t ← function g (modifiers.contains "async") false (!declared)
        refuseIf (declared && (t.hasBody || generator))
        return t
      else if w == "class" then
        only ["declare", "abstract"]
        classDefinition g marks
      else if w == "import" then importByAssignment
      else
        require types
        if w == "enum" then
          only ["declare", "const"]
          enumeration g
        else
          only ["declare"]
          if w == "interface" then interface g
          else if w == "type" then typeAlias g
          else if w == "module" || w == "namespace" || w == "global" then namespaceDeclaration g
          else fail
    | _ => fail

/-! ## Names that are declared -/

mutual

/-- The names that a binding binds. -/
def boundNames : Tree → List String
  | .node (.name text) _ => [text]
  | .node .objectPattern items => boundNamesOf items
  | .node .arrayPattern items => boundNamesOf items
  | .node .restPattern items => boundNamesOf items
  | .node .defaultValue (target :: _) => boundNames target
  | .node .patternProperty [_, value] => boundNames value
  | .node .patternProperty [target] => boundNames target
  | _ => []

/-- The names that bindings bind. -/
def boundNamesOf : List Tree → List String
  | [] => []
  | t :: ts => boundNames t ++ boundNamesOf ts

end

/-- The names that a declaration declares. -/
def declaredNames : Tree → List String
  | .node .variableList items => items.flatMap fun t ↦ match t with
    | .node .declarator (target :: _) => boundNames target
    | _ => []
  | .node .function (.node (.declares name) _ :: _) => [name]
  | .node .classDefinition parts => parts.filterMap fun t ↦ match t with
    | .node (.declares name) _ => some name
    | _ => none
  | _ => []

end Parser
end Source
end ImpactGraph
