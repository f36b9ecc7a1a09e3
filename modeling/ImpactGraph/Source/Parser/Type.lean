import ImpactGraph.Source.Parser.Modifier

/-!
# The grammar of types

Type annotations, type parameters and arguments, and the members of object types.  Much of it is
wider than the language: any keyword can name a type, no separator is needed between the members
of an object type, and whatever token stands between the parameters of a function type and its
result counts as the arrow.
-/

set_option autoImplicit false

namespace ImpactGraph
namespace Source
namespace Parser

/-- A node read as part of a type. -/
def typeNode (children : List Tree) : Tree := .node .type children

/-- Reads a type that may start a condition of its own. -/
def freeType (g : Rules) : Parser Tree :=
  within (fun c ↦ { c with plainTypes := false }) (g .type)

/-! ## Annotations -/

/-- Reads `: T`, if types are read and a colon is there. -/
def typeAnnotation? (g : Rules) : Parser (List Tree) := do
  if !(← hasTypes) then return []
  if ← eat .colon then return [← g .type] else return []

/-- Reads a type, or the test of a parameter such as `x is T`. -/
def typeOrTest (g : Rules) : Parser Tree := do
  if ← atToken Token.isIdentifier then
    let _ ← attempt? do
      let _ ← anyName
      require (!(← onNewLine))
      expectWord "is"
  g .type

/-- Reads the type that a function returns. -/
def returnType (g : Rules) : Parser Tree :=
  within (fun c ↦ { c with plainTypes := false }) (typeOrTest g)

/-- Reads `: T` at the end of a head, if types are read and a colon is there. -/
def returnAnnotation? (g : Rules) : Parser (List Tree) := do
  if !(← hasTypes) then return []
  if ← eat .colon then return [← returnType g] else return []

/-! ## Type parameters and arguments -/

/-- Reads one type parameter. -/
def typeParameter (g : Rules) : Parser Tree := do
  allowModifiers (← modifiers .always false) ["const", "in", "out"]
  let _ ← bindingName
  let bound ← if ← eatWord "extends" then pure [← g .type] else pure []
  let default ← if ← eat .assign then pure [← g .type] else pure []
  return typeNode (bound ++ default)

/-- Reads `<T, …>` if it is there; there is at least one parameter. -/
def typeParameters? (g : Rules) : Parser (List Tree) := do
  if !(← hasTypes) || !(← atPunct .less) then return []
  advance
  let (parameters, _) ← commaList .greater (typeParameter g)
  refuseIf parameters.isEmpty
  expect .greater
  return [.node .typeParameters parameters]

/-- Reads `<T, …` up to the closing bracket, which is left; there is at least one type. -/
def typeArguments (g : Rules) : Parser Tree := do
  expect .less
  let (types, _) ← commaList .greater (g .type)
  refuseIf types.isEmpty
  return .node .typeArguments types

/-- Reads type arguments if their bracket is there, written alone. -/
def plainTypeArguments? (g : Rules) : Parser (List Tree) := do
  if !(← atPunct .less) then return []
  let types ← typeArguments g
  expect .greater
  return [types]

/-- Reads the type arguments of a name, if they follow on the same line; their bracket may have to
be split off a longer operator. -/
def typeArguments? (g : Rules) : Parser (List Tree) := do
  if ← onNewLine then return []
  let _ ← splitLess
  plainTypeArguments? g

/-- Reads the name of a type: names with dots between them. -/
def entityName : Parser Tree := do
  let _ ← anyName
  extend () fun _ ↦ do
    if ← eat .dot then
      let _ ← anyName
      return some ()
    else return none
  return typeNode []

/-! ## Members of object types -/

/-- Ends a member of an object type; nothing need stand there. -/
def endMember : Parser Unit := do
  if ← eat .comma then return
  let _ ← eat .semicolon

/-- Whether `[` starts the parameter of an index signature. -/
def atIndexSignature : Parser Bool := do
  if !(← atPunct .lbracket) then return false
  ahead do
    advance
    if (← atPunct .ellipsis) || (← atPunct .lbracket) then return true
    let first ← token
    if !first.isName then return false
    if modifierWords.any (first.isWord ·) then
      advance
      if (← token).isIdentifier then return true
    else
      if !first.isIdentifier then return false
      advance
    if (← atPunct .colon) || (← atPunct .comma) then return true
    if !(← eat .question) then return false
    return (← atPunct .colon) || (← atPunct .comma) || (← atPunct .rbracket)

/-- Reads an index signature `[key: T]: U`, which has one key. -/
def indexSignature (g : Rules) (modifiers : List String) : Parser Tree := do
  allowModifiers modifiers ["readonly", "static"]
  expect .lbracket
  let (keys, trailing) ← commaList .rbracket do
    let _ ← anyName
    match ← typeAnnotation? g with
    | [type] => return type
    | _ => fail
  refuseIf (trailing || keys.length != 1)
  expect .rbracket
  let value ← typeAnnotation? g
  require (!value.isEmpty)
  endMember
  return typeNode (keys ++ value)

/-- Reads an expression in brackets as the name of a property. -/
def computedName (g : Rules) : Parser Tree := do
  expect .lbracket
  let key ← allowingIn (g (.assignment true))
  expect .rbracket
  return key

/-- Reads the name of a property; the flag says whether it is in brackets. -/
def propertyName (g : Rules) : Parser (Tree × Bool) := do
  match ← token with
  | .string value _ => advance; return (.string value, false)
  | .number => advance; return (.leaf .literal, false)
  | .punct .lbracket => return (← computedName g, true)
  | .word w _ => advance; return (.leaf (.name w), false)
  | _ => fail

/-- Reads the rest of a call or construct signature; one that constructs has no `this`. -/
def signature (g : Rules) (constructs : Bool) : Parser Tree := do
  let typeParams ← typeParameters? g
  let params ← g (.parameters .plain)
  refuseIf (constructs && params.hasThisParameter)
  let result ← returnAnnotation? g
  endMember
  return typeNode (typeParams ++ params :: result)

/-- Reads the rest of a getter or setter in an object type; a setter returns nothing. -/
def accessorSignature (g : Rules) (modifiers : List String) (getter : Bool) : Parser Tree := do
  allowModifiers modifiers []
  let (key, _) ← propertyName g
  let params ← g (.parameters .plain)
  let result ← returnAnnotation? g
  refuseIf (!getter && !result.isEmpty)
  endMember
  return typeNode (key :: params :: result)

/-- Whether a construct signature starts here. -/
def atConstructSignature : Parser Bool := do
  if ← atWord "new" then
    ahead do
      bump
      return (← atPunct .lparen) || (← atPunct .less)
  else return false

/-- Reads a member of an object type. -/
def typeMember (g : Rules) : Parser Tree := do
  if (← atPunct .lparen) || (← atPunct .less) then return ← signature g false
  if ← atConstructSignature then
    bump
    return ← signature g true
  let modifiers ← modifiers .never false
  if ← eatAccessor "get" then return ← accessorSignature g modifiers true
  if ← eatAccessor "set" then return ← accessorSignature g modifiers false
  if ← atIndexSignature then return ← indexSignature g modifiers
  let (key, _) ← propertyName g
  let _ ← eat .question
  if (← atPunct .lparen) || (← atPunct .less) then
    allowModifiers modifiers []
    return typeNode [key, ← signature g false]
  allowModifiers modifiers ["readonly"]
  let type ← typeAnnotation? g
  endMember
  return typeNode (key :: type)

/-- Reads the members of an object type, with its braces. -/
def objectType (g : Rules) : Parser Tree := do
  expect .lbrace
  let members ← manyUntil (atPunct .rbrace) (typeMember g)
  expect .rbrace
  return typeNode members

/-! ## Mapped types and tuples -/

/-- Whether `{` starts a mapped type. -/
def atMappedType : Parser Bool := ahead do
  expect .lbrace
  if (← atPunct .plus) || (← atPunct .minus) then
    advance
    return ← atWord "readonly"
  let _ ← eatWord "readonly"
  expect .lbracket
  require (← token).isIdentifier
  advance
  atWord "in"

/-- Reads `+` or `-` and a token that must follow, or that token alone, if one of them is there. -/
def signed (isMark : Token → Bool) : Parser Unit := do
  if (← atPunct .plus) || (← atPunct .minus) then
    advance
    require (isMark (← token))
    bump
  else if isMark (← token) then bump

/-- Reads a mapped type. -/
def mappedType (g : Rules) : Parser Tree := do
  expect .lbrace
  signed (·.isWord "readonly")
  expect .lbracket
  let _ ← bindingName
  expectWord "in"
  let keys ← g .type
  let renamed ← if ← eatWord "as" then pure [← g .type] else pure []
  expect .rbracket
  signed (·.isPunct .question)
  let value ← if ← eat .colon then pure [← g .type] else pure []
  let _ ← eat .semicolon
  expect .rbrace
  return typeNode (keys :: renamed ++ value)

/-- Whether a labelled element of a tuple type starts here. -/
def atLabelledElement : Parser Bool := ahead do
  let _ ← eat .ellipsis
  let _ ← anyName
  let _ ← eat .question
  atPunct .colon

/-- Reads an element of a tuple type without its label. -/
def plainElement (g : Rules) : Parser Tree := do
  if ← eat .ellipsis then return .node .restType [← g .type]
  g .type

/-- Reads an element of a tuple type.  What is optional or a rest is marked at the label, if there
is one, and none is both. -/
def tupleElement (g : Rules) : Parser Tree := do
  if !(← atLabelledElement) then return ← plainElement g
  let rest ← eat .ellipsis
  let _ ← anyName
  let optional ← eat .question
  refuseIf (rest && optional)
  expect .colon
  let type ← plainElement g
  match type with
  | .node .optionalType _ | .node .restType _ => refuse
  | _ => pure ()
  return type

/-! ## Templates -/

/-- Reads the pieces of a template from its first piece, which is the current token.  Between two
pieces stands an item, or more than one in a row.  The flag says whether the escapes in all pieces
are well formed. -/
def templatePieces (item : Parser Tree) : Parser (Option String × List Tree × Bool) := do
  match ← token with
  | .template value closed =>
    if closed then
      advance
      return (value, [], value.isSome)
    let (items, _, wellFormed) ← extend (([] : List Tree), false, value.isSome)
      fun (read, done, wellFormed) ↦ do
        if done then return none
        advance
        let first ← item
        let ts := first :: (← manyUntil (atPunct .rbrace) item)
        let start ← tokenStop
        let (piece, stop) := readTemplate (← context).text start
        standAt piece start stop
        match piece with
        | .template value closed =>
          return some (ts.reverse ++ read, closed, wellFormed && value.isSome)
        | _ => fail
    advance
    return (value, items.reverse, wellFormed)
  | _ => fail

/-! ## Types -/

/-- Reads `import('…')` in a type, perhaps after `typeof`. -/
def importType (g : Rules) : Parser Tree := do
  expectWord "import"
  expect .lparen
  let _ ← stringLiteral
  let options ← if ← eat .comma then pure [← g .object] else pure []
  expect .rparen
  if ← eat .dot then
    let _ ← entityName
  let args ← typeArguments? g
  return typeNode (options ++ args)

/-- Whether the text has been refused so far. -/
def isRefused : Parser Bool := fun _ s ↦ .done s.refused s

/-- Whether `(` surely starts the parameters of a function type. -/
def atFunctionParameters (g : Rules) : Parser Bool := ahead do
  expect .lparen
  if (← atPunct .rparen) || (← atPunct .ellipsis) then return true
  let _ ← modifiers .never false
  if (← token).isIdentifier || (← atWord "this") then advance
  else
    require ((← atPunct .lbracket) || (← atPunct .lbrace))
    let _ ← g .binding
    require (!(← isRefused))
  if (← atPunct .colon) || (← atPunct .comma) || (← atPunct .question) || (← atPunct .assign) then
    return true
  if ← eat .rparen then return ← atPunct .arrow
  return false

/-- Reads a function or constructor type after its `new`, if there is one; one that constructs has
no `this`. -/
def functionType (g : Rules) (constructs : Bool) : Parser Tree := do
  let typeParams ← typeParameters? g
  let params ← g (.parameters .plain)
  refuseIf (constructs && params.hasThisParameter)
  bump
  let result ← returnType g
  return typeNode (typeParams ++ [params, result])

/-- Whether a function or constructor type starts here. -/
def atFunctionType (g : Rules) : Parser Bool := do
  if ← atPunct .less then return true
  if ← atPunct .lparen then return ← atFunctionParameters g
  if ← atWord "new" then return true
  if ← atWord "abstract" then return ← ahead (do bump; atWord "new")
  return false

/-- Reads a type. -/
def type (g : Rules) : Parser Tree := do
  if ← atFunctionType g then
    let _ ← eatWord "abstract"
    return ← functionType g (← eatWord "new")
  let subject ← g .unionType
  if (← context).plainTypes || (← onNewLine) then return subject
  if ← eatWord "extends" then
    let bound ← within (fun c ↦ { c with plainTypes := true }) (g .type)
    expect .question
    let yes ← freeType g
    expect .colon
    let no ← freeType g
    return typeNode [subject, bound, yes, no]
  return subject

/-- Reads operands with an operator between them, and perhaps one before the first. -/
def operatorList (operator : Punct) (operand : Parser Tree) : Parser Tree := do
  let _ ← eat operator
  let first ← operand
  let types ← extend [first] fun read ↦ do
    if ← eat operator then return some ((← operand) :: read) else return none
  match types with
  | [t] => return t
  | _ => return typeNode types.reverse

/-- Reads a union of intersections. -/
def unionType (g : Rules) : Parser Tree :=
  operatorList .bar (operatorList .amp (g .typeOperator))

/-- Reads the bound of an inferred type, unless what follows shows it to be a condition. -/
def inferredBound (g : Rules) : Parser Tree := do
  expectWord "extends"
  let bound ← within (fun c ↦ { c with plainTypes := true }) (g .type)
  require ((← context).plainTypes || !(← atPunct .question))
  return bound

/-- The words that are types of their own. -/
def typeWords : List String :=
  ["any", "unknown", "string", "number", "bigint", "symbol", "boolean", "undefined", "never",
    "object"]

/-- Whether a type, or a parameter, may start at a token, as far as the token itself tells. -/
def mayStartType : Token → Bool
  | .word w _ =>
    !isReserved w ||
      ["void", "null", "this", "typeof", "new", "true", "false", "import", "break",
        "function"].contains w
  | .string .. | .number | .template .. => true
  | .punct p =>
    [.lbrace, .lbracket, .less, .bar, .amp, .star, .question, .ellipsis, .lparen, .minus].contains p
  | _ => false

/-- Whether a type starts here. -/
def startsType : Parser Bool := do
  match ← token with
  | .punct .minus => ahead do
      advance
      return (← token) == .number
  | .punct .lparen => ahead do
      advance
      return (← atPunct .rparen) || (← atPunct .at) || (← token).isName || mayStartType (← token)
  | t => return mayStartType t

/-- Reads a type after a `?`, or none if what follows shows that it stands alone. -/
def unknownOrNullable (g : Rules) : Parser Tree := do
  expect .question
  let alone ← atToken fun t ↦
    [Punct.comma, .rbrace, .rparen, .greater, .assign, .bar].any (t.isPunct ·)
  if alone then return typeNode []
  return typeNode [← g .type]

/-- Whether a test that a parameter passes starts here. -/
def atAssertion : Parser Bool := do
  if ← atWord "asserts" then
    ahead do
      bump
      return !(← onNewLine) && ((← token).isIdentifier || (← atWord "this"))
  else return false

/-- Whether the word here is followed by a dot. -/
def beforeDot : Parser Bool := ahead (do bump; atPunct .dot)

/-- Reads a type that starts with a word. -/
def wordType (g : Rules) (w : String) : Parser Tree := do
  if ["void", "null", "true", "false"].contains w then
    bump
    return typeNode []
  else if w == "this" then
    bump
    if (← atWord "is") && !(← onNewLine) then
      bump
      return ← g .type
    return typeNode []
  else if w == "typeof" then
    bump
    if ← atWord "import" then return ← importType g
    let name ← entityName
    if ← onNewLine then return name
    return typeNode (name :: (← plainTypeArguments? g))
  else if w == "import" then importType g
  else if ← atAssertion then
    bump
    advance
    if ← eatWord "is" then return ← g .type
    return typeNode []
  else if typeWords.contains w && !(← beforeDot) then
    bump
    return typeNode []
  else
    let name ← entityName
    return typeNode (name :: (← typeArguments? g))

/-- Reads a type without operators. -/
def primaryType (g : Rules) : Parser Tree := do
  match ← token with
  | .string .. | .number => advance; return typeNode []
  | .template .. =>
    let (_, items, wellFormed) ← templatePieces (g .type)
    refuseIf (!wellFormed)
    return typeNode items
  | .punct .minus =>
    advance
    require ((← token) == .number)
    advance
    return typeNode []
  | .punct .lbrace => if ← atMappedType then mappedType g else objectType g
  | .punct .lbracket =>
    advance
    let (items, _) ← commaList .rbracket (tupleElement g)
    expect .rbracket
    return .node .tupleType items
  | .punct .lparen =>
    advance
    let t ← g .type
    expect .rparen
    return typeNode [t]
  | .punct .question => unknownOrNullable g
  | .punct .bang =>
    advance
    return typeNode [← g .primaryType]
  | .word w _ => wordType g w
  | _ => fail

/-- Reads a type with the brackets and marks after it. -/
def postfixType (g : Rules) : Parser Tree := do
  let first ← g .primaryType
  extend first fun t ↦ do
    if ← onNewLine then return none
    match ← token with
    | .punct .bang => advance; return some (typeNode [t])
    | .punct .question =>
      if ← ahead (do advance; startsType) then return none
      advance
      return some (.node .optionalType [t])
    | .punct .lbracket =>
      advance
      if ← startsType then
        let index ← g .type
        expect .rbracket
        return some (typeNode [t, index])
      expect .rbracket
      return some (.node .arrayType [t])
    | _ => return none

/-- Reads a type with the operators before it; `readonly` stands before the type of an array or
tuple. -/
def typeOperator (g : Rules) : Parser Tree := do
  match ← token with
  | .word w _ =>
    if w == "keyof" || w == "unique" || w == "readonly" then
      bump
      let t ← g .typeOperator
      refuseIf (w == "readonly" && !t.isArrayType)
      return typeNode [t]
    else if w == "infer" then
      bump
      let _ ← bindingName
      let bound ← attempt? (inferredBound g)
      return typeNode bound.toList
    else operand
  | _ => operand
where
  /-- Reads a type without operators before it. -/
  operand : Parser Tree := within (fun c ↦ { c with plainTypes := false }) (postfixType g)

/-! ## Type arguments in expressions -/

/-- Whether an infix operator stands here. -/
def atBinaryOperator : Parser Bool := do
  let c ← context
  atToken fun t ↦
    match t with
    | .punct p =>
      [.eqEq, .notEq, .eqEqEq, .notEqEq, .less, .lessEq, .greater, .greaterEq, .shiftLeft,
        .shiftRight, .shiftRightZero, .plus, .minus, .star, .slash, .percent, .starStar, .bar,
        .caret, .amp, .ampAmp, .barBar, .questionQuestion].contains p
    | .word w _ =>
      ["instanceof", "as", "satisfies"].contains w || (w == "in" && !c.allowIn)
    | _ => false

/-- Whether an expression may start at a token. -/
def mayStartExpression : Token → Bool
  | .word w _ =>
    !isReserved w ||
      ["this", "super", "function", "class", "new", "null", "true", "false", "typeof", "void",
        "delete", "import", "await", "yield", "in", "instanceof"].contains w
  | .number | .string .. | .template .. | .regex | .privateName _ => true
  | .punct p =>
    [.lparen, .lbracket, .lbrace, .slash, .slashAssign, .bang, .tilde, .plus, .minus, .plusPlus,
      .minusMinus, .less, .at].contains p
  | _ => false

/-- Whether what follows type arguments in an expression shows that they are such. -/
def canFollowTypeArguments : Parser Bool := do
  match ← token with
  | .punct .lparen | .template .. => return true
  | .punct .less | .punct .greater | .punct .plus | .punct .minus => return false
  | t => return (← onNewLine) || (← atBinaryOperator) || !mayStartExpression t

/-- Reads type arguments in an expression; they are followed by what can follow them. -/
def expressionTypeArguments (g : Rules) : Parser Tree := do
  require (← hasTypes)
  require (← splitLess)
  let types ← typeArguments g
  require (← atPunct .greater)
  let (joined, _) := joinGreater (← context).text (← tokenStop)
  require (joined == .greater)
  expect .greater
  require (← canFollowTypeArguments)
  return types

end Parser
end Source
end ImpactGraph
