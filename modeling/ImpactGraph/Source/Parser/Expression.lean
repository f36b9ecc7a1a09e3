import ImpactGraph.Source.Parser.Class
import ImpactGraph.Source.Parser.Markup

/-!
# The grammar of expressions

From primary expressions through member access and calls, prefix and infix operators, up to
assignments and arrow functions.  Where a parenthesis may open the parameters of an arrow function,
`arrowChance` looks ahead: what it cannot tell is tried as an arrow function first.
-/

set_option autoImplicit false

namespace ImpactGraph
namespace Source
namespace Parser

/-- Changes a context to the inside of parentheses. -/
def inParentheses (c : Context) : Context := { c with allowIn := true, decorates := false }

/-! ## Literals -/

/-- Reads a regular expression from its opening slash. -/
def regexLiteral : Parser Tree := do
  match readRegex? (← context).text (← tokenStart) with
  | none => fail
  | some stop =>
    reread .regex stop
    advance
    return .leaf .literal

/-- Reads a template without a tag; a malformed escape is refused, and leaves no value if it stands
in the first piece. -/
def templateLiteral (g : Rules) : Parser Tree := do
  let (value, items, wellFormed) ← templatePieces (allowingIn (g .expression))
  refuseIf (!wellFormed)
  match value with
  | some value => return .template value items
  | none => return .node .templateText items

/-- Reads the template after a tag, in which an escape may be malformed. -/
def templateText (g : Rules) : Parser Tree := do
  let (_, items, _) ← templatePieces (allowingIn (g .expression))
  return .node .templateText items

/-- Reads `...` and an expression. -/
def spread (g : Rules) : Parser Tree := do
  expect .ellipsis
  return .node .spread [← g (.assignment true)]

/-- Reads an array. -/
def arrayLiteral (g : Rules) : Parser Tree := do
  expect .lbracket
  let (items, trailing) ← allowingIn (commaList .rbracket do
    if ← atPunct .comma then return .leaf .hole
    if ← atPunct .ellipsis then spread g else g (.assignment true))
  expect .rbracket
  return .node (.array trailing) items

/-- Reads a getter or setter of an object after its word. -/
def objectAccessor (g : Rules) (getter : Bool) : Parser Tree := do
  let (key, _) ← propertyName g
  let f ← functionRest g false false .plain
  checkAccessor getter f
  return .node .method [key, f]

/-- Reads a property of an object. -/
def objectProperty (g : Rules) : Parser Tree := do
  if ← atPunct .ellipsis then return ← spread g
  let modifiers ← modifiers .never false
  if ← eatAccessor "get" then
    allowModifiers modifiers []
    return ← objectAccessor g true
  if ← eatAccessor "set" then
    allowModifiers modifiers []
    return ← objectAccessor g false
  let generator ← eat .star
  let first ← token
  let (key, _) ← propertyName g
  if generator || (← atPunct .lparen) || (← atPunct .less) then
    allowModifiers modifiers ["async"]
    let f ← functionRest g (modifiers.contains "async") generator .plain
    return .node .method [key, f]
  allowModifiers modifiers []
  if ← eat .colon then return .node .property [key, ← g (.assignment true)]
  match first with
  | .word w _ =>
    require first.isBinding
    checkName w
    if ← eat .assign then return .node .coverDefault [key, ← g (.assignment true)]
    return .node .shorthand [key]
  | _ => fail

/-- Reads an object. -/
def objectLiteral (g : Rules) : Parser Tree := do
  expect .lbrace
  let (properties, trailing) ← allowingIn (commaList .rbrace (objectProperty g))
  expect .rbrace
  return .node (.object trailing) properties

/-! ## Primary expressions -/

/-- Reads arguments, with their parentheses. -/
def arguments (g : Rules) : Parser (List Tree) := do
  expect .lparen
  let (args, _) ← allowingIn (commaList .rparen do
    if ← atPunct .ellipsis then spread g else g (.assignment true))
  expect .rparen
  return args

/-- Reads an expression in parentheses. -/
def parenthesized (g : Rules) : Parser Tree := do
  expect .lparen
  let inner ← within inParentheses (g .expression)
  expect .rparen
  return .node .parenthesized [inner]

/-- Reads `import(…)` or `import.meta`, or an import of a phase. -/
def importExpression (g : Rules) : Parser Tree := do
  expectWord "import"
  if ← eat .dot then
    if ← eatWord "meta" then return .leaf .metaProperty
    require ((← eatWord "source") || (← eatWord "defer"))
  expect .lparen
  allowingIn do
    let specifier ← g (.assignment true)
    let mut options := []
    if ← eat .comma then
      if !(← atPunct .rparen) then
        options := [← g (.assignment true)]
        let _ ← eat .comma
    expect .rparen
    return .importCall (specifier :: options)

/-- Whether `async function` starts here. -/
def atAsyncFunction : Parser Bool := do
  if ← atWord "async" then
    ahead do
      bump
      return (← atWord "function") && !(← onNewLine)
  else return false

/-- Reads `new` and what it makes; the operand is no import and no optional chain. -/
def newExpression (g : Rules) : Parser Tree := do
  expectWord "new"
  if ← eat .dot then
    expectWord "target"
    return .leaf .metaProperty
  let operand ← g .callee
  match operand with
  | .importCall _ | .node .instantiation (.importCall _ :: _) => refuse
  | _ => pure ()
  if ← atPunct .lparen then return .node .new (operand :: (← arguments g))
  refuseIf (← atPunct .questionDot)
  return .node .new [operand]

/-- Reads an expression without operators. -/
def primary (g : Rules) : Parser Tree := do
  match ← token with
  | .punct .at =>
    let marks ← decorators g
    classDefinition g marks
  | .number => advance; return .leaf .literal
  | .string value _ => advance; return .string value
  | .template .. => templateLiteral g
  | .punct .lbracket => arrayLiteral g
  | .punct .lbrace => objectLiteral g
  | .punct .lparen => parenthesized g
  | .punct .slash | .punct .slashAssign => regexLiteral
  | .word w _ =>
    if w == "function" then function g false true false
    else if ← atAsyncFunction then
      bump
      function g true true false
    else if w == "class" then classDefinition g []
    else if w == "this" then
      bump
      return .leaf .thisValue
    else if w == "true" || w == "false" || w == "null" then
      bump
      return .leaf .literal
    else if w == "new" then newExpression g
    else if w == "import" then importExpression g
    else if w == "super" then
      bump
      refuseIf (!((← atPunct .dot) || (← atPunct .lparen) || (← atPunct .lbracket)))
      return .leaf .superValue
    else reference
  | _ => fail

/-! ## Member access and calls -/

/-- Reads the name after a point. -/
def memberAccess : Parser Unit := do
  match ← token with
  | .privateName _ => advance
  | _ => let _ ← anyName

/-- Whether `?.` goes on with a name, a bracket or a template. -/
def atOptionalMember : Parser Bool := do
  if ← atPunct .questionDot then
    ahead do
      advance
      match ← token with
      | .word .. | .privateName _ | .template .. | .punct .lbracket => return true
      | _ => return false
  else return false

/-- Continues an expression by one access to a member, template, mark or list of type arguments.
The flag says whether an optional chain has begun. -/
def memberStep (g : Rules) (optionalAllowed : Bool) :
    Tree × Bool → Parser (Option (Tree × Bool)) := fun (t, chain) ↦ do
  if optionalAllowed && (← atOptionalMember) then
    advance
    match ← token with
    | .punct .lbracket =>
      advance
      let index ← allowingIn (g .expression)
      expect .rbracket
      return some (.node .member [t, index], true)
    | .template .. =>
      refuse
      let text ← templateText g
      return some (.node .taggedTemplate [t, text], true)
    | _ =>
      memberAccess
      return some (.node .member [t], true)
  match ← token with
  | .punct .dot =>
    advance
    memberAccess
    return some (.node .member [t], chain)
  | .punct .lbracket =>
    if (← context).decorates then return none
    advance
    let index ← allowingIn (g .expression)
    expect .rbracket
    return some (.node .member [t, index], chain)
  | .template .. =>
    refuseIf chain
    let text ← templateText g
    return some (.node .taggedTemplate [t, text], chain)
  | .punct .bang =>
    if (← hasTypes) && !(← onNewLine) then
      advance
      return some (.node .nonNull [t], chain)
    return none
  | .punct .less | .punct .shiftLeft =>
    match ← attempt? (expressionTypeArguments g) with
    | some args => return some (.node .instantiation [t, args], chain)
    | none => return none
  | _ => return none

/-- Reads the operand of `new`. -/
def callee (g : Rules) : Parser Tree := do
  let first ← primary g
  let (t, _) ← extend (first, false) (memberStep g false)
  return t

/-- Reads the arguments of a call. -/
def callArguments (g : Rules) : Parser (List Tree) :=
  within (fun c ↦ { c with decorates := false }) (arguments g)

/-- Continues an expression by one access or call. -/
def callStep (g : Rules) : Tree × Bool → Parser (Option (Tree × Bool)) := fun (t, chain) ↦ do
  if let some next ← memberStep g true (t, chain) then return some next
  if ← eat .questionDot then
    let args ← attempt? (expressionTypeArguments g)
    if (← token).isTemplate then
      refuse
      let text ← templateText g
      return some (.node .taggedTemplate (t :: args.toList ++ [text]), true)
    let values ← callArguments g
    return some (.node .call (t :: args.toList ++ values), true)
  if ← atPunct .lparen then return some (.node .call (t :: (← callArguments g)), chain)
  return none

/-- Reads a call or member expression. -/
def leftHand (g : Rules) : Parser Tree := do
  let first ← primary g
  let (t, chain) ← extend (first, false) (callStep g)
  return if chain then .node .chain [t] else t

/-! ## Prefix and infix operators -/

/-- Refuses an expression that is no simple target. -/
def checkSimpleTarget (t : Tree) : Parser Tree := do
  match t.simpleTarget? with
  | some t => return t
  | none => refuse; return t

/-- Whether the current token is a prefix operator other than `++`, `--` and `await`. -/
def atUnaryOperator : Parser Bool := atToken fun t ↦
  match t with
  | .punct p => p.isUnary
  | .word w _ => w == "delete" || w == "typeof" || w == "void"
  | _ => false

/-- Whether a word is followed on its line by what can only be its operand: a literal, or a word
other than `in` and `instanceof`. -/
def beforeOperand : Parser Bool := ahead do
  bump
  let t ← token
  let operand := t.isLiteral || (t.isName && !t.isWord "in" && !t.isWord "instanceof")
  return !(← onNewLine) && operand

/-- Whether `await` starts an operation here: where it is an operator, or where an operand follows
it. -/
def atAwait : Parser Bool := do
  if ← atWord "await" then
    if (← context).awaits then return true
    beforeOperand
  else return false

/-- Reads an operand with `++` or `--` before or after it. -/
def updateExpression (g : Rules) : Parser Tree := do
  if ← atToken fun t ↦ t.isPunct .plusPlus || t.isPunct .minusMinus then
    advance
    let t ← g .simpleUnary
    return .node .update [← checkSimpleTarget t]
  if (← hasMarkup) && (← atPunct .less) then
    let t ← g .markup
    expect .greater
    return t
  let t ← g .leftHand
  let after ← atToken fun u ↦ u.isPunct .plusPlus || u.isPunct .minusMinus
  if after && !(← onNewLine) then
    advance
    return .node .update [← checkSimpleTarget t]
  return t

/-- Reads an operand with its prefix operators. -/
def simpleUnary (g : Rules) : Parser Tree := do
  if ← atUnaryOperator then
    bump
    return .node .unary [← g .simpleUnary]
  if ← atAwait then
    refuseIf (!(← context).awaits)
    bump
    let t ← within (fun c ↦ { c with awaits := true }) (g .simpleUnary)
    return .node .await [t]
  if (← atPunct .less) && !(← hasMarkup) then
    require (← hasTypes)
    expect .less
    let type ← freeType g
    expect .greater
    return .node .castPrefix [type, ← g .simpleUnary]
  updateExpression g

/-- Reads an operand with its prefix operators; no power is taken of one. -/
def unary (g : Rules) : Parser Tree := do
  let prefixed ← do
    pure ((← atUnaryOperator) || (← atAwait) || ((← atPunct .less) && !(← hasMarkup)))
  let t ← simpleUnary g
  refuseIf (prefixed && (← atPunct .starStar))
  return t

/-- How tightly a punctuator binds as an infix operator. -/
def Punct.precedence? : Punct → Option Nat
  | .questionQuestion => some 1
  | .barBar => some 2
  | .ampAmp => some 3
  | .bar => some 4
  | .caret => some 5
  | .amp => some 6
  | .eqEq | .notEq | .eqEqEq | .notEqEq => some 7
  | .less | .lessEq | .greater | .greaterEq => some 8
  | .shiftLeft | .shiftRight | .shiftRightZero => some 9
  | .plus | .minus => some 10
  | .star | .slash | .percent => some 11
  | .starStar => some 12
  | _ => none

/-- How tightly relational operators bind. -/
def relational : Nat := 8

/-- How tightly a token binds as an infix operator. -/
def precedence? : Token → Option Nat
  | .punct p => Punct.precedence? p
  | .word w _ => if w == "in" || w == "instanceof" || w == "as" || w == "satisfies" then
      some relational else none
  | _ => none

/-- Reads the longest operator where a `>` has been read alone. -/
def joinOperator : Parser Unit := do
  if ← atPunct .greater then
    let (p, stop) := joinGreater (← context).text (← tokenStop)
    reread (.punct p) stop

/-- The node of an infix operation.  A `??` is not mixed with `&&` and `||`, but an operand that
starts with a parenthesis is taken to be in parentheses. -/
def infixNode (operator : Token) (left right : Tree) (leftOpens rightOpens : Bool) :
    Parser Tree := do
  match operator with
  | .punct .questionQuestion =>
    refuseIf (if right.isAndOr then !rightOpens else left.isAndOr && !leftOpens)
    return .node (.logical true) [left, right]
  | .punct .barBar | .punct .ampAmp => return .node (.logical false) [left, right]
  | _ => return .node .binary [left, right]

/-- Reads an operation that binds tighter than `level`. -/
def binary (g : Rules) (level : Nat) : Parser Tree := do
  let leftOpens ← atPunct .lparen
  let hidden ← atToken fun t ↦ match t with
    | .privateName _ => true
    | _ => false
  let first ←
    if hidden && (← context).allowIn then do
      advance
      expectWord "in"
      let right ← g (.binary relational)
      match right with
      | .node .privateIn _ => refuse
      | _ => pure ()
      pure (.node .privateIn [right])
    else g .unary
  extend first fun left ↦ do
    joinOperator
    let operator ← token
    match precedence? operator with
    | none => return none
    | some tightness =>
      -- powers associate to the right
      let binds := if operator.isPunct .starStar then level ≤ tightness else level < tightness
      if !binds then return none
      if operator.isWord "in" && !(← context).allowIn then return none
      if operator.isWord "as" || operator.isWord "satisfies" then
        if !(← hasTypes) || (← onNewLine) then return none
        bump
        let type ← freeType g
        return some (.node (if operator.isWord "as" then .castAs else .castSatisfies) [left, type])
      bump
      let rightOpens ← atPunct .lparen
      let right ← g (.binary tightness)
      return some (← infixNode operator left right leftOpens rightOpens)

/-! ## Arrow functions -/

/-- Whether an arrow function starts at a point of the text. -/
inductive Chance
  | yes | no | maybe
  deriving DecidableEq

/-- Looks ahead after an opening parenthesis. -/
def parenthesisChance : Parser Chance := do
  match ← token with
  | .punct .rparen =>
    advance
    if ← atPunct .colon then return .maybe
    let follows ← atToken fun t ↦ t.isPunct .arrow || t.isPunct .lbrace
    return if follows then .yes else .no
  | .punct .lbracket | .punct .lbrace => return .maybe
  | .punct .ellipsis =>
    advance
    match ← token with
    | .word w _ =>
      if (← token).isLiteral then return .no
      return if isKeyword w then .maybe else .yes
    | .number | .string .. | .regex => return .no
    | _ => return .maybe
  | first =>
    advance
    let second ← token
    let modifier := first.isName && modifierWords.any fun m ↦ m != "async" && first.isWord m
    if modifier && second.isIdentifier && !second.isWord "as" then return .yes
    if !first.isBinding && !first.isWord "this" then return .no
    match second with
    | .punct .colon => return .yes
    | .punct .question =>
      advance
      let follows ← atToken fun t ↦
        t.isPunct .colon || t.isPunct .comma || t.isPunct .assign || t.isPunct .rparen
      return if follows then .yes else .no
    | .punct .comma | .punct .assign | .punct .rparen => return .maybe
    | _ => return .no

/-- Looks ahead after an opening angle bracket; where markup is read, only a comma, a default or a
bound after the first name shows type parameters. -/
def angleChance : Parser Chance := do
  if !((← token).isBinding || (← atWord "const")) then return .no
  if !(← hasMarkup) then return .maybe
  let _ ← eatWord "const"
  advance
  if (← atPunct .comma) || (← atPunct .assign) then return .yes
  if ← eatWord "extends" then
    let closes ← atToken fun t ↦ t.isPunct .assign || t.isPunct .greater || t.isPunct .slash
    return if closes then .no else .maybe
  return .no

/-- Whether an arrow function with parentheses starts here. -/
def arrowChance : Parser Chance := aheadD .no do
  if ← eatWord "async" then
    if ← onNewLine then return .no
  if ← eat .lparen then return ← parenthesisChance
  if ← eat .less then return ← angleChance
  return .no

/-- Reads the head of an arrow function up to its `=>`; the flags say whether it is asynchronous and
whether it ends with a type. -/
def arrowHead (g : Rules) : Parser (Bool × Bool × List Tree) := do
  let async ← eatWord "async"
  let parts ← within (fun c ↦ { c with awaits := c.awaits || async }) do
    let typeParams ← typeParameters? g
    let params ← g (.parameters .plain)
    refuseIf params.hasThisParameter
    return typeParams ++ [params]
  let result ← returnAnnotation? g
  refuseIf (← onNewLine)
  expect .arrow
  return (async, !result.isEmpty, parts ++ result)

/-- Reads the body of an arrow function. -/
def arrowBody (g : Rules) (async returnType : Bool) : Parser Tree :=
  within (inFunction async false) do
    if ← atPunct .lbrace then functionBody g else g (.assignment returnType)

/-- Reads an arrow function with parentheses. -/
def arrowFunction (g : Rules) (returnType : Bool) : Parser Tree := do
  let (async, _, parts) ← arrowHead g
  return .node .arrow (parts ++ [← arrowBody g async returnType])

/-- Whether an arrow function was looked for here in vain. -/
def isVain : Parser Bool := fun _ s ↦ .done (s.seen.vain.contains s.cursor.start) s

/-- Notes that an arrow function was looked for in vain at a place. -/
def noteVain (start : Nat) : Parser Unit := fun _ s ↦
  .done () { s with seen := { s.seen with vain := s.seen.vain.insert start } }

/-- Reads an arrow function with parentheses that may turn out to be something else; where it did
once, it is not tried again.  Where no type may end its head, one that ends with a type must be
followed by a colon. -/
def possibleArrowFunction? (g : Rules) (returnType : Bool) : Parser (Option Tree) := revert? do
  if ← isVain then return none
  let start ← tokenStart
  match ← attempt? (arrowHead g) with
  | none =>
    noteVain start
    return none
  | some (async, typed, parts) =>
    let body ← arrowBody g async returnType
    if typed && !returnType && !(← atPunct .colon) then
      noteVain start
      return none
    return some (.node .arrow (parts ++ [body]))

/-- Reads `=>` and a body after the only parameter. -/
def arrowAfterName (g : Rules) (async returnType : Bool) (parameter : Tree) : Parser Tree := do
  refuseIf (← onNewLine)
  expect .arrow
  let params := Tree.node .parameters [.node .parameter [parameter]]
  return .node .arrow [params, ← arrowBody g async returnType]

/-- Whether `async` and the only parameter of an arrow function start here. -/
def atAsyncArrow : Parser Bool := do
  if ← atWord "async" then
    ahead do
      bump
      if (← onNewLine) || !(← token).isBinding then return false
      advance
      return (← atPunct .arrow) && !(← onNewLine)
  else return false

/-! ## Assignments -/

/-- Whether `yield` starts an operation here: where it is an operator, or where an operand follows
it. -/
def atYield : Parser Bool := do
  if ← atWord "yield" then
    if (← context).yields then return true
    beforeOperand
  else return false

/-- Reads `yield` and its operand. -/
def yieldExpression (g : Rules) : Parser Tree := do
  refuseIf (!(← context).yields)
  bump
  if ← onNewLine then return .leaf .yield
  let delegates ← eat .star
  let ends ← atToken fun t ↦
    [Punct.semicolon, .rbrace, .rparen, .rbracket, .colon, .comma].any (t.isPunct ·) || t == .eof
  if delegates || !ends then return .node .yield [← g (.assignment true)]
  return .leaf .yield

/-- Reads the rest of an assignment whose target has been read as an expression. -/
def assignmentRest (g : Rules) (returnType : Bool) (left : Tree) : Parser Tree := do
  let plain ← atPunct .assign
  refuseIf left.target?.isNone
  advance
  let value ← g (.assignment returnType)
  return .node (.assignment plain) [left.target?.getD left, value]

/-- Reads the rest of a conditional expression, if there is one. -/
def ternaryRest (g : Rules) (returnType : Bool) (subject : Tree) : Parser Tree := do
  if !(← eat .question) then return subject
  let yes ← allowingIn (g (.assignment false))
  expect .colon
  let no ← g (.assignment returnType)
  return .node .ternary [subject, yes, no]

/-- Reads an expression without commas that does not start like an arrow function. -/
def plainAssignment (g : Rules) (returnType : Bool) : Parser Tree := do
  if ← atAsyncArrow then
    bump
    let parameter ← g (.binary 0)
    require parameter.isName
    return ← arrowAfterName g true returnType parameter
  let left ← g (.binary 0)
  if left.isName && (← atPunct .arrow) then return ← arrowAfterName g false returnType left
  let assigns ← atToken fun t ↦ match t with
    | .punct p => p.isAssignment
    | _ => false
  if assigns then return ← assignmentRest g returnType left
  ternaryRest g returnType left

/-- Reads an expression without commas. -/
def assignment (g : Rules) (returnType : Bool) : Parser Tree := do
  if ← atYield then return ← yieldExpression g
  match ← arrowChance with
  | .yes => arrowFunction g true
  | .no => plainAssignment g returnType
  | .maybe =>
    match ← possibleArrowFunction? g returnType with
    | some t => return t
    | none => plainAssignment g returnType

/-- Reads an expression with commas, in which no decorator goes on. -/
def expression (g : Rules) : Parser Tree := within (fun c ↦ { c with decorates := false }) do
  let first ← g (.assignment true)
  if !(← atPunct .comma) then return first
  let all ← extend [first] fun read ↦ do
    if ← eat .comma then return some ((← g (.assignment true)) :: read) else return none
  return .node .sequence all.reverse

end Parser
end Source
end ImpactGraph
