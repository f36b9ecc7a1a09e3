import ImpactGraph.Source.Parser.Module

/-!
# The grammar of statements

Statements of every kind, and which of them may stand where only one statement is governed: a
class, a lexical declaration and an asynchronous or generator function may not.
-/

set_option autoImplicit false

namespace ImpactGraph
namespace Source
namespace Parser

/-! ## Simple statements -/

/-- Reads a block. -/
def block (g : Rules) : Parser Tree := do
  expect .lbrace
  let body ← statements g
  expect .rbrace
  return .node .block body

/-- Reads an expression in parentheses that belongs to a statement. -/
def condition (g : Rules) : Parser Tree := do
  expect .lparen
  let t ← g .expression
  expect .rparen
  return t

/-- Reads `if`. -/
def ifStatement (g : Rules) : Parser Tree := do
  bump
  let subject ← condition g
  let yes ← g (.statement .single)
  if ← eatWord "else" then
    return .node .conditional [subject, yes, ← g (.statement .single)]
  return .node .conditional [subject, yes]

/-- Reads `do … while`; a semicolon after it may always be left out. -/
def doStatement (g : Rules) : Parser Tree := do
  bump
  let body ← g (.statement .single)
  expectWord "while"
  let subject ← condition g
  let _ ← eat .semicolon
  return .node .loop [body, subject]

/-- Reads `while`. -/
def whileStatement (g : Rules) : Parser Tree := do
  bump
  let subject ← condition g
  return .node .loop [subject, ← g (.statement .single)]

/-- Reads `break` or `continue`. -/
def jumpStatement : Parser Tree := do
  bump
  if !(← canEndStatement) then
    require (← atReference)
    advance
  endStatement
  return .leaf .jump

/-- Reads `return`, which stands in a function. -/
def returnStatement (g : Rules) : Parser Tree := do
  refuseIf (!(← context).returns)
  bump
  let value ← if ← canEndStatement then pure [] else pure [← allowingIn (g .expression)]
  endStatement
  return .node .jump value

/-- Reads `throw` and a value on the same line. -/
def throwStatement (g : Rules) : Parser Tree := do
  bump
  refuseIf (← onNewLine)
  let value ← g .expression
  endStatement
  return .node .jump [value]

/-- Reads `with`. -/
def withStatement (g : Rules) : Parser Tree := do
  bump
  let subject ← condition g
  return .node .withBlock [subject, ← g (.statement .single)]

/-- Whether a declaration with `using` starts here. -/
def startsUsing : Parser Bool := do
  if (← atWord "using") || (← atWord "await") then atUsing else return false

/-- Reads a case of a `switch`; none of its own statements declares with `using`. -/
def switchCase (g : Rules) : Parser Tree := do
  let test ←
    if ← eatWord "default" then pure []
    else do
      expectWord "case"
      pure [← g .expression]
  expect .colon
  let body ← manyUntil
    (do return (← atPunct .rbrace) || (← atWord "case") || (← atWord "default"))
    (do
      refuseIf (← startsUsing)
      g (.statement .list))
  return .node .switchCase (test ++ body)

/-- Reads `switch`. -/
def switchStatement (g : Rules) : Parser Tree := do
  bump
  let subject ← condition g
  expect .lbrace
  let cases ← manyUntil (atPunct .rbrace) (switchCase g)
  expect .rbrace
  return .node .switch (subject :: cases)

/-- Reads `catch` and its block. -/
def catchClause (g : Rules) : Parser Tree := do
  expectWord "catch"
  let parameter ←
    if ← eat .lparen then do
      let target ← g .binding
      let type ← typeAnnotation? g
      expect .rparen
      pure (target :: type)
    else pure []
  return .node .catchClause (parameter ++ [← g .block])

/-- Reads `try` with its `catch`, its `finally`, or both. -/
def tryStatement (g : Rules) : Parser Tree := do
  bump
  let body ← g .block
  let caught ← if ← atWord "catch" then pure [← catchClause g] else pure []
  let last ← if ← eatWord "finally" then pure [← g .block] else pure []
  refuseIf (caught.isEmpty && last.isEmpty)
  return .node .tryBlock (body :: caught ++ last)

/-! ## Loops with a head -/

/-- Reads the rest of a head with semicolons, and the body. -/
def forParts (g : Rules) (start : List Tree) (awaits : Bool) : Parser Tree := do
  refuseIf awaits
  let part (close : Punct) : Parser (List Tree) := do
    if ← atPunct close then return []
    return [← allowingIn (g .expression)]
  expect .semicolon
  let test ← part .semicolon
  expect .semicolon
  let update ← part .rparen
  expect .rparen
  let body ← g (.statement .single)
  return .node .loop (start ++ test ++ update ++ [body])

/-- Reads the rest of a head with `in` or `of`, and the body. -/
def forEach (g : Rules) (target : Tree) (awaits : Bool) : Parser Tree := do
  let values ←
    if ← eatWord "in" then do
      refuseIf awaits
      g .expression
    else do
      expectWord "of"
      g (.assignment true)
  expect .rparen
  return .node .loop [target, values, ← g (.statement .single)]

/-- Whether `let` declares variables in the head of a loop. -/
def letDeclaresInHead : Parser Bool := do
  if ← atWord "let" then
    ahead do
      bump
      let t ← token
      let names := t.isName && !t.isWord "in" && !t.isWord "instanceof"
      return names || t.isPunct .lbrace || t.isPunct .lbracket
  else return false

/-- Whether the current token is `in` or `of`. -/
def atInOrOf : Parser Bool := do return (← atWord "in") || (← atWord "of")

/-- Whether `using` declares a variable in the head of a loop; one that is called `of` it does
not. -/
def usingDeclaresInHead : Parser Bool := do
  if ← atUsing then
    ahead do
      let _ ← eatWord "await"
      bump
      return !(← atWord "of")
  else return false

/-- Reads `for`. -/
def forStatement (g : Rules) : Parser Tree := do
  bump
  let awaits ← atWord "await"
  if awaits then
    refuseIf (!(← context).awaits)
    bump
  expect .lparen
  if ← atPunct .semicolon then return ← forParts g [] awaits
  let outsideIn (c : Context) : Context := { c with allowIn := false }
  let declares (p : Parser (Tree × Bool)) : Parser Tree := do
    let (t, missing) ← within outsideIn p
    if ← atInOrOf then return ← forEach g t awaits
    checkValues missing
    forParts g [t] awaits
  if (← atWord "var") || (← atWord "const") || (← letDeclaresInHead) then
    return ← declares (variableList g)
  if ← usingDeclaresInHead then
    return ← declares do
      let r ← usingVariables g true
      refuseIf (← atWord "in")
      return r
  let startsLet ← atWord "let"
  let beforeOf : Parser Bool := ahead do
    bump
    return (← atWord "of") && !(← ahead (do bump; atPunct .arrow))
  let asyncOf ← do
    pure ((← token) == .word "async" false && (← beforeOf))
  let start ← within outsideIn (g .expression)
  if ← atInOrOf then
    refuseIf ((← atWord "of") && (startsLet || (asyncOf && !awaits)))
    match start.target? with
    | some target => forEach g target awaits
    | none => fail
  else forParts g [start] awaits

/-! ## Statements that may be declarations -/

/-- Reads an expression as a statement, or a label and the statement after it. -/
def expressionStatement (g : Rules) : Parser Tree := do
  let t ← g .expression
  if t.isName then
    if ← eat .colon then return .node .labeled [t, ← g (.statement .single)]
  endStatement
  return .node .expressionStatement [t]

/-- Whether a token after `let` is an operator that shows `let` to be a name. -/
def showsLetName : Token → Bool
  | .punct p => p.isAssignment ||
      [.eqEq, .notEq, .eqEqEq, .notEqEq, .less, .lessEq, .greater, .greaterEq, .shiftLeft,
        .shiftRight, .shiftRightZero, .plus, .minus, .star, .slash, .percent, .starStar, .bar,
        .caret, .amp].contains p
  | t => t.isWord "in" || t.isWord "instanceof"

/-- Reads a statement that starts with `let`: what follows decides whether it is a name.  After a
member or call of that name nothing need end the statement. -/
def letStatement (g : Rules) (position : Position) : Parser Tree := do
  let follows ← aheadD .eof (do bump; token)
  if showsLetName follows then
    let t ← g (.assignment true)
    endStatement
    return .node .expressionStatement [t]
  if follows.isPunct .dot || follows.isPunct .lparen then
    return .node .expressionStatement [← g .expression]
  if follows.isPunct .semicolon || (position != .list && !follows.isPunct .lbracket) then
    let t ← reference
    endStatement
    return .node .expressionStatement [t]
  refuseIf (position != .list)
  variableStatement g

/-- Reads a function as a statement; where one statement is governed, it is a plain one. -/
def functionStatement (g : Rules) (position : Position) : Parser Tree := do
  let async ← eatWord "async"
  let generator ← ahead (do bump; atPunct .star)
  refuseIf (position != .list && (async || generator))
  function g async false true

/-- Reads what stands after decorators: a class, perhaps exported. -/
def decoratedStatement (g : Rules) (position : Position) : Parser Tree := do
  let marks ← decorators g
  if ← atWord "export" then return ← exportDeclaration g marks
  refuseIf (position != .list)
  allowModifiers (← modifiers .never false) ["abstract", "declare"]
  require (← atWord "class")
  classDefinition g marks

/-- Reads a declaration that only a dialect with types has, in which `await` is a name. -/
def typedDeclaration (g : Rules) : Parser Tree :=
  within (fun c ↦ { c with awaits := false }) do
    declaration g (← modifiers .beforeEnum false) []

/-- The words that may start a declaration where types are read. -/
def typedWords : List String :=
  ["interface", "type", "module", "namespace", "declare", "enum", "private", "protected", "public",
    "abstract", "accessor", "async", "static", "readonly", "global"]

/-- Reads a statement or declaration. -/
def statement (g : Rules) (position : Position) : Parser Tree := do
  match ← token with
  | .punct .lbrace => block g
  | .punct .semicolon => advance; return .leaf .emptyStatement
  | .punct .at => decoratedStatement g position
  | .word w escaped =>
    if w == "if" then ifStatement g
    else if w == "do" then doStatement g
    else if w == "while" then whileStatement g
    else if w == "for" then forStatement g
    else if w == "break" || w == "continue" then jumpStatement
    else if w == "return" then returnStatement g
    else if w == "with" then withStatement g
    else if w == "switch" then switchStatement g
    else if w == "throw" then throwStatement g
    else if w == "try" then tryStatement g
    else if w == "debugger" then
      bump
      endStatement
      return .leaf .debuggerStatement
    else if w == "class" then
      refuseIf (position != .list)
      classDefinition g []
    else if w == "var" then variableStatement g
    else if w == "const" then
      let isEnum ← ahead (do bump; atWord "enum")
      if isEnum && (← hasTypes) then typedDeclaration g
      else
        refuseIf (position != .list)
        variableStatement g
    else if w == "let" && !escaped then letStatement g position
    else if w == "function" then functionStatement g position
    else if ← atAsyncFunction then functionStatement g position
    else if w == "import" then
      if ← atImportExpression then expressionStatement g else importDeclaration
    else if w == "export" then exportDeclaration g []
    else if (w == "using" || w == "await") && (← atUsing) then
      refuseIf (position != .list)
      let (t, missing) ← usingVariables g false
      refuseIf missing
      endStatement
      return t
    else if typedWords.contains w && (← hasTypes) && (← atTypedDeclaration) then
      typedDeclaration g
    else expressionStatement g
  | _ => expressionStatement g

end Parser
end Source
end ImpactGraph
