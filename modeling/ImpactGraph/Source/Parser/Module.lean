import ImpactGraph.Source.Parser.Declaration

/-!
# The grammar of imports and exports

Declarations that name other modules, and the names a module exports.
-/

set_option autoImplicit false

namespace ImpactGraph
namespace Source
namespace Parser

/-! ## Names of specifiers -/

/-- A name in an import or export: a word, or a string. -/
inductive ModuleName
  | word (text : String)
  | string (value : String)
  deriving DecidableEq

namespace ModuleName

/-- The text of a name. -/
def text : ModuleName → String
  | word text => text
  | string value => value

/-- Whether the name can be that of a variable of this module. -/
def isLocal : ModuleName → Bool
  | word text => !isReserved text
  | string _ => false

end ModuleName

/-- Whether the name of a specifier starts here. -/
def atModuleName : Parser Bool := atToken fun t ↦ t.isName || match t with
  | .string .. => true
  | _ => false

/-- Reads a word or a string. -/
def wordOrString : Parser ModuleName := do
  match ← token with
  | .string value _ => advance; return .string value
  | .word w _ => advance; return .word w
  | _ => fail

/-- Reads the name of a specifier, in which no half of a character stands alone. -/
def moduleName : Parser ModuleName := do
  refuseIf (← atToken fun t ↦ match t with
    | .string _ whole => !whole
    | _ => false)
  wordOrString

/-- A name and what it is called on the other side. -/
structure Specifier where
  /-- The name before `as`. -/
  source : ModuleName
  /-- The name after `as`, or the same name. -/
  target : ModuleName
  /-- Whether `type` marks it. -/
  marked : Bool

/-- Reads `as` and a name, if they are there. -/
def renamed (source : ModuleName) (marked : Bool) : Parser Specifier := do
  if ← eatWord "as" then return ⟨source, ← moduleName, marked⟩
  return ⟨source, source, marked⟩

/-- Reads a specifier that starts with the word `type`, which is a mark unless it is the name. -/
def typeSpecifier : Parser Specifier := do
  bump
  let type := ModuleName.word "type"
  let as := ModuleName.word "as"
  if ← eatWord "as" then
    if ← eatWord "as" then
      if ← atModuleName then return ⟨as, ← moduleName, true⟩
      return ⟨type, as, false⟩
    if ← atModuleName then return ⟨type, ← moduleName, false⟩
    return ⟨as, as, true⟩
  if ← atModuleName then return ← renamed (← moduleName) true
  return ⟨type, type, false⟩

/-- Reads a specifier. -/
def specifier : Parser Specifier := do
  if ← atWord "type" then
    if ← hasTypes then return ← typeSpecifier
  renamed (← moduleName) false

/-- Reads specifiers in braces; where all of them are types, none is marked as one. -/
def specifiers (typesOnly : Bool) : Parser (List Specifier) := do
  expect .lbrace
  let (read, _) ← commaList .rbrace specifier
  expect .rbrace
  refuseIf (typesOnly && read.any (·.marked))
  return read

/-! ## Attributes -/

/-- Reads the attributes after the module of an import or export; no key stands twice. -/
def importAttributes : Parser Unit := do
  let follows ← do
    pure ((← atWord "with") || ((← atWord "assert") && !(← onNewLine)))
  if !follows then return
  bump
  expect .lbrace
  let (keys, _) ← commaList .rbrace do
    let key ← wordOrString
    expect .colon
    let _ ← stringLiteral
    return key.text
  expect .rbrace
  refuseIf (!decide keys.Nodup)

/-- Reads the module that an import or export names, and its attributes. -/
def moduleSpecifier : Parser String := do
  let specifier ← stringLiteral
  importAttributes
  return specifier

/-! ## Imports -/

/-- Reads what an import binds, except for a default that has been read: a namespace or specifiers
whose targets are variables. -/
def importBindings (typesOnly : Bool) : Parser Unit := do
  if ← eat .star then
    expectWord "as"
    let _ ← bindingName
  else
    let read ← specifiers typesOnly
    refuseIf (!read.all (·.target.isLocal))

/-- What stands between `import` and the module. -/
inductive ImportHead
  /-- The module alone. -/
  | bare
  /-- Bindings with a `from` after them. -/
  | clause
  /-- A name that an `=` follows. -/
  | equals
  deriving DecidableEq

/-- What the first name of an import may be besides a default. -/
inductive ImportMark
  /-- Nothing. -/
  | none
  /-- The word `type`, which says that only types are imported. -/
  | type
  /-- The word `source`, which says what of the module is imported. -/
  | source
  /-- The word `defer`, which says when the module runs. -/
  | defer
  deriving DecidableEq

/-- Whether a name follows that is bound after the mark `type`: one that is no `from`, or a `from`
before another one or an `=`. -/
def atNameOfTypes : Parser Bool := do
  if !(← token).isBinding then return false
  if ← atWord "from" then
    return ← ahead do
      advance
      return (← atWord "from") || (← atPunct .assign)
  return true

/-- Whether a name follows that is bound after the mark `source`: one that is no `from`, or a `from`
without a module after it. -/
def atNameOfSource : Parser Bool := do
  if !(← token).isBinding then return false
  if ← atWord "from" then
    return ← ahead do
      advance
      return !((← token) matches .string ..)
  return true

/-- Which mark the first name of an import turns out to be. -/
def importMark (name : String) : Parser ImportMark := do
  if name == "type" && (← hasTypes) then
    if (← atNameOfTypes) || (← atPunct .star) || (← atPunct .lbrace) then return .type
  if name == "source" then
    if ← atNameOfSource then return .source
  if name == "defer" && (← atPunct .star) then return .defer
  return .none

/-- Reads the bindings after the first name, which may be a mark of the whole import instead. -/
def importAfterName (name : String) : Parser ImportHead := do
  let mark ← importMark name
  if mark != .none then
    if !(← token).isBinding then
      importBindings (mark == .type)
      return .clause
    let _ ← bindingName
  if mark != .source && (← hasTypes) && (← atPunct .assign) then return .equals
  if ← eat .comma then importBindings (mark == .type)
  return .clause

/-- Reads an import declaration. -/
def importDeclaration : Parser Tree := do
  expectWord "import"
  let head ←
    if (← token).isBinding then importAfterName (← bindingName)
    else if (← atPunct .star) || (← atPunct .lbrace) then do
      importBindings false
      pure .clause
    else pure .bare
  if head == .equals then return ← importEquals
  if head == .clause then expectWord "from"
  let specifier ← moduleSpecifier
  endStatement
  return .importDeclaration specifier

/-! ## Exports -/

/-- Notes names that the module exports. -/
def noteExported (names : List String) : Parser Unit := fun _ s ↦
  .done () { s with exported := names ++ s.exported }

/-- Reads `export *` after `export`. -/
def exportAll : Parser Tree := do
  expect .star
  if ← eatWord "as" then
    let name ← moduleName
    noteExported [name.text]
  expectWord "from"
  let specifier ← moduleSpecifier
  endStatement
  return .exportAll specifier

/-- Whether a name may be exported as that of a variable of this module. -/
def isExportable (name : ModuleName) : Bool :=
  name.isLocal && !(strictWords.contains name.text && name.text != "let")

/-- Reads exported specifiers after `export`; those of this module are names of variables.  A
`from` may stand without a module. -/
def exportSpecifiers (typesOnly : Bool) : Parser Tree := do
  let read ← specifiers typesOnly
  noteExported (read.map (·.target.text))
  let hasModule ← do
    if ← eatWord "from" then pure (← token).isLiteral else pure false
  if hasModule then
    let specifier ← moduleSpecifier
    endStatement
    return .exportNamed (some specifier) []
  refuseIf (!read.all (isExportable ·.source))
  endStatement
  return .exportNamed none []

/-- Forgets decorators that belong to nothing. -/
def dropDecorators (marks : List Tree) : Parser Unit := refuseIf (Tree.anyCoverDefault marks)

/-- Reads decorators after a word, when `marks` were read before it; only one of the two places
holds any. -/
def moreDecorators (g : Rules) (marks : List Tree) : Parser (List Tree) := do
  let more ← decorators g
  refuseIf (!marks.isEmpty && !more.isEmpty)
  return marks ++ more

/-- Reads `export default` after `export`. -/
def exportDefault (g : Rules) (marks : List Tree) : Parser Tree := do
  expectWord "default"
  noteExported ["default"]
  let marks ← moreDecorators g marks
  let wrap (t : Tree) : Tree := .node .exportDefault [t]
  if ← atWord "class" then return wrap (← classDefinition g marks)
  let abstract ← atWord "abstract"
  if abstract && (← ahead (do bump; return (← atWord "class") && !(← onNewLine))) then
    bump
    return wrap (← classDefinition g marks)
  dropDecorators marks
  if ← atWord "interface" then return wrap (← interface g)
  if ← atWord "function" then return wrap (← function g false false false)
  if ← atAsyncFunction then
    bump
    return wrap (← function g true false false)
  let value ← g (.assignment true)
  endStatement
  return wrap value

/-- Reads a class after `export` and the decorators that follow it. -/
def exportDecorated (g : Rules) (marks : List Tree) : Parser Tree := do
  let marks ← moreDecorators g marks
  let modifiers ← modifiers .never false
  allowModifiers modifiers ["abstract", "declare"]
  let t ← classDefinition g marks
  noteExported (declaredNames t)
  return .exportNamed none [t]

/-- Reads what only a dialect with types exports, if it is there. -/
def exportOfTypes? (g : Rules) : Parser (Option Tree) := do
  if !(← hasTypes) then return none
  if ← atWord "import" then return some (← importByAssignment)
  if ← eatWord "as" then
    expectWord "namespace"
    let _ ← bindingName
    endStatement
    return some (.leaf .exportNamespace)
  if ← eat .assign then
    let value ← g (.assignment true)
    endStatement
    return some (.node .exportEquals [value])
  if (← atWord "type") &&
      (← ahead (do bump; return (← atPunct .lbrace) || (← atPunct .star))) then
    bump
    if ← atPunct .star then return some (← exportAll)
    return some (← exportSpecifiers true)
  return none

/-- Reads an export declaration, whose decorators before `export` have been read. -/
def exportDeclaration (g : Rules) (marks : List Tree) : Parser Tree := do
  expectWord "export"
  if ← atPunct .at then return ← exportDecorated g marks
  if ← atWord "default" then return ← exportDefault g marks
  if ← atPunct .star then
    dropDecorators marks
    return ← exportAll
  if ← atPunct .lbrace then
    dropDecorators marks
    return ← exportSpecifiers false
  if let some t ← exportOfTypes? g then
    dropDecorators marks
    return t
  let t ← declaration g (← modifiers .beforeEnum false) marks
  noteExported (declaredNames t)
  return .exportNamed none [t]

/-! ## Statements that import or export -/

/-- Whether `import` starts an expression. -/
def atImportExpression : Parser Bool := ahead do
  expectWord "import"
  return (← atPunct .dot) || (← atPunct .lparen)

end Parser
end Source
end ImpactGraph
