import Std.Data.HashSet
import ImpactGraph.Source.Dialect
import ImpactGraph.Source.Lexer
import ImpactGraph.Source.Tree

/-!
# Parsers of modules

A `Parser` reads from a `Cursor` under a `Context` of what the surrounding construct allows.  It
fails outright where the text cannot be read on, and `refuse` marks a text that can be read on but
is not a module all the same; an alternative that was tried and given up leaves no mark.  What a
failed or given-up alternative has `Seen` of the text is kept.

The grammar is recursive through `Rules`, one parser for each `Rule`, so that each part of the
grammar is a definition over the rules below it and only the knot is recursive.
-/

set_option autoImplicit false

namespace ImpactGraph
namespace Source

/-! ## Context and state -/

/-- What the construct around a stretch of text allows in it. -/
structure Context where
  /-- The language that is read. -/
  dialect : Dialect
  /-- The text that is read. -/
  text : Chars
  /-- Whether `in` is an operator. -/
  allowIn : Bool
  /-- Whether `yield` is an operator. -/
  yields : Bool
  /-- Whether `await` is an operator. -/
  awaits : Bool
  /-- Whether `return` is allowed. -/
  returns : Bool
  /-- Whether the expression of a decorator is read, where `[` does not continue it. -/
  decorates : Bool
  /-- Whether only declarations without values are read. -/
  ambient : Bool
  /-- Whether `extends` in a type starts no condition. -/
  plainTypes : Bool
  deriving Inhabited

/-- What the text has shown, whichever way it is read in the end. -/
structure Seen where
  /-- The comments. -/
  comments : Comments
  /-- Places where an arrow function was looked for in vain. -/
  vain : Std.HashSet Nat
  deriving Inhabited

/-- What has been read so far. -/
structure State where
  /-- Where the parser stands. -/
  cursor : Cursor
  /-- Whether the text has been refused. -/
  refused : Bool
  /-- The names exported so far. -/
  exported : List String
  /-- What the text has shown. -/
  seen : Seen
  deriving Inhabited

/-- What a parser comes to. -/
inductive Outcome (α : Type)
  /-- A value, and what has been read up to its end. -/
  | done (a : α) (s : State)
  /-- The text cannot be read on. -/
  | stuck (seen : Seen)

/-- A parser: reads a value and moves on, or fails. -/
def Parser (α : Type) := Context → State → Outcome α

namespace Parser

variable {α β : Type}

@[always_inline] instance : Monad Parser where
  pure a := fun _ s ↦ .done a s
  bind p f := fun c s ↦
    match p c s with
    | .done a s => f a c s
    | .stuck seen => .stuck seen

/-- Fails: the text cannot be read on. -/
def fail : Parser α := fun _ s ↦ .stuck s.seen

/-- The context. -/
def context : Parser Context := fun c s ↦ .done c s

/-- Reads in a changed context. -/
@[inline] def within (change : Context → Context) (p : Parser α) : Parser α := fun c ↦ p (change c)

/-- Reads where `in` is an operator. -/
@[inline] def allowingIn (p : Parser α) : Parser α := within (fun c ↦ { c with allowIn := true }) p

/-- Whether the dialect has types. -/
def hasTypes : Parser Bool := fun c s ↦ .done c.dialect.hasTypes s

/-- Whether the dialect has markup. -/
def hasMarkup : Parser Bool := fun c s ↦ .done c.dialect.hasMarkup s

/-- Marks the text as refused and reads on. -/
def refuse : Parser Unit := fun _ s ↦ .done () { s with refused := true }

/-- Marks the text as refused if the condition holds. -/
def refuseIf (condition : Bool) : Parser Unit := if condition then refuse else pure ()

/-- Fails unless the condition holds. -/
def require (condition : Bool) : Parser Unit := if condition then pure () else fail

/-- Reads an alternative that may fail, and then reads nothing. -/
@[inline] def attempt? (p : Parser α) : Parser (Option α) := fun c s ↦
  match p c s with
  | .done a s => .done (some a) s
  | .stuck seen => .done none { s with seen }

/-- Reads an alternative that may give up without failing, and then reads nothing. -/
@[inline] def revert? (p : Parser (Option α)) : Parser (Option α) := fun c s ↦
  match p c s with
  | .done none t => .done none { s with seen := t.seen }
  | r => r

/-- Reads ahead for a value without moving; a failure counts as the given one. -/
@[inline] def aheadD (default : α) (p : Parser α) : Parser α := fun c s ↦
  match p c s with
  | .done a t => .done a { s with seen := t.seen }
  | .stuck seen => .done default { s with seen }

/-- Reads ahead for a yes or no; a failure counts as no. -/
@[inline] def ahead (p : Parser Bool) : Parser Bool := aheadD false p

/-- Reads without counting the names that are exported on the way. -/
@[inline] def withoutExports (p : Parser α) : Parser α := fun c s ↦
  match p c s with
  | .done a t => .done a { t with exported := s.exported }
  | r => r

/-! ## Tokens -/

/-- The current token. -/
def token : Parser Token := fun _ s ↦ .done s.cursor.token s

/-- The place where the current token starts. -/
def tokenStart : Parser Nat := fun _ s ↦ .done s.cursor.start s

/-- The place after the current token. -/
def tokenStop : Parser Nat := fun _ s ↦ .done s.cursor.stop s

/-- Whether a line ended before the current token. -/
def onNewLine : Parser Bool := fun _ s ↦ .done s.cursor.newline s

/-- Whether the current token is the punctuator. -/
def atPunct (p : Punct) : Parser Bool := fun _ s ↦ .done (s.cursor.token.isPunct p) s

/-- Whether the current token is the word. -/
def atWord (w : String) : Parser Bool := fun _ s ↦ .done (s.cursor.token.isWord w) s

/-- Whether the current token satisfies a test. -/
def atToken (test : Token → Bool) : Parser Bool := fun _ s ↦ .done (test s.cursor.token) s

/-- Moves to the next token. -/
def advance : Parser Unit := fun c s ↦
  let (cursor, comments) := lex c.text s.seen.comments s.cursor.stop
  .done () { s with cursor, seen := { s.seen with comments } }

/-- Moves on from a token; a keyword is not written with an escape. -/
def bump : Parser Unit := do
  match ← token with
  | .word w true => refuseIf (isKeyword w)
  | _ => pure ()
  advance

/-- Moves on from the punctuator if it is there. -/
def eat (p : Punct) : Parser Bool := do
  if ← atPunct p then advance; return true else return false

/-- Moves on from the word if it is there. -/
def eatWord (w : String) : Parser Bool := do
  if ← atWord w then bump; return true else return false

/-- Moves on from the punctuator, which must be there. -/
def expect (p : Punct) : Parser Unit := do
  if ← atPunct p then advance else fail

/-- Moves on from the word, which must be there. -/
def expectWord (w : String) : Parser Unit := do
  if ← atWord w then bump else fail

/-- Replaces the current token by one that starts at the same place and ends at another. -/
def reread (t : Token) (stop : Nat) : Parser Unit := fun _ s ↦
  .done () { s with cursor := { s.cursor with token := t, stop } }

/-- Moves to a token that no white space stands before. -/
def standAt (t : Token) (start stop : Nat) : Parser Unit := fun _ s ↦
  .done () { s with cursor := ⟨t, false, start, stop⟩ }

/-- Splits a `<` off the current token, if it starts with one. -/
def splitLess : Parser Bool := do
  match ← token with
  | .punct .less => return true
  | .punct .shiftLeft | .punct .lessEq | .punct .shiftLeftAssign =>
    reread (.punct .less) ((← tokenStart) + 1)
    return true
  | _ => return false

/-- Whether a statement may end here without a semicolon. -/
def canEndStatement : Parser Bool := fun _ s ↦
  .done (s.cursor.newline || s.cursor.token == .punct .semicolon ||
    s.cursor.token == .punct .rbrace || s.cursor.token == .eof) s

/-- Ends a statement, with a semicolon or where one may be left out. -/
def endStatement : Parser Unit := do
  if ← eat .semicolon then return
  require (← canEndStatement)

/-! ## Repetition -/

/-- Reads items until `stop` holds. -/
def manyUntilFrom (stop : Parser Bool) (item : Parser α) : Nat → List α → Parser (List α)
  | 0, _ => fail
  | n + 1, read => fun c s ↦
    match stop c s with
    | .stuck seen => .stuck seen
    | .done true s => .done read.reverse s
    | .done false s =>
      match item c s with
      | .stuck seen => .stuck seen
      | .done a s => manyUntilFrom stop item n (a :: read) c s

/-- Reads items until `stop` holds. -/
def manyUntil (stop : Parser Bool) (item : Parser α) : Parser (List α) := fun c s ↦
  manyUntilFrom stop item (c.text.size + 2) [] c s

/-- Continues a value for as long as it can be. -/
def extendFrom (step : α → Parser (Option α)) : Nat → α → Parser α
  | 0, _ => fail
  | n + 1, a => fun c s ↦
    match step a c s with
    | .stuck seen => .stuck seen
    | .done none s => .done a s
    | .done (some a) s => extendFrom step n a c s

/-- Continues a value for as long as it can be. -/
def extend (a : α) (step : α → Parser (Option α)) : Parser α := fun c s ↦
  extendFrom step (c.text.size + 2) a c s

/-- Reads items with commas between them up to a closing punctuator, which is left.  The answer
says whether a comma stood before it. -/
def commaList (close : Punct) (item : Parser α) : Parser (List α × Bool) := do
  if ← atPunct close then return ([], false)
  let first ← item
  let (items, trailing) ← extend ([first], false) fun (read, trailing) ↦ do
    if trailing then return none
    if ← atPunct close then return none
    expect .comma
    if ← atPunct close then return some (read, true)
    let a ← item
    return some (a :: read, false)
  return (items.reverse, trailing)

/-! ## Names -/

/-- Refuses `yield` and `await` where they are operators. -/
def checkName (word : String) : Parser Unit := do
  let c ← context
  refuseIf ((c.awaits && word == "await") || (c.yields && word == "yield"))

/-- Reads a name or keyword as a name. -/
def anyName : Parser String := do
  match ← token with
  | .word w _ => advance; return w
  | _ => fail

/-- Reads a name where a variable is bound. -/
def bindingName : Parser String := do
  match ← token with
  | .word w _ =>
    require (← token).isBinding
    checkName w
    advance
    return w
  | _ => fail

/-- Whether the current token may be read as the name of a variable. -/
def atReference : Parser Bool := fun c s ↦
  .done (s.cursor.token.isIdentifier ||
    (!c.yields && s.cursor.token.isWord "yield") || (!c.awaits && s.cursor.token.isWord "await")) s

/-- Reads the name of a variable. -/
def reference : Parser Tree := do
  match ← token with
  | .word w _ =>
    require (← atReference)
    checkName w
    advance
    return .leaf (.name w)
  | _ => fail

/-- Reads a string. -/
def stringLiteral : Parser String := do
  match ← token with
  | .string value _ => advance; return value
  | _ => fail

end Parser

/-! ## Rules -/

/-- What stands around a statement. -/
inductive Position
  /-- A list of statements. -/
  | list
  /-- The one statement that another one governs, or that follows a label. -/
  | single
  deriving DecidableEq, Repr

/-- What parameters belong to. -/
inductive Callable
  /-- A function, or a method that is no member of a class. -/
  | plain
  /-- A method of a class. -/
  | classMethod
  /-- The constructor of a class, whose parameters may be fields. -/
  | classConstructor
  deriving DecidableEq, Repr

/-- The recursive rules of the grammar. -/
inductive Rule
  /-- A statement or declaration. -/
  | statement (position : Position)
  /-- A block with its braces. -/
  | block
  /-- An expression with commas. -/
  | expression
  /-- An expression without commas; `returnType` says whether an arrow function may end its head
  with a type. -/
  | assignment (returnType : Bool)
  /-- An operation that binds tighter than `level`. -/
  | binary (level : Nat)
  /-- An operand with its prefix operators. -/
  | unary
  /-- An operand with only `await` and signs before it. -/
  | simpleUnary
  /-- A call or member expression. -/
  | leftHand
  /-- An operand of `new`. -/
  | callee
  /-- An object. -/
  | object
  /-- A binding: a name or pattern. -/
  | binding
  /-- Parameters, with their parentheses. -/
  | parameters (callable : Callable)
  /-- A markup element or fragment. -/
  | markup
  /-- A type. -/
  | type
  /-- A type without conditions and functions. -/
  | unionType
  /-- A type without operators. -/
  | primaryType
  /-- A type with its prefix operators. -/
  | typeOperator
  deriving DecidableEq, Repr

/-- A parser for every rule. -/
abbrev Rules := Rule → Parser Tree

end Source
end ImpactGraph
