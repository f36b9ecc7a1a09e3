import ImpactGraph.Source.Parser.Basic

/-!
# Modifiers

The words that may stand before a member, a parameter or a declaration.  Each of them is a name
elsewhere, so what follows decides: a modifier is followed by something that a name can start, and
most of them by something on the same line.  Words may stand in any order, but none twice, and only
one that says who may use a member.
-/

set_option autoImplicit false

namespace ImpactGraph
namespace Source
namespace Parser

/-- The words that say who may use a member. -/
def accessWords : List String := ["private", "protected", "public"]

/-- The words that may be modifiers. -/
def modifierWords : List String :=
  accessWords ++ ["abstract", "accessor", "async", "const", "declare", "default", "export", "in",
    "out", "override", "readonly", "static"]

/-- Where `const` is a modifier. -/
inductive ConstModifier
  /-- Nowhere. -/
  | never
  /-- Before `enum`. -/
  | beforeEnum
  /-- Where any modifier is one. -/
  | always
  deriving DecidableEq

/-- Whether a token can be the name of a property without brackets. -/
def isPlainPropertyName : Token → Bool
  | .word .. | .string .. | .number | .privateName _ => true
  | _ => false

/-- Whether a token can come after a modifier. -/
def canFollowModifier (t : Token) : Bool :=
  t.isPunct .lbracket || t.isPunct .lbrace || t.isPunct .star || t.isPunct .ellipsis ||
    isPlainPropertyName t

/-- Whether the current word is a modifier: what follows it can follow a modifier, for all but
`static` on the same line. -/
def atModifier (const : ConstModifier) : Parser Bool := do
  match ← token with
  | .word w _ =>
    if !modifierWords.contains w then return false
    if w == "const" && const == .never then return false
    ahead do
      bump
      if w == "const" && const == .beforeEnum then return ← atWord "enum"
      return (w == "static" || !(← onNewLine)) && canFollowModifier (← token)
  | _ => return false

/-- Whether a block of a class that runs once starts here. -/
def atStaticBlock : Parser Bool := do
  if ← atWord "static" then ahead (do bump; atPunct .lbrace) else return false

/-- Reads modifiers, in their order; a second `static` is a name. -/
def modifiers (const : ConstModifier) (inClass : Bool) : Parser (List String) := do
  let read ← extend ([] : List String) fun read ↦ do
    match ← token with
    | .word w _ =>
      if w == "static" && read.contains "static" then return none
      if inClass && (← atStaticBlock) then return none
      if !(← atModifier const) then return none
      bump
      refuseIf (read.contains w || (accessWords.contains w && read.any (accessWords.contains ·)))
      return some (w :: read)
    | _ => return none
  return read.reverse

/-- Refuses modifiers other than the allowed ones. -/
def allowModifiers (read allowed : List String) : Parser Unit :=
  refuseIf (!read.all (allowed.contains ·))

/-- Moves on from `get` or `set` if the name of a property follows. -/
def eatAccessor (word : String) : Parser Bool := do
  if ← atWord word then
    if ← ahead (do
        bump
        return (← token).isPunct .lbracket || isPlainPropertyName (← token)) then
      bump
      return true
  return false

end Parser
end Source
end ImpactGraph
