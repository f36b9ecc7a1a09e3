import ImpactGraph.Source.Parser.Statement

/-!
# Modules from text

`parse?` reads a text as a module in a dialect.  The rules of the grammar are tied together by
`rules`, in which each rule may use the others a bounded number of times; the bound grows with the
text, and every construct takes at least one character.
-/

set_option autoImplicit false

namespace ImpactGraph
namespace Source

namespace Parser

/-- The parser of one rule over the rules it uses. -/
def step (g : Rules) : Rule → Parser Tree
  | .statement position => statement g position
  | .block => block g
  | .expression => expression g
  | .assignment returnType => assignment g returnType
  | .binary level => binary g level
  | .unary => unary g
  | .simpleUnary => simpleUnary g
  | .leftHand => leftHand g
  | .callee => callee g
  | .object => objectLiteral g
  | .binding => binding g
  | .parameters callable => parameters g callable
  | .markup => markup g
  | .type => type g
  | .primaryType => primaryType g
  | .unionType => unionType g
  | .typeOperator => typeOperator g

/-- The grammar, unfolded `n` times. -/
def rules : Nat → Rules
  | 0, _ => fail
  | n + 1, rule => step (rules n) rule

/-- Reads a statement of a module.  Names count as exported where it is the statement itself that
exports them, not one inside it. -/
def topStatement (g : Rules) : Parser Tree := fun c s ↦
  match g (.statement .list) c { s with seen := { s.seen with vain := ∅ } } with
  | .done t after => .done t (if t.isExport then after else { after with exported := s.exported })
  | .stuck seen => .stuck seen

/-- Reads the statements of a module to the end of the text. -/
def module (g : Rules) : Parser (List Tree) :=
  manyUntil (do return (← token) == .eof) (topStatement g)

end Parser

/-- A module: its syntax tree and the contents of its block comments, in the order of the text. -/
structure Module where
  /-- The syntax tree. -/
  tree : Tree
  /-- The contents of the block comments. -/
  comments : List String
  deriving Inhabited

/-- The context of a whole module. -/
def topLevel (dialect : Dialect) (text : Chars) : Context where
  dialect := dialect
  text := text
  allowIn := true
  yields := false
  awaits := true
  returns := false
  decorates := false
  ambient := false
  plainTypes := false

/-- The state at the first token of a text. -/
def firstState (text : Chars) : State :=
  let (cursor, comments) := lex text .none (skipHashbang text)
  ⟨cursor, false, [], ⟨comments, ∅⟩⟩

/-- Reads a text as a module.  No shorthand with a default is left outside a pattern, and where no
types are read a name is exported once. -/
def parse? (dialect : Dialect) (text : String) : Option Module :=
  let chars := text.toList.toArray
  let grammar := Parser.rules (64 * (chars.size + 2))
  match Parser.module grammar (topLevel dialect chars) (firstState chars) with
  | .stuck _ => none
  | .done statements s =>
    let unique := dialect.hasTypes || decide s.exported.Nodup
    if s.refused || Tree.anyCoverDefault statements || !unique then none
    else some ⟨.node .module statements, s.seen.comments.blocks.reverse⟩

end Source
end ImpactGraph
