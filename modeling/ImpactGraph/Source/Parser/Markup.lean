import ImpactGraph.Source.Parser.Type

/-!
# The grammar of markup

Elements and fragments in angle brackets.  The text between tags is not split into tokens, so after
the `>` of a tag and the `}` of a substitution the parser moves with `enterContent`.  An element is
read up to its last `>`, which is left: what follows it depends on where the element stands.
-/

set_option autoImplicit false

namespace ImpactGraph
namespace Source
namespace Parser

/-! ## Content -/

/-- Moves past the current token into the content of an element. -/
def enterContent : Parser Unit := do
  let text := (← context).text
  let start ← tokenStop
  match text[start]? with
  | none => standAt .eof start start
  | some '<' => standAt (.punct .less) start (start + 1)
  | some '{' => standAt (.punct .lbrace) start (start + 1)
  | some _ =>
    match skipMarkupText? text start with
    | some stop => standAt .markupText start stop
    | none => fail

/-- Moves past the `=` of an attribute; a string is read without escapes. -/
def enterValue : Parser Unit := do
  advance
  let text := (← context).text
  let start ← tokenStart
  match text[start]? with
  | some quote =>
    if quote == '"' || quote == '\'' then
      let stop := skipWhile (· != quote) text (start + 1)
      require (stop < text.size)
      reread (.string (slice text (start + 1) stop) true) (stop + 1)
  | none => pure ()

/-! ## Names -/

/-- Reads a name, in which hyphens may stand; its value is the name as it is written. -/
def markupName : Parser String := do
  match ← token with
  | .word .. =>
    let text := (← context).text
    let start ← tokenStart
    let stop ← tokenStop
    if holds text stop '-' then
      let longer := skipWhile (fun c ↦ c == '-' || continuesName c) text stop
      reread (.word (slice text start longer) false) longer
      advance
      return slice text start longer
    else
      bump
      return slice text start stop
  | _ => fail

/-- Reads the name of an element: a name, two with a colon, or several with points. -/
def elementName : Parser String := do
  let first ← markupName
  if ← eat .colon then return first ++ ":" ++ (← markupName)
  extend first fun name ↦ do
    if ← eat .dot then
      let part ← markupName
      require (!part.contains '-')
      return some (name ++ "." ++ part)
    else return none

/-! ## Attributes -/

/-- Reads an expression in braces up to the closing brace, which is left.  It may be missing, and no
comma stands in it, except after `...`. -/
def substitution (g : Rules) : Parser Tree := do
  expect .lbrace
  if ← atPunct .rbrace then return .leaf .markupContainer
  let spread ← eat .ellipsis
  let value ← g .expression
  require (← atPunct .rbrace)
  if spread then return .node .markupContainer [.node .spread [value]]
  refuseIf (value matches .node .sequence _)
  return .node .markupContainer [value]

/-- Reads an attribute. -/
def markupAttribute (g : Rules) : Parser Tree := do
  if ← atPunct .lbrace then
    require (← ahead (do advance; atPunct .ellipsis))
    let value ← substitution g
    expect .rbrace
    return .node .markupAttribute [value]
  let _ ← markupName
  if ← eat .colon then
    let _ ← markupName
  if !(← atPunct .assign) then return .leaf .markupAttribute
  enterValue
  match ← token with
  | .string .. => advance; return .leaf .markupAttribute
  | .punct .lbrace =>
    require (!(← ahead (do advance; atPunct .ellipsis)))
    let value ← substitution g
    expect .rbrace
    refuseIf value.isEmptyContainer
    return .node .markupAttribute [value]
  | .punct .less =>
    let value ← g .markup
    expect .greater
    return .node .markupAttribute [value]
  | _ => fail

/-- Reads the attributes of an element. -/
def markupAttributes (g : Rules) : Parser (List Tree) :=
  manyUntil (do return (← atPunct .slash) || (← atPunct .greater)) (markupAttribute g)

/-! ## Elements -/

/-- Reads what stands between the tags of an element, from the `>` of the first to the `</` of the
last one. -/
def markupContent (g : Rules) : Parser (List Tree) := do
  require (← atPunct .greater)
  enterContent
  let content ← manyUntil (do
      return (← atPunct .less) && (← ahead (do advance; atPunct .slash)))
    (do
      match ← token with
      | .markupText => enterContent; return .leaf .markupText
      | .punct .lbrace =>
        let value ← substitution g
        enterContent
        return value
      | .punct .less =>
        let child ← g .markup
        enterContent
        return child
      | _ => fail)
  expect .less
  expect .slash
  return content

/-- Reads an element or fragment up to its last `>`, which is left; its tags have the same name. -/
def markup (g : Rules) : Parser Tree := do
  expect .less
  if ← atPunct .greater then
    let content ← markupContent g
    require (← atPunct .greater)
    return .node .markup content
  let name ← elementName
  let args ← if ← hasTypes then plainTypeArguments? g else pure []
  let attributes ← markupAttributes g
  if ← eat .slash then
    require (← atPunct .greater)
    return .node .markup (args ++ attributes)
  let content ← markupContent g
  let last ← elementName
  refuseIf (last != name)
  require (← atPunct .greater)
  return .node .markup (args ++ attributes ++ content)

end Parser
end Source
end ImpactGraph
