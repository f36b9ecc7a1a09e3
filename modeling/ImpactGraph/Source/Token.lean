/-!
# Tokens

The tokens of a module.  Names and keywords are one kind of token, since most keywords are names
elsewhere; the value of a string is read, and so is the value of a template's piece unless one of
its escapes is malformed.
-/

set_option autoImplicit false

namespace ImpactGraph
namespace Source

/-- Punctuators. -/
inductive Punct
  | lbrace | rbrace | lparen | rparen | lbracket | rbracket
  | dot | ellipsis | semicolon | comma | at | arrow
  | less | lessEq | greater | greaterEq
  | eqEq | notEq | eqEqEq | notEqEq
  | plus | minus | star | slash | percent | starStar | plusPlus | minusMinus
  | shiftLeft | shiftRight | shiftRightZero
  | amp | bar | caret | bang | tilde | ampAmp | barBar | questionQuestion
  | question | questionDot | colon
  | assign | plusAssign | minusAssign | starAssign | slashAssign | percentAssign | starStarAssign
  | shiftLeftAssign | shiftRightAssign | shiftRightZeroAssign
  | ampAssign | barAssign | caretAssign | ampAmpAssign | barBarAssign | questionQuestionAssign
  deriving DecidableEq, Repr, Inhabited

/-- The tokens of a module. -/
inductive Token
  /-- The end of the text. -/
  | eof
  /-- A name or keyword; `escaped` if it is written with an escape. -/
  | word (text : String) (escaped : Bool)
  /-- A name after `#`. -/
  | privateName (text : String)
  /-- A number, plain or big. -/
  | number
  /-- A string, by its value; `whole` says that no half of a character stands alone in it. -/
  | string (value : String) (whole : Bool)
  /-- A piece of a template up to a `${` or, if `closed`, up to its end.  There is no value when an
  escape is malformed. -/
  | template (value : Option String) (closed : Bool)
  /-- A regular expression. -/
  | regex
  /-- Text between tags. -/
  | markupText
  | punct (p : Punct)
  /-- A stretch that is no token. -/
  | invalid
  deriving DecidableEq, Repr, Inhabited

/-- The words that are never the name of a variable. -/
def reservedWords : List String :=
  ["await", "break", "case", "catch", "class", "const", "continue", "debugger", "default",
    "delete", "do", "else", "enum", "export", "extends", "false", "finally", "for", "function",
    "if", "import", "in", "instanceof", "new", "null", "return", "super", "switch", "this",
    "throw", "true", "try", "typeof", "var", "void", "while", "with", "yield"]

/-- Whether a word is reserved. -/
def isReserved (word : String) : Bool := reservedWords.contains word

/-- The words that strict code reserves besides. -/
def strictWords : List String :=
  ["implements", "interface", "let", "package", "private", "protected", "public", "static"]

/-- Words that have a meaning of their own in some places. -/
def contextualWords : List String :=
  ["abstract", "accessor", "any", "as", "assert", "asserts", "async", "bigint", "boolean",
    "constructor", "declare", "defer", "from", "get", "global", "infer", "intrinsic", "is",
    "keyof", "meta", "module", "namespace", "never", "number", "object", "of", "out", "override",
    "readonly", "require", "satisfies", "set", "source", "string", "symbol", "target", "type",
    "undefined", "unique", "unknown", "using"]

/-- Whether a word is a keyword anywhere. -/
def isKeyword (word : String) : Bool :=
  isReserved word || strictWords.contains word || contextualWords.contains word

namespace Token

/-- Whether the token is the word. -/
def isWord (t : Token) (w : String) : Bool :=
  match t with
  | .word text _ => text == w
  | _ => false

/-- Whether the token is the punctuator. -/
def isPunct (t : Token) (p : Punct) : Bool := t == .punct p

/-- Whether the token is a name or keyword. -/
def isName : Token → Bool
  | .word .. => true
  | _ => false

/-- Whether the token may name a variable where neither `yield` nor `await` is an operator. -/
def isIdentifier : Token → Bool
  | .word text _ => !isReserved text
  | _ => false

/-- Whether the token may stand where a variable is bound. -/
def isBinding : Token → Bool
  | .word text _ => !isReserved text || text == "yield" || text == "await"
  | _ => false

/-- Whether the token is a literal. -/
def isLiteral : Token → Bool
  | .number | .string .. | .regex => true
  | .word text _ => text == "true" || text == "false" || text == "null"
  | _ => false

/-- Whether the token starts a template. -/
def isTemplate : Token → Bool
  | .template .. => true
  | _ => false

end Token

namespace Punct

/-- Whether the punctuator is an assignment operator. -/
def isAssignment : Punct → Bool
  | .assign | .plusAssign | .minusAssign | .starAssign | .slashAssign | .percentAssign
  | .starStarAssign | .shiftLeftAssign | .shiftRightAssign | .shiftRightZeroAssign | .ampAssign
  | .barAssign | .caretAssign | .ampAmpAssign | .barBarAssign | .questionQuestionAssign => true
  | _ => false

/-- Whether the punctuator is a prefix operator other than `++` and `--`. -/
def isUnary : Punct → Bool
  | .plus | .minus | .bang | .tilde => true
  | _ => false

end Punct
end Source
end ImpactGraph
