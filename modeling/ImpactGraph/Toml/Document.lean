import ImpactGraph.Toml.Scalar

/-!
# TOML documents

`Toml.parse?` reads a document as a JSON object.  A table is written under its header, by dotted
keys, or inline, and each can be written once: a header opens a table that was so far only on the
way to others, dotted keys add to tables that dotted keys made, and nothing adds to an inline table
or to an array in brackets.
-/

set_option autoImplicit false

namespace ImpactGraph
namespace Toml

/-! ## Tables while a document is read -/

/-- How a table came to be. -/
inductive TableKind
  /-- By its own header. -/
  | header
  /-- On the way to the table of a header. -/
  | passed
  /-- By dotted keys. -/
  | dotted
  deriving DecidableEq, Repr

/-- What stands under a key while a document is read. -/
inductive Item
  /-- A value that nothing can be added to. -/
  | value (value : Json)
  /-- A table. -/
  | table (kind : TableKind) (entries : List (String × Item))
  /-- The tables of headers in two brackets, the latest first. -/
  | tables (latest : List (String × Item)) (earlier : List (List (String × Item)))

/-- The entries of a table. -/
abbrev TableEntries := List (String × Item)

namespace TableEntries

/-- Replaces what stands under a key, or adds it. -/
def put (entries : TableEntries) (key : String) (item : Item) : TableEntries :=
  match entries with
  | [] => [(key, item)]
  | (k, i) :: rest => if k = key then (k, item) :: rest else (k, i) :: put rest key item

/-- Adds a value under dotted keys, the last of which is given apart. -/
def assign (key : String) (value : Json) : List String → TableEntries → Option TableEntries
  | [], entries =>
    match entries.lookup key with
    | some _ => none
    | none => some (entries.put key (.value value))
  | k :: path, entries =>
    match entries.lookup k with
    | none => (assign key value path []).map fun inner ↦ entries.put k (.table .dotted inner)
    | some (.table .dotted inner) =>
      (assign key value path inner).map fun inner ↦ entries.put k (.table .dotted inner)
    | some (.table .passed inner) =>
      if path.isEmpty then none
      else (assign key value path inner).map fun inner ↦ entries.put k (.table .passed inner)
    | some (.tables latest earlier) =>
      if path.isEmpty then none
      else (assign key value path latest).map fun latest ↦ entries.put k (.tables latest earlier)
    | some (.table .header _) | some (.value _) => none

/-- Adds values under dotted keys, one after the other. -/
def assignAll (entries : TableEntries) : List (List String × String × Json) → Option TableEntries
  | [] => some entries
  | (path, key, value) :: rest =>
    match assign key value path entries with
    | some entries => assignAll entries rest
    | none => none

/-- Changes the table that a header is taken from; tables on the way are made. -/
def within (change : TableEntries → Option TableEntries) :
    List String → TableEntries → Option TableEntries
  | [], entries => change entries
  | k :: path, entries =>
    match entries.lookup k with
    | none => (within change path []).map fun inner ↦ entries.put k (.table .passed inner)
    | some (.table kind inner) =>
      (within change path inner).map fun inner ↦ entries.put k (.table kind inner)
    | some (.tables latest earlier) =>
      (within change path latest).map fun latest ↦ entries.put k (.tables latest earlier)
    | some (.value _) => none

/-- Adds the table of a header. -/
def addTable (key : String) (values : List (List String × String × Json))
    (entries : TableEntries) : Option TableEntries :=
  match entries.lookup key with
  | none => (assignAll [] values).map fun inner ↦ entries.put key (.table .header inner)
  | some (.table .passed inner) =>
    (assignAll inner values).map fun inner ↦ entries.put key (.table .header inner)
  | some _ => none

/-- Adds a table to those of a header in two brackets. -/
def addToTables (key : String) (values : List (List String × String × Json))
    (entries : TableEntries) : Option TableEntries :=
  match entries.lookup key with
  | none => (assignAll [] values).map fun inner ↦ entries.put key (.tables inner [])
  | some (.tables latest earlier) =>
    (assignAll [] values).map fun inner ↦ entries.put key (.tables inner (latest :: earlier))
  | some _ => none

end TableEntries

mutual

/-- An item as JSON. -/
def Item.toJson : Item → Json
  | .value value => value
  | .table _ entries => Json.ofMembers (membersOf entries)
  | .tables latest earlier =>
    .array ((Json.ofMembers (membersOf latest) :: tablesOf earlier).reverse)

/-- The entries of a table as members of an object. -/
def membersOf : List (String × Item) → List (String × Json)
  | [] => []
  | (key, item) :: rest => (key, item.toJson) :: membersOf rest

/-- Tables as objects. -/
def tablesOf : List (List (String × Item)) → List Json
  | [] => []
  | entries :: rest => Json.ofMembers (membersOf entries) :: tablesOf rest

end

/-! ## Values -/

/-- A reader of one value. -/
abbrev ValueReader := List Char → Option (Json × List Char)

/-- Reads the items of an array up to its closing bracket; `size` bounds the text. -/
def readItems? (size : Nat) (value : ValueReader) :
    Nat → List Json → List Char → Option (Json × List Char)
  | 0, _, _ => none
  | fuel + 1, read, text =>
    match skipLines size text with
    | ']' :: text => some (.array read.reverse, text)
    | text =>
      match value text with
      | none => none
      | some (item, text) =>
        match skipLines size text with
        | ',' :: text => readItems? size value fuel (item :: read) text
        | ']' :: text => some (.array (item :: read).reverse, text)
        | _ => none

/-- How many keys may be dotted together, and how deep values may nest. -/
def maxDepth : Nat := 79

/-- Reads dotted keys and the value they stand for. -/
def readPair? (size : Nat) (value : ValueReader) (text : List Char) :
    Option ((List String × String × Json) × List Char) := do
  let (keys, text) ← readKeys? size text
  if maxDepth < keys.length then none
  match text, keys.getLast? with
  | '=' :: text, some key =>
    let (item, text) ← value (skipBlanks text)
    return ((keys.dropLast, key, item), text)
  | _, _ => none

/-- Reads the pairs of an inline table up to its closing brace. -/
def readPairs? (size : Nat) (value : ValueReader) :
    Nat → List (List String × String × Json) → List Char → Option (Json × List Char)
  | 0, _, _ => none
  | fuel + 1, read, text =>
    match readPair? size value text with
    | none => none
    | some (pair, text) =>
      match skipBlanks text with
      | ',' :: text => readPairs? size value fuel (pair :: read) text
      | '}' :: text =>
        (TableEntries.assignAll [] (pair :: read).reverse).map fun entries ↦
          (Json.ofMembers (membersOf entries), text)
      | _ => none

/-- Reads a value that is neither an array nor an inline table. -/
def readScalar? (text : List Char) : Option (Json × List Char) :=
  match text with
  | '"' :: _ | '\'' :: _ => (readString? text).map fun (s, text) ↦ (.string s, text)
  | _ =>
    let (word, rest) := takeWord text
    (word? word).map (·, rest)

/-- Reads a value whose arrays and inline tables nest at most `depth` deep. -/
def readValue? (size : Nat) : Nat → ValueReader
  | 0, text =>
    match text with
    | '[' :: _ | '{' :: _ => none
    | _ => readScalar? text
  | depth + 1, text =>
    match text with
    | '[' :: text => readItems? size (readValue? size depth) size [] text
    | '{' :: text =>
      match skipBlanks text with
      | '}' :: text => some (.object [], text)
      | text => readPairs? size (readValue? size depth) size [] text
    | _ => readScalar? text

/-! ## Documents -/

/-- The header of a section. -/
inductive Header
  /-- The start of the document. -/
  | root
  /-- A table, by the keys on the way to it and its own. -/
  | table (path : List String) (key : String)
  /-- One of several tables. -/
  | oneOf (path : List String) (key : String)

/-- A header and the values below it. -/
structure Section where
  /-- The header. -/
  header : Header
  /-- The values, with their keys. -/
  values : List (List String × String × Json)

/-- Reads a header from its bracket on. -/
def readHeader? (size : Nat) (text : List Char) : Option (Header × List Char) := do
  let keysUpTo (text : List Char) : Option (List String × String × List Char) := do
    let (keys, text) ← readKeys? size text
    if maxDepth < keys.length then none
    return (keys.dropLast, ← keys.getLast?, text)
  match text with
  | '[' :: '[' :: text =>
    match ← keysUpTo text with
    | (path, key, ']' :: ']' :: text) => return (.oneOf path key, ← restOfLine? text)
    | _ => none
  | '[' :: text =>
    match ← keysUpTo text with
    | (path, key, ']' :: text) => return (.table path key, ← restOfLine? text)
    | _ => none
  | _ => none

/-- Reads sections; `current` is the one that is open, its values latest first, and `read` are the
ones before it, latest first. -/
def readSections? (size : Nat) : Nat → Section → List Section → List Char → Option (List Section)
  | 0, _, _, _ => none
  | fuel + 1, current, read, text =>
    let close : Section := { current with values := current.values.reverse }
    match skipBlanks text with
    | [] => some (close :: read).reverse
    | '[' :: text =>
      match readHeader? size ('[' :: text) with
      | some (header, text) => readSections? size fuel ⟨header, []⟩ (close :: read) text
      | none => none
    | text =>
      match restOfLine? text with
      | some rest => readSections? size fuel current read rest
      | none =>
        match readPair? size (readValue? size maxDepth) text with
        | none => none
        | some (pair, text) =>
          match restOfLine? text with
          | none => none
          | some text =>
            readSections? size fuel { current with values := pair :: current.values } read text

/-- Adds a section to the tables of a document. -/
def TableEntries.addSection (entries : TableEntries) (s : Section) : Option TableEntries :=
  match s.header with
  | .root => assignAll entries s.values
  | .table path key => entries.within (addTable key s.values) path
  | .oneOf path key => entries.within (addToTables key s.values) path

/-- The object of a document. -/
def parse? (text : String) : Option Json := do
  let chars := text.toList
  let chars := if chars.head? = some '\ufeff' then chars.drop 1 else chars
  let size := chars.length + 1
  let sections ← readSections? size size ⟨.root, []⟩ [] chars
  let entries ← sections.foldlM TableEntries.addSection []
  return Json.ofMembers (membersOf entries)

end Toml
end ImpactGraph
