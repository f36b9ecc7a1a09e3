import ImpactGraph.SortedMap

/-!
# Paths

A `Path` is a text with `/` separators.  It is shown exactly as it was written, but it is compared
by its *parts*: repeated separators, a separator at the end and `.` parts other than a leading one
do not count, and `..` is kept.  `Path.compare` is the lexicographic order of the parts, so `a/b`
comes before `a.js`.

The parts are computed once, when a path is made (`Path.ofText`), since every look-up compares
them.

A path is a text, so a file whose name is not UTF-8 has a path only when its bytes are taken for
characters (`Path.Units`).
-/

set_option autoImplicit false

namespace ImpactGraph

open Std

/-- One step of a path. -/
inductive Part
  /-- The separator that an absolute path starts with. -/
  | root
  /-- A `.` at the start of a relative path. -/
  | current
  /-- A `..`. -/
  | parent
  /-- The name of a file or directory. -/
  | name (text : String)
  deriving DecidableEq, Repr, Inhabited

namespace Part

/-- Where a part stands among parts: the special parts first, then names by their text. -/
def rank : Part → Nat × String
  | .root => (0, "")
  | .current => (1, "")
  | .parent => (2, "")
  | .name text => (3, text)

/-- The order of parts: by rank. -/
def compare : Part → Part → Ordering :=
  compareLex (compareOn fun p ↦ p.rank.1) (compareOn fun p ↦ p.rank.2)

instance : Ord Part := ⟨Part.compare⟩

instance : TransCmp Part.compare :=
  inferInstanceAs (TransCmp (compareLex (compareOn fun p : Part ↦ p.rank.1)
    (compareOn fun p : Part ↦ p.rank.2)))

instance : TransOrd Part := inferInstanceAs (TransCmp Part.compare)

theorem rank_injective {p q : Part} (h : p.rank = q.rank) : p = q := by
  cases p <;> cases q <;> simp_all [rank]

instance : LawfulEqCmp Part.compare where
  eq_of_compare {p q} h := by
    have h' : Part.compare p q = .eq := h
    simp only [Part.compare, compareLex_eq_eq, compareOn] at h'
    exact rank_injective
      (Prod.ext (LawfulEqOrd.eq_of_compare h'.1) (LawfulEqOrd.eq_of_compare h'.2))

instance : LawfulEqOrd Part := inferInstanceAs (LawfulEqCmp Part.compare)

/-- The text of a part between separators. -/
def text : Part → String
  | .root => "/"
  | .current => "."
  | .parent => ".."
  | .name text => text

/-- The part that a stretch between separators stands for, if it counts there. -/
def ofSegment (segment : List Char) : Option Part :=
  match segment with
  | [] => none
  | ['.'] => none
  | ['.', '.'] => some .parent
  | _ => some (.name (String.ofList segment))

/-- The parts of a text, left to right. -/
def ofText (text : List Char) : List Part :=
  match text.splitOn '/' with
  | [] => []
  | first :: rest =>
    let body := rest.filterMap ofSegment
    if first = [] then (if rest.isEmpty then [] else .root :: body)
    else if first = ['.'] then .current :: body
    else (ofSegment first).toList ++ body

end Part

/-- A path: a text that is compared by its parts. -/
structure Path where
  /-- The path as it was written. -/
  text : String
  /-- The parts that the text stands for. -/
  parts : List Part
  parts_eq : parts = Part.ofText text.toList
  deriving DecidableEq

namespace Path

/-- The path written as `text`. -/
def ofText (text : String) : Path := ⟨text, Part.ofText text.toList, rfl⟩

instance : Inhabited Path := ⟨ofText ""⟩

instance : Repr Path := ⟨fun p _ ↦ repr p.text⟩

@[ext] theorem ext {p q : Path} (h : p.text = q.text) : p = q := by
  obtain ⟨t, ps, hp⟩ := p
  obtain ⟨u, qs, hq⟩ := q
  obtain rfl : t = u := h
  subst hp hq
  rfl

@[simp] theorem text_ofText (text : String) : (ofText text).text = text := rfl

@[simp] theorem ofText_text (p : Path) : ofText p.text = p := ext rfl

/-! ## Equality and order -/

/-- The order of paths: lexicographic by parts. -/
def compare (p q : Path) : Ordering := Ord.compare p.parts q.parts

instance : Ord Path := ⟨Path.compare⟩

instance : TransCmp Path.compare :=
  inferInstanceAs (TransCmp (compareOn Path.parts))

instance : TransOrd Path := inferInstanceAs (TransCmp Path.compare)

/-- Whether two paths have the same parts, however they are written. -/
def same (p q : Path) : Bool := decide (p.parts = q.parts)

theorem compare_eq_iff {p q : Path} : p.compare q = .eq ↔ p.parts = q.parts :=
  LawfulEqOrd.compare_eq_iff_eq

theorem same_iff {p q : Path} : p.same q = true ↔ p.parts = q.parts := decide_eq_true_iff

/-! ## Joining and taking apart -/

/-- Whether the path starts at the root. -/
def isAbsolute (p : Path) : Bool := p.text.toList.head? == some '/'

/-- `q` taken from the directory `p`; an absolute `q` stands alone. -/
def join (p q : Path) : Path :=
  if q.isAbsolute then q
  else
    match p.text.toList.getLast? with
    | none => q
    | some c => if c = '/' then ofText (p.text ++ q.text) else ofText (p.text ++ "/" ++ q.text)

/-- Drops the segments at the end that stand for no part; the first segment is left alone. -/
def trimSegments : List (List Char) → List (List Char)
  | [] => []
  | first :: rest =>
    first :: (rest.reverse.dropWhile fun s ↦ (Part.ofSegment s).isNone).reverse

/-- The text of segments with separators between them. -/
def joinSegments (segments : List (List Char)) : String :=
  if segments = [[]] then "" else String.ofList (List.intercalate ['/'] segments)

/-- The path without its last part; a root, and a path of no parts, has no parent. -/
def parent? (p : Path) : Option Path :=
  match trimSegments (p.text.toList.splitOn '/') with
  | [] => none
  | [first] => if first = [] then none else some (ofText "")
  | first :: rest =>
    match trimSegments (first :: rest.dropLast) with
    | [[]] => some (ofText "/")
    | segments => some (ofText (joinSegments segments))

/-- The last part, when it is a name. -/
def fileName? (p : Path) : Option String :=
  match p.parts.getLast? with
  | some (.name text) => some text
  | _ => none

/-- What follows the last dot of a file name; a name whose only dot comes first has none. -/
def extensionOf (name : List Char) : Option (List Char) :=
  match name.reverse.span (· != '.') with
  | (_, []) => none
  | (after, _ :: before) => if before.isEmpty then none else some after.reverse

/-- The extension of the file name, without the dot. -/
def extension? (p : Path) : Option String :=
  p.fileName?.bind fun name ↦ (extensionOf name.toList).map String.ofList

/-- Drops the first `n` counting segments of a relative remainder. -/
def dropParts : Nat → List (List Char) → List (List Char)
  | 0, segments => segments
  | _, [] => []
  | n + 1, s :: segments =>
    if (Part.ofSegment s).isNone then dropParts (n + 1) segments else dropParts n segments

/-- What is left of `p` below `base`, if the parts of `base` start those of `p`. -/
def stripPrefix? (p base : Path) : Option Path :=
  if base.parts.isPrefixOf p.parts then
    match p.text.toList.splitOn '/' with
    | [] => some p
    | first :: rest =>
      if base.parts.isEmpty then some (ofText (joinRest first (trimSegments (first :: rest))))
      else
        let counted := first = [] || first = ['.']
        let left :=
          if counted then dropParts (base.parts.length - 1) rest
          else dropParts base.parts.length (first :: rest)
        let left := left.dropWhile fun s ↦ (Part.ofSegment s).isNone
        let left := (left.reverse.dropWhile fun s ↦ (Part.ofSegment s).isNone).reverse
        some (ofText (joinSegments left))
  else none
where
  /-- A lone empty first segment with separators after it is the root. -/
  joinRest (first : List Char) (segments : List (List Char)) : String :=
    if first = [] && segments = [[]] && p.isAbsolute then "/" else joinSegments segments

end Path
end ImpactGraph
