/-!
# Finite maps in key order

A `SortedMap` is a list of entries whose keys strictly increase, so two maps with the same entries
are equal.  Keys that compare as `.eq` count as one key: an `insert` over such a key keeps the key
that was there first and replaces its value.

The operations are stated on plain entry lists in `Entries`, which is also how the members of a
JSON object are kept.
-/

set_option autoImplicit false

namespace ImpactGraph

open Std

namespace Entries

variable {κ ν : Type}

/-- Adds an entry in key order; over an equal key only the value changes. -/
def insert (cmp : κ → κ → Ordering) (k : κ) (v : ν) : List (κ × ν) → List (κ × ν)
  | [] => [(k, v)]
  | (k', v') :: es =>
    match cmp k k' with
    | .lt => (k, v) :: (k', v') :: es
    | .eq => (k', v) :: es
    | .gt => (k', v') :: insert cmp k v es

/-- The entry of a key, with the key as it is kept. -/
def find? (cmp : κ → κ → Ordering) (k : κ) : List (κ × ν) → Option (κ × ν)
  | [] => none
  | (k', v') :: es => if cmp k k' = .eq then some (k', v') else find? cmp k es

/-- The keys strictly increase. -/
def Sorted (cmp : κ → κ → Ordering) (es : List (κ × ν)) : Prop :=
  es.Pairwise fun a b ↦ cmp a.1 b.1 = .lt

variable {cmp : κ → κ → Ordering}

theorem mem_insert {k : κ} {v : ν} {es : List (κ × ν)} {e : κ × ν}
    (h : e ∈ insert cmp k v es) : e.1 = k ∨ ∃ w, (e.1, w) ∈ es := by
  induction es with
  | nil => simp [insert] at h; simp [h]
  | cons x es ih =>
    obtain ⟨k', v'⟩ := x
    rw [insert] at h
    split at h
    · rcases List.mem_cons.1 h with rfl | h
      · exact .inl rfl
      · exact .inr ⟨e.2, h⟩
    · rcases List.mem_cons.1 h with rfl | h
      · exact .inr ⟨v', by simp⟩
      · exact .inr ⟨e.2, by simp [h]⟩
    · rcases List.mem_cons.1 h with rfl | h
      · exact .inr ⟨v', by simp⟩
      · rcases ih h with h | ⟨w, h⟩
        · exact .inl h
        · exact .inr ⟨w, by simp [h]⟩

theorem sorted_insert [TransCmp cmp] (k : κ) (v : ν) {es : List (κ × ν)} (h : Sorted cmp es) :
    Sorted cmp (insert cmp k v es) := by
  induction es with
  | nil => simp [insert, Sorted]
  | cons x es ih =>
    obtain ⟨k', v'⟩ := x
    obtain ⟨hx, hes⟩ := List.pairwise_cons.1 h
    rw [insert]
    split
    · next hlt =>
      refine List.pairwise_cons.2 ⟨fun e he ↦ ?_, h⟩
      rcases List.mem_cons.1 he with rfl | he
      · exact hlt
      · exact TransCmp.lt_trans hlt (hx e he)
    · exact List.pairwise_cons.2 ⟨hx, hes⟩
    · next hgt =>
      refine List.pairwise_cons.2 ⟨fun e he ↦ ?_, ih hes⟩
      rcases mem_insert he with he | ⟨w, he⟩
      · rw [he]; exact OrientedCmp.lt_of_gt hgt
      · exact hx (e.1, w) he

end Entries

/-- A finite map whose entries stand in the order of their keys. -/
structure SortedMap (κ ν : Type) (cmp : κ → κ → Ordering := by exact compare) where
  /-- The entries, by increasing key. -/
  entries : List (κ × ν)
  sorted : Entries.Sorted cmp entries

namespace SortedMap

variable {κ ν : Type} {cmp : κ → κ → Ordering}

@[ext] theorem ext {m n : SortedMap κ ν cmp} (h : m.entries = n.entries) : m = n := by
  cases m; cases n; simp_all

instance [DecidableEq κ] [DecidableEq ν] : DecidableEq (SortedMap κ ν cmp) := fun m n ↦
  if h : m.entries = n.entries then isTrue (ext h) else isFalse fun he ↦ h (he ▸ rfl)

/-- The map without entries. -/
def empty : SortedMap κ ν cmp := ⟨[], List.Pairwise.nil⟩

instance : EmptyCollection (SortedMap κ ν cmp) := ⟨empty⟩

instance : Inhabited (SortedMap κ ν cmp) := ⟨empty⟩

/-- Sets the value of a key; the spelling of a key that is there already is kept. -/
def insert [TransCmp cmp] (m : SortedMap κ ν cmp) (k : κ) (v : ν) : SortedMap κ ν cmp :=
  ⟨Entries.insert cmp k v m.entries, Entries.sorted_insert k v m.sorted⟩

/-- The entry of a key, with the key as it is kept. -/
def find? (m : SortedMap κ ν cmp) (k : κ) : Option (κ × ν) := Entries.find? cmp k m.entries

/-- The value of a key. -/
def get? (m : SortedMap κ ν cmp) (k : κ) : Option ν := (m.find? k).map Prod.snd

/-- Whether a key has a value. -/
def contains (m : SortedMap κ ν cmp) (k : κ) : Bool := (m.find? k).isSome

/-- The number of keys. -/
def size (m : SortedMap κ ν cmp) : Nat := m.entries.length

/-- Whether there is no key. -/
def isEmpty (m : SortedMap κ ν cmp) : Bool := m.entries.isEmpty

/-- The keys, in order. -/
def keys (m : SortedMap κ ν cmp) : List κ := m.entries.map Prod.fst

/-- The map of a list of entries, in which the last value of a key wins. -/
def ofList [TransCmp cmp] (es : List (κ × ν)) : SortedMap κ ν cmp :=
  es.foldl (fun m e ↦ m.insert e.1 e.2) ∅

end SortedMap
end ImpactGraph
