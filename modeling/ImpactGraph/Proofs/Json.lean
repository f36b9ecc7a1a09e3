import ImpactGraph.Json.Value

/-!
# Deciding whether JSON values are equal

A JSON value holds lists of values, for which no equality is derived.  `Json.same` compares two
values, and `Json.same_iff` makes it a decision.
-/

set_option autoImplicit false

namespace ImpactGraph
namespace Json

mutual

/-- Whether two values are the same. -/
def same : Json → Json → Bool
  | .null, .null => true
  | .bool a, .bool b => a == b
  | .number m, .number n => m == n
  | .string s, .string t => s == t
  | .array xs, .array ys => sameItems xs ys
  | .object ms, .object ns => sameMembers ms ns
  | _, _ => false

/-- Whether two lists of values are the same. -/
def sameItems : List Json → List Json → Bool
  | [], [] => true
  | x :: xs, y :: ys => same x y && sameItems xs ys
  | _, _ => false

/-- Whether the members of two objects are the same, in the same order. -/
def sameMembers : List (String × Json) → List (String × Json) → Bool
  | [], [] => true
  | (k, x) :: ms, (l, y) :: ns => k == l && (same x y && sameMembers ms ns)
  | _, _ => false

end

mutual

theorem same_iff : (x y : Json) → (same x y = true ↔ x = y)
  | .null, y => by cases y <;> simp [same]
  | .bool a, y => by cases y <;> simp [same]
  | .number m, y => by cases y <;> simp [same]
  | .string s, y => by cases y <;> simp [same]
  | .array xs, y => by
    cases y with
    | array ys => rw [same, sameItems_iff xs ys, array.injEq]
    | _ => simp [same]
  | .object ms, y => by
    cases y with
    | object ns => rw [same, sameMembers_iff ms ns, object.injEq]
    | _ => simp [same]

theorem sameItems_iff : (xs ys : List Json) → (sameItems xs ys = true ↔ xs = ys)
  | [], ys => by cases ys <;> simp [sameItems]
  | x :: xs, ys => by
    cases ys with
    | nil => simp [sameItems]
    | cons y ys =>
      rw [sameItems, Bool.and_eq_true, same_iff x y, sameItems_iff xs ys, List.cons.injEq]

theorem sameMembers_iff :
    (ms ns : List (String × Json)) → (sameMembers ms ns = true ↔ ms = ns)
  | [], ns => by cases ns <;> simp [sameMembers]
  | (k, x) :: ms, ns => by
    cases ns with
    | nil => simp [sameMembers]
    | cons n ns =>
      obtain ⟨l, y⟩ := n
      rw [sameMembers, Bool.and_eq_true, Bool.and_eq_true, beq_iff_eq, same_iff x y,
        sameMembers_iff ms ns, List.cons.injEq, Prod.mk.injEq, and_assoc]

end

instance : DecidableEq Json := fun x y ↦ decidable_of_iff _ (same_iff x y)

end Json
end ImpactGraph
