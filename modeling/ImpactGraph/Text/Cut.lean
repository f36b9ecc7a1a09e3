/-!
# Cutting text

Text is scanned as a `List Char`.  `cutAt` splits a text at the first occurrence of a word and
`cutAtChar` at the first occurrence of a character; `cutAt_eq_some` says that nothing is lost.
`utf8Length` is the number of bytes a text takes, which is the unit of every offset reported.
-/

set_option autoImplicit false

namespace ImpactGraph
namespace Text

/-- The number of bytes of a text in UTF-8. -/
def utf8Length (text : List Char) : Nat := text.foldl (fun n c ↦ n + c.utf8Size) 0

/-- Moves what stands before the first occurrence of `word` onto `before`, latest first. -/
def cutAtFrom (word before : List Char) : List Char → Option (List Char × List Char)
  | [] => if word.isEmpty then some (before, []) else none
  | c :: text =>
    if word.isPrefixOf (c :: text) then some (before, (c :: text).drop word.length)
    else cutAtFrom word (c :: before) text

/-- What stands before the first occurrence of `word`, and what follows it. -/
def cutAt (word text : List Char) : Option (List Char × List Char) :=
  (cutAtFrom word [] text).map fun (before, after) ↦ (before.reverse, after)

/-- What stands before the first `sep`, and what follows it. -/
def cutAtChar (sep : Char) : List Char → Option (List Char × List Char)
  | [] => none
  | c :: text =>
    if c = sep then some ([], text)
    else (cutAtChar sep text).map fun (before, after) ↦ (c :: before, after)

/-- Whether `word` occurs in the text. -/
def occursIn (word : List Char) : List Char → Bool
  | [] => word.isEmpty
  | c :: text => word.isPrefixOf (c :: text) || occursIn word text

theorem eq_append_drop_of_isPrefixOf {word text : List Char} (h : word.isPrefixOf text = true) :
    text = word ++ text.drop word.length := by
  obtain ⟨rest, rfl⟩ := List.isPrefixOf_iff_prefix.1 h
  simp

theorem cutAtFrom_eq_some {word before text a b : List Char}
    (h : cutAtFrom word before text = some (a, b)) :
    before.reverse ++ text = a.reverse ++ word ++ b := by
  induction text generalizing before with
  | nil =>
    rw [cutAtFrom] at h
    split at h
    · next hw => simp at h; simp [h, List.isEmpty_iff.1 hw]
    · simp at h
  | cons c text ih =>
    rw [cutAtFrom] at h
    split at h
    · next hw =>
      simp only [Option.some.injEq, Prod.mk.injEq] at h
      obtain ⟨rfl, rfl⟩ := h
      rw [List.append_assoc, ← eq_append_drop_of_isPrefixOf hw]
    · simpa using ih h

/-- A cut loses nothing: the text is what stands before, the word, and what follows. -/
theorem cutAt_eq_some {word text a b : List Char} (h : cutAt word text = some (a, b)) :
    text = a ++ word ++ b := by
  rw [cutAt, Option.map_eq_some_iff] at h
  obtain ⟨⟨x, y⟩, hxy, he⟩ := h
  simp only [Prod.mk.injEq] at he
  obtain ⟨rfl, rfl⟩ := he
  simpa using cutAtFrom_eq_some hxy

/-- What follows a cut is shorter than the text by at least the word. -/
theorem length_of_cutAt {word text a b : List Char} (h : cutAt word text = some (a, b)) :
    b.length + word.length ≤ text.length := by
  rw [cutAt_eq_some h]; simp; omega

theorem cutAtChar_eq_some {sep : Char} {text a b : List Char}
    (h : cutAtChar sep text = some (a, b)) : text = a ++ sep :: b := by
  induction text generalizing a with
  | nil => simp [cutAtChar] at h
  | cons c text ih =>
    rw [cutAtChar] at h
    split at h
    · next hc => simp at h; obtain ⟨rfl, rfl⟩ := h; simp [hc]
    · rw [Option.map_eq_some_iff] at h
      obtain ⟨⟨x, y⟩, hxy, he⟩ := h
      simp only [Prod.mk.injEq] at he
      obtain ⟨rfl, rfl⟩ := he
      rw [ih hxy, List.cons_append]

end Text
end ImpactGraph
