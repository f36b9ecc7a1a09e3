import ImpactGraph.Text.Cut
import Mathlib.Data.Bool.AllAny
import Mathlib.Data.List.Infix

/-!
# First occurrences

`cutAt` cuts at the first occurrence of a word: `cutAt_eq_none_iff` and `not_infix_of_cutAt` say
what it means that there is none, and none earlier.  A word whose first character does not come
again cannot overlap itself, and for such a word the place of the cut is the only one that has no
occurrence before it (`cutAt_append`).

`cutAtChar` cuts at the first occurrence of a character (`cutAtChar_append`), and `List.splitOn` at
all of them: no segment holds the separator, and none holds anything that the text does not.
-/

set_option autoImplicit false

namespace ImpactGraph
namespace Text

variable {word before text a b : List Char} {c : Char}

/-! ## Bytes -/

theorem foldl_utf8Size (text : List Char) (n : Nat) :
    text.foldl (fun n c ↦ n + c.utf8Size) n = n + utf8Length text := by
  induction text generalizing n with
  | nil => rfl
  | cons c text ih =>
    have hzero : utf8Length (c :: text) = c.utf8Size + utf8Length text := by
      rw [utf8Length, List.foldl_cons, ih, Nat.zero_add]
    rw [List.foldl_cons, ih, hzero, Nat.add_assoc]

@[simp] theorem utf8Length_nil : utf8Length [] = 0 := rfl

@[simp] theorem utf8Length_cons (c : Char) (text : List Char) :
    utf8Length (c :: text) = c.utf8Size + utf8Length text := by
  rw [utf8Length, List.foldl_cons, foldl_utf8Size, Nat.zero_add]

@[simp] theorem utf8Length_append (a b : List Char) :
    utf8Length (a ++ b) = utf8Length a + utf8Length b := by
  rw [utf8Length, List.foldl_append, foldl_utf8Size, ← utf8Length]

/-! ## Segments -/

/-- The segments of a text have no separators in them. -/
theorem not_mem_of_mem_splitOn {text segment : List Char} {sep : Char}
    (h : segment ∈ text.splitOn sep) : sep ∉ segment := by
  induction text generalizing segment with
  | nil => simp_all
  | cons c text ih =>
    rw [List.splitOn_cons_eq_if_modifyHead] at h
    split at h
    · rcases List.mem_cons.1 h with rfl | h
      · simp
      · exact ih h
    · next hc =>
      cases hs : text.splitOn sep with
      | nil => exact absurd hs (List.splitOn_ne_nil _ _)
      | cons first rest =>
        rw [hs] at h ih
        rcases List.mem_cons.1 h with rfl | h
        · have hfirst : sep ∉ first := ih List.mem_cons_self
          have hne : sep ≠ c := fun he ↦ hc (beq_iff_eq.2 he.symm)
          simp [hfirst, hne]
        · exact ih (List.mem_cons_of_mem _ h)

/-- The characters of a segment are those of its text. -/
theorem mem_of_mem_splitOn {text segment : List Char} {sep c : Char}
    (h : segment ∈ text.splitOn sep) (hc : c ∈ segment) : c ∈ text := by
  induction text generalizing segment with
  | nil => simp_all
  | cons d text ih =>
    rw [List.splitOn_cons_eq_if_modifyHead] at h
    split at h
    · rcases List.mem_cons.1 h with rfl | h
      · exact absurd hc List.not_mem_nil
      · exact List.mem_cons_of_mem _ (ih h hc)
    · cases hs : text.splitOn sep with
      | nil => exact absurd hs (List.splitOn_ne_nil _ _)
      | cons first rest =>
        rw [hs] at h ih
        rcases List.mem_cons.1 h with rfl | h
        · rcases List.mem_cons.1 hc with rfl | hc
          · exact List.mem_cons_self
          · exact List.mem_cons_of_mem _ (ih List.mem_cons_self hc)
        · exact List.mem_cons_of_mem _ (ih (List.mem_cons_of_mem _ h) hc)

/-- What stands before a text without a separator goes into its first segment. -/
theorem exists_splitOn_append {sep : Char} (h : sep ∉ word) (text : List Char) :
    ∃ rest segments, (word ++ text).splitOn sep = (word ++ rest) :: segments := by
  induction word with
  | nil =>
    obtain ⟨rest, segments, hsplit⟩ := List.exists_cons_of_ne_nil (List.splitOn_ne_nil sep text)
    exact ⟨rest, segments, hsplit⟩
  | cons d word ih =>
    rw [List.mem_cons, not_or] at h
    obtain ⟨rest, segments, hsplit⟩ := ih h.2
    refine ⟨rest, segments, ?_⟩
    rw [List.cons_append, List.splitOn_cons_eq_if_modifyHead, hsplit,
      if_neg (by simpa using Ne.symm h.1)]
    rfl

/-! ## Cutting at a character -/

theorem cutAtChar_append (hc : c ∉ a) (text : List Char) :
    cutAtChar c (a ++ text) = (cutAtChar c text).map fun (x, y) ↦ (a ++ x, y) := by
  induction a with
  | nil => simp
  | cons d a ih =>
    rw [List.mem_cons, not_or] at hc
    rw [List.cons_append, cutAtChar, if_neg (Ne.symm hc.1), ih hc.2, Option.map_map]
    rfl

theorem cutAtChar_eq_none_iff : cutAtChar c text = none ↔ c ∉ text := by
  induction text with
  | nil => simp [cutAtChar]
  | cons d text ih =>
    by_cases hd : d = c
    · simp [cutAtChar, hd]
    · simp [cutAtChar, hd, ih, Ne.symm hd]

/-- The character does not occur before the cut. -/
theorem not_mem_of_cutAtChar (h : cutAtChar c text = some (a, b)) : c ∉ a := by
  induction text generalizing a with
  | nil => simp [cutAtChar] at h
  | cons d text ih =>
    rw [cutAtChar] at h
    split at h
    · obtain ⟨rfl, -⟩ := by simpa using h
      exact List.not_mem_nil
    · next hd =>
      obtain ⟨⟨x, y⟩, hcut, heq⟩ := Option.map_eq_some_iff.1 h
      obtain ⟨rfl, rfl⟩ := Prod.mk.inj heq
      rw [List.mem_cons, not_or]
      exact ⟨Ne.symm hd, ih hcut⟩

/-! ## Words -/

theorem occursIn_iff : occursIn word text = true ↔ word <:+: text := by
  induction text with
  | nil => simp [occursIn]
  | cons d text ih =>
    rw [occursIn, Bool.or_eq_true, ih, List.isPrefixOf_iff_prefix, List.infix_cons_iff]

theorem cutAtFrom_eq_map (word before text : List Char) :
    cutAtFrom word before text = (cutAt word text).map fun (a, b) ↦ (a.reverse ++ before, b) := by
  suffices h : ∀ (text before skipped : List Char), cutAtFrom word (skipped ++ before) text =
      (cutAtFrom word skipped text).map fun (a, b) ↦ (a ++ before, b) by
    rw [cutAt, Option.map_map, ← List.nil_append before, h]
    simp [Function.comp_def]
  intro text before skipped
  induction text generalizing skipped with
  | nil =>
    rw [cutAtFrom, cutAtFrom]
    split <;> rfl
  | cons c text ih =>
    rw [cutAtFrom, cutAtFrom]
    split
    · rfl
    · exact ih (c :: skipped)

theorem cutAt_nil (hword : word ≠ []) : cutAt word [] = none := by
  simp [cutAt, cutAtFrom, hword]

theorem cutAt_cons (word : List Char) (c : Char) (text : List Char) :
    cutAt word (c :: text) = if word.isPrefixOf (c :: text) then
      some ([], (c :: text).drop word.length) else
      (cutAt word text).map fun (a, b) ↦ (c :: a, b) := by
  rw [cutAt, cutAtFrom]
  split
  · rfl
  · rw [cutAtFrom_eq_map, Option.map_map]
    simp [Function.comp_def]

theorem cutAt_eq_none_iff (hword : word ≠ []) : cutAt word text = none ↔ ¬word <:+: text := by
  induction text with
  | nil => simp [cutAt_nil hword, hword]
  | cons c text ih =>
    rw [cutAt_cons, List.infix_cons_iff, ← List.isPrefixOf_iff_prefix]
    split
    · next hstarts => simp [hstarts]
    · next hstarts => simp [hstarts, ih]

/-- The word does not occur before the cut. -/
theorem not_infix_of_cutAt (hword : word ≠ []) (h : cutAt word text = some (a, b)) :
    ¬word <:+: a := by
  induction text generalizing a with
  | nil => simp [cutAt_nil hword] at h
  | cons c text ih =>
    rw [cutAt_cons] at h
    split at h
    · obtain ⟨rfl, -⟩ := by simpa using h
      simpa using hword
    · next hstarts =>
      obtain ⟨⟨a, b⟩, hcut, heq⟩ := Option.map_eq_some_iff.1 h
      obtain ⟨rfl, rfl⟩ := Prod.mk.inj heq
      rw [List.infix_cons_iff]
      rintro (hword | hword)
      · refine hstarts (List.isPrefixOf_iff_prefix.2 (hword.trans ?_))
        rw [cutAt_eq_some hcut, List.append_assoc, ← List.cons_append]
        exact List.prefix_append _ _
      · exact ih hcut hword

/-- A word that starts before the end of `a` either lies in `a` or reaches over the next start of
the word, so that its first character comes again. -/
theorem prefix_of_prefix_append (hc : c ∉ word) (ha : a ≠ [])
    (h : c :: word <+: a ++ (c :: word ++ b)) : c :: word <+: a := by
  obtain hlt | hle := Nat.lt_or_ge a.length (c :: word).length
  · obtain ⟨first, a, rfl⟩ := List.exists_cons_of_ne_nil ha
    have hover : a ++ [c] <+: word := by
      refine List.prefix_of_prefix_length_le ?_ (List.cons_prefix_cons.1 h).2 ?_
      · exact ⟨word ++ b, by simp⟩
      · simpa [Nat.succ_le_iff] using hlt
    exact absurd (hover.subset (by simp)) hc
  · exact List.prefix_of_prefix_length_le h (List.prefix_append _ _) hle

/-- A word that cannot overlap itself is found where it is written. -/
theorem cutAt_append (hc : c ∉ word) (ha : ¬c :: word <:+: a) :
    cutAt (c :: word) (a ++ (c :: word ++ b)) = some (a, b) := by
  induction a with
  | nil =>
    rw [List.nil_append, List.cons_append, cutAt_cons, if_pos, ← List.cons_append,
      List.drop_left]
    rw [← List.cons_append, List.isPrefixOf_iff_prefix]
    exact List.prefix_append _ _
  | cons first a ih =>
    rw [List.infix_cons_iff, not_or] at ha
    rw [List.cons_append, cutAt_cons, if_neg, ih ha.2, Option.map_some]
    rw [← List.cons_append, List.isPrefixOf_iff_prefix]
    exact fun h ↦ ha.1 (prefix_of_prefix_append hc (List.cons_ne_nil _ _) h)

end Text
end ImpactGraph
