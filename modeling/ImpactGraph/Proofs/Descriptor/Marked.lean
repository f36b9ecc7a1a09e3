import ImpactGraph.Proofs.Descriptor

/-!
# Marked comments

A marker is looked for in a comment as it is written, but a descriptor is read from what is left of
the comment without its noise.  Where the marker is an `@` and a text that can be written as a key,
the two cannot come apart: nothing of such a marker is noise, so it still starts a stretch when the
noise is gone, and the key of that stretch starts with the text behind the `@`
(`exists_key_of_bears`).  Later entries may change the value of that key, but they do not take it
away.

`marks_of_isKey` says so of any comments: a descriptor is empty only if no comment bears the marker,
and else it is that of the first comment that does.
-/

set_option autoImplicit false

namespace ImpactGraph
namespace Descriptor

variable {word comment marker : String} {comments : List String}

/-- A comment has the marker in it. -/
def Bears (comment marker : String) : Prop := marker.toList <:+: comment.toList

theorem marked?_eq_none_iff :
    marked? marker comments = none ↔ ∀ comment ∈ comments, ¬Bears comment marker := by
  simp [marked?, Bears, Text.occursIn_iff]

theorem marked?_eq_some_iff : marked? marker comments = some comment ↔
    Bears comment marker ∧ ∃ before after, comments = before ++ comment :: after ∧
      ∀ other ∈ before, ¬Bears other marker := by
  simp [marked?, Bears, List.find?_eq_some_iff_append, Text.occursIn_iff, ← Bool.not_eq_true]

/-- The stretch of an `@` with a key behind it has that text at the start of its key. -/
theorem exists_entry_of_at (hword : IsKey word) (text : List Char) :
    ∃ key value, (key, value) ∈ entriesOf ('@' :: (word.toList ++ text)) ∧
      word.toList <+: key.toList := by
  have hnoise : ∀ c ∈ word.toList, isNoise c = false := fun c hc ↦ (hword.plain c hc).2.2
  have hat : '@' ∉ word.toList := fun hc ↦ (hword.plain '@' hc).1 rfl
  have hcolon : ':' ∉ word.toList := fun hc ↦ (hword.plain ':' hc).2.1 rfl
  obtain ⟨rest, stretches, hsplit⟩ := Text.exists_splitOn_append hat (compact text)
  have hentry : entry? (word.toList ++ rest) =
      some (word ++ String.ofList (keyValue rest).1, String.ofList (keyValue rest).2) := by
    rw [entry?_eq_some_iff, keyValue_append hcolon]
    simp [hword.ne_empty]
  have hmem : (word ++ String.ofList (keyValue rest).1, String.ofList (keyValue rest).2) ∈
      entriesOf ('@' :: (word.toList ++ text)) := by
    rw [entriesOf, compact_at, compact_append, compact_eq_self hnoise, splitOn_at, hsplit]
    exact List.mem_filterMap.2 ⟨_, List.mem_cons_self, hentry⟩
  exact ⟨_, _, hmem, by simp⟩

/-- A comment with the marker has a key that starts with the text behind the `@`. -/
theorem exists_key_of_bears (hword : IsKey word) (h : Bears comment ("@" ++ word)) :
    ∃ key ∈ (parse comment).keys, word.toList <+: key.toList := by
  obtain ⟨before, after, hcomment⟩ := h
  obtain ⟨key, value, hmem, hkey⟩ := exists_entry_of_at hword after
  have hcut : comment.toList = before ++ '@' :: (word.toList ++ after) := by
    rw [← hcomment]
    simp
  have hentry : (key, value) ∈ entriesOf comment.toList := by
    rw [hcut, entriesOf_append (by simp [compact_at])]
    exact List.mem_append_right _ hmem
  exact ⟨key, SortedMap.mem_keys_ofList.2 (List.mem_map_of_mem hentry), hkey⟩

/-- What is made of comments with a marker. -/
structure Marks (word : String) (comments : List String) : Prop where
  /-- There is a descriptor exactly if some comment bears the marker. -/
  isEmpty_eq_false_iff : (ofComments ("@" ++ word) comments).isEmpty = false ↔
    ∃ comment ∈ comments, Bears comment ("@" ++ word)
  /-- It is the descriptor of the first comment that does, and it has a key that starts with the
  text behind the `@`. -/
  first : (ofComments ("@" ++ word) comments).isEmpty = false →
    ∃ before comment after, comments = before ++ comment :: after ∧
      (∀ other ∈ before, ¬Bears other ("@" ++ word)) ∧ Bears comment ("@" ++ word) ∧
      ofComments ("@" ++ word) comments = parse comment ∧
      ∃ key ∈ (ofComments ("@" ++ word) comments).keys, word.toList <+: key.toList

/-- A comment with a marker that is an `@` and a key always makes a descriptor. -/
theorem marks_of_isKey (hword : IsKey word) (comments : List String) : Marks word comments := by
  cases hmarked : marked? ("@" ++ word) comments with
  | none =>
    have hnone := marked?_eq_none_iff.1 hmarked
    have hempty : (ofComments ("@" ++ word) comments).isEmpty = true := by
      rw [ofComments, hmarked]
      rfl
    constructor
    · simpa [hempty] using hnone
    · simp [hempty]
  | some comment =>
    obtain ⟨hbears, before, after, hcomments, hbefore⟩ := marked?_eq_some_iff.1 hmarked
    obtain ⟨key, hmem, hkey⟩ := exists_key_of_bears hword hbears
    have hparse : ofComments ("@" ++ word) comments = parse comment := by
      rw [ofComments, hmarked]
      rfl
    have hempty : (parse comment).isEmpty = false := SortedMap.isEmpty_of_mem_keys hmem
    constructor
    · rw [hparse, hempty, eq_self_iff_true, true_iff]
      exact ⟨comment, by simp [hcomments], hbears⟩
    · intro _
      rw [hparse]
      exact ⟨before, comment, after, hcomments, hbefore, hbears, rfl, key, hmem, hkey⟩

theorem marks_default : IsKey "Description" ∧ defaultMarker = "@" ++ "Description" ∧
    Marks "Description"
      ["@Author: me", "* @Descriptions:1 @Description*s:2", "@Description:3"] := by
  have hkey : IsKey "Description" := ⟨by decide, by simp [isNoise, Text.isBlank]⟩
  exact ⟨hkey, rfl, marks_of_isKey hkey _⟩

end Descriptor
end ImpactGraph
