import ImpactGraph.Descriptor
import ImpactGraph.Proofs.SortedMap
import ImpactGraph.Proofs.Text.Cut

/-!
# The laws of the descriptor grammar

What a comment says does not depend on its noise, wherever the noise stands.  All else follows from
what happens to a comment that is cut in two before an `@`: its entries are those of the one piece,
and then those of the other (`entriesOf_append`).  Hence entries that are written out one after the
other are read back (`entriesOf_render`), and what a comment is continued with goes over what it
said before (`Grammar.append`).

`IsKey` and `IsValue` tell which texts can be written as keys and as values.  No others are ever
read (`isKey_of_mem_entriesOf`), so that a descriptor can be written out as a comment of its own.
-/

set_option autoImplicit false

namespace ImpactGraph
namespace Descriptor

variable {a b lead stretch text word : List Char} {key value : String}
  {entries : List (String × String)}

/-! ## Noise -/

theorem compact_append : compact (a ++ b) = compact a ++ compact b := List.filter_append a b

theorem compact_eq_self (h : ∀ c ∈ text, isNoise c = false) : compact text = text :=
  List.filter_eq_self.2 fun c hc ↦ by simp [h c hc]

theorem compact_at (text : List Char) : compact ('@' :: text) = '@' :: compact text :=
  List.filter_cons_of_pos (by decide)

theorem mem_of_mem_compact {c : Char} (h : c ∈ compact text) : c ∈ text ∧ isNoise c = false := by
  simpa [compact] using h

theorem entriesOf_congr (h : compact a = compact b) : entriesOf a = entriesOf b := by
  rw [entriesOf, entriesOf, h]

/-! ## Cutting a comment before an `@` -/

/-- A text without noise that starts with an `@` has nothing before its first stretch. -/
theorem splitOn_at (text : List Char) : ('@' :: text).splitOn '@' = [] :: text.splitOn '@' := by
  rw [List.splitOn_cons_eq_if_modifyHead, if_pos (beq_self_eq_true '@')]

/-- Where a comment is continued with an `@`, the entries of both pieces are read. -/
theorem entriesOf_append (h : ∀ c, (compact b).head? = some c → c = '@') :
    entriesOf (a ++ b) = entriesOf a ++ entriesOf b := by
  rw [entriesOf, entriesOf, entriesOf, compact_append]
  cases hb : compact b with
  | nil => simp
  | cons c rest =>
    obtain rfl : c = '@' := h c (by rw [hb]; rfl)
    obtain ⟨first, stretches, hsplit⟩ :=
      List.exists_cons_of_ne_nil (List.splitOn_ne_nil '@' (compact a))
    rw [List.splitOn_append_cons_self, splitOn_at, hsplit]
    simp

theorem entriesOf_of_not_mem (h : '@' ∉ lead) : entriesOf lead = [] := by
  have hlead : '@' ∉ compact lead := fun hmem ↦ h (mem_of_mem_compact hmem).1
  rw [entriesOf, List.splitOn_eq_singleton hlead]
  rfl

/-! ## Keys and values -/

/-- A text that can be written as a key. -/
structure IsKey (key : String) : Prop where
  ne_empty : key ≠ ""
  plain : ∀ c ∈ key.toList, c ≠ '@' ∧ c ≠ ':' ∧ isNoise c = false

/-- A text that can be written as a value. -/
def IsValue (value : String) : Prop := ∀ c ∈ value.toList, c ≠ '@' ∧ isNoise c = false

/-- What stands before a stretch without a colon goes into its key. -/
theorem keyValue_append (h : ':' ∉ word) (text : List Char) :
    keyValue (word ++ text) = (word ++ (keyValue text).1, (keyValue text).2) := by
  rw [keyValue, keyValue, Text.cutAtChar_append h]
  cases Text.cutAtChar ':' text <;> rfl

theorem keyValue_cases (stretch : List Char) :
    (∃ k v, stretch = k ++ ':' :: v ∧ ':' ∉ k ∧ keyValue stretch = (k, v)) ∨
      ':' ∉ stretch ∧ keyValue stretch = (stretch, []) := by
  cases hcut : Text.cutAtChar ':' stretch with
  | none => exact .inr ⟨Text.cutAtChar_eq_none_iff.1 hcut, by rw [keyValue, hcut]; rfl⟩
  | some cut =>
    obtain ⟨k, v⟩ := cut
    exact .inl ⟨k, v, Text.cutAtChar_eq_some hcut, Text.not_mem_of_cutAtChar hcut,
      by rw [keyValue, hcut]; rfl⟩

theorem entry?_eq_some_iff :
    entry? stretch = some (key, value) ↔
      keyValue stretch = (key.toList, value.toList) ∧ key ≠ "" := by
  cases hsplit : keyValue stretch with
  | mk k v =>
    simp only [hsplit, entry?, Prod.mk.injEq]
    constructor
    · intro h
      split at h
      · cases h
      · next hk =>
        cases h
        exact ⟨by simp, by simpa using hk⟩
    · rintro ⟨⟨rfl, rfl⟩, hne⟩
      simp [hne]

/-- An entry as it is written in a comment. -/
def written (entry : String × String) : List Char :=
  '@' :: (entry.1.toList ++ ':' :: entry.2.toList)

/-- Entries as a comment, one after the other. -/
def render (entries : List (String × String)) : List Char := entries.flatMap written

theorem entry?_written (hk : IsKey key) (value : String) :
    entry? (key.toList ++ ':' :: value.toList) = some (key, value) := by
  have hcolon : ':' ∉ key.toList := fun hmem ↦ (hk.plain ':' hmem).2.1 rfl
  rw [entry?_eq_some_iff, keyValue_append hcolon]
  exact ⟨by simp [keyValue, Text.cutAtChar], hk.ne_empty⟩

theorem entriesOf_written (hk : IsKey key) (hv : IsValue value) :
    entriesOf (written (key, value)) = [(key, value)] := by
  have hplain : ∀ c ∈ key.toList ++ ':' :: value.toList, c ≠ '@' ∧ isNoise c = false := by
    intro c hc
    rcases List.mem_append.1 hc with hc | hc
    · exact ⟨(hk.plain c hc).1, (hk.plain c hc).2.2⟩
    · rcases List.mem_cons.1 hc with rfl | hc
      · decide
      · exact hv c hc
  have hat : '@' ∉ key.toList ++ ':' :: value.toList := fun hmem ↦ (hplain '@' hmem).1 rfl
  rw [written, entriesOf, compact_at, compact_eq_self fun c hc ↦ (hplain c hc).2, splitOn_at,
    List.splitOn_eq_singleton hat]
  simp [entry?_written hk]

theorem head?_compact_render {c : Char} (h : (compact (render entries)).head? = some c) :
    c = '@' := by
  cases entries with
  | nil => simp [render, compact] at h
  | cons e entries =>
    rw [render, List.flatMap_cons, written, List.cons_append, compact_at, List.head?_cons] at h
    exact (Option.some_inj.1 h).symm

/-- What is written out is read back. -/
theorem entriesOf_render (h : ∀ e ∈ entries, IsKey e.1 ∧ IsValue e.2) :
    entriesOf (render entries) = entries := by
  induction entries with
  | nil => exact entriesOf_of_not_mem List.not_mem_nil
  | cons e entries ih =>
    obtain ⟨he, hentries⟩ := List.forall_mem_cons.1 h
    have hrender : render (e :: entries) = written e ++ render entries := List.flatMap_cons
    rw [hrender, entriesOf_append fun c ↦ head?_compact_render, entriesOf_written he.1 he.2,
      ih hentries]
    rfl

/-- No entry is read that cannot be written. -/
theorem isKey_of_mem_entriesOf (h : (key, value) ∈ entriesOf text) : IsKey key ∧ IsValue value := by
  rw [entriesOf, List.mem_filterMap] at h
  obtain ⟨stretch, hmem, hentry⟩ := h
  obtain ⟨hsplit, hne⟩ := entry?_eq_some_iff.1 hentry
  have hstretch := List.mem_of_mem_drop hmem
  have hplain : ∀ c ∈ stretch, c ≠ '@' ∧ isNoise c = false := by
    intro c hc
    refine ⟨?_, (mem_of_mem_compact (Text.mem_of_mem_splitOn hstretch hc)).2⟩
    rintro rfl
    exact Text.not_mem_of_mem_splitOn hstretch hc
  rcases keyValue_cases stretch with ⟨k, v, rfl, hcolon, hkv⟩ | ⟨hcolon, hkv⟩
  · obtain ⟨rfl, rfl⟩ := Prod.mk.inj (hsplit.symm.trans hkv)
    refine ⟨⟨hne, fun c hc ↦ ?_⟩, fun c hc ↦ hplain c (by simp [hc])⟩
    have hc' := hplain c (by simp [hc])
    exact ⟨hc'.1, fun h ↦ hcolon (h ▸ hc), hc'.2⟩
  · obtain ⟨rfl, hv⟩ := Prod.mk.inj (hsplit.symm.trans hkv)
    refine ⟨⟨hne, fun c hc ↦ ?_⟩, fun c hc ↦ ?_⟩
    · exact ⟨(hplain c hc).1, fun h ↦ hcolon (h ▸ hc), (hplain c hc).2⟩
    · rw [hv] at hc
      exact absurd hc List.not_mem_nil

/-! ## Descriptors -/

/-- Entries are read back from behind a lead, whatever noise there is. -/
theorem parse_of_render {text : String} (hlead : '@' ∉ lead)
    (h : ∀ e ∈ entries, IsKey e.1 ∧ IsValue e.2)
    (htext : compact text.toList = compact (lead ++ render entries)) :
    parse text = SortedMap.ofList entries := by
  rw [parse, entriesOf_congr htext, entriesOf_append fun c ↦ head?_compact_render,
    entriesOf_of_not_mem hlead, List.nil_append, entriesOf_render h]

/-- What is read under a key can be written under it. -/
theorem isKey_of_get?_parse {comment : String} (h : (parse comment).get? key = some value) :
    IsKey key ∧ IsValue value :=
  isKey_of_mem_entriesOf (SortedMap.mem_of_get?_ofList h)

/-- The laws of the grammar of descriptors. -/
structure Grammar : Prop where
  /-- Noise says nothing: comments that are equal without it have one descriptor. -/
  noise : ∀ a b : String, compact a.toList = compact b.toList → parse a = parse b
  /-- Entries that are written out, behind a lead without an `@` and with noise put in anywhere, are
  read back, and a key has the value of its last entry. -/
  decode : ∀ (lead : List Char) (entries : List (String × String)) (comment : String),
    '@' ∉ lead → (∀ e ∈ entries, IsKey e.1 ∧ IsValue e.2) →
    compact comment.toList = compact (lead ++ render entries) →
    ∀ key value, (parse comment).get? key = some value ↔
      ∃ before after, entries = before ++ (key, value) :: after ∧ key ∉ after.map Prod.fst
  /-- All keys and values that are read can be written. -/
  proper : ∀ (comment key value : String), (parse comment).get? key = some value →
    IsKey key ∧ IsValue value
  /-- A descriptor that is written out as a comment is the descriptor of that comment. -/
  reread : ∀ comment : String,
    parse (String.ofList (render (parse comment).entries)) = parse comment
  /-- What a comment is continued with, from an `@` on, goes over what it said before. -/
  append : ∀ a b : String, (compact b.toList).head? = some '@' →
    parse (a ++ b) = (parse a).overlay (parse b)

theorem grammar : Grammar where
  noise a b h := by rw [parse, parse, entriesOf_congr h]
  decode lead entries comment hlead hentries hcomment key value := by
    rw [parse_of_render hlead hentries hcomment, SortedMap.get?_ofList_eq_some_iff]
  proper comment key value := isKey_of_get?_parse
  reread comment := by
    have hentries : ∀ e ∈ (parse comment).entries, IsKey e.1 ∧ IsValue e.2 := by
      intro e he
      exact isKey_of_get?_parse (SortedMap.get?_eq_some_iff_mem.2 he)
    have htext : compact (String.ofList (render (parse comment).entries)).toList =
        compact ([] ++ render (parse comment).entries) := by simp
    rw [parse_of_render List.not_mem_nil hentries htext]
    exact SortedMap.ofList_of_perm (.refl _)
  append a b h := by
    have hhead : ∀ c, (compact b.toList).head? = some c → c = '@' := fun c hc ↦
      Option.some_inj.1 (hc.symm.trans h)
    rw [parse, parse, parse, String.toList_append, entriesOf_append hhead, SortedMap.ofList_append]

example : (parse "all * @ a : x y\n * @b: :1 @a*:2 @@:z @c").entries =
    [("a", "2"), ("b", ":1"), ("c", "")] := by decide +kernel

end Descriptor
end ImpactGraph
