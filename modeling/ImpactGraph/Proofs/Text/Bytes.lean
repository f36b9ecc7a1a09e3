import ImpactGraph.Proofs.Text.Cut
import ImpactGraph.Text.Utf8

/-!
# Texts and their bytes

Where a text is read by byte offsets, a slice can fail: past the end of the text, or inside a
character.  `cutAtByte` is a cut at a byte offset that says so, and `cutAtByte_eq_some_iff` tells
where the cuts are.

The bytes of a text are read as that text (`lossy_utf8`), so different texts have different bytes.
A character of ASCII is one byte, and this byte is part of no other character
(`toUInt8_mem_utf8EncodeChar`).  Hence the first occurrence of an ASCII word among the bytes of a
text is its first occurrence in the text (`indexOf?_utf8`), and never inside a character.
-/

set_option autoImplicit false

namespace ImpactGraph
namespace Text

variable {word before text a b : List Char} {c d : Char}

/-! ## Bytes -/

@[simp] theorem utf8_nil : utf8 [] = [] := rfl

@[simp] theorem utf8_cons (c : Char) (text : List Char) :
    utf8 (c :: text) = String.utf8EncodeChar c ++ utf8 text := List.flatMap_cons

@[simp] theorem utf8_append (a b : List Char) : utf8 (a ++ b) = utf8 a ++ utf8 b :=
  List.flatMap_append

@[simp] theorem length_utf8 (text : List Char) : (utf8 text).length = utf8Length text := by
  induction text with
  | nil => rfl
  | cons c text ih => simp [ih]

theorem drop_utf8_append (a b : List Char) : (utf8 (a ++ b)).drop (utf8Length a) = utf8 b := by
  rw [utf8_append, List.drop_left' (length_utf8 a)]

theorem utf8ByteSize_eq (text : String) : text.utf8ByteSize = utf8Length text.toList := by
  have hsize : text.utf8ByteSize = (text.toList.utf8Encode).size := by
    rw [← String.toByteArray_ofList, String.ofList_toList]
    rfl
  rw [hsize, ← length_utf8, List.utf8Encode]
  simp [utf8]

/-! ## Reading bytes -/

theorem utf8EncodeChar_ne_nil (c : Char) : String.utf8EncodeChar c ≠ [] := by
  rw [← List.length_pos_iff, String.length_utf8EncodeChar]
  exact c.utf8Size_pos

theorem firstChar?_utf8 (c : Char) (text : List Char) :
    firstChar? (utf8 (c :: text)) = some c := by
  have hlength : (String.utf8EncodeChar c).length ≤ 4 := by
    rw [String.length_utf8EncodeChar]
    exact c.utf8Size_le_four
  rw [firstChar?, utf8_cons, List.take_append, List.take_of_length_le hlength,
    List.toByteArray_append, ByteArray.utf8DecodeChar?_utf8EncodeChar_append]

theorem lossyFrom_append (skipped bytes : List UInt8) :
    lossyFrom skipped.length (skipped ++ bytes) = lossy bytes := by
  induction skipped with
  | nil => rfl
  | cons byte skipped ih => exact ih

/-- The bytes of a text are read as that text. -/
theorem lossy_utf8 (text : List Char) : lossy (utf8 text) = text := by
  induction text with
  | nil => rfl
  | cons c text ih =>
    obtain ⟨byte, others, hchar⟩ := List.exists_cons_of_ne_nil (utf8EncodeChar_ne_nil c)
    have hothers : c.utf8Size - 1 = others.length := by
      rw [← String.length_utf8EncodeChar, hchar, List.length_cons, Nat.add_sub_cancel]
    have hfirst := firstChar?_utf8 c text
    rw [utf8_cons, hchar, List.cons_append] at hfirst ⊢
    rw [lossy, lossyFrom, hfirst]
    dsimp only
    rw [hothers, lossyFrom_append, ih]

/-! ## Characters of ASCII -/

/-- Whether a character takes one byte. -/
def IsAscii (c : Char) : Prop := c.utf8Size = 1

instance : DecidablePred IsAscii := fun c ↦ inferInstanceAs (Decidable (c.utf8Size = 1))

theorem IsAscii.toNat_le (h : IsAscii c) : c.val.toNat ≤ 127 :=
  UInt32.le_iff_toNat_le.1 (Char.utf8Size_eq_one_iff.1 h)

theorem IsAscii.utf8EncodeChar (h : IsAscii c) : String.utf8EncodeChar c = [c.toUInt8] :=
  String.utf8EncodeChar_eq_singleton h

/-- The bytes of a longer character are above those of ASCII. -/
theorem le_of_mem_utf8EncodeChar (hc : ¬IsAscii c) {byte : UInt8}
    (h : byte ∈ String.utf8EncodeChar c) : 128 ≤ byte.toNat := by
  have hlt : ¬c.val.toNat ≤ 127 := fun hle ↦
    hc (Char.utf8Size_eq_one_iff.2 (UInt32.le_iff_toNat_le.2 hle))
  rw [String.utf8EncodeChar.eq_1, if_neg hlt] at h
  split at h
  · simp only [List.mem_cons, List.not_mem_nil, or_false] at h
    rcases h with rfl | rfl <;> simp <;> omega
  · split at h
    · simp only [List.mem_cons, List.not_mem_nil, or_false] at h
      rcases h with rfl | rfl | rfl <;> simp <;> omega
    · simp only [List.mem_cons, List.not_mem_nil, or_false] at h
      rcases h with rfl | rfl | rfl | rfl <;> simp <;> omega

theorem IsAscii.toNat_toUInt8 (h : IsAscii c) : c.toUInt8.toNat = c.val.toNat := by
  have := h.toNat_le
  rw [Char.toUInt8, UInt32.toNat_toUInt8]
  omega

theorem IsAscii.toUInt8_inj (hc : IsAscii c) (hd : IsAscii d) (h : c.toUInt8 = d.toUInt8) :
    c = d := by
  refine Char.ext (UInt32.toNat_inj.1 ?_)
  rw [← hc.toNat_toUInt8, ← hd.toNat_toUInt8, h]

/-- The byte of an ASCII character is a byte of no other character. -/
theorem toUInt8_mem_utf8EncodeChar (hd : IsAscii d) :
    d.toUInt8 ∈ String.utf8EncodeChar c ↔ c = d := by
  constructor
  · intro h
    by_cases hc : IsAscii c
    · rw [hc.utf8EncodeChar, List.mem_singleton] at h
      exact hc.toUInt8_inj hd h.symm
    · have hle := le_of_mem_utf8EncodeChar hc h
      have hlt := hd.toNat_le
      rw [hd.toNat_toUInt8] at hle
      omega
  · rintro rfl
    rw [hd.utf8EncodeChar]
    exact List.mem_cons_self

theorem head_utf8EncodeChar (c : Char) :
    ∃ (first : UInt8) (others : List UInt8), String.utf8EncodeChar c = first :: others ∧
      ∀ d, IsAscii d → (first = d.toUInt8 ↔ c = d) := by
  obtain ⟨first, others, heq⟩ := List.exists_cons_of_ne_nil (utf8EncodeChar_ne_nil c)
  refine ⟨first, others, heq, fun d hd ↦ ⟨?_, ?_⟩⟩
  · rintro rfl
    rw [← toUInt8_mem_utf8EncodeChar hd, heq]
    exact List.mem_cons_self
  · rintro rfl
    rw [hd.utf8EncodeChar] at heq
    exact (List.cons.inj heq).1.symm

/-- The last byte of a text is that of an ASCII character if the last character is that. -/
theorem getLast?_utf8 (hd : IsAscii d) (text : List Char) :
    (utf8 text).getLast? = some d.toUInt8 ↔ text.getLast? = some d := by
  obtain rfl | ⟨front, c, rfl⟩ := text.eq_nil_or_concat
  · simp
  · have hlast : (utf8 (front ++ [c])).getLast? = (String.utf8EncodeChar c).getLast? := by
      rw [utf8_append, utf8_cons, utf8_nil, List.append_nil,
        List.getLast?_append_of_ne_nil _ (utf8EncodeChar_ne_nil c)]
    rw [List.concat_eq_append, hlast, List.getLast?_concat, Option.some.injEq]
    constructor
    · exact fun h ↦ (toUInt8_mem_utf8EncodeChar hd).1 (List.mem_of_getLast? h)
    · rintro rfl
      rw [hd.utf8EncodeChar, List.getLast?_singleton]

/-! ## Words among bytes -/

theorem isPrefixOf_utf8 (hword : ∀ c ∈ word, IsAscii c) (text : List Char) :
    (utf8 word).isPrefixOf (utf8 text) = word.isPrefixOf text := by
  induction word generalizing text with
  | nil => simp
  | cons w word ih =>
    obtain ⟨hw, hothers⟩ := List.forall_mem_cons.1 hword
    cases text with
    | nil => simp [hw.utf8EncodeChar]
    | cons c text =>
      obtain ⟨first, others, heq, hfirst⟩ := head_utf8EncodeChar c
      rw [utf8_cons, utf8_cons, hw.utf8EncodeChar, List.singleton_append, List.isPrefixOf_cons_cons]
      by_cases hc : c = w
      · subst hc
        rw [hw.utf8EncodeChar, List.singleton_append, List.isPrefixOf_cons_cons, ih hothers,
          beq_self_eq_true, beq_self_eq_true]
      · have hne : first ≠ w.toUInt8 := fun h ↦ hc ((hfirst w hw).1 h)
        rw [heq, List.cons_append, List.isPrefixOf_cons_cons, beq_false_of_ne hne.symm,
          beq_false_of_ne (Ne.symm hc), Bool.false_and, Bool.false_and]

/-- The place of the first occurrence of `needle`. -/
def indexOf? (needle : List UInt8) : List UInt8 → Option Nat
  | [] => if needle.isEmpty then some 0 else none
  | byte :: bytes =>
    if needle.isPrefixOf (byte :: bytes) then some 0 else (indexOf? needle bytes).map (· + 1)

/-- What is found lies before the end of the bytes. -/
theorem add_length_le_of_indexOf? {needle bytes : List UInt8} {n : Nat}
    (h : indexOf? needle bytes = some n) : n + needle.length ≤ bytes.length := by
  induction bytes generalizing n with
  | nil =>
    rw [indexOf?] at h
    split at h
    · next hempty =>
      obtain rfl := Option.some.inj h
      simp [List.isEmpty_iff.1 hempty]
    · cases h
  | cons byte bytes ih =>
    rw [indexOf?] at h
    split at h
    · next hstarts =>
      obtain rfl := Option.some.inj h
      rw [Nat.zero_add]
      exact (List.isPrefixOf_iff_prefix.1 hstarts).length_le
    · obtain ⟨n, hindex, rfl⟩ := Option.map_eq_some_iff.1 h
      have := ih hindex
      rw [List.length_cons]
      omega

theorem indexOf?_append {first : UInt8} {others bytes rest : List UInt8} (h : first ∉ bytes) :
    indexOf? (first :: others) (bytes ++ rest) =
      (indexOf? (first :: others) rest).map (bytes.length + ·) := by
  induction bytes with
  | nil => simp
  | cons byte bytes ih =>
    rw [List.mem_cons, not_or] at h
    rw [List.cons_append, indexOf?, if_neg (by simp [h.1]), ih h.2, Option.map_map]
    refine congrArg (Option.map · _) (funext fun n ↦ ?_)
    simp only [Function.comp_apply, List.length_cons]
    omega

/-- An ASCII word is found among the bytes of a text where it is found in the text. -/
theorem indexOf?_utf8 (hne : word ≠ []) (hword : ∀ c ∈ word, IsAscii c) (text : List Char) :
    indexOf? (utf8 word) (utf8 text) = (cutAt word text).map fun (lead, _) ↦ utf8Length lead := by
  obtain ⟨w, others, rfl⟩ := List.exists_cons_of_ne_nil hne
  have hw : IsAscii w := hword w List.mem_cons_self
  have hneedle : utf8 (w :: others) = w.toUInt8 :: utf8 others := by
    rw [utf8_cons, hw.utf8EncodeChar, List.singleton_append]
  induction text with
  | nil => simp [cutAt_nil, hneedle, indexOf?]
  | cons c text ih =>
    have hstarts := isPrefixOf_utf8 hword (c :: text)
    rw [cutAt_cons]
    by_cases hc : c = w
    · subst hc
      have htext : utf8 (c :: text) = c.toUInt8 :: utf8 text := by
        rw [utf8_cons, hw.utf8EncodeChar, List.singleton_append]
      rw [htext] at hstarts ⊢
      rw [indexOf?, hstarts]
      split
      · rfl
      · rw [ih, Option.map_map, Option.map_map]
        refine congrArg (Option.map · _) (funext fun cut ↦ ?_)
        obtain ⟨lead, after⟩ := cut
        have hsize : c.utf8Size = 1 := hw
        simp only [Function.comp_apply, utf8Length_cons, hsize]
        omega
    · have hnone : (w :: others).isPrefixOf (c :: text) = false := by
        rw [List.isPrefixOf_cons_cons, beq_false_of_ne (Ne.symm hc), Bool.false_and]
      have hmem : w.toUInt8 ∉ String.utf8EncodeChar c := fun h ↦
        hc ((toUInt8_mem_utf8EncodeChar hw).1 h)
      rw [hnone, if_neg Bool.false_ne_true, utf8_cons c, hneedle, indexOf?_append hmem, ← hneedle,
        ih, Option.map_map, Option.map_map]
      simp [Function.comp_def]

/-! ## Slices -/

/-- Cuts a text at a byte.  There is no cut past the end, and none inside a character. -/
def cutAtByte (n : Nat) : List Char → Option (List Char × List Char)
  | [] => if n = 0 then some ([], []) else none
  | c :: text =>
    if n = 0 then some ([], c :: text)
    else if n < c.utf8Size then none
    else (cutAtByte (n - c.utf8Size) text).map fun (before, after) ↦ (c :: before, after)

theorem cutAtByte_append (a b : List Char) : cutAtByte (utf8Length a) (a ++ b) = some (a, b) := by
  induction a with
  | nil => cases b <;> simp [cutAtByte]
  | cons c a ih =>
    have hpos := c.utf8Size_pos
    rw [List.cons_append, cutAtByte, utf8Length_cons, if_neg (by omega), if_neg (by omega),
      Nat.add_sub_cancel_left, ih, Option.map_some]

/-- The cuts of a text are between its characters. -/
theorem cutAtByte_eq_some_iff {n : Nat} :
    cutAtByte n text = some (a, b) ↔ text = a ++ b ∧ utf8Length a = n := by
  constructor
  · intro h
    induction text generalizing n a with
    | nil =>
      rw [cutAtByte] at h
      split at h
      · next hn => simp_all
      · cases h
    | cons c text ih =>
      rw [cutAtByte] at h
      split at h
      · next hn => simp_all
      · split at h
        · cases h
        · obtain ⟨⟨a, b⟩, hcut, heq⟩ := Option.map_eq_some_iff.1 h
          obtain ⟨rfl, rfl⟩ := Prod.mk.inj heq
          obtain ⟨rfl, hlength⟩ := ih hcut
          refine ⟨rfl, ?_⟩
          rw [utf8Length_cons]
          omega
  · rintro ⟨rfl, rfl⟩
    exact cutAtByte_append a b

/-- The text from a byte on. -/
def sliceFrom? (start : Nat) (text : List Char) : Option (List Char) :=
  (cutAtByte start text).map (·.2)

/-- The text up to a byte. -/
def sliceTo? (stop : Nat) (text : List Char) : Option (List Char) :=
  (cutAtByte stop text).map (·.1)

/-- The text between two bytes. -/
def slice? (start stop : Nat) (text : List Char) : Option (List Char) :=
  if start ≤ stop then (sliceTo? stop text).bind (sliceFrom? start) else none

theorem sliceFrom?_append (a b : List Char) : sliceFrom? (utf8Length a) (a ++ b) = some b := by
  rw [sliceFrom?, cutAtByte_append, Option.map_some]

theorem sliceTo?_append (a b : List Char) : sliceTo? (utf8Length a) (a ++ b) = some a := by
  rw [sliceTo?, cutAtByte_append, Option.map_some]

theorem slice?_of_append {source : List Char} (h : a ++ text ++ b = source) :
    slice? (utf8Length a) (utf8Length a + utf8Length text) source = some text := by
  rw [← h, ← utf8Length_append, slice?, if_pos (by rw [utf8Length_append]; omega),
    sliceTo?_append, Option.bind_some, sliceFrom?_append]

/-- A slice past the end of a text fails. -/
theorem sliceFrom?_of_lt {n : Nat} (h : utf8Length text < n) : sliceFrom? n text = none := by
  rw [sliceFrom?, Option.map_eq_none_iff, Option.eq_none_iff_forall_not_mem]
  rintro ⟨a, b⟩ hcut
  obtain ⟨rfl, rfl⟩ := cutAtByte_eq_some_iff.1 hcut
  rw [utf8Length_append] at h
  omega

/-- The byte at which the first character with a property starts. -/
def findChar? (p : Char → Bool) : List Char → Option Nat
  | [] => none
  | c :: text => if p c then some 0 else (findChar? p text).map (c.utf8Size + ·)

/-- The first character with a property is where the longest part without it ends. -/
theorem getD_findChar? (p : Char → Bool) (text : List Char) :
    (findChar? p text).getD (utf8Length text) = utf8Length (text.takeWhile (!p ·)) := by
  induction text with
  | nil => rfl
  | cons c text ih =>
    by_cases hc : p c
    · simp [findChar?, hc]
    · rw [List.takeWhile_cons_of_pos (by simp [hc]), utf8Length_cons, utf8Length_cons, ← ih,
        findChar?, if_neg hc]
      cases findChar? p text <;> rfl

theorem cutAtByte_takeWhile (p : Char → Bool) (text : List Char) :
    cutAtByte (utf8Length (text.takeWhile p)) text =
      some (text.takeWhile p, text.dropWhile p) := by
  rw [cutAtByte_eq_some_iff]
  exact ⟨List.takeWhile_append_dropWhile.symm, rfl⟩

end Text
end ImpactGraph
