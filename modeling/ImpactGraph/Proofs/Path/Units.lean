import ImpactGraph.Path.Units
import ImpactGraph.Proofs.Path.Clean
import ImpactGraph.Proofs.Text.Bytes
import Mathlib.Data.Set.List

/-!
# Names that are texts

A path is `Legible` if some text is written as it is.  What is shown of such a path is that text
(`shown_spelled`).  Since a separator is written as itself and is no part of anything else, a text
is written segment by segment (`splitOn_spell`), and a path is legible if its parts are
(`legible_iff`), in whichever way they are separated.
-/

set_option autoImplicit false

namespace ImpactGraph

open Text

namespace Part

theorem toList_text_of_ofSegment {segment : List Char} {part : Part}
    (h : ofSegment segment = some part) : part.text.toList = segment := by
  rw [ofSegment.eq_def] at h
  split at h <;> cases h
  · rfl
  · exact String.toList_ofList

end Part

namespace Path.Units

variable {u : Units} {p q : Path} {c : Char} {text text' : List Char}

/-! ## Spelling -/

@[simp] theorem spell_nil (u : Units) : u.spell [] = [] := rfl

@[simp] theorem spell_append (u : Units) (text text' : List Char) :
    u.spell (text ++ text') = u.spell text ++ u.spell text' := List.flatMap_append

theorem spell_ascii (u : Units) (h : IsAscii c) : u.spell [c] = [c] := by
  cases u with
  | characters => rfl
  | bytes =>
    have hchar : Char.ofUInt8 c.toUInt8 = c := by
      refine Char.ext (UInt32.toNat_inj.1 ?_)
      rw [← h.toNat_toUInt8]
      exact UInt8.toNat_toUInt32 _
    rw [spell, List.flatMap_singleton, spellChar, h.utf8EncodeChar, List.map_singleton, hchar]

theorem toUInt8_ofUInt8 (byte : UInt8) : (Char.ofUInt8 byte).toUInt8 = byte :=
  UInt8.toUInt8_toUInt32 byte

theorem map_toUInt8_spell (text : List Char) : (bytes.spell text).map Char.toUInt8 = utf8 text := by
  rw [spell, List.map_flatMap, utf8]
  refine List.flatMap_congr fun c _ ↦ ?_
  rw [spellChar, List.map_map]
  exact (List.map_congr_left fun byte _ ↦ toUInt8_ofUInt8 byte).trans (List.map_id _)

/-- A separator is written for no other character. -/
theorem separator_mem_spellChar (u : Units) (h : '/' ∈ u.spellChar c) : c = '/' := by
  cases u with
  | characters => exact (List.mem_singleton.1 h).symm
  | bytes =>
    obtain ⟨byte, hbyte, hslash⟩ := List.mem_map.1 h
    refine (toUInt8_mem_utf8EncodeChar (d := '/') (by decide)).1 ?_
    rwa [← hslash, toUInt8_ofUInt8]

theorem separator_not_mem_spell (u : Units) (h : '/' ∉ text) : '/' ∉ u.spell text := by
  intro hmem
  obtain ⟨c, hc, hslash⟩ := List.mem_flatMap.1 hmem
  exact h (separator_mem_spellChar u hslash ▸ hc)

theorem spell_intercalate (u : Units) (segments : List (List Char)) :
    u.spell (['/'].intercalate segments) = ['/'].intercalate (segments.map u.spell) := by
  induction segments with
  | nil => rfl
  | cons segment segments ih =>
    cases segments with
    | nil => simp
    | cons second segments =>
      rw [List.intercalate_cons_cons, spell_append, spell_append, ih, spell_ascii u (by decide)]
      exact (List.intercalate_cons_cons ..).symm

/-- A text is written segment by segment. -/
theorem splitOn_spell (u : Units) (text : List Char) :
    (u.spell text).splitOn '/' = (text.splitOn '/').map u.spell := by
  have hsegments : ∀ segment ∈ (text.splitOn '/').map u.spell, '/' ∉ segment := by
    intro segment hmem
    obtain ⟨piece, hpiece, rfl⟩ := List.mem_map.1 hmem
    exact separator_not_mem_spell u (Text.not_mem_of_mem_splitOn hpiece)
  calc (u.spell text).splitOn '/'
      = (['/'].intercalate ((text.splitOn '/').map u.spell)).splitOn '/' := by
        rw [← spell_intercalate, List.intercalate_splitOn]
    _ = (text.splitOn '/').map u.spell :=
        List.splitOn_intercalate '/' hsegments (by simp [List.splitOn_ne_nil])

/-- What is shown of a text that is written in a path is that text. -/
theorem shown_spelled (u : Units) (name : String) : u.shown (u.spelled name) = name := by
  cases u with
  | characters =>
    have hspell : characters.spell name.toList = name.toList := List.flatMap_singleton' _
    rw [shown, spelled, hspell, String.ofList_toList]
  | bytes =>
    rw [shown, spelled, String.toList_ofList, map_toUInt8_spell, lossy_utf8, String.ofList_toList]

/-! ## Legible paths -/

/-- Whether characters of a path are those of a text. -/
def Spells (u : Units) (text : List Char) : Prop := ∃ name, u.spell name = text

/-- Whether a path is that of a text. -/
def Legible (u : Units) (p : Path) : Prop := ∃ name, u.spelled name = p.text

/-- Nothing is asked of paths that are texts. -/
theorem legible_characters (p : Path) : characters.Legible p :=
  ⟨p.text, shown_spelled .characters _⟩

theorem legible_iff_spells : u.Legible p ↔ u.Spells p.text.toList := by
  constructor
  · rintro ⟨name, hname⟩
    exact ⟨name.toList, by rw [← hname, spelled, String.toList_ofList]⟩
  · rintro ⟨name, hname⟩
    refine ⟨String.ofList name, ?_⟩
    rw [spelled, String.toList_ofList, hname, String.ofList_toList]

theorem spells_iff : u.Spells text ↔ ∀ segment ∈ text.splitOn '/', u.Spells segment := by
  constructor
  · rintro ⟨name, rfl⟩ segment hsegment
    rw [splitOn_spell] at hsegment
    obtain ⟨piece, -, rfl⟩ := List.mem_map.1 hsegment
    exact ⟨piece, rfl⟩
  · intro h
    obtain ⟨pieces, hpieces⟩ : text.splitOn '/' ∈ Set.range (List.map u.spell) := by
      rw [Set.range_list_map]
      exact h
    refine ⟨['/'].intercalate pieces, ?_⟩
    rw [spell_intercalate, hpieces, List.intercalate_splitOn]

/-- A path is legible if its parts are. -/
theorem legible_iff : u.Legible p ↔ ∀ part ∈ p.added, u.Spells part.text.toList := by
  rw [legible_iff_spells, spells_iff]
  constructor
  · intro h part hpart
    obtain ⟨segment, hsegment, hofSegment⟩ := List.mem_filterMap.1 hpart
    rw [Part.toList_text_of_ofSegment hofSegment]
    exact h segment hsegment
  · intro h segment hsegment
    cases hofSegment : Part.ofSegment segment with
    | none =>
      rcases Part.ofSegment_eq_none_iff.1 hofSegment with rfl | rfl
      · exact ⟨[], rfl⟩
      · exact ⟨['.'], spell_ascii u (by decide)⟩
    | some part =>
      rw [← Part.toList_text_of_ofSegment hofSegment]
      exact h part (List.mem_filterMap.2 ⟨segment, hsegment, hofSegment⟩)

theorem Legible.spelled_shown (h : u.Legible p) : u.spelled (u.shown p.text) = p.text := by
  obtain ⟨name, hname⟩ := h
  rw [← hname, shown_spelled]

theorem Legible.of_added (h : u.Legible p) (hadded : ∀ part ∈ q.added, part ∈ p.added) :
    u.Legible q :=
  legible_iff.2 fun part hpart ↦ legible_iff.1 h part (hadded part hpart)

end Path.Units
end ImpactGraph
