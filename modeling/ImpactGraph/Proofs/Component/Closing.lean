import ImpactGraph.Proofs.Component.Rendered
import Mathlib.Data.List.TakeWhile

/-!
# Where an opening tag ends

The end of an opening tag is looked for by quotes alone (`closingAngle?`), while its inside is read
as a list of attributes, in which a quote counts only where it starts a value.  `marks` lays the
text out as the attributes are read, and `tagEnd?` is the end of the tag by that reading: the first
`>` outside the quoted values.

Both agree on a text that is `Steady`: no quote stands in a name or in a bare value before the end
of the tag.  The first quote that does hides all that follows it, up to the next quote of its kind
(`closes_tag`), so the end that is found may be another one, or none (`hidden_behind_apostrophe`).
-/

set_option autoImplicit false

namespace ImpactGraph
namespace Component

open Text

/-! ## Texts as their attributes are read -/

/-- A text, each character with whether it stands in a quoted value; so do the quotes around it. -/
abbrev Marked := List (Char × Bool)

namespace Marked

/-- A text outside quoted values. -/
def plain (text : List Char) : Marked := text.map (·, false)

/-- A quoted value. -/
def quoted (text : List Char) : Marked := text.map (·, true)

/-- The text without its marks. -/
def text (m : Marked) : List Char := m.map Prod.fst

/-- What stands before the first `>` outside quoted values, and what follows it. -/
def cut? : Marked → Option (List Char × List Char)
  | [] => none
  | (c, inValue) :: m =>
    if c = '>' ∧ inValue = false then some ([], text m)
    else (cut? m).map fun (inside, after) ↦ (c :: inside, after)

end Marked

open Marked

/-- Whether a character starts a quoted value. -/
def isQuote (c : Char) : Bool := c = '"' || c = '\''

/-- The part of a text that is read as its value. -/
def markValue (text : List Char) : Marked :=
  match text with
  | [] => []
  | c :: rest =>
    if isQuote c then
      quoted (c :: rest.takeWhile (· != c) ++ (rest.dropWhile (· != c)).take 1)
    else plain (text.takeWhile (!endsBareValue ·))

/-- The part of a text that is read as the attribute at its start. -/
def markAttribute (c : Char) (text : List Char) : Marked :=
  match trimStart (takeName c text).2 with
  | [] => plain (takeName c text).1
  | sign :: after =>
    if sign = '=' then
      plain ((takeName c text).1 ++ (takeName c text).2.takeWhile isBlank) ++
        plain ('=' :: after.takeWhile isBlank) ++ markValue (trimStart after)
    else plain (takeName c text).1

theorem length_takeAttribute_lt {text : List Char} {c : Char} {rest : List Char}
    (h : text.dropWhile isGap = c :: rest) : (takeAttribute c rest).2.length < text.length := by
  have hgap := length_dropWhile_le isGap text
  have hattribute := length_takeAttribute_le c rest
  rw [h, List.length_cons] at hgap
  omega

/-- The text as its attributes are read. -/
def marks (text : List Char) : Marked :=
  match h : text.dropWhile isGap with
  | [] => plain text
  | c :: rest =>
    have := length_takeAttribute_lt h
    plain (text.takeWhile isGap) ++ markAttribute c rest ++ marks (takeAttribute c rest).2
  termination_by text.length

/-- The inside of a tag by the reading of its attributes, and what follows the tag. -/
def tagEnd? (text : List Char) : Option (List Char × List Char) := (marks text).cut?

variable {t : List Char} {c q : Char} {m m' before after : Marked}

/-! ## Nothing is lost -/

namespace Marked

@[simp] theorem text_nil : text [] = [] := rfl

@[simp] theorem text_append : text (m ++ m') = text m ++ text m' := List.map_append

@[simp] theorem text_plain : text (plain t) = t := by simp [text, plain, Function.comp_def]

@[simp] theorem text_quoted : text (quoted t) = t := by simp [text, quoted, Function.comp_def]

end Marked

theorem text_markValue : text (markValue t) ++ (takeValue t).2 = t := by
  cases t with
  | nil => rfl
  | cons c rest =>
    rw [markValue, takeValue, isQuote]
    split
    · rw [text_quoted, List.cons_append, List.cons_append, List.append_assoc,
        List.take_append_drop, List.takeWhile_append_dropWhile]
    · rw [text_plain, List.takeWhile_append_dropWhile]

theorem takeName_append_eq : (takeName c t).1 ++ (takeName c t).2 = c :: t := by
  rw [takeName]
  split
  · rfl
  · rw [List.cons_append, List.takeWhile_append_dropWhile]

theorem text_markAttribute : text (markAttribute c t) ++ (takeAttribute c t).2 = c :: t := by
  have hname := takeName_append_eq (c := c) (t := t)
  unfold markAttribute takeAttribute
  generalize takeName c t = taken at hname ⊢
  cases htrim : trimStart taken.2 with
  | nil => simpa using hname
  | cons sign after =>
    by_cases hsign : sign = '='
    · have hafter : after.takeWhile isBlank ++ trimStart after = after :=
        List.takeWhile_append_dropWhile
      have hrest : taken.2.takeWhile isBlank ++ trimStart taken.2 = taken.2 :=
        List.takeWhile_append_dropWhile
      rw [htrim, hsign] at hrest
      simp only [hsign, if_true, text_append, text_plain, List.append_assoc, List.cons_append,
        text_markValue, hafter, hrest, hname]
    · simpa [hsign] using hname

theorem text_marks : text (marks t) = t := by
  fun_induction marks t with
  | case1 t h => rw [text_plain]
  | case2 t c rest h _ ih =>
    rw [text_append, text_append, text_plain, ih, List.append_assoc, text_markAttribute, ← h,
      List.takeWhile_append_dropWhile]

/-! ## What is laid out -/

/-- A text that is made of characters outside quoted values and of such values; the last value may
lack its closing quote. -/
inductive Delimited : Marked → Prop
  | nil : Delimited []
  | plain (c : Char) {m : Marked} : Delimited m → Delimited ((c, false) :: m)
  | closed {q : Char} {value : List Char} {m : Marked} : isQuote q = true → q ∉ value →
      Delimited m → Delimited (quoted (q :: value ++ [q]) ++ m)
  | unclosed {q : Char} {value : List Char} : isQuote q = true → q ∉ value →
      Delimited (quoted (q :: value))

namespace Delimited

theorem plain_append (h : Delimited m) : Delimited (Marked.plain t ++ m) := by
  induction t with
  | nil => exact h
  | cons c t ih => exact .plain c ih

end Delimited

theorem marks_nil : marks [] = [] := by
  rw [marks]
  rfl

/-- A value without its closing quote reaches to the end of the text. -/
theorem delimited_markValue (h : Delimited (marks (takeValue t).2)) :
    Delimited (markValue t ++ marks (takeValue t).2) := by
  cases t with
  | nil => exact h
  | cons c rest =>
    rw [takeValue] at h ⊢
    rw [markValue, isQuote]
    split
    · next hc =>
      rw [if_pos hc] at h
      have hvalue : c ∉ rest.takeWhile (· != c) := fun hmem ↦ by
        simpa using List.mem_takeWhile_imp hmem
      cases hdrop : rest.dropWhile (· != c) with
      | nil =>
        simp only [List.take_nil, List.append_nil, List.drop_nil, marks_nil]
        exact .unclosed hc hvalue
      | cons d tail =>
        obtain rfl : d = c := by
          have hhead := List.head?_dropWhile_not (· != c) rest
          rw [hdrop] at hhead
          simpa using hhead
        rw [hdrop] at h
        exact .closed hc hvalue h
    · next hc =>
      rw [if_neg hc] at h
      exact h.plain_append

theorem delimited_markAttribute (h : Delimited (marks (takeAttribute c t).2)) :
    Delimited (markAttribute c t ++ marks (takeAttribute c t).2) := by
  unfold markAttribute
  unfold takeAttribute at h ⊢
  generalize takeName c t = taken at h ⊢
  cases htrim : trimStart taken.2 with
  | nil =>
    rw [htrim] at h
    exact h.plain_append
  | cons sign after =>
    rw [htrim] at h
    by_cases hsign : sign = '='
    · simp only [hsign, if_true, List.append_assoc] at h ⊢
      exact (delimited_markValue h).plain_append.plain_append
    · simp only [hsign, if_false] at h ⊢
      exact h.plain_append

theorem delimited_marks (t : List Char) : Delimited (marks t) := by
  fun_induction marks t with
  | case1 t => exact List.append_nil (plain t) ▸ Delimited.nil.plain_append
  | case2 t c rest _ _ ih =>
    rw [List.append_assoc]
    exact (delimited_markAttribute ih).plain_append

/-! ## One step of the search -/

theorem closingAngle?_cons (hc : isQuote c = false) : closingAngle? (c :: t) =
    if c = '>' then some ([], t)
    else (closingAngle? t).map fun (inside, after) ↦ (c :: inside, after) := by
  rw [closingAngle?, closingAngleFrom]
  by_cases hangle : c = '>'
  · simp [hangle]
  · have hstep : quoteStep none c = none := if_neg (Bool.eq_false_iff.1 hc)
    rw [if_neg (by simp [hangle]), if_neg hangle, hstep, closingAngleFrom_eq_map, closingAngle?,
      Option.map_map, Option.map_map]
    simp [Function.comp_def]

theorem closingAngleFrom_eq_none (hq : q ∉ t) (inside : List Char) :
    closingAngleFrom (some q) inside t = none := by
  induction t generalizing inside with
  | nil => rfl
  | cons c t ih =>
    rw [List.mem_cons, not_or] at hq
    rw [closingAngleFrom, if_neg (by simp), quoteStep, if_neg (Ne.symm hq.1), ih hq.2]

/-- A quote hides what follows it, up to the next quote of its kind. -/
theorem closingAngle?_quote (hq : isQuote q = true) : closingAngle? (q :: t) =
    (cutAtChar q t).bind fun (hidden, rest) ↦
      (closingAngle? rest).map fun (inside, after) ↦ (q :: (hidden ++ q :: inside), after) := by
  have hangle : q ≠ '>' := by
    rintro rfl
    cases hq
  have hstep : quoteStep none q = some q := if_pos hq
  rw [closingAngle?, closingAngleFrom, if_neg (by simp [hangle]), hstep]
  cases hcut : cutAtChar q t with
  | none =>
    rw [closingAngleFrom_eq_none (cutAtChar_eq_none_iff.1 hcut)]
    rfl
  | some cut =>
    obtain ⟨hidden, rest⟩ := cut
    rw [cutAtChar_eq_some hcut, closingAngleFrom_quoted (not_mem_of_cutAtChar hcut),
      closingAngleFrom_eq_map]
    simp [closingAngle?, Function.comp_def]

theorem closingAngle?_closed {value : List Char} (hq : isQuote q = true) (hvalue : q ∉ value) :
    closingAngle? (q :: value ++ [q] ++ t) =
      (closingAngle? t).map fun (inside, after) ↦ (q :: value ++ [q] ++ inside, after) := by
  have hcut : cutAtChar q (value ++ q :: t) = some (value, t) := by
    simp [cutAtChar_append hvalue, cutAtChar]
  have htext : q :: value ++ [q] ++ t = q :: (value ++ q :: t) := by simp
  rw [htext, closingAngle?_quote hq, hcut]
  simp

theorem closingAngle?_unclosed {value : List Char} (hq : isQuote q = true) (hvalue : q ∉ value) :
    closingAngle? (q :: value) = none := by
  rw [closingAngle?_quote hq, cutAtChar_eq_none_iff.2 hvalue]
  rfl

/-! ## Both ends compared -/

/-- Before the end of the tag, quotes stand only in quoted values and around them. -/
def Steady (m : Marked) : Prop :=
  ∀ before q after, m = before ++ (q, false) :: after → isQuote q = true → ('>', false) ∈ before

/-- Outside quoted values there is neither a `>` nor a quote. -/
def Quiet (m : Marked) : Prop := ∀ c, (c, false) ∈ m → c ≠ '>' ∧ isQuote c = false

theorem Steady.tail (h : Steady ((c, false) :: m)) (hc : c ≠ '>') : Steady m := by
  intro before q after hm hq
  have hmem := h ((c, false) :: before) q after (by rw [hm, List.cons_append]) hq
  rcases List.mem_cons.1 hmem with heq | hmem
  · exact absurd (Prod.mk.inj heq).1.symm hc
  · exact hmem

theorem not_mem_quoted : (c, false) ∉ quoted t := by
  simp [quoted]

theorem Steady.of_quoted_append (h : Steady (quoted t ++ m)) : Steady m := by
  intro before q after hm hq
  have hmem := h (quoted t ++ before) q after (by rw [hm, List.append_assoc]) hq
  exact (List.mem_append.1 hmem).resolve_left not_mem_quoted

/-- A character outside quoted values stands behind a quoted value, or before it. -/
theorem exists_of_quoted_append (h : quoted t ++ m = before ++ (c, false) :: after) :
    ∃ between, before = quoted t ++ between ∧ m = between ++ (c, false) :: after := by
  rcases List.append_eq_append_iff.1 h with ⟨between, rfl, hm⟩ | ⟨between, ht, hm⟩
  · exact ⟨between, rfl, hm⟩
  · cases between with
    | nil => exact ⟨[], by simpa using ht.symm, by simpa using hm.symm⟩
    | cons x between =>
      obtain ⟨rfl, -⟩ := List.cons.inj hm
      have hmem : (c, false) ∈ quoted t := by rw [ht]; simp
      exact absurd hmem not_mem_quoted

theorem cut?_quoted_append : cut? (quoted t ++ m) =
    (cut? m).map fun (inside, after) ↦ (t ++ inside, after) := by
  induction t with
  | nil => simp [quoted]
  | cons c t ih =>
    show cut? ((c, true) :: (quoted t ++ m)) = _
    rw [cut?, if_neg (by simp), ih, Option.map_map]
    rfl

theorem Steady.cons {x : Char × Bool} (h : Steady m)
    (hx : x.2 = false → isQuote x.1 = false) : Steady (x :: m) := by
  intro before q after hm hq
  cases before with
  | nil =>
    obtain ⟨rfl, -⟩ := List.cons.inj hm
    cases (hx rfl).symm.trans hq
  | cons y before =>
    obtain ⟨-, rfl⟩ := List.cons.inj hm
    exact List.mem_cons_of_mem _ (h before q after rfl hq)

theorem steady_of_angle : Steady (('>', false) :: m) := by
  intro before q after hm hq
  cases before with
  | nil =>
    obtain ⟨hq', -⟩ := List.cons.inj hm
    obtain ⟨rfl, -⟩ := Prod.mk.inj hq'
    cases hq
  | cons y before =>
    obtain ⟨rfl, -⟩ := List.cons.inj hm
    exact List.mem_cons_self

theorem Quiet.cons {x : Char × Bool} (h : Quiet m)
    (hx : x.2 = false → x.1 ≠ '>' ∧ isQuote x.1 = false) : Quiet (x :: m) := by
  intro c hc
  rcases List.mem_cons.1 hc with rfl | hc
  · exact hx rfl
  · exact h c hc

/-- Either all quotes before the end of the tag belong to values, or there is a first one that does
not. -/
theorem steady_or_exists (m : Marked) : Steady m ∨ ∃ before q after,
    m = before ++ (q, false) :: after ∧ isQuote q = true ∧ Quiet before := by
  induction m with
  | nil => exact .inl fun before q after hm ↦ by simp at hm
  | cons x m ih =>
    by_cases hangle : x = ('>', false)
    · exact .inl (hangle ▸ steady_of_angle)
    by_cases hstray : x.2 = false ∧ isQuote x.1 = true
    · obtain ⟨hvalue, hquote⟩ := hstray
      exact .inr ⟨[], x.1, m, by rw [← hvalue]; rfl, hquote, fun c hc ↦ by cases hc⟩
    have hx (hvalue : x.2 = false) : x.1 ≠ '>' ∧ isQuote x.1 = false :=
      ⟨fun hc ↦ hangle (Prod.ext hc hvalue), Bool.eq_false_iff.2 fun hq ↦ hstray ⟨hvalue, hq⟩⟩
    rcases ih with hsteady | ⟨before, q, after, rfl, hq, hbefore⟩
    · exact .inl (hsteady.cons fun hvalue ↦ (hx hvalue).2)
    · exact .inr ⟨x :: before, q, after, rfl, hq, hbefore.cons hx⟩

namespace Delimited

theorem closingAngle?_eq (h : Delimited m) (hsteady : Steady m) :
    closingAngle? (text m) = cut? m := by
  induction h with
  | nil => rfl
  | @plain c m _ ih =>
    have hquote : isQuote c = false := by
      cases hc : isQuote c with
      | false => rfl
      | true => cases hsteady [] c m rfl hc
    show closingAngle? (c :: text m) = _
    rw [closingAngle?_cons hquote, cut?]
    by_cases hangle : c = '>'
    · simp [hangle]
    · rw [if_neg hangle, if_neg (by simp [hangle]), ih (hsteady.tail hangle)]
  | @closed q value m hq hvalue _ ih =>
    rw [text_append, text_quoted, cut?_quoted_append, closingAngle?_closed hq hvalue,
      ih hsteady.of_quoted_append]
  | @unclosed q value hq hvalue =>
    rw [text_quoted, closingAngle?_unclosed hq hvalue, ← List.append_nil (quoted (q :: value)),
      cut?_quoted_append]
    rfl

/-- Before the first quote that belongs to no value, the search goes along with the reading. -/
theorem closingAngle?_append (h : Delimited m) (hm : m = before ++ (q, false) :: after)
    (hbefore : Quiet before) (t : List Char) : closingAngle? (text before ++ t) =
      (closingAngle? t).map fun (inside, rest) ↦ (text before ++ inside, rest) := by
  induction h generalizing before with
  | nil => simp at hm
  | @plain c m _ ih =>
    cases before with
    | nil => simp
    | cons x before =>
      obtain ⟨rfl, rfl⟩ := List.cons.inj hm
      obtain ⟨hangle, hquote⟩ := hbefore c List.mem_cons_self
      show closingAngle? (c :: (text before ++ t)) = _
      rw [closingAngle?_cons hquote, if_neg hangle,
        ih rfl fun d hd ↦ hbefore d (List.mem_cons_of_mem _ hd), Option.map_map]
      rfl
  | @closed q' value m hq' hvalue _ ih =>
    obtain ⟨between, rfl, hrest⟩ := exists_of_quoted_append hm
    rw [text_append, text_quoted, List.append_assoc, closingAngle?_closed hq' hvalue,
      ih hrest fun d hd ↦ hbefore d (List.mem_append_right _ hd), Option.map_map]
    simp [Function.comp_def]
  | @unclosed q' value hq' hvalue =>
    have hmem : (q, false) ∈ quoted (q' :: value) := by rw [hm]; simp
    exact absurd hmem not_mem_quoted

end Delimited

/-- The end that is found for a tag, beside the one that the reading of its attributes gives. -/
structure Closes (t : List Char) : Prop where
  /-- They are the same if every quote before the end of the tag belongs to a value. -/
  steady : Steady (marks t) → closingAngle? t = tagEnd? t
  /-- The first quote that does not hides what follows it, up to the next quote of its kind. -/
  stray : ∀ before q after, marks t = before ++ (q, false) :: after → isQuote q = true →
    Quiet before → closingAngle? t = (cutAtChar q (text after)).bind fun (hidden, rest) ↦
      (closingAngle? rest).map fun (inside, behind) ↦
        (text before ++ q :: (hidden ++ q :: inside), behind)
  /-- One of both is the case. -/
  either : Steady (marks t) ∨ ∃ before q after,
    marks t = before ++ (q, false) :: after ∧ isQuote q = true ∧ Quiet before

theorem closes_tag (t : List Char) : Closes t where
  steady hsteady := by
    have hend := (delimited_marks t).closingAngle?_eq hsteady
    rwa [text_marks] at hend
  stray before q after hm hq hbefore := by
    have hsearch := (delimited_marks t).closingAngle?_append hm hbefore (q :: text after)
    have htext : text before ++ q :: text after = t := by
      rw [← text_marks (t := t), hm, text_append]
      rfl
    rw [htext] at hsearch
    rw [hsearch, closingAngle?_quote hq, Option.map_bind]
    simp [Function.comp_def]
  either := steady_or_exists (marks t)

/-- A tag whose first value holds an apostrophe: it ends with the first `>`, which is not found. -/
theorem hidden_behind_apostrophe :
    closingAngle? " data-x=it's>let a</script>".toList = none ∧
      tagEnd? " data-x=it's>let a</script>".toList =
        some (" data-x=it's".toList, "let a</script>".toList) := by
  constructor
  · decide
  · decide +kernel

end Component
end ImpactGraph
