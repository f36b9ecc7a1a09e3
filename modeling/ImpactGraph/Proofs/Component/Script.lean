import ImpactGraph.Component.Script
import ImpactGraph.Proofs.Text.Cut
import Mathlib.Algebra.GroupWithZero.Nat

/-!
# Where the scripts of a component stand

A script is what stands between the two tags of a block: `Stands` says so of a script and of the
texts before and after it.  `sound_scriptsFrom` follows the reading of a component and keeps, of the
scripts found so far, that each stands in the source and that they come one after another.
-/

set_option autoImplicit false

namespace ImpactGraph
namespace Component

open Text

variable {source before after text : List Char} {script : Script} {found : List Script}
  {offset : Nat}

/-! ## One step of the reading -/

/-- The reading without the equations that its recursion carries along. -/
theorem scriptsFrom_eq (offset : Nat) (found : List Script) (text : List Char) :
    scriptsFrom offset found text =
      match cutAt openTag text with
      | none => .ok found.reverse
      | some (lead, rest) =>
        let start := offset + utf8Length lead
        let inner := start + utf8Length openTag
        if opensTag rest then
          match closingAngle? rest with
          | none => .error (.unclosedScript start)
          | some (inside, body) =>
            let bodyAt := inner + utf8Length inside + 1
            if inside.getLast? = some '/' then
              if maxScripts < found.length + 1 then
                .error (.tooManyScripts (found.length + 1) maxScripts)
              else scriptsFrom bodyAt (scriptOf inside [] bodyAt :: found) body
            else
              match cutAt closeTag body with
              | none => .error (.unclosedScript start)
              | some (content, after) =>
                if maxScripts < found.length + 1 then
                  .error (.tooManyScripts (found.length + 1) maxScripts)
                else scriptsFrom (bodyAt + utf8Length content + utf8Length closeTag)
                  (scriptOf inside content bodyAt :: found) after
        else scriptsFrom inner found rest := by
  rw [scriptsFrom]
  split
  · next hopen => simp only [hopen]
  · next lead rest hopen =>
    simp only [hopen]
    split
    · split
      · next hangle => simp only [hangle]
      · next inside body hangle =>
        simp only [hangle]
        split
        · rfl
        · split
          · next hclose => simp only [hclose]
          · next hclose =>
            simp only [hclose]
            rfl
    · rfl

theorem closingAngleFrom_eq_map (quote : Option Char) (inside text : List Char) :
    closingAngleFrom quote inside text =
      (closingAngleFrom quote [] text).map fun (a, b) ↦ (a ++ inside, b) := by
  induction text generalizing quote inside with
  | nil => rfl
  | cons c text ih =>
    rw [closingAngleFrom, closingAngleFrom]
    split
    · rfl
    · rw [ih, ih _ [c], Option.map_map]
      simp [Function.comp_def]

theorem closingAngleFrom_eq_some {quote : Option Char} {inside : List Char}
    (h : closingAngleFrom quote [] text = some (inside, after)) :
    text = inside.reverse ++ '>' :: after := by
  induction text generalizing quote inside with
  | nil => cases h
  | cons c text ih =>
    rw [closingAngleFrom] at h
    split at h
    · next hangle =>
      obtain ⟨rfl, rfl⟩ := Prod.mk.inj (Option.some.inj h)
      rw [Bool.and_eq_true, decide_eq_true_eq] at hangle
      rw [hangle.1]
      rfl
    · rw [closingAngleFrom_eq_map, Option.map_eq_some_iff] at h
      obtain ⟨⟨inner, rest⟩, hinner, heq⟩ := h
      obtain ⟨rfl, rfl⟩ := Prod.mk.inj heq
      rw [ih hinner]
      simp

/-- A tag loses nothing: the text is the inside, the sign `>`, and what follows. -/
theorem closingAngle?_eq_some {inside : List Char} (h : closingAngle? text = some (inside, after)) :
    text = inside ++ '>' :: after := by
  obtain ⟨⟨reversed, rest⟩, hangle, heq⟩ := Option.map_eq_some_iff.1 h
  obtain ⟨rfl, rfl⟩ := Prod.mk.inj heq
  exact closingAngleFrom_eq_some hangle

/-! ## Scripts in a source -/

/-- How a script stands in a source between two texts. -/
structure Stands (source before : List Char) (script : Script) (after : List Char) : Prop where
  /-- The script is a part of the source. -/
  source_eq : source = before ++ script.text.toList ++ after
  /-- Its offset is the number of bytes before it. -/
  offset_eq : utf8Length before = script.offset
  /-- It does not reach over the end of its block. -/
  not_closed : ¬closeTag <:+: script.text.toList
  /-- It is empty behind a tag that closes itself, or stands between two tags. -/
  between : script.text = "" ∧ ['/', '>'] <:+ before ∨ ['>'] <:+ before ∧ closeTag <+: after

/-- The byte behind a script. -/
def Script.stop (script : Script) : Nat := script.offset + utf8Length script.text.toList

/-- Scripts that stand one after another in a source. -/
structure Extracted (source : List Char) (scripts : List Script) : Prop where
  /-- There are no more than may be read. -/
  count : scripts.length ≤ maxScripts
  /-- Each stands in the source. -/
  stands : ∀ script ∈ scripts, ∃ before after, Stands source before script after
  /-- Each ends before the next one starts. -/
  apart : scripts.Pairwise fun earlier later ↦ earlier.stop < later.offset

/-- Whether a script tag opens at a byte of a source. -/
def OpensAt (source : List Char) (position : Nat) : Prop :=
  ∃ before after, source = before ++ openTag ++ after ∧ utf8Length before = position ∧
    (after = [] ∨ ∃ c ∈ [' ', '\t', '\n', '\r', '>', '/'], after.head? = some c)

/-- What the result of a reading says about the source. -/
def Sound (source : List Char) : Except Fault (List Script) → Prop
  | .ok scripts => Extracted source scripts
  | .error (.unclosedScript position) => OpensAt source position
  | .error (.tooManyScripts count max) => count = maxScripts + 1 ∧ max = maxScripts
  | .error (.fileTooLarge size max) => max = maxFileSize ∧ max < size

theorem head?_of_opensTag (h : opensTag text = true) :
    text = [] ∨ ∃ c ∈ [' ', '\t', '\n', '\r', '>', '/'], text.head? = some c := by
  cases text with
  | nil => exact .inl rfl
  | cons c text =>
    refine .inr ⟨c, ?_, rfl⟩
    simpa [opensTag, or_assoc] using h

/-! ## The whole reading -/

/-- Scripts found so far, latest first, in the part of a source that is read. -/
structure Passed (source : List Char) (offset : Nat) (found : List Script) : Prop where
  /-- They stand one after another. -/
  extracted : Extracted source found.reverse
  /-- They end in the part that is read. -/
  stop_le : ∀ script ∈ found, script.stop ≤ offset

namespace Passed

theorem mono {later : Nat} (h : Passed source offset found) (hle : offset ≤ later) :
    Passed source later found :=
  ⟨h.extracted, fun script hmem ↦ (h.stop_le script hmem).trans hle⟩

theorem cons {later : Nat} (h : Passed source offset found)
    (hstands : Stands source before script after) (hroom : ¬maxScripts < (script :: found).length)
    (hstart : offset < script.offset) (hstop : script.stop ≤ later) :
    Passed source later (script :: found) := by
  have hlater : offset ≤ later :=
    hstart.le.trans (Nat.le_trans (Nat.le_add_right _ _) hstop)
  refine ⟨⟨?_, ?_, ?_⟩, ?_⟩
  · rw [List.length_reverse]
    exact Nat.not_lt.1 hroom
  · intro other hmem
    obtain rfl | hmem := List.mem_cons.1 (List.mem_reverse.1 hmem)
    · exact ⟨before, after, hstands⟩
    · exact h.extracted.stands other (List.mem_reverse.2 hmem)
  · rw [List.reverse_cons, List.pairwise_append]
    refine ⟨h.extracted.apart, List.pairwise_singleton _ _, fun other hmem last hlast ↦ ?_⟩
    obtain rfl := List.mem_singleton.1 hlast
    exact (h.stop_le other (List.mem_reverse.1 hmem)).trans_lt hstart
  · refine List.forall_mem_cons.2 ⟨hstop, fun other hmem ↦ ?_⟩
    exact (h.stop_le other hmem).trans hlater

theorem length_eq (h : Passed source offset found) (hfull : maxScripts < (script :: found).length) :
    (script :: found).length = maxScripts + 1 := by
  have hcount := h.extracted.count
  rw [List.length_reverse] at hcount
  rw [List.length_cons] at hfull ⊢
  omega

end Passed

section Tag

variable {lead rest inside body content tail : List Char}

/-- What stands before a body: all that was read, the markup before the tag, and the tag. -/
def behindTag (before lead inside : List Char) : List Char :=
  before ++ lead ++ openTag ++ inside ++ ['>']

theorem utf8Length_behindTag (before lead inside : List Char) :
    utf8Length (behindTag before lead inside) =
      utf8Length before + utf8Length lead + utf8Length openTag + utf8Length inside + 1 := by
  have hangle : utf8Length ['>'] = 1 := by decide
  rw [behindTag, utf8Length_append, utf8Length_append, utf8Length_append, utf8Length_append, hangle]

theorem behindTag_append (hopen : cutAt openTag text = some (lead, rest))
    (hangle : closingAngle? rest = some (inside, body)) :
    before ++ text = behindTag before lead inside ++ body := by
  rw [cutAt_eq_some hopen, closingAngle?_eq_some hangle, behindTag]
  simp

theorem opensAt_of_cutAt (hopen : cutAt openTag text = some (lead, rest))
    (hopens : opensTag rest = true) :
    OpensAt (before ++ text) (utf8Length before + utf8Length lead) := by
  refine ⟨before ++ lead, rest, ?_, utf8Length_append _ _, head?_of_opensTag hopens⟩
  rw [cutAt_eq_some hopen]
  simp

theorem stands_of_slash (hsource : source = behindTag before lead inside ++ body)
    (hslash : inside.getLast? = some '/') :
    Stands source (behindTag before lead inside)
      (scriptOf inside [] (utf8Length (behindTag before lead inside))) body := by
  refine ⟨by simpa [scriptOf] using hsource, rfl, ?_, .inl ⟨rfl, ?_⟩⟩
  · rw [scriptOf, String.toList_ofList]
    decide
  · obtain ⟨front, rfl⟩ := List.getLast?_eq_some_iff.1 hslash
    exact ⟨before ++ lead ++ openTag ++ front, by simp [behindTag]⟩

theorem stands_of_cutAt (hsource : source = behindTag before lead inside ++ body)
    (hclose : cutAt closeTag body = some (content, tail)) :
    Stands source (behindTag before lead inside)
      (scriptOf inside content (utf8Length (behindTag before lead inside))) (closeTag ++ tail) := by
  refine ⟨?_, rfl, ?_, .inr ⟨List.suffix_append _ _, List.prefix_append _ _⟩⟩
  · rw [hsource, cutAt_eq_some hclose]
    simp [scriptOf]
  · rw [scriptOf, String.toList_ofList]
    exact not_infix_of_cutAt (by decide) hclose

theorem stop_scriptOf (inside content : List Char) (bodyAt : Nat) :
    (scriptOf inside content bodyAt).stop = bodyAt + utf8Length content := by
  simp [Script.stop, scriptOf]

end Tag

/-- Reading on from what is read keeps that all scripts stand in the source. -/
theorem sound_scriptsFrom (hsource : before ++ text = source) (hoffset : utf8Length before = offset)
    (h : Passed source offset found) : Sound source (scriptsFrom offset found text) := by
  -- The cases are those of the reading: no tag, a tag without its end, a tag that closes itself
  -- (too many, or not), a block without its end, a block (too many, or not), and a longer name.
  fun_induction scriptsFrom offset found text generalizing before
  case case1 => exact h.extracted
  case case2 hopen _ _ hopens _ =>
    subst hsource hoffset
    exact opensAt_of_cutAt hopen hopens
  case case3 hfull => exact ⟨h.length_eq hfull, rfl⟩
  case case4 lead _ hopen _ start inner _ inside _ hangle _ bodyAt hslash _ hroom ih =>
    have hat : utf8Length (behindTag before lead inside) = bodyAt := by
      rw [utf8Length_behindTag, hoffset]
    have hbody := hsource.symm.trans (behindTag_append hopen hangle)
    have hstands := stands_of_slash hbody hslash
    rw [hat] at hstands
    refine ih hbody.symm hat (h.cons hstands hroom ?_ ?_)
    · simp only [scriptOf, bodyAt, inner, start]
      omega
    · rw [stop_scriptOf, utf8Length_nil, Nat.add_zero]
  case case5 hopen _ _ hopens _ _ _ _ _ _ =>
    subst hsource hoffset
    exact opensAt_of_cutAt hopen hopens
  case case6 hfull => exact ⟨h.length_eq hfull, rfl⟩
  case case7 lead _ hopen _ start inner _ inside _ hangle _ bodyAt _ content tail hclose _ _ hroom
      ih =>
    have hat : utf8Length (behindTag before lead inside) = bodyAt := by
      rw [utf8Length_behindTag, hoffset]
    have hbody := hsource.symm.trans (behindTag_append hopen hangle)
    have hstands := stands_of_cutAt hbody hclose
    have hsource := hbody
    rw [cutAt_eq_some hclose, ← List.append_assoc] at hsource
    rw [hat] at hstands
    refine ih hsource.symm ?_ (h.cons hstands hroom ?_ ?_)
    · rw [← List.append_assoc, utf8Length_append, utf8Length_append, hat]
    · simp only [scriptOf, bodyAt, inner, start]
      omega
    · rw [stop_scriptOf]
      exact Nat.le_add_right _ _
  case case8 lead _ hopen _ start inner _ ih =>
    have hsource := hsource
    rw [cutAt_eq_some hopen, ← List.append_assoc, ← List.append_assoc] at hsource
    refine ih hsource ?_ (h.mono ?_)
    · rw [utf8Length_append, utf8Length_append, hoffset]
    · exact (Nat.le_add_right _ _).trans (Nat.le_add_right _ _)

/-- The result of reading a component is sound, whatever the source is. -/
theorem sound_scripts (source : String) : Sound source.toList (scripts source) := by
  rw [scripts]
  split
  · next hsize => exact ⟨rfl, hsize⟩
  · have hnone : Passed source.toList 0 [] :=
      ⟨⟨Nat.zero_le _, fun _ hmem ↦ absurd hmem List.not_mem_nil, .nil⟩,
        fun _ hmem ↦ absurd hmem List.not_mem_nil⟩
    exact sound_scriptsFrom (List.nil_append source.toList) rfl hnone

/-- Only the size of the whole source is held against it. -/
theorem scripts_ne_fileTooLarge {source : String} (hsize : source.utf8ByteSize ≤ maxFileSize)
    (size max : Nat) : scripts source ≠ .error (.fileTooLarge size max) := by
  rw [scripts, if_neg (Nat.not_lt.2 hsize)]
  fun_induction scriptsFrom 0 [] source.toList <;> simp_all

/-! ## The bytes that scripts leave for others -/

/-- The bytes of a script and of the shortest tag that can stand before it. -/
def Script.span (script : Script) : Nat :=
  utf8Length openTag + 1 + utf8Length script.text.toList

theorem span_scriptOf (inside content : List Char) (bodyAt : Nat) :
    (scriptOf inside content bodyAt).span = utf8Length openTag + 1 + utf8Length content := by
  simp [Script.span, scriptOf]

theorem utf8Length_of_closingAngle? {inside : List Char}
    (h : closingAngle? text = some (inside, after)) :
    utf8Length text = utf8Length inside + 1 + utf8Length after := by
  have hangle : utf8Length ['>'] = 1 := by decide
  rw [closingAngle?_eq_some h, List.append_cons, utf8Length_append, utf8Length_append, hangle]

/-- Every script has its own tag, so that the scripts and as many of the shortest tags fit into what
is read. -/
theorem sum_span_scriptsFrom {scripts : List Script}
    (h : scriptsFrom offset found text = .ok scripts)
    (hfound : (found.map Script.span).sum ≤ offset) :
    (scripts.map Script.span).sum ≤ offset + utf8Length text := by
  -- The cases are those of `sound_scriptsFrom`; a tag that closes itself, a block and a longer name
  -- are read over.
  fun_induction scriptsFrom offset found text
  case case1 =>
    cases h
    rw [List.map_reverse, List.sum_reverse]
    exact hfound.trans (Nat.le_add_right _ _)
  case case2 => cases h
  case case3 => cases h
  case case4 lead _ hopen _ start inner _ inside _ hangle _ bodyAt _ _ _ ih =>
    have hlength := congrArg utf8Length (cutAt_eq_some hopen)
    rw [utf8Length_append, utf8Length_append, utf8Length_of_closingAngle? hangle] at hlength
    refine (ih h ?_).trans ?_
    · rw [List.map_cons, List.sum_cons, span_scriptOf, utf8Length_nil]
      omega
    · omega
  case case5 => cases h
  case case6 => cases h
  case case7 lead _ hopen _ start inner _ inside _ hangle _ bodyAt _ content tail hclose _ _ _ ih =>
    have hlength := congrArg utf8Length (cutAt_eq_some hopen)
    have hbody := congrArg utf8Length (cutAt_eq_some hclose)
    rw [utf8Length_append, utf8Length_append, utf8Length_of_closingAngle? hangle] at hlength
    rw [utf8Length_append, utf8Length_append] at hbody
    refine (ih h ?_).trans ?_
    · rw [List.map_cons, List.sum_cons, span_scriptOf]
      omega
    · omega
  case case8 lead _ hopen _ start inner _ ih =>
    have hlength := congrArg utf8Length (cutAt_eq_some hopen)
    rw [utf8Length_append, utf8Length_append] at hlength
    refine (ih h ?_).trans ?_
    · omega
    · omega

end Component
end ImpactGraph
