import ImpactGraph.Path.Clean
import ImpactGraph.Proofs.Text.Cut
import Mathlib.Data.List.Basic
import Mathlib.Data.List.TakeWhile

/-!
# Paths by their parts

Everything that is computed from a path is meant to depend on its parts alone, not on how it is
written.  `parts_join` and `parts_parent` say what joining and taking apart do to the parts; from
them, `clean_join_congr` and `parts_parent_congr` say that a text taken from the directory of a file
does not depend on the spelling of the file.
-/

set_option autoImplicit false

namespace ImpactGraph

open ImpactGraph.Part

namespace Part

/-! ## Parts of segments -/

/-- The part of a first segment that something follows. -/
def lead (segment : List Char) : Part :=
  if segment = [] then .root
  else if segment = ['.'] then .current
  else (ofSegment segment).getD .root

/-- The parts of the segments of a text. -/
def ofSegments : List (List Char) → List Part
  | [] => []
  | first :: rest =>
    if first = [] ∧ rest = [] then [] else lead first :: rest.filterMap ofSegment

theorem ofSegment_eq_none_iff {segment : List Char} :
    ofSegment segment = none ↔ segment = [] ∨ segment = ['.'] := by
  rw [ofSegment.eq_def]
  split <;> simp_all

theorem toList_ofSegment {segment : List Char} (h : segment ≠ []) (h' : segment ≠ ['.']) :
    (ofSegment segment).toList = [lead segment] := by
  cases hs : ofSegment segment with
  | none => exact absurd (ofSegment_eq_none_iff.1 hs) (by simp [h, h'])
  | some part => simp [lead, h, h', hs]

theorem ofText_eq (text : List Char) : ofText text = ofSegments (text.splitOn '/') := by
  rw [ofText]
  cases hs : text.splitOn '/' with
  | nil => rfl
  | cons first rest =>
    simp only [ofSegments]
    by_cases h : first = []
    · cases rest <;> simp [h, lead]
    · by_cases h' : first = ['.']
      · simp [h', lead]
      · simp [h, h', toList_ofSegment h h']

theorem ofSegments_append {segments : List (List Char)} (h : segments ≠ [])
    (h' : segments ≠ [[]]) (segments' : List (List Char)) :
    ofSegments (segments ++ segments') = ofSegments segments ++ segments'.filterMap ofSegment := by
  cases segments with
  | nil => exact absurd rfl h
  | cons first rest =>
    have hne : ¬(first = [] ∧ rest = []) := by rintro ⟨rfl, rfl⟩; exact h' rfl
    have hne' : ¬(first = [] ∧ rest ++ segments' = []) := by
      rintro ⟨rfl, hr⟩; exact hne ⟨rfl, (List.append_eq_nil_iff.1 hr).1⟩
    rw [List.cons_append, ofSegments, ofSegments, if_neg hne, if_neg hne', List.filterMap_append,
      List.cons_append]

theorem ofSegments_eq_nil_iff {segments : List (List Char)} :
    ofSegments segments = [] ↔ segments = [] ∨ segments = [[]] := by
  cases segments with
  | nil => simp [ofSegments]
  | cons first rest =>
    rw [ofSegments]
    split
    · next h => simp [h.1, h.2]
    · next h => simp only [List.cons.injEq]; simpa using h

end Part

namespace Path

@[simp] theorem parts_ofText (text : String) : (ofText text).parts = Part.ofText text.toList := rfl

theorem parts_eq_ofSegments (p : Path) :
    p.parts = ofSegments (p.text.toList.splitOn '/') := p.parts_eq.trans (Part.ofText_eq _)

theorem parts_eq_nil_iff {p : Path} : p.parts = [] ↔ p.text = "" := by
  rw [parts_eq_ofSegments, ofSegments_eq_nil_iff]
  constructor
  · rintro (h | h)
    · exact absurd h (List.splitOn_ne_nil _ _)
    · have hjoin : ['/'].intercalate (p.text.toList.splitOn '/') = p.text.toList :=
        List.intercalate_splitOn '/'
      rw [h] at hjoin
      exact String.toList_inj.1 (by simpa using hjoin.symm)
  · intro h
    exact .inr (by simp [h])

theorem ofSegments_joinSegments {segments : List (List Char)} (h : segments ≠ [])
    (hs : ∀ segment ∈ segments, '/' ∉ segment) :
    (ofText (joinSegments segments)).parts = ofSegments segments := by
  rw [parts_eq_ofSegments, text_ofText, joinSegments]
  split
  · next hempty => simp [hempty]
  · rw [String.toList_ofList, List.splitOn_intercalate '/' hs h]

/-! ## Joining -/

/-- Joining adds the parts of a relative path to those of a directory that is not empty. -/
theorem parts_join (p q : Path) :
    (p.join q).parts =
      if q.isAbsolute = true ∨ p.parts = [] then q.parts
      else p.parts ++ (q.text.toList.splitOn '/').filterMap ofSegment := by
  rw [join]
  by_cases hq : q.isAbsolute = true
  · simp [hq]
  rw [if_neg hq]
  cases hlast : p.text.toList.getLast? with
  | none =>
    have htext : p.text = "" := by simpa using hlast
    simp [parts_eq_nil_iff.2 htext]
  | some c =>
    have hne : p.text ≠ "" := by rintro h; simp [h] at hlast
    have hsegments : p.text.toList.splitOn '/' ≠ [[]] := fun h ↦ hne <| parts_eq_nil_iff.1 <| by
      rw [parts_eq_ofSegments, h]; rfl
    simp only [hq, parts_eq_nil_iff, hne, or_self, if_false, Bool.false_eq_true]
    by_cases hc : c = '/'
    · obtain ⟨init, hinit⟩ := List.getLast?_eq_some_iff.1 hlast
      subst hc
      simp only [if_true, parts_eq_ofSegments, text_ofText, String.toList_append, hinit,
        List.append_assoc, List.singleton_append, List.splitOn_append_cons_self,
        List.splitOn_nil]
      by_cases hroot : init.splitOn '/' = [[]]
      · cases hq' : q.text.toList.splitOn '/' with
        | nil => exact absurd hq' (List.splitOn_ne_nil _ _)
        | cons first rest => simp [hroot, ofSegments, ofSegment]
      · rw [ofSegments_append (List.splitOn_ne_nil _ _) hroot,
          ofSegments_append (List.splitOn_ne_nil _ _) hroot]
        simp [ofSegment]
    · simp only [hc, if_false, parts_eq_ofSegments, text_ofText, String.toList_append]
      rw [show "/".toList = ['/'] from rfl, List.append_assoc, List.singleton_append,
        List.splitOn_append_cons_self, ofSegments_append (List.splitOn_ne_nil _ _) hsegments]

/-! ## Taking apart -/

/-- The segments without those at the end that stand for no part. -/
def dropTail (segments : List (List Char)) : List (List Char) :=
  (segments.reverse.dropWhile fun s ↦ (ofSegment s).isNone).reverse

theorem trimSegments_cons (first : List Char) (rest : List (List Char)) :
    trimSegments (first :: rest) = first :: dropTail rest := rfl

theorem filterMap_dropTail (segments : List (List Char)) :
    (dropTail segments).filterMap ofSegment = segments.filterMap ofSegment := by
  have hnone : ((segments.reverse.takeWhile fun s ↦ (ofSegment s).isNone).reverse).filterMap
      ofSegment = [] := by
    rw [List.filterMap_eq_nil_iff]
    intro s hs
    simpa using List.mem_takeWhile_imp (List.mem_reverse.1 hs)
  calc (dropTail segments).filterMap ofSegment
      = (dropTail segments ++
          (segments.reverse.takeWhile fun s ↦ (ofSegment s).isNone).reverse).filterMap
            ofSegment := by rw [List.filterMap_append, hnone, List.append_nil]
    _ = segments.filterMap ofSegment := by
        rw [dropTail, ← List.reverse_append, List.takeWhile_append_dropWhile, List.reverse_reverse]

theorem mem_of_mem_dropTail {segments : List (List Char)} {s : List Char}
    (h : s ∈ dropTail segments) : s ∈ segments :=
  List.mem_reverse.1 ((List.dropWhile_suffix _).subset (List.mem_reverse.1 h))

theorem ofSegment_of_dropTail_eq {segments init : List (List Char)} {last : List Char}
    (h : dropTail segments = init ++ [last]) : ∃ part, ofSegment last = some part := by
  have hrev : segments.reverse.dropWhile (fun s ↦ (ofSegment s).isNone) = last :: init.reverse := by
    rw [← List.reverse_inj, ← dropTail, h]
    simp
  have := List.head_dropWhile_not (p := fun s ↦ (ofSegment s).isNone) (l := segments.reverse)
    (by rw [hrev]; simp)
  simp only [hrev, List.head_cons, Option.isNone_eq_false_iff] at this
  exact Option.isSome_iff_exists.1 this

theorem parts_of_text_eq {p : Path} {first : List Char} {rest : List (List Char)}
    (h : p.text.toList.splitOn '/' = first :: rest) :
    p.parts = if first = [] ∧ rest = [] then [] else lead first :: rest.filterMap ofSegment := by
  rw [parts_eq_ofSegments, h, ofSegments]

/-- The directory of a path, or the path itself where it has none, lacks the last part. -/
theorem parts_parent (p : Path) :
    (p.parent?.getD p).parts = if p.parts = [.root] then [.root] else p.parts.dropLast := by
  cases hs : p.text.toList.splitOn '/' with
  | nil => exact absurd hs (List.splitOn_ne_nil _ _)
  | cons first rest =>
    have hparts := parts_of_text_eq hs
    rw [parent?, hs, trimSegments_cons]
    rcases List.eq_nil_or_concat' (dropTail rest) with htail | ⟨init, last, htail⟩
    · -- one segment counts at most
      have hrest : rest.filterMap ofSegment = [] := by rw [← filterMap_dropTail, htail]; rfl
      rw [htail]
      by_cases hfirst : first = []
      · subst hfirst
        by_cases hr : rest = [] <;> simp [hparts, hr, hrest, lead]
      · have hlead : lead first ≠ .root := by
          intro h
          by_cases hdot : first = ['.']
          · simp [lead, hdot] at h
          · have := toList_ofSegment hfirst hdot
            rw [h, ofSegment.eq_def] at this
            split at this <;> simp_all
        simp [hparts, hfirst, hrest, hlead, Part.ofText]
    · obtain ⟨part, hlast⟩ := ofSegment_of_dropTail_eq htail
      have hrest : rest.filterMap ofSegment = init.filterMap ofSegment ++ [part] := by
        rw [← filterMap_dropTail, htail, List.filterMap_append]
        simp [hlast]
      have hne : ¬(first = [] ∧ rest = []) := by
        rintro ⟨-, rfl⟩
        simp at hrest
      obtain ⟨x, xs, hx⟩ := List.exists_cons_of_ne_nil (show init ++ [last] ≠ [] by simp)
      have hinit : (x :: xs).dropLast = init := by rw [← hx, List.dropLast_concat]
      have hdrop : p.parts.dropLast = lead first :: init.filterMap ofSegment := by
        rw [hparts, if_neg hne, hrest, ← List.cons_append, List.dropLast_concat]
      have hroot : p.parts ≠ [.root] := by
        rw [hparts, if_neg hne, hrest]
        simp
      rw [if_neg hroot, hdrop, htail, hx]
      simp only [hinit, trimSegments_cons]
      have hslash : ∀ segment ∈ first :: dropTail init, '/' ∉ segment := by
        intro segment hmem
        refine Text.not_mem_of_mem_splitOn (hs.symm ▸ ?_ : segment ∈ p.text.toList.splitOn '/')
        rcases List.mem_cons.1 hmem with rfl | hmem
        · exact List.mem_cons_self
        · refine List.mem_cons_of_mem _ (mem_of_mem_dropTail ?_)
          rw [htail]
          exact List.mem_append_left _ (mem_of_mem_dropTail hmem)
      split
      · next heq =>
        obtain ⟨rfl, hnil⟩ := List.cons.inj heq
        have hinit' : init.filterMap ofSegment = [] := by rw [← filterMap_dropTail, hnil]; rfl
        rw [hinit']
        rfl
      · next hseg =>
        have hne' : ¬(first = [] ∧ dropTail init = []) := by rintro ⟨rfl, h⟩; exact hseg (by rw [h])
        rw [Option.getD_some, ofSegments_joinSegments (List.cons_ne_nil _ _) hslash, ofSegments,
          if_neg hne', filterMap_dropTail]

/-! ## Spelling does not count -/

theorem clean_congr {p q : Path} (h : p.parts = q.parts) : p.clean = q.clean := by
  rw [clean, clean, h]

theorem parts_parent_congr {p q : Path} (h : p.parts = q.parts) :
    (p.parent?.getD p).parts = (q.parent?.getD q).parts := by rw [parts_parent, parts_parent, h]

/-- What is taken from a directory does not depend on how the directory is written. -/
theorem clean_join_congr {p q : Path} (h : p.parts = q.parts) (r : Path) :
    (p.join r).clean = (q.join r).clean := by
  refine clean_congr ?_
  rw [parts_join, parts_join, h]

theorem extension?_congr {p q : Path} (h : p.parts = q.parts) : p.extension? = q.extension? := by
  rw [extension?, extension?, fileName?, fileName?, h]

end Path
end ImpactGraph
