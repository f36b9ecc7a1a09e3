import ImpactGraph.Files.Disk
import ImpactGraph.Proofs.Path

/-!
# Places and their paths

A place is known by names, and its path spells them out: `parts_pathOf`, `spelled_pathOf` and
`ofText_pathOf` say that the path has these names for its parts and for its steps, provided that
they are names (`IsName`), which hold no separator and are neither empty nor dots.  All names that
paths lead through are (`isName_of_mem_parts`, `Step.proper_of_mem_ofText`).

A path that is joined to a directory takes the steps of both (`Step.spelled_join`).
-/

set_option autoImplicit false

namespace ImpactGraph

/-- A text that can stand between separators as a name. -/
structure IsName (text : String) : Prop where
  ofSegment : Part.ofSegment text.toList = some (.name text)
  slash : '/' ∉ text.toList

theorem isName_of_ofSegment {segment : List Char} {text : String} (hslash : '/' ∉ segment)
    (h : Part.ofSegment segment = some (.name text)) : IsName text := by
  have htext : text = String.ofList segment := by
    rw [Part.ofSegment.eq_def] at h
    split at h <;> cases h
    rfl
  subst htext
  exact ⟨by rwa [String.toList_ofList], by rwa [String.toList_ofList]⟩

theorem IsName.toList_ne_nil {text : String} (h : IsName text) : text.toList ≠ [] := by
  intro hnil
  have hsegment := h.ofSegment
  rw [hnil] at hsegment
  cases hsegment

/-- The names among the parts of a path. -/
theorem isName_of_mem_parts {p : Path} {text : String} (h : .name text ∈ p.parts) :
    IsName text := by
  cases hs : p.text.toList.splitOn '/' with
  | nil => exact absurd hs (List.splitOn_ne_nil _ _)
  | cons first rest =>
    have hslash {segment : List Char} (hmem : segment ∈ first :: rest) : '/' ∉ segment :=
      Text.not_mem_of_mem_splitOn (hs ▸ hmem)
    rw [Path.parts_of_text_eq hs] at h
    split at h
    · cases h
    rcases List.mem_cons.1 h with hlead | h
    · have hfirst : Part.ofSegment first = some (.name text) := by
        rw [Part.lead] at hlead
        split at hlead
        · cases hlead
        · split at hlead
          · cases hlead
          · cases hsegment : Part.ofSegment first <;> simp_all
      exact isName_of_ofSegment (hslash List.mem_cons_self) hfirst
    · obtain ⟨segment, hmem, hsegment⟩ := List.mem_filterMap.1 h
      exact isName_of_ofSegment (hslash (List.mem_cons_of_mem _ hmem)) hsegment

/-! ## Steps -/

namespace Step

/-- A step that goes up, stays, or goes to a name. -/
def Proper : Step → Prop
  | .name text => IsName text
  | .up | .stay => True

/-- The step that a stretch between separators spells out. -/
def ofSegment (segment : List Char) : Option Step :=
  match segment with
  | [] => none
  | ['.'] => some .stay
  | ['.', '.'] => some .up
  | _ => some (.name (String.ofList segment))

theorem spelled_eq (text : String) :
    spelled text = (text.toList.splitOn '/').filterMap ofSegment := rfl

theorem ofSegment_of_isName {text : String} (h : IsName text) :
    ofSegment text.toList = some (.name text) := by
  have hsegment := h.ofSegment
  rw [Part.ofSegment.eq_def] at hsegment
  rw [ofSegment.eq_def]
  split at hsegment <;> simp_all

theorem proper_of_mem_ofParts {p : Path} {step : Step} (h : step ∈ ofParts p.parts) :
    step.Proper := by
  obtain ⟨part, hmem, hstep⟩ := List.mem_filterMap.1 h
  cases part with
  | name text => cases hstep; exact isName_of_mem_parts hmem
  | parent => cases hstep; trivial
  | root | current => cases hstep

theorem proper_of_mem_spelled {text : String} {step : Step} (h : step ∈ spelled text) :
    step.Proper := by
  rw [spelled_eq] at h
  obtain ⟨segment, hmem, hstep⟩ := List.mem_filterMap.1 h
  cases step with
  | stay | up => trivial
  | name name =>
    refine isName_of_ofSegment (Text.not_mem_of_mem_splitOn hmem) ?_
    rw [ofSegment.eq_def] at hstep
    rw [Part.ofSegment.eq_def]
    split at hstep <;> simp_all

theorem proper_of_mem_ofText {text : String} {step : Step} (h : step ∈ ofText text) :
    step.Proper := by
  rw [ofText] at h
  split at h
  · rcases List.mem_append.1 h with h | h
    · exact proper_of_mem_spelled h
    · rw [List.mem_singleton.1 h]
      trivial
  · exact proper_of_mem_spelled h

theorem mem_text_of_mem_spelled {text name : String} {c : Char}
    (h : .name name ∈ spelled text) (hc : c ∈ name.toList) : c ∈ text.toList := by
  rw [spelled_eq] at h
  obtain ⟨segment, hmem, hstep⟩ := List.mem_filterMap.1 h
  refine Text.mem_of_mem_splitOn hmem ?_
  rw [ofSegment.eq_def] at hstep
  split at hstep <;> cases hstep
  rwa [String.toList_ofList] at hc

theorem endsOpen_iff {text : String} :
    endsOpen text = true ↔ text.toList.getLast? = some '/' := by
  rw [endsOpen, String.endsWith_eq_endsWith_toSlice, String.Slice.endsWith_string_iff,
    String.copy_toSlice, List.getLast?_eq_some_iff]
  exact exists_congr fun _ ↦ eq_comm

theorem getLast?_splitOn_of_endsOpen {text : String} (h : endsOpen text = true) :
    (text.toList.splitOn '/').getLast? = some [] := by
  obtain ⟨init, hinit⟩ := List.getLast?_eq_some_iff.1 (endsOpen_iff.1 h)
  rw [hinit, List.splitOn_append_cons_self]
  simp

end Step

/-! ## Joining -/

variable {p q : Path} {c : Char}

namespace Path

/-- What a relative path that is taken from a directory is written as. -/
theorem toList_text_join (hq : q.isAbsolute = false) :
    p.text = "" ∧ p.join q = q ∨
      ∃ init, (p.text.toList = init ∨ p.text.toList = init ++ ['/']) ∧ p.text ≠ "" ∧
        (p.join q).text.toList = init ++ '/' :: q.text.toList := by
  rw [join, if_neg (by simp [hq])]
  cases hlast : p.text.toList.getLast? with
  | none => exact .inl ⟨by simpa using hlast, rfl⟩
  | some c =>
    refine .inr ?_
    have hne : p.text ≠ "" := by
      rintro h
      simp [h] at hlast
    dsimp only
    by_cases hc : c = '/'
    · obtain ⟨init, hinit⟩ := List.getLast?_eq_some_iff.1 hlast
      subst hc
      exact ⟨init, .inr hinit, hne, by simp [hinit]⟩
    · exact ⟨p.text.toList, .inl rfl, hne, by simp [hc]⟩

theorem isAbsolute_join (hq : q.isAbsolute = false) :
    (p.join q).isAbsolute = p.isAbsolute := by
  rcases toList_text_join (p := p) hq with ⟨hp, hjoin⟩ | ⟨init, hp, hne, hjoin⟩
  · rw [hjoin, hq, isAbsolute, hp]
    rfl
  · rw [isAbsolute, isAbsolute, hjoin]
    have hne' : p.text.toList ≠ [] := by simpa using hne
    cases init with
    | nil =>
      rcases hp with hp | hp
      · exact absurd hp hne'
      · simp [hp]
    | cons c init => rcases hp with hp | hp <;> simp [hp]

/-- The characters of a path that is taken from a directory. -/
theorem mem_text_join (hq : q.isAbsolute = false) (h : c ∈ (p.join q).text.toList) :
    c = '/' ∨ c ∈ p.text.toList ∨ c ∈ q.text.toList := by
  rcases toList_text_join (p := p) hq with ⟨-, hjoin⟩ | ⟨init, hp, -, hjoin⟩
  · rw [hjoin] at h
    exact .inr (.inr h)
  · rw [hjoin, List.mem_append, List.mem_cons] at h
    rcases h with h | h | h
    · rcases hp with hp | hp <;> simp [hp, h]
    · exact .inl h
    · exact .inr (.inr h)

theorem mem_text_join_right (h : c ∈ q.text.toList) : c ∈ (p.join q).text.toList := by
  cases hq : q.isAbsolute with
  | true => rwa [join, if_pos hq]
  | false =>
    rcases toList_text_join (p := p) hq with ⟨-, hjoin⟩ | ⟨init, -, -, hjoin⟩
    · rwa [hjoin]
    · rw [hjoin]
      exact List.mem_append_right _ (List.mem_cons_of_mem _ h)

end Path

namespace Step

/-- A relative path that is taken from a directory is spelled out after the directory. -/
theorem spelled_join (hq : q.isAbsolute = false) :
    spelled (p.join q).text = spelled p.text ++ spelled q.text := by
  simp only [spelled_eq]
  rcases Path.toList_text_join (p := p) hq with ⟨hp, hjoin⟩ | ⟨init, hp, -, hjoin⟩
  · simp [hp, hjoin, ofSegment]
  · rw [hjoin, List.splitOn_append_cons_self, List.filterMap_append]
    rcases hp with hp | hp
    · rw [hp]
    · simp [hp, List.splitOn_append_cons_self, ofSegment]

theorem endsOpen_join (hq : q.isAbsolute = false) (hne : q.text ≠ "") :
    endsOpen (p.join q).text = endsOpen q.text := by
  rcases Path.toList_text_join (p := p) hq with ⟨-, hjoin⟩ | ⟨init, -, -, hjoin⟩
  · rw [hjoin]
  · obtain ⟨c, rest, hq⟩ := List.exists_cons_of_ne_nil (by simpa using hne : q.text.toList ≠ [])
    rw [Bool.eq_iff_iff, endsOpen_iff, endsOpen_iff, hjoin, hq]
    simp

/-- So it is where it ends with a separator or a dot. -/
theorem ofText_join (hq : q.isAbsolute = false) (hne : q.text ≠ "") :
    ofText (p.join q).text = spelled p.text ++ ofText q.text := by
  rw [ofText, ofText, endsOpen_join hq hne, spelled_join hq]
  split
  · rw [List.append_assoc]
  · rfl

end Step

/-! ## The path of a place -/

namespace StoredTree

variable {place : Place}

theorem toList_text_pathOf (place : Place) :
    (pathOf place).text.toList = '/' :: ['/'].intercalate (place.map String.toList) := by
  rw [pathOf, Path.text_ofText, String.toList_append, String.toList_intercalate]
  rfl

/-- The characters of the path of a place. -/
theorem mem_text_pathOf (h : c ∈ (pathOf place).text.toList) :
    c = '/' ∨ ∃ name ∈ place, c ∈ name.toList := by
  rw [toList_text_pathOf, List.mem_cons] at h
  rcases h with h | h
  · exact .inl h
  induction place with
  | nil => exact absurd h List.not_mem_nil
  | cons name place ih =>
    cases place with
    | nil => exact .inr ⟨name, List.mem_cons_self, by simpa using h⟩
    | cons name' place =>
      simp only [List.map_cons, List.intercalate_cons_cons, List.mem_append,
        List.mem_singleton] at h
      rcases h with (h | h) | h
      · exact .inr ⟨name, List.mem_cons_self, h⟩
      · exact .inl h
      · exact (ih h).imp_right fun ⟨n, hn, hc⟩ ↦ ⟨n, List.mem_cons_of_mem _ hn, hc⟩

theorem splitOn_pathOf (h : ∀ name ∈ place, IsName name) (hne : place ≠ []) :
    (pathOf place).text.toList.splitOn '/' = [] :: place.map String.toList := by
  have hslash : ∀ segment ∈ place.map String.toList, '/' ∉ segment := by
    intro segment hmem
    obtain ⟨name, hname, rfl⟩ := List.mem_map.1 hmem
    exact (h name hname).slash
  rw [toList_text_pathOf, ← List.nil_append ('/' :: _), List.splitOn_append_cons_self,
    List.splitOn_intercalate '/' hslash (by simpa using hne)]
  rfl

theorem filterMap_ofSegment_map (h : ∀ name ∈ place, IsName name) :
    (place.map String.toList).filterMap Part.ofSegment = place.map .name := by
  rw [List.filterMap_map, ← List.filterMap_eq_map]
  exact List.filterMap_congr fun name hname ↦ (h name hname).ofSegment

theorem parts_pathOf (h : ∀ name ∈ place, IsName name) :
    (pathOf place).parts = .root :: place.map .name := by
  by_cases hne : place = []
  · subst hne
    rfl
  · rw [Path.parts_of_text_eq (splitOn_pathOf h hne), if_neg (by simpa using hne),
      filterMap_ofSegment_map h]
    rfl

theorem ofParts_pathOf (h : ∀ name ∈ place, IsName name) :
    Step.ofParts (pathOf place).parts = place.map .name := by
  rw [parts_pathOf h, Step.ofParts, List.filterMap_cons]
  simp [List.filterMap_map]

theorem spelled_pathOf (h : ∀ name ∈ place, IsName name) :
    Step.spelled (pathOf place).text = place.map .name := by
  by_cases hne : place = []
  · subst hne
    rfl
  · rw [Step.spelled_eq, splitOn_pathOf h hne, List.filterMap_cons, List.filterMap_map,
      ← List.filterMap_eq_map]
    exact List.filterMap_congr fun name hname ↦ Step.ofSegment_of_isName (h name hname)

/-- The path of the root is the only one that ends with a separator. -/
theorem ofText_pathOf_nil : Step.ofText (pathOf []).text = [.stay] := by
  rw [Step.ofText, if_pos (Step.endsOpen_iff.2 rfl)]
  rfl

theorem ofText_pathOf (h : ∀ name ∈ place, IsName name) (hne : place ≠ []) :
    Step.ofText (pathOf place).text = place.map .name := by
  have hsplit := splitOn_pathOf h hne
  have hopen : Step.endsOpen (pathOf place).text = false := by
    rw [Bool.eq_false_iff]
    intro hopen
    have hlast := Step.getLast?_splitOn_of_endsOpen hopen
    rw [hsplit, List.getLast?_cons_of_ne_nil (by simpa using hne), List.getLast?_map,
      Option.map_eq_some_iff] at hlast
    obtain ⟨name, hname, hnil⟩ := hlast
    exact (h name (List.mem_of_getLast? hname)).toList_ne_nil hnil
  rw [Step.ofText, hopen, if_neg Bool.false_ne_true, spelled_pathOf h]

end StoredTree
end ImpactGraph
