import ImpactGraph.Proofs.Files.Disk

/-!
# Clean paths

Cleaning a path again changes nothing (`clean_clean`), and a path that is joined to another one may
as well be cleaned before it is joined (`clean_join_clean`).  Both come from one fact about lists of
parts: to go through the parts that cleaning has left is to go through them all
(`foldl_cleanStep_cleanParts`).

The clean form of an absolute path spells out the names of a place (`exists_clean_eq_pathOf`); that
of a relative one is the parts that cleaning has left (`added_clean`).
-/

set_option autoImplicit false

namespace ImpactGraph

open StoredTree

namespace Part

/-- A part that may stand anywhere in a path. -/
def Plain : Part → Prop
  | .parent => True
  | .name text => IsName text
  | .root | .current => False

variable {part : Part} {parts : List Part}

theorem Plain.ofSegment (h : part.Plain) : Part.ofSegment part.text.toList = some part := by
  cases part with
  | parent => rfl
  | name text => exact IsName.ofSegment h
  | root | current => cases h

theorem Plain.slash (h : part.Plain) : '/' ∉ part.text.toList := by
  cases part with
  | parent => decide
  | name text => exact IsName.slash h
  | root | current => cases h

theorem plain_of_ofSegment {segment : List Char} (hslash : '/' ∉ segment)
    (h : Part.ofSegment segment = some part) : part.Plain := by
  cases part with
  | parent => trivial
  | name text => exact isName_of_ofSegment hslash h
  | root | current =>
    rw [Part.ofSegment.eq_def] at h
    split at h <;> cases h

/-- The text of plain parts falls into the texts of the parts. -/
theorem splitOn_textOfParts (h : ∀ part ∈ parts, part.Plain) (hne : parts ≠ []) :
    (Path.textOfParts parts).toList.splitOn '/' = parts.map fun part ↦ part.text.toList := by
  have htext : Path.textOfParts parts = String.intercalate "/" (parts.map Part.text) := by
    cases parts with
    | nil => exact absurd rfl hne
    | cons part parts =>
      cases part with
      | parent | name => rfl
      | root | current => cases h _ List.mem_cons_self
  have hslash : "/".toList = ['/'] := rfl
  rw [htext, String.toList_intercalate, List.map_map, hslash,
    List.splitOn_intercalate '/' (fun segment hmem ↦ ?_) (by simpa using hne)]
  · rfl
  · obtain ⟨part, hpart, rfl⟩ := List.mem_map.1 hmem
    exact (h part hpart).slash

end Part

namespace Path

variable {p q : Path} {part : Part} {parts kept : List Part}

/-! ## Parts -/

/-- The parts that a relative path adds to the directory that it is taken from. -/
def added (p : Path) : List Part := (p.text.toList.splitOn '/').filterMap Part.ofSegment

theorem plain_of_mem_added (h : part ∈ p.added) : part.Plain := by
  obtain ⟨segment, hmem, hsegment⟩ := List.mem_filterMap.1 h
  exact Part.plain_of_ofSegment (Text.not_mem_of_mem_splitOn hmem) hsegment

theorem parts_join_of_relative (hq : q.isAbsolute = false) (hp : p.parts ≠ []) :
    (p.join q).parts = p.parts ++ q.added := by
  rw [parts_join, if_neg (by simp [hq, hp])]
  rfl

theorem isAbsolute_iff : p.isAbsolute = true ↔ ∃ rest, p.text.toList = '/' :: rest := by
  rw [isAbsolute, beq_iff_eq, List.head?_eq_some_iff]

theorem parts_of_isAbsolute (h : p.isAbsolute = true) : p.parts = .root :: p.added := by
  obtain ⟨rest, hrest⟩ := isAbsolute_iff.1 h
  have hsplit : p.text.toList.splitOn '/' = [] :: rest.splitOn '/' := by
    rw [hrest, ← List.nil_append ('/' :: rest), List.splitOn_append_cons_self]
    rfl
  rw [parts_of_text_eq hsplit, if_neg (by simp [List.splitOn_ne_nil]), added, hsplit]
  rfl

/-- A path is absolute if its first part is the root. -/
theorem isAbsolute_of_parts (h : p.parts = .root :: parts) : p.isAbsolute = true := by
  cases hs : p.text.toList.splitOn '/' with
  | nil => exact absurd hs (List.splitOn_ne_nil _ _)
  | cons first rest =>
    have hlead := parts_of_text_eq hs
    rw [h] at hlead
    split at hlead
    · cases hlead
    · next hne =>
      have htext : p.text.toList = ['/'].intercalate (first :: rest) := by
        rw [← hs, List.intercalate_splitOn]
      by_cases hfirst : first = []
      · subst hfirst
        obtain ⟨second, rest, rfl⟩ := List.exists_cons_of_ne_nil fun hrest ↦ hne ⟨rfl, hrest⟩
        exact isAbsolute_iff.2 ⟨_, htext⟩
      · -- the part of a first segment that is not empty is not the root
        have hroot := (List.cons.inj hlead).1
        rw [Part.lead, if_neg hfirst] at hroot
        split at hroot
        · cases hroot
        · next hdot =>
          have hplain := (Part.toList_ofSegment hfirst hdot).symm
          rw [Part.lead, if_neg hfirst, if_neg hdot, ← hroot] at hplain
          have hslash : '/' ∉ first := Text.not_mem_of_mem_splitOn (hs ▸ List.mem_cons_self)
          cases hsegment : Part.ofSegment first with
          | none => simp [hsegment] at hplain
          | some part =>
            rw [hsegment, Option.toList_some, List.singleton_inj] at hplain
            exact (hplain ▸ Part.plain_of_ofSegment hslash hsegment : Part.Plain .root).elim

theorem isAbsolute_congr (h : p.parts = q.parts) (hp : p.isAbsolute = true) :
    q.isAbsolute = true :=
  isAbsolute_of_parts (h ▸ parts_of_isAbsolute hp)

/-! ## Cleaning parts -/

theorem mem_foldl_cleanStep (h : part ∈ parts.foldl cleanStep kept) :
    part ∈ kept ∨ part ∈ parts := by
  induction parts generalizing kept with
  | nil => exact .inl h
  | cons x parts ih =>
    rcases ih h with h | h
    · cases x with
      | current => exact .inl h
      | root | name =>
        rcases List.mem_cons.1 h with rfl | h
        · exact .inr List.mem_cons_self
        · exact .inl h
      | parent =>
        rw [cleanStep.eq_def] at h
        dsimp only at h
        split at h
        · exact .inl h
        · exact .inl (List.mem_cons_of_mem _ h)
        · rcases List.mem_cons.1 h with rfl | h
          · exact .inr List.mem_cons_self
          · exact .inl h
    · exact .inr (List.mem_cons_of_mem _ h)

theorem plain_of_mem_cleanParts (h : ∀ part ∈ parts, part.Plain) (hpart : part ∈ cleanParts parts) :
    part.Plain := by
  rcases mem_foldl_cleanStep (List.mem_reverse.1 hpart) with hpart | hpart
  · exact absurd hpart List.not_mem_nil
  · exact h part hpart

/-- Going on through the parts that cleaning has left comes to the same as through all of them. -/
theorem foldl_cleanStep_cleanParts (kept parts : List Part) :
    (cleanParts parts).foldl cleanStep kept = parts.foldl cleanStep kept := by
  rw [cleanParts]
  induction parts using List.reverseRecOn with
  | nil => rfl
  | append_singleton parts part ih =>
    rw [List.foldl_append, List.foldl_append, ← ih]
    -- what is left of the parts before the last one, latest first
    generalize parts.foldl cleanStep [] = left
    cases part with
    | current => rfl
    | root | name => simp [cleanStep]
    | parent =>
      cases left with
      | nil => rfl
      | cons latest left => cases latest <;> simp [cleanStep]

theorem cleanParts_append (parts parts' : List Part) :
    cleanParts (parts ++ cleanParts parts') = cleanParts (parts ++ parts') := by
  rw [cleanParts, List.foldl_append, foldl_cleanStep_cleanParts, ← List.foldl_append, ← cleanParts]

theorem cleanParts_cleanParts (parts : List Part) :
    cleanParts (cleanParts parts) = cleanParts parts := cleanParts_append [] parts

/-- Below the root no `..` is left. -/
theorem exists_cleanParts_root (h : ∀ part ∈ parts, part.Plain) :
    ∃ names : List String, (∀ name ∈ names, IsName name) ∧
      cleanParts (.root :: parts) = .root :: names.map .name := by
  induction parts using List.reverseRecOn with
  | nil => exact ⟨[], List.forall_mem_nil _, rfl⟩
  | append_singleton parts part ih =>
    obtain ⟨names, hnames, hclean⟩ := ih fun part hpart ↦ h part (List.mem_append_left _ hpart)
    have hpart : part.Plain := h part (List.mem_append_right _ List.mem_cons_self)
    have hstep : cleanParts (.root :: (parts ++ [part])) =
        (cleanStep (.root :: names.map .name : List Part).reverse part).reverse := by
      rw [← List.cons_append, cleanParts, List.foldl_append, List.foldl_cons, List.foldl_nil,
        ← hclean, cleanParts, List.reverse_reverse]
    rw [hstep]
    cases part with
    | root | current => cases hpart
    | name text =>
      refine ⟨names ++ [text], List.forall_mem_append.2 ⟨hnames, ?_⟩, by simp [cleanStep]⟩
      exact List.forall_mem_singleton.2 hpart
    | parent =>
      rcases List.eq_nil_or_concat' names with rfl | ⟨names, name, rfl⟩
      · exact ⟨[], hnames, rfl⟩
      · refine ⟨names, fun name hname ↦ hnames name (List.mem_append_left _ hname), ?_⟩
        simp [cleanStep]

/-- Names stay as they are. -/
theorem cleanParts_root_names (names : List String) :
    cleanParts (.root :: names.map .name) = .root :: names.map .name := by
  rw [cleanParts, List.foldl_cons, foldl_cleanStep_names]
  simp [cleanStep]

/-! ## Cleaning paths -/

theorem clean_eq_of_cleanParts (h : cleanParts p.parts = cleanParts q.parts) :
    p.clean = q.clean := by rw [clean, clean, h]

/-- The clean form of an absolute path is the path of a place. -/
theorem exists_clean_eq_pathOf (h : p.isAbsolute = true) :
    ∃ names : List String, (∀ name ∈ names, IsName name) ∧ p.clean = pathOf names := by
  have hplain : ∀ part ∈ p.added, part.Plain := fun _ ↦ plain_of_mem_added
  obtain ⟨names, hnames, hclean⟩ := exists_cleanParts_root hplain
  rw [← parts_of_isAbsolute h] at hclean
  exact ⟨names, hnames, clean_eq_pathOf hclean⟩

theorem isAbsolute_pathOf (names : List String) : (pathOf names).isAbsolute = true :=
  isAbsolute_iff.2 ⟨_, toList_text_pathOf names⟩

theorem clean_pathOf {names : List String} (h : ∀ name ∈ names, IsName name) :
    (pathOf names).clean = pathOf names :=
  clean_eq_pathOf (by rw [parts_pathOf h, cleanParts_root_names])

/-- A `.` at the start of a relative path does not count in its clean form. -/
theorem cleanParts_of_relative (h : p.isAbsolute = false) :
    cleanParts p.parts = cleanParts p.added := by
  cases hs : p.text.toList.splitOn '/' with
  | nil => exact absurd hs (List.splitOn_ne_nil _ _)
  | cons first rest =>
    rw [added, hs, List.filterMap_cons]
    by_cases hfirst : first = []
    · subst hfirst
      by_cases hrest : rest = []
      · rw [parts_of_text_eq hs, if_pos ⟨rfl, hrest⟩, hrest]
        rfl
      · have hroot : p.parts = .root :: rest.filterMap Part.ofSegment := by
          rw [parts_of_text_eq hs, if_neg (by simp [hrest])]
          rfl
        rw [isAbsolute_of_parts hroot] at h
        cases h
    · rw [parts_of_text_eq hs, if_neg (by simp [hfirst])]
      by_cases hdot : first = ['.']
      · subst hdot
        rfl
      · have hplain := Part.toList_ofSegment hfirst hdot
        cases hsegment : Part.ofSegment first with
        | none => simp [hsegment] at hplain
        | some part =>
          rw [hsegment, Option.toList_some, List.singleton_inj] at hplain
          rw [← hplain]

theorem clean_of_relative (h : p.isAbsolute = false) :
    p.clean = ofText (textOfParts (cleanParts p.added)) := by rw [clean, cleanParts_of_relative h]

/-- The parts of a text of plain parts. -/
theorem added_textOfParts (h : ∀ part ∈ parts, part.Plain) :
    (ofText (textOfParts parts)).added = parts := by
  by_cases hne : parts = []
  · subst hne
    rfl
  · rw [added, text_ofText, Part.splitOn_textOfParts h hne, List.filterMap_map]
    calc parts.filterMap (Part.ofSegment ∘ fun part ↦ part.text.toList)
        = parts.filterMap some := List.filterMap_congr fun part hpart ↦ (h part hpart).ofSegment
      _ = parts := List.filterMap_some

theorem isAbsolute_textOfParts (h : ∀ part ∈ parts, part.Plain) :
    (ofText (textOfParts parts)).isAbsolute = false := by
  by_cases hne : parts = []
  · subst hne
    rfl
  rw [Bool.eq_false_iff]
  intro habsolute
  obtain ⟨rest, hrest⟩ := isAbsolute_iff.1 habsolute
  have hsplit := Part.splitOn_textOfParts h hne
  rw [text_ofText] at hrest
  rw [hrest, ← List.nil_append ('/' :: rest), List.splitOn_append_cons_self] at hsplit
  -- the first part would have an empty text
  obtain ⟨part, parts, rfl⟩ := List.exists_cons_of_ne_nil hne
  have hpart := (h part List.mem_cons_self).ofSegment
  have htext : [] = part.text.toList := (List.cons.inj hsplit).1
  rw [← htext] at hpart
  cases hpart

theorem added_clean (h : p.isAbsolute = false) : p.clean.added = cleanParts p.added := by
  rw [clean_of_relative h]
  exact added_textOfParts fun _ ↦ plain_of_mem_cleanParts fun _ ↦ plain_of_mem_added

theorem isAbsolute_clean (p : Path) : p.clean.isAbsolute = p.isAbsolute := by
  cases h : p.isAbsolute with
  | true =>
    obtain ⟨names, -, hclean⟩ := exists_clean_eq_pathOf h
    rw [hclean, isAbsolute_pathOf]
  | false =>
    rw [clean_of_relative h]
    exact isAbsolute_textOfParts fun _ ↦ plain_of_mem_cleanParts fun _ ↦ plain_of_mem_added

/-- What is clean stays as it is. -/
theorem clean_clean (p : Path) : p.clean.clean = p.clean := by
  cases h : p.isAbsolute with
  | true =>
    obtain ⟨names, hnames, hclean⟩ := exists_clean_eq_pathOf h
    rw [hclean, clean_pathOf hnames]
  | false =>
    have hclean : p.clean.isAbsolute = false := by rw [isAbsolute_clean, h]
    rw [clean_of_relative hclean, added_clean h, cleanParts_cleanParts, ← clean_of_relative h]

/-- It makes no difference whether a path is cleaned before it is joined to another one. -/
theorem clean_join_clean (hp : p.parts ≠ []) (q : Path) :
    (p.join q.clean).clean = (p.join q).clean := by
  have habsolute := isAbsolute_clean q
  cases hq : q.isAbsolute with
  | true =>
    rw [hq] at habsolute
    rw [join, if_pos habsolute, join, if_pos hq, clean_clean]
  | false =>
    rw [hq] at habsolute
    refine clean_eq_of_cleanParts ?_
    rw [parts_join_of_relative habsolute hp, parts_join_of_relative hq hp, added_clean hq,
      cleanParts_append]

/-- The last segment of a clean path is not empty, unless the path is the root. -/
theorem getLast?_splitOn_clean (h : p.clean.text ≠ "/") :
    (p.clean.text.toList.splitOn '/').getLast? ≠ some [] := by
  cases habsolute : p.isAbsolute with
  | true =>
    obtain ⟨names, hnames, hclean⟩ := exists_clean_eq_pathOf habsolute
    have hne : names ≠ [] := by
      rintro rfl
      exact h (hclean ▸ rfl)
    rw [hclean, splitOn_pathOf hnames hne]
    intro hlast
    rw [List.getLast?_cons_of_ne_nil (by simpa using hne), List.getLast?_map,
      Option.map_eq_some_iff] at hlast
    obtain ⟨name, hname, hempty⟩ := hlast
    have hsegment := (hnames name (List.mem_of_getLast? hname)).ofSegment
    rw [hempty] at hsegment
    cases hsegment
  | false =>
    have hplain : ∀ part ∈ cleanParts p.added, part.Plain := fun _ ↦
      plain_of_mem_cleanParts fun _ ↦ plain_of_mem_added
    rw [clean_of_relative habsolute, text_ofText]
    by_cases hne : cleanParts p.added = []
    · rw [hne]
      decide
    · rw [Part.splitOn_textOfParts hplain hne]
      intro hlast
      rw [List.getLast?_map, Option.map_eq_some_iff] at hlast
      obtain ⟨part, hpart, hempty⟩ := hlast
      have hsegment := (hplain part (List.mem_of_getLast? hpart)).ofSegment
      rw [hempty] at hsegment
      cases hsegment

/-- A clean path ends with a separator only if it is the root. -/
theorem join_clean (hq : q.isAbsolute = false) : p.clean.join q =
    if p.clean.text = "/" then .ofText ("/" ++ q.text)
    else .ofText (p.clean.text ++ "/" ++ q.text) := by
  rw [join, if_neg (by simp [hq])]
  by_cases hroot : p.clean.text = "/"
  · rw [if_pos hroot, hroot]
    rfl
  · rw [if_neg hroot]
    have hlast := getLast?_splitOn_clean hroot
    cases hc : p.clean.text.toList.getLast? with
    | none =>
      rw [List.getLast?_eq_none_iff] at hc
      rw [hc] at hlast
      exact absurd rfl hlast
    | some c =>
      refine if_neg ?_
      rintro rfl
      exact hlast (Step.getLast?_splitOn_of_endsOpen (Step.endsOpen_iff.2 hc))

end Path
end ImpactGraph
