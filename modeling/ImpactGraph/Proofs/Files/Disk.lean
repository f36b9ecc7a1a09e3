import ImpactGraph.Proofs.Files.Lexical
import ImpactGraph.Proofs.SortedMap

/-!
# Paths on disk

A path on disk is walked by its text, from the root or from the working directory.
`reach_eq_ok_iff` says where it leads to; the other lemmas say it of paths that are made of two:
`reach_join_cwd` of a relative path that is taken from the working directory, and `reach_clean` of a
path that is cleaned without looking, after the directory it is taken from has been replaced by its
canonical path.
-/

set_option autoImplicit false

namespace ImpactGraph
namespace StoredTree

variable {tree : StoredTree} {cwd place directory reached : Place} {p q : Path} {links rest : Nat}
  {todo : List Step}

/-- A walk on disk. -/
abbrev DiskWalks (tree : StoredTree) : Nat → Place → List Step → Place → Nat → Prop :=
  Walks tree (fun p ↦ Step.ofText p.text) true

/-- A tree as it may be on disk, with a working directory: no name holds the character that ends a
path. -/
structure Grounded (tree : StoredTree) (cwd : Place) : Prop where
  cwd : tree.Stands true cwd
  nul : ∀ place entry, tree.entry? place = some entry → ∀ name ∈ place, '\x00' ∉ name.toList

theorem textError?_eq_none_iff :
    textError? p = none ↔
      '\x00' ∉ p.text.toList ∧ p.text ≠ "" ∧ p.text.utf8ByteSize ≤ maxPath := by
  rw [textError?]
  by_cases hnul : '\x00' ∈ p.text.toList
  · simp [hnul]
  · by_cases hempty : p.text = ""
    · simp [hempty]
    · by_cases hlong : maxPath < p.text.utf8ByteSize
      · simp [hnul, hempty, hlong]
      · simp [hnul, hempty, hlong, Nat.le_of_not_lt hlong]

/-- The place from which a path is walked. -/
def start (cwd : Place) (p : Path) : Place := if p.isAbsolute then [] else cwd

theorem reachBy_eq_ok_iff :
    tree.reachBy links cwd p todo = .ok (reached, rest) ↔
      textError? p = none ∧ tree.DiskWalks links (start cwd p) todo reached rest := by
  rw [reachBy]
  cases textError? p with
  | some e => simp
  | none =>
    simp only [true_and]
    constructor
    · intro h
      refine walks_of_walkFrom ?_
      rw [start]
      cases hwalk : tree.walkFrom (fun p ↦ Step.ofText p.text) true links
          (if p.isAbsolute then [] else cwd) todo with
      | error fault =>
        rw [hwalk] at h
        cases h
      | ok found =>
        rw [hwalk] at h
        exact congrArg _ (Except.ok.inj h)
    · intro h
      have hwalk := h.walkFrom
      rw [start] at hwalk
      rw [hwalk]

/-- Where a path leads to. -/
theorem reach_eq_ok_iff :
    tree.reach cwd p = .ok place ↔
      textError? p = none ∧
        ∃ rest, tree.DiskWalks maxLinks (start cwd p) (Step.ofText p.text) place rest := by
  rw [reach, ← exists_and_left]
  simp only [← reachBy_eq_ok_iff]
  cases tree.reachBy maxLinks cwd p (Step.ofText p.text) with
  | error e => simp [Except.map]
  | ok found => simp [Except.map, Prod.ext_iff]

/-- Where a path leads to, by its steps. -/
theorem reach_of_steps (origin : Place) (todo : List Step)
    {found : Except WalkFault (Place × Nat)} (htext : textError? p = none)
    (hstart : start cwd p = origin) (htodo : Step.ofText p.text = todo)
    (hwalk : tree.walkFrom (fun p ↦ Step.ofText p.text) true maxLinks origin todo = found) :
    tree.reach cwd p = (found.mapError (·.error)).map Prod.fst := by
  rw [start] at hstart
  rw [reach, reachBy, htext, hstart, htodo]
  simp only [hwalk]
  cases found <;> rfl

/-- What stands at a place other than the root is listed. -/
theorem mem_entries {found : TreeEntry} (h : tree.entry? place = some found) :
    place = [] ∨ (place, found) ∈ tree.entries.entries := by
  unfold entry? at h
  split at h
  · next hempty => exact .inl (by simpa using hempty)
  · obtain ⟨place', hmem, hcompare⟩ := SortedMap.get?_eq_some_iff.1 h
    obtain rfl : place = place' := Std.LawfulEqOrd.eq_of_compare hcompare
    exact .inr hmem

/-- Whether a tree may be on disk shows from its list, where paths are taken from the root. -/
theorem grounded_nil
    (h : ∀ e ∈ tree.entries.entries, ∀ name ∈ e.1, '\x00' ∉ name.toList) : tree.Grounded [] := by
  refine ⟨.root, fun place found hfound ↦ ?_⟩
  rcases mem_entries hfound with rfl | hmem
  · exact List.forall_mem_nil _
  · exact h _ hmem

theorem Grounded.stands (h : tree.Grounded cwd) (hreach : tree.reach cwd p = .ok place) :
    tree.Stands true place := by
  obtain ⟨-, rest, hwalk⟩ := reach_eq_ok_iff.1 hreach
  refine hwalk.stands (fun _ _ ↦ Step.proper_of_mem_ofText) (fun _ ↦ Step.proper_of_mem_ofText) ?_
  rw [start]
  split
  · exact .root
  · exact h.cwd

theorem Grounded.not_mem (h : tree.Grounded cwd) (hplace : tree.Stands true place) :
    ∀ name ∈ place, '\x00' ∉ name.toList := by
  cases hplace with
  | root => exact List.forall_mem_nil _
  | name _ _ _ _ hentry _ => exact h.nul _ _ hentry

/-- A walk by the steps of a path may leave out the last one, which goes nowhere. -/
theorem DiskWalks.spelled {text : String}
    (h : tree.DiskWalks links place (Step.ofText text) reached rest) :
    tree.DiskWalks links place (Step.spelled text) reached rest := by
  rw [Step.ofText] at h
  split at h
  · obtain ⟨place', links', hto, hstay⟩ := h.split
    cases hstay with
    | stay _ hdone =>
      cases hdone
      exact hto
  · exact h

/-! ## Paths that are taken from a directory -/

/-- The steps to the directory that a path is taken from. -/
def stepsBefore (p q : Path) : List Step := if q.isAbsolute then [] else Step.spelled p.text

/-- No name of a path that is taken from a directory is that of a link, if a later `..` of the path
takes it back. -/
def TakesBack (tree : StoredTree) (cwd : Place) (p q : Path) : Prop :=
  ∀ place links, tree.DiskWalks maxLinks (start cwd (p.join q)) (stepsBefore p q) place links →
    TakesBackNames tree (fun p ↦ Step.ofText p.text) true links place (Step.spelled q.text)

/-- The steps of a path are walked from where those to the directory lead. -/
theorem exists_walks_join (hne : q.text ≠ "") (hp : tree.reach cwd p = .ok directory)
    (hq : tree.reach cwd (p.join q) = .ok place) :
    ∃ links rest, links ≤ maxLinks ∧
      tree.DiskWalks maxLinks (start cwd (p.join q)) (stepsBefore p q) (start directory q) links ∧
      tree.DiskWalks links (start directory q) (Step.spelled q.text) place rest := by
  obtain ⟨-, rest, hwalk⟩ := reach_eq_ok_iff.1 hq
  rw [stepsBefore, start, start]
  cases habsolute : q.isAbsolute with
  | true =>
    have hjoin : p.join q = q := by rw [Path.join, if_pos habsolute]
    rw [hjoin, start, habsolute] at hwalk
    rw [hjoin, habsolute]
    exact ⟨maxLinks, rest, Nat.le_refl _, .done, DiskWalks.spelled hwalk⟩
  | false =>
    obtain ⟨-, rest', hdirectory⟩ := reach_eq_ok_iff.1 hp
    rw [start, Path.isAbsolute_join habsolute, Step.ofText_join habsolute hne] at hwalk
    rw [Path.isAbsolute_join habsolute]
    obtain ⟨place', links, hto, hrest⟩ := hwalk.split
    obtain ⟨rfl, rfl⟩ := (DiskWalks.spelled hdirectory).unique hto
    exact ⟨_, rest, hto.le, hto, DiskWalks.spelled hrest⟩

/-- A relative path leads to the same place when it is taken from the path of the working
directory. -/
theorem Grounded.reach_join_cwd (h : tree.Grounded cwd) (hp : tree.reach cwd p = .ok place)
    (hrelative : p.isAbsolute = false)
    (hlength : ((pathOf cwd).join p).text.utf8ByteSize ≤ maxPath) :
    tree.reach cwd ((pathOf cwd).join p) = .ok place := by
  obtain ⟨htext, rest, hwalk⟩ := reach_eq_ok_iff.1 hp
  obtain ⟨hnul, hne, -⟩ := textError?_eq_none_iff.1 htext
  have habsolute : ((pathOf cwd).join p).isAbsolute = true := by
    rw [Path.isAbsolute_join hrelative, Path.isAbsolute, toList_text_pathOf]
    rfl
  refine reach_eq_ok_iff.2 ⟨textError?_eq_none_iff.2 ⟨fun hmem ↦ ?_, fun hempty ↦ ?_, hlength⟩,
    rest, ?_⟩
  · rcases Path.mem_text_join hrelative hmem with hmem | hmem | hmem
    · cases hmem
    · rcases mem_text_pathOf hmem with hmem | ⟨name, hname, hmem⟩
      · cases hmem
      · exact h.not_mem h.cwd name hname hmem
    · exact hnul hmem
  · rw [Path.isAbsolute, hempty] at habsolute
    cases habsolute
  · rw [start, habsolute, if_pos rfl, Step.ofText_join hrelative hne, spelled_pathOf h.cwd.isName]
    rw [start, hrelative] at hwalk
    exact (h.cwd.walks maxLinks).append hwalk

/-- The parts of a path that is taken from a place. -/
theorem parts_pathOf_join (h : ∀ name ∈ directory, IsName name) :
    ((pathOf directory).join q).parts =
      (.root :: (start directory q).map .name) ++
        (q.text.toList.splitOn '/').filterMap Part.ofSegment := by
  rw [Path.parts_join, parts_pathOf h, start]
  cases habsolute : q.isAbsolute with
  | false => simp
  | true =>
    obtain ⟨rest, hrest⟩ : ∃ rest, q.text.toList = '/' :: rest := by
      rw [Path.isAbsolute, beq_iff_eq, List.head?_eq_some_iff] at habsolute
      exact habsolute
    have hsplit : q.text.toList.splitOn '/' = [] :: rest.splitOn '/' := by
      rw [hrest, ← List.nil_append ('/' :: rest), List.splitOn_append_cons_self]
      rfl
    rw [if_pos (.inl rfl), Path.parts_of_text_eq hsplit, if_neg (by simp [List.splitOn_ne_nil]),
      hsplit]
    rfl

theorem foldl_cleanStep_names (kept : List Part) (names : List String) :
    (names.map .name).foldl Path.cleanStep kept = (names.map .name).reverse ++ kept := by
  induction names generalizing kept with
  | nil => rfl
  | cons name names ih => simp [ih, Path.cleanStep]

/-- A clean path below the root is that of a place. -/
theorem clean_eq_pathOf (h : Path.cleanParts p.parts = .root :: place.map .name) :
    p.clean = pathOf place := by
  rw [Path.clean, h, Path.textOfParts, pathOf, List.map_map]
  simp [Function.comp_def, Part.text]

/-- A path that is taken from a place, when it is cleaned: what is left are the names that cleaning
its own parts leaves. -/
theorem clean_pathOf_join {base : Place} {kept : List String} (h : ∀ name ∈ directory, IsName name)
    (hclean : ((q.text.toList.splitOn '/').filterMap Part.ofSegment).foldl Path.cleanStep
        (.root :: (start directory q).map .name : List Part).reverse =
      (.root :: (base ++ kept.reverse).map .name : List Part).reverse) :
    ((pathOf directory).join q).clean = pathOf (base ++ kept.reverse) := by
  refine clean_eq_pathOf ?_
  have hroot : (.root :: (start directory q).map .name : List Part).foldl Path.cleanStep [] =
      (.root :: (start directory q).map .name : List Part).reverse := by
    rw [List.foldl_cons, List.reverse_cons]
    exact foldl_cleanStep_names [.root] _
  rw [Path.cleanParts, parts_pathOf_join h, List.foldl_append, hroot, hclean, List.reverse_reverse]

/-- The path of names leads to where a walk by the names leads from the root. -/
theorem reach_pathOf {names : List String} (h : ∀ name ∈ names, IsName name)
    (hnul : ∀ name ∈ names, '\x00' ∉ name.toList)
    (hlength : (pathOf names).text.utf8ByteSize ≤ maxPath) (hlinks : links ≤ maxLinks)
    (hwalk : tree.DiskWalks links [] (names.map .name) place rest) :
    tree.reach cwd (pathOf names) = .ok place := by
  obtain ⟨rest', -, hwalk⟩ := hwalk.mono hlinks
  have hstart : start cwd (pathOf names) = [] := by
    rw [start, Path.isAbsolute, toList_text_pathOf]
    rfl
  refine reach_eq_ok_iff.2 ⟨textError?_eq_none_iff.2 ⟨fun hmem ↦ ?_, ?_, hlength⟩, ?_⟩
  · rcases mem_text_pathOf hmem with hmem | ⟨name, hname, hmem⟩
    · cases hmem
    · exact hnul name hname hmem
  · rw [pathOf]
    simp
  · rw [hstart]
    by_cases hempty : names = []
    · subst hempty
      cases hwalk
      rw [ofText_pathOf_nil]
      exact ⟨maxLinks, .stay (fun _ ↦ rfl) .done⟩
    · rw [ofText_pathOf h hempty]
      exact ⟨_, hwalk⟩

/-- A path that is taken from the canonical path of a directory, and cleaned without looking, leads
to where it leads when it is taken from the directory, if no name that it takes back is a link. -/
theorem Grounded.reach_clean (h : tree.Grounded cwd) (hne : q.text ≠ "")
    (hp : tree.reach cwd p = .ok directory) (hq : tree.reach cwd (p.join q) = .ok place)
    (hnames : tree.TakesBack cwd p q)
    (hlength : ((pathOf directory).join q).clean.text.utf8ByteSize ≤ maxPath) :
    tree.reach cwd ((pathOf directory).join q).clean = .ok place := by
  have hstands := h.stands hp
  have hfrom : tree.Stands true (start directory q) := by
    rw [start]
    split
    · exact .root
    · exact hstands
  obtain ⟨links, rest, hlinks, hto, hwalk⟩ := exists_walks_join hne hp hq
  obtain ⟨base, kept, hkeeps, hclean⟩ :=
    Step.exists_keeps (start directory q) (q.text.toList.splitOn '/')
  obtain ⟨rest', -, hkept⟩ := walks_of_keeps hkeeps hfrom (hnames _ _ hto) hwalk
  have hpath := clean_pathOf_join hstands.isName hclean
  -- the names that are left are names of the directory and of the path
  have hname : ∀ name ∈ base ++ kept.reverse, name ∈ start directory q ∨
      .name name ∈ Step.spelled q.text := by
    intro name hmem
    rw [List.mem_append, List.mem_reverse] at hmem
    exact hmem.imp (hkeeps.mem_base name) (hkeeps.mem_kept name)
  rw [hpath] at hlength ⊢
  refine reach_pathOf (fun name hmem ↦ ?_) (fun name hmem hnul ↦ ?_) hlength hlinks hkept
  · exact (hname name hmem).elim (hfrom.isName name) fun hspelled ↦
      Step.proper_of_mem_spelled hspelled
  · rcases hname name hmem with hmem | hmem
    · exact h.not_mem hfrom name hmem hnul
    · obtain ⟨htext, -⟩ := reach_eq_ok_iff.1 hq
      obtain ⟨hnot, -⟩ := textError?_eq_none_iff.1 htext
      exact hnot (Path.mem_text_join_right (Step.mem_text_of_mem_spelled hmem hnul))

end StoredTree
end ImpactGraph
