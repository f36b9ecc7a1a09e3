import ImpactGraph.Proofs.Files.Walk
import ImpactGraph.Proofs.Resolve

/-!
# Canonical paths

Many paths can lead to one file.  A file tree `Canonicalizes` if it answers with the same canonical
path for all of them; `parts_eq` says that a file then has one canonical path only.  Trees kept in
memory do, for the places that their paths lead to stand (`StoredTree.canonicalizes_inMemory`).
-/

set_option autoImplicit false

namespace ImpactGraph

variable {ι : Type} {files : FileTree} {file : Path → Option ι} {p q : Path} {i : ι}

/-- A file tree in which every file has one canonical path: only regular files can be read, and the
canonical path of a path that leads to a regular file is the same for all that lead there, and
leads there as well.  `file p` is the regular file that `p` leads to. -/
structure FileTree.Canonicalizes (files : FileTree) (file : Path → Option ι) : Prop where
  isFile_iff : ∀ p, FileTree.isFile files p = true ↔ ∃ i, file p = some i
  isFile_of_contents : ∀ p bytes, files (.contents p) = .ok bytes → FileTree.isFile files p = true
  exists_canonical : ∀ p, FileTree.isFile files p = true → ∃ c, files (.canonical p) = .ok c
  idempotent : ∀ p c, files (.canonical p) = .ok c →
    ∃ c', files (.canonical c) = .ok c' ∧ c'.same c = true
  file_canonical : ∀ p c i, file p = some i → files (.canonical p) = .ok c → file c = some i
  canonical_same : ∀ p q c d i, file p = some i → file q = some i →
    files (.canonical p) = .ok c → files (.canonical q) = .ok d → c.same d = true

/-- A path is the canonical one of a regular file. -/
structure FileTree.IsCanonical (files : FileTree) (p : Path) : Prop where
  isFile : FileTree.isFile files p = true
  fixed : ∃ c, files (.canonical p) = .ok c ∧ c.same p = true

namespace FileTree.Canonicalizes

theorem exists_file (h : files.Canonicalizes file) (hp : files.IsCanonical p) :
    ∃ i, file p = some i := (h.isFile_iff p).1 hp.isFile

/-- The canonical path of a path that leads to a file. -/
theorem isCanonical (h : files.Canonicalizes file) (hp : file p = some i)
    (hc : files (.canonical p) = .ok q) : files.IsCanonical q ∧ file q = some i := by
  have hq := h.file_canonical p q i hp hc
  exact ⟨⟨(h.isFile_iff q).2 ⟨i, hq⟩, h.idempotent p q hc⟩, hq⟩

/-- A file has one canonical path. -/
theorem parts_eq (h : files.Canonicalizes file) (hp : files.IsCanonical p)
    (hq : files.IsCanonical q) (heq : file p = file q) : p.parts = q.parts := by
  obtain ⟨i, hi⟩ := h.exists_file hp
  obtain ⟨c, hc, hcp⟩ := hp.fixed
  obtain ⟨d, hd, hdq⟩ := hq.fixed
  have hcd := h.canonical_same p q c d i hi (heq ▸ hi) hc hd
  rw [Path.same_iff] at hcp hdq hcd
  exact hcp.symm.trans (hcd.trans hdq)

end FileTree.Canonicalizes

/-! ## Trees in memory -/

namespace StoredTree

variable {tree : StoredTree} {place : Place}

/-- The place of the regular file that a path leads to in memory. -/
def fileAt? (tree : StoredTree) (p : Path) : Option Place :=
  (tree.walk? p).filter fun place ↦
    match tree.entry? place with
    | some (.file _) => true
    | _ => false

theorem walk?_eq_some_iff :
    tree.walk? p = some place ↔
      ∃ rest, Walks tree (fun p ↦ Step.ofParts p.parts) false maxLinks [] (Step.ofParts p.parts)
        place rest := by
  rw [walk?]
  constructor
  · intro h
    obtain ⟨⟨reached, rest⟩, hreached, rfl⟩ := Option.map_eq_some_iff.1 h
    refine ⟨rest, walks_of_walkFrom ?_⟩
    cases hwalk : tree.walkFrom (fun p ↦ Step.ofParts p.parts) false maxLinks []
        (Step.ofParts p.parts) with
    | error fault =>
      rw [hwalk] at hreached
      cases hreached
    | ok found =>
      rw [hwalk] at hreached
      cases hreached
      rfl
  · rintro ⟨rest, hwalk⟩
    rw [hwalk.walkFrom]
    rfl

/-- The path of the place that a path leads to leads there too. -/
theorem walk?_pathOf (h : tree.walk? p = some place) : tree.walk? (pathOf place) = some place := by
  obtain ⟨rest, hwalk⟩ := walk?_eq_some_iff.1 h
  have hstands : tree.Stands false place :=
    hwalk.stands (fun _ _ ↦ Step.proper_of_mem_ofParts) (fun _ ↦ Step.proper_of_mem_ofParts) .root
  refine walk?_eq_some_iff.2 ⟨maxLinks, ?_⟩
  rw [ofParts_pathOf hstands.isName]
  exact hstands.walks maxLinks

theorem fileAt?_eq_some_iff :
    tree.fileAt? p = some place ↔
      tree.walk? p = some place ∧ ∃ bytes, tree.entry? place = some (.file bytes) := by
  rw [fileAt?, Option.filter_eq_some_iff]
  refine and_congr_right fun _ ↦ ?_
  cases tree.entry? place with
  | none => simp
  | some entry => cases entry <;> simp

theorem canonical_inMemory {workingDirectory : Except FileFault Path} :
    tree.inMemory workingDirectory (.canonical p) = .ok q ↔
      ∃ place, tree.walk? p = some place ∧ q = pathOf place := by
  rw [inMemory]
  cases tree.walk? p with
  | none => simp
  | some place =>
    constructor
    · intro h
      exact ⟨place, rfl, (Except.ok.inj h).symm⟩
    · rintro ⟨_, hplace, rfl⟩
      cases hplace
      rfl

theorem isFile_inMemory {workingDirectory : Except FileFault Path} :
    FileTree.isFile (tree.inMemory workingDirectory) p = true ↔
      ∃ place, tree.fileAt? p = some place := by
  simp only [fileAt?_eq_some_iff]
  rw [FileTree.isFile, Files.isFile, Dialogue.run_bind, Files.run_metadata, inMemory]
  cases tree.walk? p with
  | none => simp
  | some place =>
    simp only [Option.bind_some, Option.some.injEq, exists_eq_left']
    cases tree.entry? place with
    | none => simp
    | some entry => cases entry <;> simp [metadataOf]

/-- In a tree in memory every file has one canonical path, which spells out its place. -/
theorem canonicalizes_inMemory (tree : StoredTree) (workingDirectory : Except FileFault Path) :
    FileTree.Canonicalizes (tree.inMemory workingDirectory) tree.fileAt? where
  isFile_iff _ := isFile_inMemory
  isFile_of_contents p bytes h := by
    rw [isFile_inMemory]
    simp only [fileAt?_eq_some_iff]
    rw [inMemory] at h
    cases hwalk : tree.walk? p with
    | none =>
      rw [hwalk] at h
      cases h
    | some place =>
      rw [hwalk, Option.bind_some] at h
      cases hentry : tree.entry? place with
      | none =>
        rw [hentry] at h
        cases h
      | some entry =>
        rw [hentry] at h
        cases entry with
        | file bytes' => exact ⟨place, rfl, bytes', hentry⟩
        | link | directory => cases h
  exists_canonical p h := by
    obtain ⟨place, hplace⟩ := isFile_inMemory.1 h
    exact ⟨pathOf place, canonical_inMemory.2 ⟨place, (fileAt?_eq_some_iff.1 hplace).1, rfl⟩⟩
  idempotent p c h := by
    obtain ⟨place, hwalk, rfl⟩ := canonical_inMemory.1 h
    exact ⟨_, canonical_inMemory.2 ⟨place, walk?_pathOf hwalk, rfl⟩, Path.same_iff.2 rfl⟩
  file_canonical p c place hplace hc := by
    obtain ⟨hwalk, hentry⟩ := fileAt?_eq_some_iff.1 hplace
    obtain ⟨place', hwalk', rfl⟩ := canonical_inMemory.1 hc
    obtain rfl := Option.some.inj (hwalk.symm.trans hwalk')
    exact fileAt?_eq_some_iff.2 ⟨walk?_pathOf hwalk, hentry⟩
  canonical_same p q c d place hp hq hc hd := by
    obtain ⟨place', hwalk, rfl⟩ := canonical_inMemory.1 hc
    obtain ⟨place'', hwalk', rfl⟩ := canonical_inMemory.1 hd
    obtain rfl := Option.some.inj ((fileAt?_eq_some_iff.1 hp).1.symm.trans hwalk)
    obtain rfl := Option.some.inj ((fileAt?_eq_some_iff.1 hq).1.symm.trans hwalk')
    exact Path.same_iff.2 rfl

end StoredTree
end ImpactGraph
