import ImpactGraph.Proofs.Path
import ImpactGraph.Resolve.Resolver

/-!
# What a specifier resolves to

Over a file tree that does not change, `Resolver.resolve` is a function of the tree.  `run_resolve`
is its value: the first probe that is a regular file.  `probes_eq_of_directory` says that the
importing file counts only by its directory, and `probes_congr` that it counts only by its parts.
-/

set_option autoImplicit false

namespace ImpactGraph

/-- Whether a path leads to a regular file. -/
def FileTree.isFile (files : FileTree) (p : Path) : Bool := (Files.isFile p).run files

namespace Probe

theorem run_firstFile (files : FileTree) (ps : List Path) :
    (firstFile ps).run files = ps.find? (FileTree.isFile files) := by
  induction ps with
  | nil => rfl
  | cons p ps ih =>
    rw [firstFile, Dialogue.run_bind, List.find?_cons]
    show (if (FileTree.isFile files p) = true then _ else _ : Files _).run files = _
    split
    · next h => simp [h]
    · next h => simp [h, ih]

end Probe

namespace Resolver

variable {files : FileTree} {r : Resolver} {importer : Path} {specifier : String}

/-- The path under which a file is entered: its canonical one, where that can be told. -/
def canonicalIn (files : FileTree) (p : Path) : Path :=
  match files (.canonical p) with
  | .ok path => path
  | .error _ => p

theorem run_resolve :
    (r.resolve importer specifier).run files =
      if r.isExternal specifier = true then .external
      else
        match (r.probes importer specifier).find? (FileTree.isFile files) with
        | none => .failed ⟨importer, specifier, r.probes importer specifier⟩
        | some probe => .file (canonicalIn files probe) := by
  rw [resolve]
  split
  · rfl
  · rw [Dialogue.run_bind, Probe.run_firstFile]
    cases (r.probes importer specifier).find? (FileTree.isFile files) with
    | none => rfl
    | some probe =>
      simp only [canonicalIn, Dialogue.run_bind, Files.run_canonical]
      cases files (.canonical probe) <;> rfl

/-- All files of a directory have the same probes. -/
theorem probes_eq_of_directory {importer' : Path}
    (h : (importer.parent?.getD importer).parts = (importer'.parent?.getD importer').parts) :
    r.probes importer specifier = r.probes importer' specifier := by
  rw [probes, probes, base, base]
  cases r.aliases.expand? specifier with
  | some path => rfl
  | none => exact congrArg (Probe.candidates · r.extensions) (Path.clean_join_congr h _)

theorem probes_congr {importer' : Path} (h : importer.parts = importer'.parts) :
    r.probes importer specifier = r.probes importer' specifier :=
  probes_eq_of_directory (Path.parts_parent_congr h)

/-- A specifier leads to the same file from all spellings of the importing one. -/
theorem run_resolve_file_congr {importer' target : Path} (h : importer.parts = importer'.parts)
    (ht : (r.resolve importer specifier).run files = .file target) :
    (r.resolve importer' specifier).run files = .file target := by
  rw [run_resolve, probes_congr h] at ht
  rw [run_resolve]
  split at ht
  · cases ht
  · next hext =>
    rw [if_neg hext]
    split at ht
    · cases ht
    · exact ht

/-- What a specifier leads to is the canonical form of a regular file. -/
theorem exists_isFile_of_run_resolve {target : Path}
    (h : (r.resolve importer specifier).run files = .file target) :
    ∃ probe, FileTree.isFile files probe = true ∧ target = canonicalIn files probe := by
  rw [run_resolve] at h
  split at h
  · cases h
  · cases hfind : (r.probes importer specifier).find? (FileTree.isFile files) with
    | none =>
      rw [hfind] at h
      cases h
    | some probe =>
      rw [hfind] at h
      cases h
      exact ⟨probe, List.find?_some hfind, rfl⟩

/-- Resolving fails exactly where no probe of a specifier that is not external is a regular
file. -/
theorem run_resolve_eq_failed_iff {fault : ResolutionFault} :
    (r.resolve importer specifier).run files = .failed fault ↔
      (r.isExternal specifier = false ∧
        ∀ p ∈ r.probes importer specifier, FileTree.isFile files p = false) ∧
      fault = ⟨importer, specifier, r.probes importer specifier⟩ := by
  rw [run_resolve]
  cases hext : r.isExternal specifier with
  | true => simp
  | false =>
    cases hfind : (r.probes importer specifier).find? (FileTree.isFile files) with
    | none =>
      have hall := List.find?_eq_none.1 hfind
      simp only [Bool.false_eq_true, if_false, Resolution.failed.injEq, true_and]
      exact ⟨fun h ↦ ⟨fun p hp ↦ by simpa using hall p hp, h.symm⟩, fun h ↦ h.2.symm⟩
    | some probe =>
      simp only [Bool.false_eq_true, if_false, reduceCtorEq, true_and, false_iff, not_and]
      intro hall
      have hfile := List.find?_some hfind
      rw [hall probe (List.mem_of_find?_eq_some hfind)] at hfile
      cases hfile

end Resolver
end ImpactGraph
