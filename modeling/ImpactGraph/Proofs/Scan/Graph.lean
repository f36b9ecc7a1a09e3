import ImpactGraph.Proofs.Resolve
import ImpactGraph.Proofs.Source.Load

/-!
# The graph that a scan looks for

Tasks take their steps in any order, but what they look for is fixed by the plan and the file tree.
`walked?` says which files are walked and what they contain, `FollowsFrom` which of their imports
are followed, `Imports` when one file imports another, and `IsNode` which files belong to the graph:
the least set with the entry in it that is closed under `Imports`.  `Depicts` compares a snapshot
with all that, up to the spelling of paths.

A scan goes by the list of the specifiers of a file, each once (`specifiers`), which are those that
are followed from it (`mem_specifiers_iff`).  The last lemmas say that none of this depends on how a
file of the graph is written, over a file tree that does not tell its spellings apart.
-/

set_option autoImplicit false

namespace ImpactGraph

open Source

namespace ScanPlan

variable (plan : ScanPlan) (files : FileTree)

/-- What a specifier of a file stands for. -/
def resolution (owner : Path) (specifier : String) : Resolution :=
  (plan.resolver.resolve owner specifier).run files

/-- What loading and parsing a file gives. -/
def factsOf (p : Path) : Except ModuleFault ModuleFacts := (plan.facts p).run files

/-- The facts of a file that is walked: the entry, or a script that can be loaded and parsed. -/
def walked? (p : Path) : Option ModuleFacts :=
  if p.same plan.entry || plan.isScript p then (plan.factsOf files p).toOption else none

/-- A specifier is followed from a file: the file is walked, and one of its imports has the
specifier and is of a kind that is followed. -/
def FollowsFrom (owner : Path) (specifier : String) : Prop :=
  ∃ facts, plan.walked? files owner = some facts ∧
    ∃ site ∈ facts.imports, plan.follows site.kind = true ∧ site.specifier = specifier

/-- One file imports another one by a specifier that is followed from it. -/
def Imports (owner target : Path) : Prop :=
  ∃ specifier, plan.FollowsFrom files owner specifier ∧
    plan.resolution files owner specifier = .file target

/-- The files of the graph: the entry, and all that is imported by a file of the graph. -/
inductive IsNode : Path → Prop
  | entry : IsNode plan.entry
  | imported {owner target : Path} : IsNode owner → plan.Imports files owner target →
      IsNode target

/-- The descriptor of a file; that of a file that is not walked is empty. -/
def descriptorOf (p : Path) : Descriptor :=
  match plan.walked? files p with
  | some facts => facts.descriptor
  | none => ∅

/-- A snapshot shows the graph: its files are those of the graph, each with its descriptor and
with the files that import it, in order. -/
structure Depicts (g : Snapshot) : Prop where
  root : g.root = plan.root
  entry : g.entry = plan.entry
  contains_iff : ∀ p, g.contains p = true ↔ ∃ q, plan.IsNode files q ∧ q.same p = true
  descriptor : ∀ p node, g.get? p = some node → ∀ q, plan.IsNode files q → q.same p = true →
    node.descriptor = plan.descriptorOf files q
  dependents : ∀ p node, g.get? p = some node → ∀ d,
    (∃ o ∈ node.dependents, o.same d = true) ↔
      ∃ o t, plan.IsNode files o ∧ plan.Imports files o t ∧ o.same d = true ∧ t.same p = true
  sorted : ∀ p node, g.get? p = some node →
    node.dependents.Pairwise fun a b ↦ a.compare b = .lt

end ScanPlan

namespace ScanPlan

variable {plan : ScanPlan} {files : FileTree} {p q : Path} {specifier : String}

/-! ## Specifiers -/

/-- The specifiers that are followed from a file, each once, in the order in which they first
appear. -/
def specifiers (plan : ScanPlan) (files : FileTree) (p : Path) : List String :=
  match plan.walked? files p with
  | some facts => plan.followed facts.imports
  | none => []

theorem mem_followed_iff {sites : List ImportSite} :
    specifier ∈ plan.followed sites ↔
      ∃ site ∈ sites, plan.follows site.kind = true ∧ site.specifier = specifier := by
  simp [followed, and_assoc]

/-- A scan goes by what is followed from a file. -/
theorem mem_specifiers_iff :
    specifier ∈ plan.specifiers files p ↔ plan.FollowsFrom files p specifier := by
  rw [specifiers, FollowsFrom]
  cases plan.walked? files p with
  | none => simp
  | some facts => simp [mem_followed_iff]

theorem imports_of_mem {target : Path} (hspecifier : specifier ∈ plan.specifiers files p)
    (hresolution : plan.resolution files p specifier = .file target) :
    plan.Imports files p target := ⟨specifier, mem_specifiers_iff.1 hspecifier, hresolution⟩

theorem nodup_eraseDups {α : Type} [BEq α] [LawfulBEq α] (l : List α) : l.eraseDups.Nodup := by
  induction h : l.length using Nat.strong_induction_on generalizing l with
  | _ n ih =>
    cases l with
    | nil => simp
    | cons a l =>
      rw [List.eraseDups_cons, List.nodup_cons]
      refine ⟨by simp, ih _ ?_ _ rfl⟩
      have := List.length_filter_le (fun b ↦ !b == a) l
      simp only [List.length_cons] at h
      omega

theorem nodup_followed (sites : List ImportSite) : (plan.followed sites).Nodup :=
  nodup_eraseDups _

theorem nodup_specifiers : (plan.specifiers files p).Nodup := by
  rw [specifiers]
  split
  · exact nodup_followed _
  · exact List.nodup_nil

theorem isScript_congr (h : p.parts = q.parts) : plan.isScript p = plan.isScript q := by
  rw [isScript, isScript, Path.extension?_congr h]

/-- A file is walked with what it is loaded with. -/
theorem walked?_eq_some {facts : ModuleFacts} (hp : p.same plan.entry || plan.isScript p)
    (hfacts : plan.factsOf files p = .ok facts) : plan.walked? files p = some facts := by
  rw [walked?, if_pos hp, hfacts]
  rfl

theorem walked?_eq_none_of_leaf (hne : p.parts ≠ plan.entry.parts) (hp : plan.isScript p = false) :
    plan.walked? files p = none := by
  rw [walked?, if_neg]
  simp [Path.same_iff, hne, hp]

theorem walked?_eq_none_of_error {fault : ModuleFault} (h : plan.factsOf files p = .error fault) :
    plan.walked? files p = none := by
  rw [walked?, h]
  split <;> rfl

theorem specifiers_eq {facts : ModuleFacts} (h : plan.walked? files p = some facts) :
    plan.specifiers files p = plan.followed facts.imports := by rw [specifiers, h]

theorem specifiers_eq_nil (h : plan.walked? files p = none) : plan.specifiers files p = [] := by
  rw [specifiers, h]

theorem descriptorOf_eq {facts : ModuleFacts} (h : plan.walked? files p = some facts) :
    plan.descriptorOf files p = facts.descriptor := by rw [descriptorOf, h]

/-! ## Spelling does not count -/

theorem walked?_congr (hfiles : FileTree.Lawful files (plan.IsNode files))
    (hp : plan.IsNode files p) (hq : plan.IsNode files q) (h : p.parts = q.parts) :
    plan.walked? files p = plan.walked? files q := by
  rw [walked?, walked?, isScript_congr h, Path.same, Path.same, h, factsOf, factsOf,
    facts_congr hfiles hp hq h]

/-- A file that fails does so however it is written, but not always in the same words. -/
theorem exists_factsOf_eq_error {fault : ModuleFault}
    (hfiles : FileTree.Lawful files (plan.IsNode files)) (hp : plan.IsNode files p)
    (hq : plan.IsNode files q) (h : p.parts = q.parts)
    (hfault : plan.factsOf files p = .error fault) :
    ∃ fault', plan.factsOf files q = .error fault' := by
  have hnone : (plan.factsOf files q).toOption = none := by
    rw [factsOf, ← facts_congr hfiles hp hq h, ← factsOf, hfault]
    rfl
  cases hfacts : plan.factsOf files q with
  | error fault' => exact ⟨fault', rfl⟩
  | ok facts =>
    rw [hfacts] at hnone
    cases hnone

theorem imports_congr (hfiles : FileTree.Lawful files (plan.IsNode files))
    (hp : plan.IsNode files p) (hq : plan.IsNode files q) (h : p.parts = q.parts) {t : Path}
    (ht : plan.Imports files p t) : plan.Imports files q t := by
  obtain ⟨specifier, hfollows, ht⟩ := ht
  rw [FollowsFrom, walked?_congr hfiles hp hq h] at hfollows
  exact ⟨specifier, hfollows, Resolver.run_resolve_file_congr h ht⟩

/-! ## Trees of texts -/

theorem exists_mem_of_isFile_ofTexts {texts : List (Path × String)} {p : Path}
    (h : FileTree.isFile (.ofTexts texts) p = true) : ∃ text ∈ texts, text.1.parts = p.parts := by
  cases hfind : texts.find? fun text ↦ text.1.same p with
  | some text =>
    have hsame := List.find?_some hfind
    exact ⟨text, List.mem_of_find?_eq_some hfind, Path.same_iff.1 hsame⟩
  | none =>
    have hmetadata : FileTree.ofTexts texts (.metadata p) = .error (.notFound p) := by
      rw [FileTree.ofTexts, hfind]
    rw [FileTree.isFile, Files.isFile, Dialogue.run_bind, Files.run_metadata, hmetadata] at h
    cases h

/-- The files of a graph over a tree of texts are the entry and files of the tree. -/
theorem mem_of_isNode_ofTexts {texts : List (Path × String)} {t : Path}
    (h : plan.IsNode (.ofTexts texts) t) : t ∈ plan.entry :: texts.map (·.1.clean) := by
  cases h with
  | entry => exact List.mem_cons_self
  | imported _ himports =>
    obtain ⟨specifier, -, hresolution⟩ := himports
    obtain ⟨probe, hfile, rfl⟩ := Resolver.exists_isFile_of_run_resolve hresolution
    obtain ⟨text, hmem, hparts⟩ := exists_mem_of_isFile_ofTexts hfile
    exact List.mem_cons_of_mem _ (List.mem_map.2 ⟨text, hmem, Path.clean_congr hparts⟩)

end ScanPlan
end ImpactGraph
