import ImpactGraph.Source.Imports
import Mathlib.Data.List.Lex
import Mathlib.Data.List.Sort

/-!
# What is collected from a syntax tree

The collector visits a tree and looks at four kinds of nodes.  What it ought to find is said here
without a visit: a node has a place in the tree (`Tree.at?`), a node may name another module by
itself (`Tree.Names`), and the sites of a tree are those of all its nodes, in the order of the text.

A place is the path of positions among children that leads to a node.  In the lexicographic order of
places a node comes before what stands in it, and that comes before what stands to the right of the
node, so this is the order of the text.  A list of sites in which each one has a place of its own,
and the places are all there are and increase, is determined by the tree; it is what the collector
comes to, whatever stands between the nodes that it looks at (`Tree.imports_eq_iff`).
-/

set_option autoImplicit false

namespace ImpactGraph
namespace Source
namespace Tree

variable {t c : Tree} {ts : List Tree} {site : ImportSite} {sites sites' : List ImportSite}

/-! ## Places -/

/-- The nodes right below a node, in the order of the text. -/
def children : Tree → List Tree
  | importDeclaration _ | exportAll _ | string _ => []
  | exportNamed _ ts | importCall ts | template _ ts | node _ ts => ts

theorem sizeOf_lt_of_mem_children (h : c ∈ t.children) : sizeOf c < sizeOf t := by
  cases t <;> simp only [children, List.not_mem_nil] at h
  all_goals
    have hlt := List.sizeOf_lt_of_mem h
    simp only [exportNamed.sizeOf_spec, importCall.sizeOf_spec, template.sizeOf_spec,
      node.sizeOf_spec]
    omega

/-- What holds of a node if it holds of its children holds of every tree. -/
theorem induction_children {P : Tree → Prop} (h : ∀ t, (∀ c ∈ t.children, P c) → P t) (t : Tree) :
    P t :=
  h t fun c _ ↦ induction_children h c
termination_by t
decreasing_by exact sizeOf_lt_of_mem_children ‹_›

/-- The node at a place. -/
def at? (t : Tree) : List ℕ → Option Tree
  | [] => some t
  | i :: place => t.children[i]?.bind (·.at? place)

theorem at?_cons_eq_some_iff {u : Tree} {i : ℕ} {place : List ℕ} :
    t.at? (i :: place) = some u ↔ ∃ c, t.children[i]? = some c ∧ c.at? place = some u := by
  simp [at?, Option.bind_eq_some_iff]

/-! ## Nodes that name a module -/

/-- A node names another module by itself, whatever stands in it. -/
inductive Names : Tree → ImportSite → Prop
  | importDeclaration (specifier : String) :
      Names (importDeclaration specifier) ⟨.static, specifier⟩
  | exportAll (specifier : String) : Names (exportAll specifier) ⟨.reExport, specifier⟩
  | exportNamed (specifier : String) (ts : List Tree) :
      Names (exportNamed (some specifier) ts) ⟨.reExport, specifier⟩
  /-- The argument is a string. -/
  | string (specifier : String) (options : List Tree) :
      Names (importCall (string specifier :: options)) ⟨.dynamic, specifier⟩
  /-- The argument is a template without substitutions. -/
  | template (specifier : String) (options : List Tree) :
      Names (importCall (template specifier [] :: options)) ⟨.dynamic, specifier⟩

theorem literal?_eq_some_iff {value : String} :
    t.literal? = some value ↔ t = string value ∨ t = template value [] := by
  unfold literal?
  split <;> simp_all

theorem names_iff : Names t site ↔ t.site? = some site := by
  constructor
  · rintro (_ | _ | _ | _ | _) <;> rfl
  · intro h
    unfold site? at h
    split at h
    · cases h
      exact .importDeclaration _
    · cases h
      exact .exportAll _
    · cases h
      exact .exportNamed _ _
    · next argument options =>
      obtain ⟨specifier, hliteral, rfl⟩ := Option.map_eq_some_iff.1 h
      rcases literal?_eq_some_iff.1 hliteral with rfl | rfl
      · exact .string _ _
      · exact .template _ _
    · cases h

/-- A node at a place names a module. -/
def NamesAt (t : Tree) (place : List ℕ) (site : ImportSite) : Prop :=
  ∃ u, t.at? place = some u ∧ Names u site

theorem namesAt_nil : t.NamesAt [] site ↔ t.site? = some site := by
  simp [NamesAt, at?, names_iff]

theorem namesAt_cons {i : ℕ} {place : List ℕ} :
    t.NamesAt (i :: place) site ↔ ∃ c, t.children[i]? = some c ∧ c.NamesAt place site := by
  simp only [NamesAt, at?_cons_eq_some_iff]
  exact ⟨fun ⟨u, ⟨c, hc, hu⟩, hsite⟩ ↦ ⟨c, hc, u, hu, hsite⟩,
    fun ⟨c, hc, u, hu, hsite⟩ ↦ ⟨u, ⟨c, hc, hu⟩, hsite⟩⟩

/-! ## The order of the text -/

/-- These sites, and no others, stand at places where `At` holds, in increasing order of the
places. -/
def InOrder (At : List ℕ → ImportSite → Prop) (sites : List ImportSite) : Prop :=
  ∃ places : List (List ℕ × ImportSite), places.map Prod.snd = sites ∧
    places.Pairwise (·.1 < ·.1) ∧ ∀ place site, (place, site) ∈ places ↔ At place site

theorem InOrder.unique {At : List ℕ → ImportSite → Prop} (h : InOrder At sites)
    (h' : InOrder At sites') : sites = sites' := by
  obtain ⟨places, rfl, hsorted, hmem⟩ := h
  obtain ⟨places', rfl, hsorted', hmem'⟩ := h'
  have : Std.Irrefl fun x y : List ℕ × ImportSite ↦ x.1 < y.1 := ⟨fun _ ↦ lt_irrefl _⟩
  have : Std.Antisymm fun x y : List ℕ × ImportSite ↦ x.1 < y.1 :=
    ⟨fun _ _ h h' ↦ absurd h' (lt_asymm h)⟩
  exact congrArg _ <| hsorted.eq_of_mem_iff hsorted' fun ⟨place, site⟩ ↦
    (hmem place site).trans (hmem' place site).symm

/-- The sites of trees side by side, of which the first one stands at `n`. -/
theorem inOrder_flatMap (h : ∀ t ∈ ts, InOrder t.NamesAt t.imports) (n : ℕ) :
    InOrder (fun place site ↦ ∃ i rest c, place = (n + i) :: rest ∧ ts[i]? = some c ∧
      c.NamesAt rest site) (ts.flatMap imports) := by
  induction ts generalizing n with
  | nil => exact ⟨[], rfl, .nil, by simp⟩
  | cons t ts ih =>
    obtain ⟨first, hfirst, hsorted, hmem⟩ := h t (List.mem_cons_self ..)
    obtain ⟨rest, hrest, hsorted', hmem'⟩ := ih (fun c hc ↦ h c (List.mem_cons_of_mem _ hc)) (n + 1)
    refine ⟨first.map (Prod.map (n :: ·) id) ++ rest, ?_, ?_, ?_⟩
    · rw [List.map_append, List.map_map, List.flatMap_cons, ← hfirst, ← hrest]
      rfl
    · refine List.pairwise_append.2 ⟨?_, hsorted', ?_⟩
      · rw [List.pairwise_map]
        exact hsorted.imp fun h ↦ List.cons_lt_cons_iff.2 (.inr ⟨rfl, h⟩)
      · rintro x hx ⟨place, site⟩ hplace
        obtain ⟨x, -, rfl⟩ := List.mem_map.1 hx
        obtain ⟨i, place, c, rfl, -⟩ := (hmem' _ _).1 hplace
        exact List.cons_lt_cons_iff.2 (.inl (by omega))
    · intro place site
      rw [List.mem_append, List.mem_map, hmem']
      constructor
      · rintro (⟨⟨place, site⟩, hplace, ⟨⟩⟩ | ⟨i, place, c, rfl, hc⟩)
        · exact ⟨0, place, t, rfl, rfl, (hmem _ _).1 hplace⟩
        · exact ⟨i + 1, place, c, by rw [Nat.add_right_comm, Nat.add_assoc], hc⟩
      · rintro ⟨_ | i, place, c, rfl, hc, hnames⟩
        · obtain rfl := Option.some.inj hc
          exact .inl ⟨(place, site), (hmem _ _).2 hnames, rfl⟩
        · exact .inr ⟨i, place, c, by rw [Nat.add_right_comm, Nat.add_assoc], hc, hnames⟩

/-! ## What the collector comes to -/

theorem importsOf_eq (ts : List Tree) : importsOf ts = ts.flatMap imports := by
  induction ts with
  | nil => rfl
  | cons t ts ih => rw [importsOf, ih, List.flatMap_cons]

/-- What is collected from a node: what it names by itself, and then all that stands in it. -/
theorem imports_eq (t : Tree) : t.imports = t.site?.toList ++ t.children.flatMap imports := by
  cases t with
  | importDeclaration specifier => rfl
  | exportAll specifier => rfl
  | string value => rfl
  | exportNamed specifier ts => cases specifier <;> simp [imports, importsOf_eq, site?, children]
  | importCall ts =>
    cases ts with
    | nil => rfl
    | cons argument options =>
      rw [imports]
      cases h : argument.literal? <;> simp [importsOf_eq, site?, children, h]
  | template value ts => simp [imports, importsOf_eq, site?, children]
  | node form ts => simp [imports, importsOf_eq, site?, children]

theorem inOrder_imports (t : Tree) : InOrder t.NamesAt t.imports := by
  induction t using induction_children with
  | h t ih =>
    obtain ⟨inside, hinside, hsorted, hmem⟩ := inOrder_flatMap ih 0
    rw [imports_eq, ← hinside]
    refine ⟨t.site?.toList.map ([], ·) ++ inside, ?_, ?_, ?_⟩
    · simp
    · refine List.pairwise_append.2 ⟨?_, hsorted, ?_⟩
      · cases t.site? <;> simp
      · rintro x hx ⟨place, site⟩ hplace
        obtain ⟨site, -, rfl⟩ := List.mem_map.1 hx
        obtain ⟨i, place, c, rfl, -⟩ := (hmem _ _).1 hplace
        exact List.nil_lt_cons _ _
    · rintro (_ | ⟨i, place⟩) site
      · simp [hmem, namesAt_nil, Option.mem_toList]
      · simp [hmem, namesAt_cons]

/-- The sites of a tree are those of all its nodes in the order of the text. -/
theorem imports_eq_iff : t.imports = sites ↔ InOrder t.NamesAt sites :=
  ⟨fun h ↦ h ▸ t.inOrder_imports, t.inOrder_imports.unique⟩

end Tree

/-! ## Modules -/

/-- What is collected from trees and from modules. -/
structure Collecting : Prop where
  /-- The sites of a tree are those of all its nodes, each once, in the order of the text. -/
  tree (t : Tree) (sites : List ImportSite) : t.imports = sites ↔ Tree.InOrder t.NamesAt sites
  /-- A call of `import` names a module by itself if its argument is a string or a template without
  substitutions, and only then. -/
  argument (t argument : Tree) (place : List ℕ) (options : List Tree) (site : ImportSite) :
    t.at? place = some (.importCall (argument :: options)) →
      (t.NamesAt place site ↔ site.kind = .dynamic ∧
        (argument = .string site.specifier ∨ argument = .template site.specifier []))
  /-- What a module imports is what its tree holds. -/
  module (path : Path) (dialect : Dialect) (marker text : String) (facts : ModuleFacts) :
    ModuleFacts.ofText path dialect marker text = .ok facts ↔
      ∃ m, parse? dialect text = some m ∧ Tree.InOrder m.tree.NamesAt facts.imports ∧
        facts.descriptor = Descriptor.ofComments marker m.comments

theorem collecting : Collecting where
  tree _ _ := Tree.imports_eq_iff
  argument t argument place options site h := by
    constructor
    · rintro ⟨u, hu, hnames⟩
      obtain rfl := Option.some.inj (h.symm.trans hu)
      cases hnames with
      | string specifier => exact ⟨rfl, .inl rfl⟩
      | template specifier => exact ⟨rfl, .inr rfl⟩
    · obtain ⟨kind, specifier⟩ := site
      rintro ⟨rfl, rfl | rfl⟩
      · exact ⟨_, h, .string _ _⟩
      · exact ⟨_, h, .template _ _⟩
  module path dialect marker text facts := by
    obtain ⟨imports, descriptor⟩ := facts
    simp only [← Tree.imports_eq_iff]
    rw [ModuleFacts.ofText]
    cases parse? dialect text with
    | none => simp
    | some m => simp [eq_comm]

example : (Tree.importCall [.node .parenthesized [.string "a"],
    .node .function [.importCall [.string "b", .importCall [.template "c" []]]],
    .importCall [.template "d" [.exportAll "e"]]]).imports =
      [⟨.dynamic, "b"⟩, ⟨.dynamic, "c"⟩, ⟨.reExport, "e"⟩] := by
  decide

end Source
end ImpactGraph
