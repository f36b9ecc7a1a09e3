import ImpactGraph.Proofs.Files.Place

/-!
# Walks through a tree

`StoredTree.walkFrom` is a recursion over links and steps.  `Walks` is the same walk as a relation,
with the places that it gets to and the links that it follows; walks can be joined and taken apart
at any step.  A place that a walk gets to `Stands`: its names lead to it from the root, through
directories and without links.
-/

set_option autoImplicit false

namespace ImpactGraph
namespace StoredTree

variable {tree : StoredTree} {steps : Path → List Step} {strict : Bool} {links links' : Nat}
  {place place' : Place} {todo todo' : List Step}

/-- A place that is reached from the root by names, through directories and without links. -/
inductive Stands (tree : StoredTree) (strict : Bool) : Place → Prop
  | root : Stands tree strict []
  | name {place : Place} {text : String} {entry : TreeEntry} : Stands tree strict place →
      tree.isDirectory place = true → IsName text →
      (strict = true → text.utf8ByteSize ≤ maxName) →
      tree.entry? (place ++ [text]) = some entry → (∀ target, entry ≠ .link target) →
      Stands tree strict (place ++ [text])

theorem Stands.dropLast (h : tree.Stands strict place) : tree.Stands strict place.dropLast := by
  cases h with
  | root => exact .root
  | name h => rwa [List.dropLast_concat]

/-- A walk that gets to a place, with so many links left that may still be followed. -/
inductive Walks (tree : StoredTree) (steps : Path → List Step) (strict : Bool) :
    Nat → Place → List Step → Place → Nat → Prop
  | done {links : Nat} {place : Place} : Walks tree steps strict links place [] place links
  | stay {links rest : Nat} {place reached : Place} {todo : List Step} :
      (strict = true → tree.isDirectory place = true) →
      Walks tree steps strict links place todo reached rest →
      Walks tree steps strict links place (.stay :: todo) reached rest
  | up {links rest : Nat} {place reached : Place} {todo : List Step} :
      (strict = true → tree.isDirectory place = true) →
      Walks tree steps strict links place.dropLast todo reached rest →
      Walks tree steps strict links place (.up :: todo) reached rest
  | name {links rest : Nat} {place reached : Place} {todo : List Step} {text : String}
      {entry : TreeEntry} : tree.isDirectory place = true →
      (strict = true → text.utf8ByteSize ≤ maxName) →
      tree.entry? (place ++ [text]) = some entry → (∀ target, entry ≠ .link target) →
      Walks tree steps strict links (place ++ [text]) todo reached rest →
      Walks tree steps strict links place (.name text :: todo) reached rest
  | link {links rest : Nat} {place reached : Place} {todo : List Step} {text : String}
      {target : Path} : tree.isDirectory place = true →
      (strict = true → text.utf8ByteSize ≤ maxName) →
      tree.entry? (place ++ [text]) = some (.link target) →
      Walks tree steps strict links (if target.isAbsolute then [] else place)
        (steps target ++ todo) reached rest →
      Walks tree steps strict (links + 1) place (.name text :: todo) reached rest

theorem walks_of_walkFrom
    (h : tree.walkFrom steps strict links place todo = .ok (place', links')) :
    Walks tree steps strict links place todo place' links' := by
  fun_induction walkFrom tree steps strict links place todo with
  | case1 => cases h; exact .done
  | case2 | case4 | case6 | case7 | case8 | case9 => cases h
  | case3 links place todo hdir ih => exact .stay (by simpa using hdir) (ih h)
  | case5 links place todo hdir ih => exact .up (by simpa using hdir) (ih h)
  | case10 place todo text hdir hname next target hlink links start ih =>
    exact .link (by simpa using hdir) (by simpa using hname) hlink (ih h)
  | case11 links place todo text hdir hname next entry hne hentry ih =>
    exact .name (by simpa using hdir) (by simpa using hname) hentry hne (ih h)

/-- What is left to do after a walk is done from the place that it gets to. -/
theorem Walks.walkFrom_append (h : Walks tree steps strict links place todo place' links')
    (rest : List Step) :
    tree.walkFrom steps strict links place (todo ++ rest) =
      tree.walkFrom steps strict links' place' rest := by
  induction h with
  | done => rfl
  | stay hdir _ ih =>
    rw [List.cons_append, StoredTree.walkFrom, if_neg (by simpa using hdir), ih]
  | up hdir _ ih => rw [List.cons_append, StoredTree.walkFrom, if_neg (by simpa using hdir), ih]
  | @name _ _ _ _ _ _ entry hdir hname hentry hne _ ih =>
    rw [List.cons_append, StoredTree.walkFrom, if_neg (by simpa using hdir),
      if_neg (by simpa using hname)]
    cases entry with
    | link target => exact absurd rfl (hne target)
    | file | directory => simp only [hentry, ih]
  | link hdir hname hlink _ ih =>
    rw [List.append_assoc] at ih
    rw [List.cons_append, StoredTree.walkFrom, if_neg (by simpa using hdir),
      if_neg (by simpa using hname)]
    simp only [hlink]
    exact ih

theorem Walks.walkFrom (h : Walks tree steps strict links place todo place' links') :
    tree.walkFrom steps strict links place todo = .ok (place', links') := by
  rw [← List.append_nil todo, h.walkFrom_append, StoredTree.walkFrom]

/-- A name of nothing ends a walk. -/
theorem walkFrom_missing {text : String} (hdir : tree.isDirectory place = true)
    (hname : strict = true → text.utf8ByteSize ≤ maxName)
    (hentry : tree.entry? (place ++ [text]) = none) :
    tree.walkFrom steps strict links place (.name text :: todo) = .error .missing := by
  rw [StoredTree.walkFrom, if_neg (by simpa using hdir), if_neg (by simpa using hname)]
  simp only [hentry]

namespace Walks

variable {place'' : Place} {links'' : Nat}

theorem append (h : Walks tree steps strict links place todo place' links')
    (h' : Walks tree steps strict links' place' todo' place'' links'') :
    Walks tree steps strict links place (todo ++ todo') place'' links'' := by
  induction h with
  | done => exact h'
  | stay hdir _ ih => exact .stay hdir (ih h')
  | up hdir _ ih => exact .up hdir (ih h')
  | name hdir hname hentry hne _ ih => exact .name hdir hname hentry hne (ih h')
  | link hdir hname hlink _ ih =>
    have hrest := ih h'
    rw [List.append_assoc] at hrest
    exact .link hdir hname hlink hrest

theorem split (h : Walks tree steps strict links place (todo ++ todo') place'' links'') :
    ∃ place' links', Walks tree steps strict links place todo place' links' ∧
      Walks tree steps strict links' place' todo' place'' links'' := by
  generalize hall : todo ++ todo' = all at h
  -- with nothing to do first the walk is the second one; else both have the first step in common
  induction h generalizing todo with
  | done =>
    obtain ⟨rfl, rfl⟩ := List.append_eq_nil_iff.1 hall
    exact ⟨_, _, .done, .done⟩
  | stay hdir hwalk ih =>
    cases todo with
    | nil =>
      obtain rfl : todo' = _ := hall
      exact ⟨_, _, .done, .stay hdir hwalk⟩
    | cons step todo =>
      obtain ⟨rfl, rfl⟩ := List.cons.inj hall
      obtain ⟨p, l, h, h'⟩ := ih rfl
      exact ⟨p, l, .stay hdir h, h'⟩
  | up hdir hwalk ih =>
    cases todo with
    | nil =>
      obtain rfl : todo' = _ := hall
      exact ⟨_, _, .done, .up hdir hwalk⟩
    | cons step todo =>
      obtain ⟨rfl, rfl⟩ := List.cons.inj hall
      obtain ⟨p, l, h, h'⟩ := ih rfl
      exact ⟨p, l, .up hdir h, h'⟩
  | name hdir hname hentry hne hwalk ih =>
    cases todo with
    | nil =>
      obtain rfl : todo' = _ := hall
      exact ⟨_, _, .done, .name hdir hname hentry hne hwalk⟩
    | cons step todo =>
      obtain ⟨rfl, rfl⟩ := List.cons.inj hall
      obtain ⟨p, l, h, h'⟩ := ih rfl
      exact ⟨p, l, .name hdir hname hentry hne h, h'⟩
  | link hdir hname hlink hwalk ih =>
    cases todo with
    | nil =>
      obtain rfl : todo' = _ := hall
      exact ⟨_, _, .done, .link hdir hname hlink hwalk⟩
    | cons step todo =>
      obtain ⟨rfl, rfl⟩ := List.cons.inj hall
      obtain ⟨p, l, h, h'⟩ := ih (List.append_assoc _ _ _)
      exact ⟨p, l, .link hdir hname hlink h, h'⟩

/-- Links that are not needed are left over. -/
theorem more (h : Walks tree steps strict links place todo place' links') (n : Nat) :
    Walks tree steps strict (links + n) place todo place' (links' + n) := by
  induction h with
  | done => exact .done
  | stay hdir _ ih => exact .stay hdir ih
  | up hdir _ ih => exact .up hdir ih
  | name hdir hname hentry hne _ ih => exact .name hdir hname hentry hne ih
  | link hdir hname hlink _ ih =>
    rw [Nat.add_right_comm]
    exact .link hdir hname hlink ih

theorem le (h : Walks tree steps strict links place todo place' links') : links' ≤ links := by
  induction h with
  | done => exact Nat.le_refl _
  | stay _ _ ih | up _ _ ih | name _ _ _ _ _ ih => exact ih
  | link _ _ _ _ ih => exact Nat.le_succ_of_le ih

/-- A walk by proper steps gets to a place that stands. -/
theorem stands (hsteps : ∀ p, ∀ step ∈ steps p, step.Proper)
    (h : Walks tree steps strict links place todo place' links')
    (htodo : ∀ step ∈ todo, step.Proper) (hplace : tree.Stands strict place) :
    tree.Stands strict place' := by
  induction h with
  | done => exact hplace
  | stay _ _ ih => exact ih (List.forall_mem_cons.1 htodo).2 hplace
  | up _ _ ih => exact ih (List.forall_mem_cons.1 htodo).2 hplace.dropLast
  | name hdir hname hentry hne _ ih =>
    obtain ⟨hproper, htodo⟩ := List.forall_mem_cons.1 htodo
    exact ih htodo (.name hplace hdir hproper hname hentry hne)
  | @link _ _ _ _ _ _ target _ _ _ _ ih =>
    have htodo := (List.forall_mem_cons.1 htodo).2
    refine ih (List.forall_mem_append.2 ⟨hsteps target, htodo⟩) ?_
    split
    · exact .root
    · exact hplace

end Walks

/-- The names of a place that stands lead to it, whatever may be followed. -/
theorem Stands.walks (h : tree.Stands strict place) (links : Nat) :
    Walks tree steps strict links [] (place.map .name) place links := by
  induction h with
  | root => exact .done
  | name _ hdir _ hname hentry hne ih =>
    rw [List.map_append]
    exact ih.append (.name hdir hname hentry hne .done)

theorem Stands.isName (h : tree.Stands strict place) : ∀ name ∈ place, IsName name := by
  induction h with
  | root => exact List.forall_mem_nil _
  | name _ _ hname _ _ _ ih =>
    exact List.forall_mem_append.2 ⟨ih, by simpa using hname⟩

end StoredTree
end ImpactGraph
