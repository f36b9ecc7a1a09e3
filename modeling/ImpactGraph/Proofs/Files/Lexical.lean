import ImpactGraph.Proofs.Files.Walk
import Mathlib.Data.List.Induction

/-!
# Paths that are cleaned without looking

On a walk, `..` leads to the directory above the one that the walk has got to; in `Path.clean` it
takes back the name before it.  The two differ where that name is a link.  `Balanced` steps take
back all the names among them, and `Keeps` says what is left of any other steps; where no name that
is taken back is a link (`TakesBackNames`), a walk gets to where the names that are left lead
(`walks_of_keeps`).
-/

set_option autoImplicit false

namespace ImpactGraph

/-! ## Steps that are taken back -/

namespace Step

variable {todo todo' between : List Step} {text : String} {start base : Place}
  {kept : List String}

/-- Steps in which every `..` takes back a name, and every name is taken back. -/
inductive Balanced : List Step → Prop
  | nil : Balanced []
  | stay {todo : List Step} : Balanced todo → Balanced (.stay :: todo)
  | pair {text : String} {between todo : List Step} : Balanced between → Balanced todo →
      Balanced (.name text :: (between ++ .up :: todo))

theorem Balanced.append (h : Balanced todo) (h' : Balanced todo') : Balanced (todo ++ todo') := by
  induction h with
  | nil => exact h'
  | stay _ ih => exact .stay ih
  | pair hbetween _ _ ih =>
    rw [List.cons_append, List.append_assoc, List.cons_append]
    exact .pair hbetween ih

/-- The place that steps count from, and the names that they keep, latest first.  A `..` that finds
no name leads above the place. -/
inductive Keeps (start : Place) : List Step → Place → List String → Prop
  | start : Keeps start [] start []
  | append {todo todo' : List Step} {base : Place} {kept : List String} :
      Keeps start todo base kept → Balanced todo' → Keeps start (todo ++ todo') base kept
  | name {todo : List Step} {base : Place} {kept : List String} {text : String} :
      Keeps start todo base kept → Keeps start (todo ++ [.name text]) base (text :: kept)
  | up {todo : List Step} {base : Place} :
      Keeps start todo base [] → Keeps start (todo ++ [.up]) base.dropLast []

/-- What follows the latest name takes back all that it does. -/
theorem Keeps.exists_name (h : Keeps start todo base (text :: kept)) :
    ∃ before between, todo = before ++ .name text :: between ∧ Balanced between ∧
      Keeps start before base kept := by
  generalize hall : text :: kept = all at h
  induction h with
  | start | up => cases hall
  | append _ hbalanced ih =>
    obtain ⟨before, between, rfl, hbetween, hbefore⟩ := ih hall
    exact ⟨before, _, by simp, hbetween.append hbalanced, hbefore⟩
  | name h =>
    cases hall
    exact ⟨_, [], rfl, .nil, h⟩

/-- A `..` takes back the latest name. -/
theorem Keeps.takeBack (h : Keeps start todo base (text :: kept)) :
    Keeps start (todo ++ [.up]) base kept := by
  obtain ⟨before, between, rfl, hbetween, hbefore⟩ := h.exists_name
  have hpair : before ++ .name text :: between ++ [.up] =
      before ++ (.name text :: (between ++ .up :: [])) := by simp
  rw [hpair]
  exact hbefore.append (.pair hbetween .nil)

theorem Keeps.mem_base (h : Keeps start todo base kept) : ∀ name ∈ base, name ∈ start := by
  induction h with
  | start => exact fun _ ↦ id
  | append _ _ ih | name _ ih => exact ih
  | up _ ih => exact fun name hname ↦ ih name (List.dropLast_subset _ hname)

theorem Keeps.mem_kept (h : Keeps start todo base kept) : ∀ text ∈ kept, .name text ∈ todo := by
  induction h with
  | start | up => exact List.forall_mem_nil _
  | append _ _ ih => exact fun text htext ↦ List.mem_append_left _ (ih text htext)
  | name _ ih =>
    exact List.forall_mem_cons.2
      ⟨by simp, fun text htext ↦ List.mem_append_left _ (ih text htext)⟩

/-- A segment stands for a part and for a step, or for none; a `.` is a step only. -/
theorem ofSegment_cases (segment : List Char) :
    (Part.ofSegment segment = none ∧ (ofSegment segment = none ∨ ofSegment segment = some .stay)) ∨
      (Part.ofSegment segment = some .parent ∧ ofSegment segment = some .up) ∨
      ∃ text, Part.ofSegment segment = some (.name text) ∧
        ofSegment segment = some (.name text) := by
  rw [Part.ofSegment.eq_def, ofSegment.eq_def]
  split <;> simp

/-- Cleaning the parts that segments stand for keeps what their steps keep. -/
theorem exists_keeps (start : Place) (segments : List (List Char)) :
    ∃ base kept, Keeps start (segments.filterMap ofSegment) base kept ∧
      (segments.filterMap Part.ofSegment).foldl Path.cleanStep
          (.root :: start.map .name : List Part).reverse =
        (.root :: (base ++ kept.reverse).map .name : List Part).reverse := by
  induction segments using List.reverseRecOn with
  | nil => exact ⟨start, [], .start, by simp⟩
  | append_singleton segments segment ih =>
    obtain ⟨base, kept, hkeeps, hclean⟩ := ih
    simp only [List.filterMap_append, List.foldl_append, hclean, List.filterMap_cons,
      List.filterMap_nil]
    rcases ofSegment_cases segment with
      ⟨hpart, hstep | hstep⟩ | ⟨hpart, hstep⟩ | ⟨text, hpart, hstep⟩
    · refine ⟨base, kept, ?_, by rw [hpart]; rfl⟩
      rw [hstep, List.append_nil]
      exact hkeeps
    · refine ⟨base, kept, ?_, by rw [hpart]; rfl⟩
      rw [hstep]
      exact hkeeps.append (.stay .nil)
    · rw [hpart, hstep]
      cases kept with
      | cons text kept =>
        refine ⟨base, kept, hkeeps.takeBack, ?_⟩
        simp [Path.cleanStep]
      | nil =>
        refine ⟨base.dropLast, [], hkeeps.up, ?_⟩
        rcases List.eq_nil_or_concat' base with rfl | ⟨init, last, rfl⟩ <;> simp [Path.cleanStep]
    · refine ⟨base, text :: kept, ?_, ?_⟩
      · rw [hstep]
        exact hkeeps.name
      · rw [hpart]
        simp [Path.cleanStep]

end Step

/-! ## Walks whose names are taken back -/

namespace StoredTree

variable {tree : StoredTree} {steps : Path → List Step} {strict : Bool} {links links' rest : Nat}
  {start base place place' reached : Place} {todo todo' : List Step} {kept : List String}

theorem Walks.mono (h : Walks tree steps strict links place todo reached rest)
    (hlinks : links ≤ links') :
    ∃ rest', rest ≤ rest' ∧ Walks tree steps strict links' place todo reached rest' := by
  obtain ⟨n, rfl⟩ := Nat.exists_eq_add_of_le hlinks
  exact ⟨rest + n, Nat.le_add_right _ _, h.more n⟩

/-- A walk gets to one place only. -/
theorem Walks.unique (h : Walks tree steps strict links place todo reached rest)
    (h' : Walks tree steps strict links place todo place' links') :
    reached = place' ∧ rest = links' := by
  have heq := h.walkFrom.symm.trans h'.walkFrom
  cases heq
  exact ⟨rfl, rfl⟩

/-- No name that a later `..` takes back is that of a link. -/
def TakesBackNames (tree : StoredTree) (steps : Path → List Step) (strict : Bool) (links : Nat)
    (place : Place) (todo : List Step) : Prop :=
  ∀ before text between after reached rest,
    todo = before ++ .name text :: (between ++ .up :: after) → Step.Balanced between →
    Walks tree steps strict links place before reached rest →
    ∀ target, tree.entry? (reached ++ [text]) ≠ some (.link target)

namespace TakesBackNames

theorem left (h : TakesBackNames tree steps strict links place (todo ++ todo')) :
    TakesBackNames tree steps strict links place todo := by
  rintro before text between after reached rest rfl
  exact h before text between (after ++ todo') reached rest (by simp)

theorem right (h : TakesBackNames tree steps strict links place (todo ++ todo'))
    (hwalk : Walks tree steps strict links place todo place' links') :
    TakesBackNames tree steps strict links' place' todo' := by
  rintro before text between after reached rest rfl hbetween hbefore
  exact h (todo ++ before) text between after reached rest (by simp) hbetween
    (hwalk.append hbefore)

theorem after {step : Step} (h : TakesBackNames tree steps strict links place (step :: todo))
    (hwalk : Walks tree steps strict links place [step] place' links') :
    TakesBackNames tree steps strict links' place' todo := by
  rw [← List.singleton_append] at h
  exact h.right hwalk

/-- Steps that take back all that they do get to where they started. -/
theorem reached_eq (h : TakesBackNames tree steps strict links place todo)
    (hbalanced : Step.Balanced todo)
    (hwalk : Walks tree steps strict links place todo reached rest) : reached = place := by
  induction hbalanced generalizing links place reached rest with
  | nil => cases hwalk; rfl
  | stay _ ih =>
    cases hwalk with
    | stay hdir hwalk => exact ih (h.after (.stay hdir .done)) hwalk
  | @pair text between todo hbetween _ ihbetween ih =>
    cases hwalk with
    -- the name is taken back by the `..` after what is between, so it is not that of a link
    | link _ _ hlink =>
      exact absurd hlink (h [] text between todo _ _ rfl hbetween .done _)
    | name hdir hname hentry hne hwalk =>
      have hrest := h.after (.name hdir hname hentry hne .done)
      obtain ⟨place', links', hto, hback⟩ := hwalk.split
      obtain rfl := ihbetween hrest.left hto
      cases hback with
      | up hdir' hwalk =>
        have hup := (hrest.right hto).after (.up hdir' .done)
        rw [List.dropLast_concat] at hup hwalk
        exact ih hup hwalk

end TakesBackNames

theorem Stands.of_keeps (hstart : tree.Stands strict start)
    (h : Step.Keeps start todo base kept) : tree.Stands strict base := by
  induction h with
  | start => exact hstart
  | append _ _ ih | name _ ih => exact ih
  | up _ ih => exact ih.dropLast

/-- A walk gets to where the names that are left lead, and follows no more links on that way. -/
theorem walks_of_keeps (h : Step.Keeps start todo base kept) (hstart : tree.Stands strict start)
    (hnames : TakesBackNames tree steps strict links start todo)
    (hwalk : Walks tree steps strict links start todo reached rest) :
    ∃ rest', rest ≤ rest' ∧
      Walks tree steps strict links [] ((base ++ kept.reverse).map .name) reached rest' := by
  induction h generalizing reached rest with
  | start =>
    cases hwalk
    refine ⟨links, Nat.le_refl _, ?_⟩
    simpa using hstart.walks links
  | append _ hbalanced ih =>
    obtain ⟨place, links', hto, hback⟩ := hwalk.split
    obtain rfl := (hnames.right hto).reached_eq hbalanced hback
    obtain ⟨rest', hle, hkept⟩ := ih hnames.left hto
    exact ⟨rest', hback.le.trans hle, hkept⟩
  | name _ ih =>
    obtain ⟨place, links', hto, hlast⟩ := hwalk.split
    obtain ⟨rest', hle, hkept⟩ := ih hnames.left hto
    obtain ⟨rest'', hle', hlast'⟩ := hlast.mono hle
    refine ⟨rest'', hle', ?_⟩
    rw [List.reverse_cons, ← List.append_assoc, List.map_append]
    exact hkept.append hlast'
  | up hkeeps ih =>
    obtain ⟨place, links', hto, hup⟩ := hwalk.split
    obtain ⟨rest', hle, hkept⟩ := ih hnames.left hto
    -- no name of the path is left, so what `..` leaves is the last name of the base
    have hbase := hstart.of_keeps hkeeps
    rw [List.reverse_nil, List.append_nil] at hkept ⊢
    obtain ⟨rfl, -⟩ := hkept.unique (hbase.walks links)
    cases hup with
    | up _ hdone =>
      cases hdone
      exact ⟨links, hto.le, hbase.dropLast.walks links⟩

end StoredTree
end ImpactGraph
