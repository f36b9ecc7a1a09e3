/-!
# Dialogues with the surroundings

A `Dialogue` is a computation that asks questions of its surroundings and goes on with the
answers.  What it computes is fixed by the answers alone: `run` takes them from a function, so that
a computation over files can be reasoned about as a function of a fixed file tree, and `runM` takes
them from an effect.  `asked` lists the questions that are put on the way, and `relay` puts them
in terms of other questions.
-/

set_option autoImplicit false

namespace ImpactGraph

/-- A computation that asks questions of type `Q`, whose answers have the type that the question
calls for. -/
inductive Dialogue (Q : Type) (Answer : Q → Type) (α : Type)
  /-- The end of the computation. -/
  | done (result : α)
  /-- A question, and how the computation goes on with its answer. -/
  | ask (question : Q) (next : Answer question → Dialogue Q Answer α)

namespace Dialogue

variable {Q : Type} {Answer : Q → Type} {α β : Type}

/-- Goes on with another computation after the end of this one. -/
def bind (d : Dialogue Q Answer α) (f : α → Dialogue Q Answer β) : Dialogue Q Answer β :=
  match d with
  | done a => f a
  | ask q next => ask q fun answer ↦ (next answer).bind f

instance : Monad (Dialogue Q Answer) where
  pure := done
  bind := bind

/-- Asks one question. -/
def question (q : Q) : Dialogue Q Answer (Answer q) := ask q done

/-- The result under fixed answers. -/
def run (answer : (q : Q) → Answer q) : Dialogue Q Answer α → α
  | done a => a
  | ask q next => (next (answer q)).run answer

/-- The result under answers from an effect. -/
def runM {m : Type → Type} [Monad m] (answer : (q : Q) → m (Answer q)) :
    Dialogue Q Answer α → m α
  | done a => pure a
  | ask q next => do (next (← answer q)).runM answer

/-- The questions asked under fixed answers, in order. -/
def asked (answer : (q : Q) → Answer q) : Dialogue Q Answer α → List Q
  | done _ => []
  | ask q next => q :: (next (answer q)).asked answer

@[simp] theorem run_pure (answer : (q : Q) → Answer q) (a : α) :
    (pure a : Dialogue Q Answer α).run answer = a := rfl

@[simp] theorem run_question (answer : (q : Q) → Answer q) (q : Q) :
    (question q : Dialogue Q Answer (Answer q)).run answer = answer q := rfl

@[simp] theorem run_bind (answer : (q : Q) → Answer q) (d : Dialogue Q Answer α)
    (f : α → Dialogue Q Answer β) :
    (d >>= f).run answer = (f (d.run answer)).run answer := by
  show (d.bind f).run answer = _
  induction d with
  | done a => rfl
  | ask q next ih => exact ih (answer q)

@[simp] theorem asked_pure (answer : (q : Q) → Answer q) (a : α) :
    (pure a : Dialogue Q Answer α).asked answer = [] := rfl

@[simp] theorem asked_question (answer : (q : Q) → Answer q) (q : Q) :
    (question q : Dialogue Q Answer (Answer q)).asked answer = [q] := rfl

@[simp] theorem asked_bind (answer : (q : Q) → Answer q) (d : Dialogue Q Answer α)
    (f : α → Dialogue Q Answer β) :
    (d >>= f).asked answer = d.asked answer ++ (f (d.run answer)).asked answer := by
  show (d.bind f).asked answer = _
  induction d with
  | done a => rfl
  | ask q next ih => exact congrArg (q :: ·) (ih (answer q))

/-- The result depends on the answers to the questions that are asked, and on no others. -/
theorem run_congr {answer answer' : (q : Q) → Answer q} {d : Dialogue Q Answer α}
    (h : ∀ q ∈ d.asked answer', answer q = answer' q) : d.run answer = d.run answer' := by
  induction d with
  | done a => rfl
  | ask q next ih =>
    obtain ⟨hq, hnext⟩ := List.forall_mem_cons.1 h
    rw [run, run, hq]
    exact ih (answer' q) hnext

/-! ## Questions put in terms of others -/

variable {Q' : Type} {Answer' : Q' → Type}

/-- Puts every question as a computation that asks other questions. -/
def relay (put : (q : Q) → Dialogue Q' Answer' (Answer q)) :
    Dialogue Q Answer α → Dialogue Q' Answer' α
  | done a => done a
  | ask q next => (put q).bind fun answer ↦ (next answer).relay put

/-- A relayed computation has the result that it has under the answers that its questions get. -/
@[simp] theorem run_relay (answer : (q : Q') → Answer' q)
    (put : (q : Q) → Dialogue Q' Answer' (Answer q)) (d : Dialogue Q Answer α) :
    (d.relay put).run answer = d.run fun q ↦ (put q).run answer := by
  induction d with
  | done a => rfl
  | ask q next ih => exact (run_bind answer (put q) _).trans (ih _)

end Dialogue
end ImpactGraph
