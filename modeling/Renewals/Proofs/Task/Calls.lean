import Renewals.Proofs.Task.Script
/-! The calls that a task comes to when it is run by itself. -/
namespace Renewals

/-- The calls of a plan, as far as the answers lead it. -/
def Plan.made {σ α : Type} (answer : (c : Call) → σ → c.Answer × σ) : Plan α → σ → List Call
  | done _, _ => []
  | call c next, s => c :: made answer (next (answer c s).1) (answer c s).2

theorem Plan.made_bind {σ α β : Type} (answer : (c : Call) → σ → c.Answer × σ) (p : Plan α)
    (f : α → Plan β) (s : σ) : (p.bind f).made answer s =
      p.made answer s ++ (f (p.run answer s).1).made answer (p.run answer s).2 := by
  induction p generalizing s with
  | done a => rfl
  | call c next ih => exact congrArg (c :: ·) (ih _ _)

namespace Deployment

def calls {α : Type} (t : Task α) (d : Deployment) : List Call := Plan.made answer t.run d

variable {α β : Type}

@[simp] theorem calls_pure (a : α) (d : Deployment) : d.calls (pure a : Task α) = [] := rfl

@[simp] theorem calls_perform (c : Call) (d : Deployment) :
    d.calls (Task.perform c) = [c] := rfl

/-- What follows a failure is not called. -/
theorem calls_bind (t : Task α) (next : α → Task β) (d : Deployment) :
    d.calls (t >>= next) = d.calls t ++
      match (d.run t).1 with
      | .ok a => (d.run t).2.calls (next a)
      | .error _ => [] := by
  change (Plan.bind t.run _).made answer d = _
  rw [Plan.made_bind]
  unfold calls Deployment.run
  cases (Plan.run answer t.run d).1 <;> rfl

theorem calls_ask?_bind (q : Query) (next : Except StoreFault q.Answer → Task α)
    (d : Deployment) : d.calls (Task.ask? q >>= next) =
      .ask q :: (answer (.ask q) d).2.calls (next (answer (.ask q) d).1) := rfl

/-- A request that begins with the store. -/
theorem mem_calls_ask (q : Query) (next : q.Answer → Task α) (d : Deployment) :
    Call.ask q ∈ d.calls (Task.ask q >>= next) := by
  rw [calls_bind]
  exact List.mem_append_left _ List.mem_cons_self

theorem calls_tryCatch (t : Task α) (handle : Failure → Task α) (d : Deployment) :
    d.calls (tryCatch t handle) = d.calls t ++
      match (d.run t).1 with
      | .ok _ => []
      | .error f => (d.run t).2.calls (handle f) := by
  change (Plan.bind t.run _).made answer d = _
  rw [Plan.made_bind]
  unfold calls Deployment.run
  cases (Plan.run answer t.run d).1 <;> rfl

/-- A task leaves what its calls leave. -/
theorem run_eq_after (t : Task α) (d : Deployment) : (d.run t).2 = d.after (d.calls t) := by
  unfold run calls
  generalize ExceptT.run t = plan
  induction plan generalizing d with
  | done a => rfl
  | call c next ih => exact ih _ _

end Deployment

/-- Whatever the answers are, a task makes only such calls. -/
def Task.Only (P : Call → Prop) {α : Type} (t : Task α) : Prop :=
  ∀ d, ∀ c ∈ Deployment.calls t d, P c

namespace Task.Only
variable {P : Call → Prop} {α β : Type} {t : Task α}

theorem pure (a : α) : Only P (Pure.pure a : Task α) := fun _ _ hc => absurd hc List.not_mem_nil

theorem throw (f : Failure) : Only P (MonadExcept.throw f : Task α) :=
  fun _ _ hc => absurd hc List.not_mem_nil

theorem lift {ε : Type} (f : ε → Failure) (x : Except ε α) : Only P (Task.lift f x) := by
  cases x with
  | ok a => exact pure a
  | error e => exact throw (f e)

theorem perform {c : Call} (h : P c) : Only P (Task.perform c) := by
  intro d c' hc
  rw [Deployment.calls_perform, List.mem_singleton] at hc
  exact hc ▸ h

theorem bind {next : α → Task β} (ht : Only P t) (hn : ∀ a, Only P (next a)) :
    Only P (t >>= next) := by
  intro d c hc
  rw [Deployment.calls_bind, List.mem_append] at hc
  rcases hc with hc | hc
  · exact ht d c hc
  · split at hc
    next a _ => exact hn a _ c hc
    next => exact absurd hc List.not_mem_nil

theorem tryCatch {handle : Failure → Task α} (ht : Only P t) (hh : ∀ f, Only P (handle f)) :
    Only P (MonadExcept.tryCatch t handle) := by
  intro d c hc
  rw [Deployment.calls_tryCatch, List.mem_append] at hc
  rcases hc with hc | hc
  · exact ht d c hc
  · split at hc
    next => exact absurd hc List.not_mem_nil
    next f _ => exact hh f _ c hc

theorem ask (q : Query) (h : P (.ask q)) : Only P (Task.ask q) :=
  bind (perform h) fun _ => lift _ _

/-- What such calls preserve, the task preserves. -/
theorem run {I : Deployment → Prop} (ht : Only P t)
    (hcall : ∀ c d, P c → I d → I (Deployment.answer c d).2) {d : Deployment} (hd : I d) :
    I (d.run t).2 := by
  rw [Deployment.run_eq_after]
  have hall := ht d
  generalize d.calls t = calls at hall
  induction calls generalizing d with
  | nil => exact hd
  | cons c calls ih =>
    exact ih (hcall c d (hall c List.mem_cons_self) hd)
      fun c' hc' => hall c' (List.mem_cons_of_mem c hc')

end Task.Only

/-- Whatever the answers are, and whoever gives them, a plan makes only such calls. -/
def Plan.Within (P : Call → Prop) {α : Type} : Plan α → Prop
  | done _ => True
  | call c next => P c ∧ ∀ a, (next a).Within P

theorem Plan.Within.bind {P : Call → Prop} {α β : Type} {p : Plan α} {f : α → Plan β}
    (hp : p.Within P) (hf : ∀ a, (f a).Within P) : (p.bind f).Within P := by
  induction p with
  | done a => exact hf a
  | call c next ih => exact ⟨hp.1, fun a => ih a (hp.2 a)⟩

def Task.Within (P : Call → Prop) {α : Type} (t : Task α) : Prop := Plan.Within P t.run

namespace Task.Within
variable {P : Call → Prop} {α β : Type} {t : Task α}

theorem pure (a : α) : Within P (Pure.pure a : Task α) := trivial

theorem throw (f : Failure) : Within P (MonadExcept.throw f : Task α) := trivial

theorem lift {ε : Type} (f : ε → Failure) (x : Except ε α) : Within P (Task.lift f x) := by
  cases x <;> trivial

theorem perform {c : Call} (h : P c) : Within P (Task.perform c) := ⟨h, fun _ => trivial⟩

theorem bind {next : α → Task β} (ht : Within P t) (hn : ∀ a, Within P (next a)) :
    Within P (t >>= next) :=
  Plan.Within.bind ht fun
    | .ok a => hn a
    | .error _ => trivial

theorem tryCatch {handle : Failure → Task α} (ht : Within P t) (hh : ∀ f, Within P (handle f)) :
    Within P (MonadExcept.tryCatch t handle) :=
  Plan.Within.bind ht fun
    | .ok _ => trivial
    | .error f => hh f

end Task.Within
end Renewals
