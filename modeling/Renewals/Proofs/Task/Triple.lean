import Renewals.Deployment.Basic
/-! What holds before and after a task. The rules follow the way a task is put together. -/
namespace Renewals

/-- Wherever `P` holds, the task comes to a value and `Q` holds of it, or it fails and `E` holds. -/
def Triple {α : Type} (P : Deployment → Prop) (t : Task α) (Q : α → Deployment → Prop)
    (E : Deployment → Prop) : Prop :=
  ∀ d, P d → match d.run t with
    | (.ok a, d') => Q a d'
    | (.error _, d') => E d'

namespace Triple

variable {α β : Type} {P P' E E' : Deployment → Prop} {Q Q' : α → Deployment → Prop}
  {R : β → Deployment → Prop} {t : Task α}

theorem ok (ht : Triple P t Q E) {d d' : Deployment} {a : α} (hd : P d)
    (h : d.run t = (.ok a, d')) : Q a d' := by
  have hr := ht d hd
  rw [h] at hr
  exact hr

/-- What holds either way. -/
theorem after {I : Deployment → Prop} (ht : Triple P t (fun _ => I) I) {d : Deployment}
    (hd : P d) : I (d.run t).2 := by
  have hr := ht d hd
  generalize d.run t = r at hr
  obtain ⟨r | r, d'⟩ := r <;> exact hr

theorem weaken (ht : Triple P t Q E) (hP : ∀ d, P' d → P d) (hQ : ∀ a d, Q a d → Q' a d)
    (hE : ∀ d, E d → E' d) : Triple P' t Q' E' := by
  intro d hd
  have hr := ht d (hP d hd)
  generalize d.run t = r at hr
  obtain ⟨f | a, d'⟩ := r
  · exact hE d' hr
  · exact hQ a d' hr

theorem pure {a : α} (h : ∀ d, P d → Q a d) : Triple P (Pure.pure a) Q E := h

theorem throw {f : Failure} (h : ∀ d, P d → E d) : Triple P (MonadExcept.throw f) Q E := h

theorem perform {c : Call} {Q : c.Answer → Deployment → Prop}
    (h : ∀ d, P d → Q (Deployment.answer c d).1 (Deployment.answer c d).2) :
    Triple P (Task.perform c) Q E := h

theorem bind {next : α → Task β} (ht : Triple P t Q E) (hn : ∀ a, Triple (Q a) (next a) R E) :
    Triple P (t >>= next) R E := by
  intro d hd
  have hr := ht d hd
  rw [Deployment.run_bind]
  generalize d.run t = r at hr
  obtain ⟨f | a, d'⟩ := r
  · exact hr
  · exact hn a d' hr

theorem lift {ε : Type} {f : ε → Failure} {r : Except ε α} (hQ : ∀ a d, r = .ok a → P d → Q a d)
    (hE : ∀ d, P d → E d) : Triple P (Task.lift f r) Q E := by
  cases r with
  | ok a => exact fun d hd => hQ a d rfl hd
  | error e => exact hE

theorem lift_same {ε : Type} {f : ε → Failure} {r : Except ε α} (hE : ∀ d, P d → E d) :
    Triple P (Task.lift f r) (fun _ => P) E :=
  lift (fun _ _ _ hd => hd) hE

/-- A query is answered, or the store fails. -/
theorem ask {q : Query} {Q : q.Answer → Deployment → Prop}
    (hQ : ∀ d a, P d → (Deployment.answer (.ask q) d).1 = .ok a →
      Q a (Deployment.answer (.ask q) d).2)
    (hE : ∀ d f, P d → (Deployment.answer (.ask q) d).1 = .error f →
      E (Deployment.answer (.ask q) d).2) : Triple P (Task.ask q) Q E := by
  refine bind (Q := fun r d' => ∃ d, P d ∧ Deployment.answer (.ask q) d = (r, d')) ?_ fun r => ?_
  · exact perform fun d hd => ⟨d, hd, rfl⟩
  · intro d' ⟨d, hd, ha⟩
    cases r with
    | ok a =>
      have := hQ d a hd (by rw [ha])
      rw [ha] at this
      exact this
    | error f =>
      have := hE d f hd (by rw [ha])
      rw [ha] at this
      exact this

end Triple
end Renewals
