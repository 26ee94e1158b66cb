import Renewals.Proofs.Service.Requests
import Renewals.Proofs.Task.Agree
/-! Requests in two deployments beside each other. Every request but a read asks the same of the
store whatever is cached, so it agrees if its parts do. -/
namespace Renewals.Service

/-- The parts that requests are made of agree. -/
structure PartsAgree (p : Policy) (C : Call → Deployment → Prop)
    (R : Deployment → Deployment → Prop) : Prop where
  ask? : ∀ q, Task.Agree C R (Task.ask? q) (Task.ask? q)
  keep : ∀ r, Task.Agree C R (keep p r) (keep p r)
  forget : ∀ id, Task.Agree C R (forget id) (forget id)
  log : ∀ level text, Task.Agree C R (Task.log level text) (Task.log level text)

namespace PartsAgree
open Renewals.Task (Agree)
variable {p : Policy} {C : Call → Deployment → Prop} {R : Deployment → Deployment → Prop}
  (h : PartsAgree p C R)
include h

theorem ask (q : Query) : Agree C R (Task.ask q) (Task.ask q) :=
  .bind (h.ask? q) fun _ => .lift _ _

theorem store (s : Subscription) : Agree C R (store p s) (store p s) :=
  .bind (h.ask _) fun id => .bind (h.keep ⟨s, id⟩) fun _ => .pure id

theorem moveRow (today : Day) (r : Row) : Agree C R (moveRow p today r) (moveRow p today r) := by
  unfold Service.moveRow
  split
  next => exact .pure 0
  next due _ =>
    refine .bind (.lift _ _) fun next => .bind (h.ask? _) fun a => ?_
    cases a with
    | ok n => exact .bind (h.keep _) fun _ => .pure 1
    | error f =>
      cases f with
      | unavailable => exact .bind (h.log _ _) fun _ => .pure 0
      | _ => exact .throw _

theorem moveRows (today : Day) (rs : List Row) :
    Agree C R (moveRows p today rs) (moveRows p today rs) := by
  induction rs with
  | nil => exact .pure 0
  | cons r rs ih => exact .bind (h.moveRow today r) fun n => .bind ih fun _ => .pure _

theorem serve {r : Request} (hr : ∀ id, r ≠ .read id) : Agree C R (serve p r) (serve p r) := by
  cases r with
  | read id => exact absurd rfl (hr id)
  | create today username o userUid =>
    exact .bind (.bind (.lift _ _) h.store) fun _ => .pure _
  | createAggregator today username userUid =>
    exact .bind (.bind (.lift _ _) h.store) fun _ => .pure _
  | update today id username o userUid =>
    refine .bind (.bind (.lift _ _) fun s => .bind (h.ask _) fun n => ?_) fun _ => .pure _
    by_cases h0 : n = (0 : Nat)
    · rw [if_neg (not_not_intro h0)]
      exact .pure n
    · rw [if_pos h0]
      exact .bind (h.keep _) fun _ => .pure n
  | remove id =>
    exact .bind (.bind (h.forget id) fun _ => .bind (h.ask _) fun _ =>
      .bind (h.forget id) fun _ => .pure _) fun _ => .pure _
  | list username role limit offset =>
    exact .bind (iteInduction (motive := fun t => Agree C R t t) (fun _ => h.ask _)
      fun _ => h.ask _) fun _ => .pure _
  | sum username o => exact .bind (.bind (.lift _ _) fun _ => h.ask _) fun _ => .pure _
  | rollover today =>
    exact .bind (.bind (h.ask _) fun rs => h.moveRows today rs) fun _ => .pure _

end PartsAgree
end Renewals.Service
