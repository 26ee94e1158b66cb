import Renewals.Proofs.Store.Rows
/-! Which failures of the store its callers are told of. A query that is handed what can be stored
fails in no other way, as long as a session can be opened and its statements fail as statements
do. -/
namespace Renewals

/-- Failures that the callers of a store know about. -/
def StoreFault.isReported : StoreFault → Bool
  | .unavailable .. | .notFound _ => true
  | _ => false

namespace Store

/-- It may fail, but not in a way that callers are not told of. -/
abbrev Reported {α : Type} (x : Except StoreFault α) : Prop := FailsOnly (·.isReported = true) x

variable {o : Outcome} {q : Query}

theorem reported_prepare (hsum : ∀ w, q ≠ .sum w) : Reported (prepare q) := by
  cases q with
  | sum w => exact absurd rfl (hsum w)
  | _ => exact .ok ()

theorem reported_reach (ho : o ≠ .crashes) (hq : ∀ p ∈ q.parameters, take p = .ok ())
    (schema : Schema) : Reported (reach o schema q) := by
  unfold reach
  split
  next => simp [StoreFault.isReported]
  next => exact absurd rfl ho
  next => simp [StoreFault.isReported]
  next =>
    split
    next => exact .ok ()
    next => simp [StoreFault.isReported]
  next =>
    rw [forM_take hq]
    exact .ok ()

theorem reported_checkRow (schema : Schema) (name : String) (s : Subscription) :
    Reported (checkRow schema name s) := by
  unfold checkRow
  split
  next => simp [StoreFault.isReported]
  next => exact .ok ()

theorem reported_run (hsum : ∀ w, q ≠ .sum w) (schema : Schema) (t : Table) :
    Reported (run schema t q) := by
  cases q with
  | create s =>
    refine .bind (reported_checkRow schema "create" s) fun _ _ => ?_
    split
    next => exact .ok _
    next => simp [throw, throwThe, MonadExceptOf.throw, StoreFault.isReported]
  | update id s =>
    cases id with
    | none => exact .ok _
    | some id =>
      simp only [run]
      split
      next => exact .ok _
      next => exact .bind (reported_checkRow schema "update" s) fun _ _ => .ok _
  | read id =>
    simp only [run]
    split
    next => exact .ok _
    next => simp [StoreFault.isReported]
  | sum w => exact absurd rfl (hsum w)
  | _ => exact .ok _

theorem reported_commit (o : Outcome) (q : Query) : Reported (commit o q) := by
  unfold commit
  split
  next => simp [StoreFault.isReported]
  next => exact .ok ()

/-- Only the end of a window can be out of reach, and only a session that crashes or cannot be
opened fails in a way of its own. -/
theorem reported_ask (ho : o ≠ .crashes) (hopen : o ≠ .cannotOpen) (hsum : ∀ w, q ≠ .sum w)
    (hq : ∀ p ∈ q.parameters, take p = .ok ()) (s : Store) : Reported (s.ask o q).1 :=
  failsOnly_ask (fun h => absurd h hopen) (reported_prepare hsum) (reported_reach ho hq s.schema)
    (reported_run hsum s.schema s.table) (reported_commit o q)

end Store
end Renewals
