import Renewals.Proofs.Deployment.Calls
import Renewals.Proofs.Service.Requests
/-! What is left of a request behind each of its calls. -/
namespace Renewals.Service

section
variable (p : Policy) (id : Int)

/-- What is left of a read behind a miss. -/
def refill : Task Snapshot := do
  let row : Row ← Task.ask (.read id)
  keep p row
  return row.snapshot

/-- What is left of a read that has found the row. -/
def putBack (row : Row) : Task Snapshot := do
  keep p row
  return row.snapshot

/-- What is left of an update that has come to the rows. -/
def keepHit (r : Row) (n : Nat) : Task Nat := do
  if n ≠ 0 then keep p r
  return n

/-- What is left of a removal behind its first call. -/
def removeStored : Task Nat := do
  let n : Nat ← Task.ask (.remove id)
  forget id
  return n

/-- What is left of a removal that has taken the row away. -/
def forgetAgain (n : Nat) : Task Nat := do
  forget id
  return n

def dateOf (r : Row) : Call := .ask (.setNextPayment r.id r.nextPayment)

def entryOf (r : Row) : Call := .put (cacheKey r.id) r.toJson.text p.ttl

end

section
variable (p : Policy) (id : Int)

theorem read_eq : read p id = Task.getCached Snapshot.ofJson (cacheKey id) >>= fun found =>
    found.elim (refill p id) pure := by
  unfold read
  refine congrArg (Bind.bind _) (funext fun found => ?_)
  cases found <;> rfl

theorem serve_read_eq : ∃ behind, (serve p (.read id)).run = .call (.fetch (cacheKey id)) behind ∧
    behind (.ok none) = (asEntry (refill p id)).run ∧
    (∀ payload, ∃ r, behind (.ok (some payload)) = .done r) ∧
    ∀ f, ∃ r, behind (.error f) = .done r := by
  have hhit (r : Except CacheFault Snapshot) :
      ∃ x, (asEntry ((Task.lift .cache r >>= fun s => pure (some s)) >>= fun found =>
        found.elim (refill p id) pure)).run = .done x := by
    cases r <;> exact ⟨_, rfl⟩
  have hserve : serve p (.read id) = asEntry (read p id) := rfl
  rw [hserve, read_eq]
  exact ⟨_, rfl, rfl, fun payload => hhit (Cache.decode Snapshot.ofJson (cacheKey id) payload),
    fun f => ⟨_, rfl⟩⟩

theorem refill_eq : ∃ behind, (asEntry (refill p id)).run = .call (.ask (.read id)) behind ∧
    (∀ row, behind (.ok row) = (asEntry (putBack p row)).run) ∧
    ∀ f, ∃ r, behind (.error f) = .done r :=
  ⟨_, rfl, fun _ => rfl, fun _ => ⟨_, rfl⟩⟩

theorem putBack_eq (row : Row) : ∃ behind, (asEntry (putBack p row)).run =
    .call (.put (cacheKey row.id) row.toJson.text p.ttl) behind ∧
      ∃ r, behind (.ok ()) = .done r :=
  ⟨_, rfl, _, rfl⟩

theorem serve_remove_eq : ∃ behind,
    (serve p (.remove id)).run = .call (.drop (cacheKey id)) behind ∧
      behind (.ok ()) = (asRows (removeStored id)).run :=
  ⟨_, rfl, rfl⟩

theorem removeStored_eq : ∃ behind,
    (asRows (removeStored id)).run = .call (.ask (.remove id)) behind ∧
      (∀ n, behind (.ok n) = (asRows (forgetAgain id n)).run) ∧
      ∀ f, behind (.error f) = .done (.error (.store f)) :=
  ⟨_, rfl, fun _ => rfl, fun _ => rfl⟩

theorem forgetAgain_eq (n : Nat) : ∃ behind,
    (asRows (forgetAgain id n)).run = .call (.drop (cacheKey id)) behind ∧
      behind (.ok ()) = .done (.ok (.rows n)) :=
  ⟨_, rfl, rfl⟩

theorem run_keepHit {p : Policy} {d : Deployment} {r : Row} (n : Nat)
    (hk : n ≠ 0 → (d.run (keep p r)).1 = .ok ()) : (d.run (keepHit p r n)).1 = .ok n := by
  unfold keepHit
  split
  next hn => exact Deployment.run_then_pure (hk hn) n
  next => rfl

/-- An update may be refused. If it is not, it ends with its query or puts the entry behind it. -/
theorem serve_update_eq (today : Day) (username : LooseText) (o : Order)
    (userUid : Option LooseText) :
    (∃ r, (serve p (.update today id username o userUid)).run = .done r) ∨
    ∃ s behind, (serve p (.update today id username o userUid)).run =
        .call (.ask (.update (some id) s)) behind ∧
      ∀ a, (∃ r, behind a = .done r) ∨ ∃ behind', behind a = .call (entryOf p ⟨s, id⟩) behind' ∧
        ∃ r, behind' (.ok ()) = .done r := by
  cases ha : o.accept username userUid today o.isActive with
  | error f =>
    simp only [serve, update, ha]
    exact .inl ⟨_, rfl⟩
  | ok s =>
    simp only [serve, update, ha]
    refine .inr ⟨s, _, rfl, fun a => ?_⟩
    cases a with
    | error f => exact .inl ⟨_, rfl⟩
    | ok n =>
      cases (n : Nat) with
      | zero => exact .inl ⟨_, rfl⟩
      | succ n => exact .inr ⟨_, rfl, _, rfl⟩

section
variable {p : Policy} {today : Day}

theorem moveRow_none {r : Row} (hdue : r.nextPayment = none) :
    (moveRow p today r).run = .done (.ok 0) := by
  unfold moveRow
  rw [hdue]
  rfl

theorem moveRow_error {r : Row} {due : Day} (hdue : r.nextPayment = some due) {f : Day.Fault}
    (hnext : Billing.rollForward today due = .error f) :
    (moveRow p today r).run = .done (.error (.date f)) := by
  unfold moveRow
  simp only [hdue, hnext]
  rfl

end

theorem moveRow_ok {today : Day} {r : Row} {due next : Day} (hdue : r.nextPayment = some due)
    (hnext : Billing.rollForward today due = .ok next) :
    let m : Row := { r with nextPayment := some next }
    ∃ behind, (moveRow p today r).run = .call (dateOf m) behind ∧ ∀ n, ∃ behind',
      behind (.ok n) = .call (entryOf p m) behind' ∧ behind' (.ok ()) = .done (.ok 1) := by
  unfold moveRow
  simp only [hdue, hnext]
  exact ⟨_, rfl, fun n => ⟨_, rfl, rfl⟩⟩

theorem serve_rollover_eq (today : Day) : ∃ behind,
    (serve p (.rollover today)).run = .call (.ask (.overdue today)) behind ∧
      ∀ rs, behind (.ok rs) = (asRows (moveRows p today rs)).run :=
  ⟨_, rfl, fun _ => rfl⟩

end

end Renewals.Service
