import Renewals.Subscription.Billing
import Renewals.Subscription.Order
import Renewals.Task.Cached
/-! The life of subscriptions: the store decides, the cache follows. A cache that fails to follow
is logged and no more; a reader is told, because a failure is not a miss. -/
namespace Renewals

structure Policy where
  ttl : Int
  adminRole : String
  deriving DecidableEq, Repr

namespace Service

def tolerate (what key : String) : Except CacheFault Unit → Task Unit
  | .ok _ => pure ()
  | .error f =>
    if f.isUnavailable then Task.log .warning (f.message.append s!"{what} key={key}: ")
    else throw (.cache f)

def keep (p : Policy) (r : Row) : Task Unit := do
  let key := cacheKey r.id
  tolerate "failed to cache subscription" key (← Task.putCached? key (.ok r.toJson) p.ttl)

def forget (id : Int) : Task Unit := do
  let key := cacheKey id
  tolerate "failed to invalidate cache" key (← Task.drop? key)

def store (p : Policy) (s : Subscription) : Task Int := do
  let id ← Task.ask (.create s)
  keep p ⟨s, id⟩
  pure id

/-- A new subscription is active whatever the request says. -/
def create (p : Policy) (today : Day) (username : LooseText) (o : Order) (userUid : Option LooseText) :
    Task Int := do
  store p (← Task.lift .term (o.accept username userUid today true))

def createAggregator (p : Policy) (today : Day) (username : LooseText) (userUid : Option LooseText) :
    Task Int := do
  store p (← Task.lift .date (Subscription.aggregator username userUid today))

/-- The request replaces every field; nothing is cached if no row was there. -/
def update (p : Policy) (today : Day) (id : Int) (username : LooseText) (o : Order)
    (userUid : Option LooseText) : Task Nat := do
  let s ← Task.lift .term (o.accept username userUid today o.isActive)
  let rows : Nat ← Task.ask (.update (some id) s)
  if rows ≠ 0 then keep p ⟨s, id⟩
  pure rows

def remove (id : Int) : Task Nat := do
  forget id
  let rows : Nat ← Task.ask (.remove id)
  forget id
  pure rows

/-- The cache first, then the store. -/
def read (p : Policy) (id : Int) : Task Snapshot := do
  match ← Task.getCached Snapshot.ofJson (cacheKey id) with
  | some s => pure s
  | none => do
    let row : Row ← Task.ask (.read id)
    keep p row
    pure row.snapshot

/-- Administrators see all subscriptions, everyone else their own. -/
def list (p : Policy) (username role : LooseText) (limit offset : Int) : Task (List Row) :=
  if role = .whole p.adminRole then Task.ask (.listAll limit offset)
  else Task.ask (.list username limit offset)

def sum (username : LooseText) (o : SumOrder) : Task Int := do
  Task.ask (.sum (← Task.lift .term (o.accept username)))

/-- Moves one row; a store that fails skips it. -/
def moveRow (p : Policy) (today : Day) (r : Row) : Task Nat :=
  match r.nextPayment with
  | none => pure 0
  | some due => do
    let next ← Task.lift .date (Billing.rollForward today due)
    match ← Task.ask? (.setNextPayment r.id (some next)) with
    | .error (.unavailable ..) =>
      Task.log .error s!"failed to update next payment date for id={r.id}"
      pure 0
    | .error f => throw (.store f)
    | .ok _ => do
      keep p { r with nextPayment := some next }
      pure 1

def moveRows (p : Policy) (today : Day) : List Row → Task Nat
  | [] => pure 0
  | r :: rs => do
    let n ← moveRow p today r
    pure (n + (← moveRows p today rs))

/-- Brings every payment date that has passed to today or later; the number of rows moved. -/
def rollover (p : Policy) (today : Day) : Task Nat := do
  moveRows p today (← Task.ask (.overdue today))

end Service
end Renewals
