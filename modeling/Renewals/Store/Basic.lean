import Renewals.Number.Word
import Renewals.Store.Query
import Renewals.Store.Table
/-! The store of subscriptions. Every query runs in a session of its own. -/
namespace Renewals

/-- Whether there is a table, and whether it checks prices and terms. -/
inductive Schema
  | unreachable
  | absent
  | plain
  | checked
  deriving DecidableEq, Repr

/-- The first constraint of a checked table that a subscription breaks. -/
def Subscription.violation? (s : Subscription) : Option String :=
  if s.price < 0 then some "ck_subscriptions_price_non_negative"
  else if s.counterMonths ≤ 0 then some "ck_subscriptions_counter_months_positive"
  else none

structure Sessions where
  opened : Nat
  rolledBack : Nat
  closed : Nat
  deriving DecidableEq, Repr

def Sessions.count (s : Sessions) (rolledBack : Bool) : Sessions :=
  ⟨s.opened + 1, s.rolledBack + rolledBack.toNat, s.closed + 1⟩

/-- How a session goes. -/
inductive Outcome
  | sound
  | statementFails
  | commitFails
  | crashes
  | cannotOpen
  deriving DecidableEq, Repr

structure Store where
  schema : Schema
  table : Table
  sessions : Sessions

namespace Store

def empty (schema : Schema) : Store := ⟨schema, .empty, ⟨0, 0, 0⟩⟩

/-- Whole numbers are stored in signed words of 64 bits, and text without halves of pairs. -/
def take : Parameter → Except StoreFault Unit
  | .number n => if fitsWord n then .ok () else .error .tooWide
  | .text t =>
    match Charset.unicode.gap? t.points with
    | none => .ok ()
    | some gap => .error (.torn gap)

def checkRow (schema : Schema) (query : String) (s : Subscription) : Except StoreFault Unit :=
  match schema, s.violation? with
  | .checked, some c => .error (.unavailable query (.check c))
  | _, _ => .ok ()

/-- What a query does to a table that is there. New numbers are assumed to lie above all others, so
that a table whose greatest number is the greatest word takes no new row, even though a store could
go on with a number that is free below it. -/
def run (schema : Schema) (t : Table) : (q : Query) → Except StoreFault (q.Answer × Table)
  | .create s => do
    checkRow schema "create" s
    if fitsWord t.nextId then pure (t.nextId, t.insert s)
    else throw (.unavailable "create" .statement)
  | .read id =>
    match t.find? id with
    | some r => .ok (r, t)
    | none => .error (.notFound id)
  | .update none _ => .ok ((0 : Nat), t)
  | .update (some id) s =>
    if t.hits id = 0 then .ok ((0 : Nat), t)
    else do
      checkRow schema "update" s
      pure (t.hits id, t.replace id s)
  | .remove id => .ok (t.hits id, t.erase id)
  | .list username limit offset =>
    .ok (Table.page limit offset (t.select (·.username == username)), t)
  | .listAll limit offset => .ok (Table.page limit offset (t.select fun _ => true), t)
  | .sum w => do
    let last ← w.endDate.mapError StoreFault.date
    let total ← (t.sum w last).mapError StoreFault.date
    pure (total, t)
  | .dueOn day => .ok (t.select fun s => s.isActive && s.nextPayment == some day, t)
  | .overdue day =>
    .ok (t.select fun s => s.isActive && s.nextPayment.any fun d => decide (d < day), t)
  | .setNextPayment id day => .ok (t.hits id, t.modify id fun s => { s with nextPayment := day })
  | .ready => .ok ((), t)

/-- The end of a window is computed before the first statement. -/
def prepare : Query → Except StoreFault Unit
  | .sum w => (w.endDate.map fun _ => ()).mapError .date
  | _ => .ok ()

/-- The first statement can fail, find no table, or be handed what cannot be stored. -/
def reach (outcome : Outcome) (schema : Schema) (q : Query) : Except StoreFault Unit :=
  match outcome, schema with
  | .statementFails, _ => .error (.unavailable q.name .statement)
  | .crashes, _ => .error .crash
  | _, .unreachable => .error (.unavailable q.name .unreachable)
  | _, .absent =>
    if q = .ready then .ok () else .error (.unavailable q.name .noTable)
  | _, _ => q.parameters.forM take

def commit (outcome : Outcome) (q : Query) : Except StoreFault Unit :=
  if outcome = .commitFails ∧ q.writes then .error (.unavailable q.name .commit) else .ok ()

/-- Changes are kept only if everything succeeds. -/
def session (outcome : Outcome) (schema : Schema) (t : Table) (q : Query) :
    Except StoreFault (q.Answer × Table) := do
  prepare q
  reach outcome schema q
  let r ← run schema t q
  commit outcome q
  pure r

def ask (outcome : Outcome) (q : Query) (s : Store) : Except StoreFault q.Answer × Store :=
  if outcome = .cannotOpen then (.error .unopened, s)
  else
    match session outcome s.schema s.table q with
    | .ok (a, t) => (.ok a, { s with table := t, sessions := s.sessions.count false })
    | .error f =>
      (.error f, { s with sessions := s.sessions.count f.rollsBack })

end Store
end Renewals
