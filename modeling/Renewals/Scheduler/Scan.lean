import Renewals.Broker.Topology
/-! Scans for payments that fall due. They read the store and write to the queues only. -/
namespace Renewals.Scan

/-- One notice per row. A message that is not published is logged and skipped. -/
def publishAll (p : Publisher) (h : Horizon) : List Row → Task Nat
  | [] => pure 0
  | r :: rs => do
    let notice ← Task.lift .notice (r.entry.notice h.name)
    let n ← tryCatch (do p.publish h.name (.ok notice.toJson); pure 1) fun
      | .broker f =>
        if f.isUnpublished then do
          Task.log .error s!"failed to publish notification for id={r.id}: {f.message}"
          pure 0
        else throw (.broker f)
      | f => throw f
    pure (n + (← publishAll p h rs))

/-- The notices of one horizon for all active rows with a payment on its day; the number of
messages published. -/
def run (p : Publisher) (today : Day) (h : Horizon) : Task Nat := do
  let day ← Task.lift (.horizon ∘ .date) (h.target today)
  match ← Task.ask? (.dueOn day) with
  | .error (.unavailable ..) =>
    Task.log .error s!"failed to find subscriptions due on {day}"
    pure 0
  | .error f => throw (.store f)
  | .ok rows => publishAll p h rows

/-- A scan by the name of its horizon. -/
def runNamed (p : Publisher) (today : Day) (name : Json) : Task Nat := do
  run p today (← Task.lift .horizon (Horizon.read name))

/-- A scan as a job: no failure leaves it. -/
def job (p : Publisher) (today : Day) (h : Horizon) : Task Unit :=
  tryCatch (do let _ ← run p today h) fun _ =>
    Task.log .error s!"Renewal scan job failed ({h.name})"

end Renewals.Scan

namespace Renewals.Store

/-- Attempts from number `attempt` on, `left` of them. -/
def awaitFrom (attempts : Int) (pause : Seconds) : Nat → Nat → Option StoreFault → Task Unit
  | 0, _, last => throw (.notReady attempts last)
  | left + 1, attempt, _ => do
    match ← Task.ask? .ready with
    | .ok _ => pure ()
    | .error (.unavailable q cause) => do
      let f : StoreFault := .unavailable q cause
      Task.log .warning s!"store not ready (attempt {attempt}/{attempts}): {f.message}"
      if left ≠ 0 then Task.sleep pause
      awaitFrom attempts pause left (attempt + 1) (some f)
    | .error f => throw (.store f)

/-- Waits until the store answers, for so many attempts. -/
def await (attempts : Int) (pause : Seconds) : Task Unit :=
  awaitFrom attempts pause attempts.toNat 1 none

end Renewals.Store
