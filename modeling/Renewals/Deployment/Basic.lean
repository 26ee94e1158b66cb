import Renewals.Broker.Basic
import Renewals.Cache.Basic
import Renewals.Scheduler.Process
import Renewals.Store.Basic
/-! A store, a cache, a broker and a clock put together, each with the outcomes of its coming calls.
They answer the calls of tasks. -/
namespace Renewals

/-- Whether the service takes requests, and if so whether the maintenance is its own. -/
inductive Serving
  | down
  | up (own : Bool)
  deriving DecidableEq, Repr

/-- The maintenance is no longer that of the service. -/
def Serving.disown : Serving → Serving
  | .up _ => .up false
  | .down => .down

structure Deployment where
  settings : Settings
  policy : Policy
  today : Day
  clock : Binary64
  store : Store
  storePlan : List Outcome
  cache : Cache
  cachePlan : List ClientOutcome
  clientCalls : List ClientCall
  broker : Broker
  logs : List LogLine
  publisher : Option Publisher
  process : Option ScanProcess
  maintenance : Option Board
  serving : Serving

namespace Deployment

/-- One outcome is used up by every session. -/
def ask (q : Query) (d : Deployment) : Except StoreFault q.Answer × Deployment :=
  let r := d.store.ask (d.storePlan.headD .sound) q
  (r.1, { d with store := r.2, storePlan := d.storePlan.tail })

/-- One outcome is used up by every call of a client. -/
def throughClient {α : Type} (call : ClientCall) (f : ClientOutcome → Cache → α × Cache)
    (d : Deployment) : α × Deployment :=
  match d.cache with
  | .memory _ => let r := f .sound d.cache; (r.1, { d with cache := r.2 })
  | .remote _ =>
    let r := f (d.cachePlan.headD .sound) d.cache
    (r.1, { d with
      cache := r.2
      cachePlan := d.cachePlan.tail
      clientCalls := d.clientCalls ++ [call] })

def answer : (c : Call) → Deployment → c.Answer × Deployment
  | .ask q, d => d.ask q
  | .fetch key, d => d.throughClient (.get key) fun o => Cache.fetch o d.clock key
  | .put key payload ttl, d =>
    d.throughClient (.set key payload ttl) fun o => Cache.put o d.clock key payload ttl
  | .drop key, d => d.throughClient (.delete key) fun o => Cache.drop o d.clock key
  | .ping, d => d.throughClient .ping fun o c => (c.ping o, c)
  | .closeCache, d => d.throughClient .close fun o c => (c.close o, c)
  | .openConnection url, d =>
    let r := d.broker.openConnection url
    (r.1, { d with broker := r.2 })
  | .broker b, d =>
    let r := d.broker.perform b
    (r.1, { d with broker := r.2 })
  | .sleep pause, d => ((), { d with broker := d.broker.record (.slept pause) })
  | .log line, d => ((), { d with logs := d.logs ++ [line] })

def run {α : Type} (t : Task α) (d : Deployment) : Except Failure α × Deployment :=
  Plan.run answer t.run d

@[simp] theorem run_pure {α : Type} (a : α) (d : Deployment) :
    d.run (pure a : Task α) = (.ok a, d) := rfl

@[simp] theorem run_throw {α : Type} (f : Failure) (d : Deployment) :
    d.run (throw f : Task α) = (.error f, d) := rfl

@[simp] theorem run_perform (c : Call) (d : Deployment) :
    d.run (Task.perform c) = (.ok (answer c d).1, (answer c d).2) := rfl

/-- What follows a value runs on the deployment that is left; a failure ends the task. -/
theorem run_bind {α β : Type} (t : Task α) (next : α → Task β) (d : Deployment) :
    d.run (t >>= next) =
      match (d.run t).1 with
      | .ok a => (d.run t).2.run (next a)
      | .error f => (.error f, (d.run t).2) := by
  change Plan.run answer (Plan.bind t.run _) d = _
  rw [Plan.run_bind]
  unfold Deployment.run
  cases (Plan.run answer t.run d).1 <;> rfl

/-- A handler runs on the deployment that the failed task leaves. -/
theorem run_tryCatch {α : Type} (t : Task α) (handle : Failure → Task α) (d : Deployment) :
    d.run (tryCatch t handle) =
      match (d.run t).1 with
      | .ok a => (.ok a, (d.run t).2)
      | .error f => (d.run t).2.run (handle f) := by
  change Plan.run answer (Plan.bind t.run _) d = _
  rw [Plan.run_bind]
  unfold Deployment.run
  cases (Plan.run answer t.run d).1 <;> rfl

/-- Everything new, with an empty store. -/
def fresh (settings : Settings) (policy : Policy) (today : Day) (schema : Schema) (cache : Cache) :
    Deployment where
  settings
  policy
  today
  clock := .zero
  store := .empty schema
  storePlan := []
  cache
  cachePlan := []
  clientCalls := []
  broker := .empty
  logs := []
  publisher := none
  process := none
  maintenance := none
  serving := .down

/-- The clock counts in binary numbers. -/
def advance (pause : Seconds) (d : Deployment) : Except CacheFault Unit × Deployment :=
  match pause.binary? with
  | some seconds => (.ok (), { d with clock := d.clock.add seconds })
  | none => (.error .tooLong, d)

/-- Without what was logged, called and recorded so far. -/
def quiet (d : Deployment) : Deployment :=
  { d with clientCalls := [], logs := [], broker := { d.broker with trace := [] } }

end Deployment
end Renewals
