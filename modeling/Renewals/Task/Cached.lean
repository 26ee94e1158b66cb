import Renewals.Cache.Basic
import Renewals.Task.Basic
/-! Values in the cache, as tasks. -/
namespace Renewals.Task

/-- The value under a key, if the cache holds one that lives. -/
def getCached {α : Type} (read : Json → Except DecodeFault α) (key : LooseText) :
    Task (Option α) := do
  match ← lift .cache (← fetch? key) with
  | none => pure none
  | some payload => do
    let a ← lift .cache (Cache.decode read key payload)
    pure (some a)

/-- A value without a written form never reaches the cache. That it has none comes with the value,
and is not found out from it. -/
def putCached? (key : LooseText) (v : Except EncodeFault Json) (ttl : Int) :
    Task (Except CacheFault Unit) :=
  match v with
  | .error f => pure (.error (.unavailable "set" (.encode f)))
  | .ok v => put? key v.text ttl

def putCached (key : LooseText) (v : Except EncodeFault Json) (ttl : Int) : Task Unit := do
  lift .cache (← putCached? key v ttl)

def dropCached (key : LooseText) : Task Unit := do lift .cache (← drop? key)

def pingCache : Task Unit := do
  let r : Except CacheFault Unit ← perform .ping
  lift .cache r

/-- A client that cannot be closed is logged and no more. -/
def closeCache : Task Unit := do
  let r : Except CacheFault Unit ← perform .closeCache
  match r with
  | .ok _ => pure ()
  | .error f =>
    if f.isUnavailable then log .warning "failed to close redis client" else throw (.cache f)

/-- A cache that does not answer at first may still come up. -/
def greetCache : Task Unit := do
  let r : Except CacheFault Unit ← perform .ping
  match r with
  | .ok _ => pure ()
  | .error f =>
    if f.isUnavailable then log .warning (f.message.append "redis not reachable at startup: ")
    else throw (.cache f)

end Renewals.Task
