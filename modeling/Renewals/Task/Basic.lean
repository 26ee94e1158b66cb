import Renewals.Task.Failure
/-! Tasks as sequences of calls. Each call of the store, the cache or the broker is one step, so
that tasks can be run alone or in turns. -/
namespace Renewals

inductive Level
  | warning
  | error
  deriving DecidableEq, Repr

structure LogLine where
  level : Level
  text : LooseText
  deriving DecidableEq, Repr

inductive Call
  | ask (q : Query)
  | fetch (key : LooseText)
  | put (key payload : LooseText) (ttl : Int)
  | drop (key : LooseText)
  | ping
  | closeCache
  | openConnection (url : String)
  | broker (b : BrokerCall)
  | sleep (pause : Seconds)
  | log (line : LogLine)

/-- What is told of a call. There is nothing to tell of a pause: it is made with what the caller was
given for it, which is taken not to fail. A wait by the clock, which is what the caller has if it was
given nothing, would fail for a pause that is negative, infinite or undefined. -/
def Call.Answer : Call → Type
  | .ask q => Except StoreFault q.Answer
  | .fetch _ => Except CacheFault (Option LooseText)
  | .put .. => Except CacheFault Unit
  | .drop _ => Except CacheFault Unit
  | .ping => Except CacheFault Unit
  | .closeCache => Except CacheFault Unit
  | .openConnection _ => Connection
  | .broker _ => Except BrokerCause Unit
  | .sleep _ => Unit
  | .log _ => Unit

/-- A result, or a call and what follows its answer. -/
inductive Plan (α : Type) : Type
  | done (a : α)
  | call (c : Call) (next : c.Answer → Plan α)

namespace Plan

def bind {α β : Type} : Plan α → (α → Plan β) → Plan β
  | done a, f => f a
  | call c next, f => call c fun r => (next r).bind f

instance : Monad Plan where
  pure := done
  bind := bind

/-- One call and its answer. -/
def perform (c : Call) : Plan c.Answer := call c done

/-- All calls in turn, answered by `answer` from a changing state. -/
def run {σ α : Type} (answer : (c : Call) → σ → c.Answer × σ) : Plan α → σ → α × σ
  | done a, s => (a, s)
  | call c next, s =>
    let r := answer c s
    run answer (next r.1) r.2

theorem bind_done {α : Type} (p : Plan α) : p.bind done = p := by
  induction p with
  | done a => rfl
  | call c next ih => exact congrArg (call c) (funext ih)

theorem bind_assoc {α β γ : Type} (p : Plan α) (f : α → Plan β) (g : β → Plan γ) :
    (p.bind f).bind g = p.bind fun a => (f a).bind g := by
  induction p with
  | done a => rfl
  | call c next ih => exact congrArg (call c) (funext ih)

instance : LawfulMonad Plan := LawfulMonad.mk' Plan bind_done (fun _ _ => rfl) bind_assoc

@[simp] theorem run_done {σ α : Type} (answer : (c : Call) → σ → c.Answer × σ) (a : α) (s : σ) :
    run answer (done a) s = (a, s) := rfl

theorem run_bind {σ α β : Type} (answer : (c : Call) → σ → c.Answer × σ) (p : Plan α)
    (f : α → Plan β) (s : σ) :
    run answer (p.bind f) s = run answer (f (run answer p s).1) (run answer p s).2 := by
  induction p generalizing s with
  | done a => rfl
  | call c next ih => exact ih _ _

end Plan

/-- A sequence of calls that ends in a value or a failure. -/
abbrev Task (α : Type) := ExceptT Failure Plan α

namespace Task

def lift {ε α : Type} (f : ε → Failure) : Except ε α → Task α
  | .ok a => pure a
  | .error e => throw (f e)

def perform (c : Call) : Task c.Answer := ExceptT.lift (Plan.perform c)

/-- The answer of the store, a failure kept as a value. -/
def ask? (q : Query) : Task (Except StoreFault q.Answer) := perform (.ask q)

def ask (q : Query) : Task q.Answer := do lift .store (← ask? q)

def fetch? (key : LooseText) : Task (Except CacheFault (Option LooseText)) := perform (.fetch key)

def put? (key payload : LooseText) (ttl : Int) : Task (Except CacheFault Unit) :=
  perform (.put key payload ttl)

def drop? (key : LooseText) : Task (Except CacheFault Unit) := perform (.drop key)

def call? (b : BrokerCall) : Task (Except BrokerCause Unit) := perform (.broker b)

def call (b : BrokerCall) : Task Unit := do lift (fun c => .broker (.raw c)) (← call? b)

def log (level : Level) (text : LooseText) : Task Unit := perform (.log ⟨level, text⟩)

def sleep (pause : Seconds) : Task Unit := perform (.sleep pause)

end Task
end Renewals
