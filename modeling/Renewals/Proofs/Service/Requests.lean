import Renewals.Proofs.Deployment.Calls
import Renewals.Service.Basic
/-! Runs of the service: requests one after the other, and a clock that goes on between them. -/
namespace Renewals.Service

/-- What the service can be asked for. -/
inductive Request
  | create (today : Day) (username : LooseText) (o : Order) (userUid : Option LooseText)
  | createAggregator (today : Day) (username : LooseText) (userUid : Option LooseText)
  | update (today : Day) (id : Int) (username : LooseText) (o : Order)
      (userUid : Option LooseText)
  | remove (id : Int)
  | read (id : Int)
  | list (username role : LooseText) (limit offset : Int)
  | sum (username : LooseText) (o : SumOrder)
  | rollover (today : Day)
  deriving DecidableEq

inductive Reply
  | id (n : Int)
  | rows (n : Nat)
  | entry (s : Snapshot)
  | entries (rs : List Row)
  | total (n : Int)

def serve (p : Policy) : Request → Task Reply
  | .create today username o userUid => do return .id (← create p today username o userUid)
  | .createAggregator today username userUid => do
    return .id (← createAggregator p today username userUid)
  | .update today id username o userUid => do
    return .rows (← update p today id username o userUid)
  | .remove id => do return .rows (← remove id)
  | .read id => do return .entry (← read p id)
  | .list username role limit offset => do return .entries (← list p username role limit offset)
  | .sum username o => do return .total (← sum username o)
  | .rollover today => do return .rows (← rollover p today)

/-- The kind of reply that a request gets. -/
def Request.Gets : Request → Reply → Prop
  | .create .., .id _ | .createAggregator .., .id _ | .update .., .rows _ | .remove _, .rows _
  | .read _, .entry _ | .list .., .entries _ | .sum .., .total _ | .rollover _, .rows _ => True
  | _, _ => False

theorem gets_of_serve {p : Policy} {d : Deployment} {q : Request} {reply : Reply}
    (h : (d.run (serve p q)).1 = .ok reply) : q.Gets reply := by
  cases q with
  | _ =>
    rw [serve, Deployment.run_map] at h
    obtain ⟨_, -, rfl⟩ := exists_of_map_eq_ok h
    trivial

def asEntry (t : Task Snapshot) : Task Reply := do return .entry (← t)

def asRows (t : Task Nat) : Task Reply := do return .rows (← t)

/-- A request, or time that passes. -/
inductive Step
  | call (r : Request)
  | wait (later : Binary64)

section
variable (service : Request → Task Reply)

/-- A clock does not go back. -/
def Step.after (d : Deployment) : Step → Deployment
  | .call r => (d.run (service r)).2
  | .wait later => if d.clock.below later then { d with clock := later } else d

def Step.reply? (d : Deployment) : Step → Option (Except Failure Reply)
  | .call r => some (d.run (service r)).1
  | .wait _ => none

/-- The replies to the requests of a run. -/
def replies : List Step → Deployment → List (Except Failure Reply)
  | [], _ => []
  | s :: steps, d => (s.reply? service d).toList ++ replies steps (s.after service d)

/-- Where a run stands at its start and after each step. -/
def history : List Step → Deployment → List Deployment
  | [], d => [d]
  | s :: steps, d => d :: history steps (s.after service d)

/-- Where a run ends. -/
def finish (steps : List Step) (d : Deployment) : Deployment := steps.foldl (Step.after service) d

theorem finish_mem_history (steps : List Step) (d : Deployment) :
    finish service steps d ∈ history service steps d := by
  induction steps generalizing d with
  | nil => exact List.mem_cons_self
  | cons s steps ih => exact List.mem_cons_of_mem d (ih _)

variable {service} {I : Deployment → Prop} (hcall : ∀ r d, I d → I (d.run (service r)).2)
  (hwait : ∀ d later, I d → I { d with clock := later })
include hcall hwait

/-- What every request keeps, and the clock as well, holds wherever a run stands. -/
theorem history_induction (steps : List Step) {d : Deployment} (hd : I d) :
    ∀ m ∈ history service steps d, I m := by
  induction steps generalizing d with
  | nil =>
    intro m hm
    rw [List.mem_singleton.mp hm]
    exact hd
  | cons s steps ih =>
    have hnext : I (s.after service d) := by
      cases s with
      | call r => exact hcall r d hd
      | wait later =>
        simp only [Step.after]
        split
        · exact hwait d later hd
        · exact hd
    intro m hm
    rcases List.mem_cons.mp hm with rfl | hm
    · exact hd
    · exact ih hnext m hm

theorem finish_induction (steps : List Step) {d : Deployment} (hd : I d) :
    I (finish service steps d) :=
  history_induction hcall hwait steps hd _ (finish_mem_history service steps d)

end

end Renewals.Service
