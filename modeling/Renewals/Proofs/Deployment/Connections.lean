import Renewals.Proofs.Broker.Connect
import Renewals.Proofs.Deployment.Calls
/-! The connections of a deployment are numbered in the order in which they are opened, so that none
of them is opened twice. -/
namespace Renewals

namespace Broker

@[simp] theorem connections_effect (call : BrokerCall) (b : Broker) :
    (effect call b).connections = b.connections := by
  cases call with
  | bindQueue =>
    dsimp only [effect, bind]
    split <;> rfl
  | publish =>
    dsimp only [effect, deliver]
    split <;> rfl
  | _ => rfl

@[simp] theorem connections_attempt (call : BrokerCall) (b : Broker) :
    (attempt call b).2.connections = b.connections := by
  unfold attempt
  dsimp only
  split
  · rfl
  · split <;> exact connections_effect _ _

@[simp] theorem connections_closeKnown (c : Connection) (b : Broker) :
    (closeKnown c b).2.connections = b.connections := by
  have hattempt := connections_attempt (.closeChannel c) (b.setChannel c .stray)
  unfold closeKnown
  split
  · generalize attempt (.closeChannel c) (b.setChannel c .stray) = r at hattempt ⊢
    obtain ⟨_ | cause, b'⟩ := r
    · dsimp only
      split <;> exact hattempt
    · exact hattempt
  · rfl

@[simp] theorem connections_perform (call : BrokerCall) (b : Broker) :
    (perform call b).2.connections = b.connections := by
  have hattempt := connections_attempt call b
  cases call with
  | release c =>
    unfold perform
    generalize attempt (.release c) b = r at hattempt ⊢
    obtain ⟨_ | u, b'⟩ := r
    · exact hattempt
    · exact (connections_closeKnown c b').trans hattempt
  | publish c m =>
    unfold perform
    dsimp only
    split
    · rfl
    · exact hattempt
  | _ => exact hattempt

end Broker

namespace Deployment

/-- A call opens the next connection, or none. -/
theorem opens_answer (c : Call) (d : Deployment) :
    ((⟨c, (answer c d).1⟩ : Answered).opens? = none ∧
        (answer c d).2.broker.connections = d.broker.connections) ∨
      ((⟨c, (answer c d).1⟩ : Answered).opens? = some d.broker.connections ∧
        (answer c d).2.broker.connections = d.broker.connections + 1) := by
  cases c with
  | openConnection url => exact .inr ⟨rfl, rfl⟩
  | broker b => exact .inl ⟨rfl, Broker.connections_perform b d.broker⟩
  | _ =>
    refine .inl ⟨rfl, ?_⟩
    first | rfl | exact congrArg Broker.connections (broker_throughClient _ _ _)

theorem exists_opened_history {α : Type} (p : Plan α) (d : Deployment) :
    ∃ n, Broker.opened (p.history answer d) = List.range' d.broker.connections n := by
  induction p generalizing d with
  | done a => exact ⟨0, rfl⟩
  | call c next ih =>
    obtain ⟨n, hn⟩ := ih (answer c d).1 (answer c d).2
    rcases opens_answer c d with ⟨hopens, hconnections⟩ | ⟨hopens, hconnections⟩
    · refine ⟨n, ?_⟩
      rw [← hconnections, ← hn]
      exact List.filterMap_cons_none hopens
    · refine ⟨n + 1, ?_⟩
      rw [List.range'_succ, ← hconnections, ← hn]
      exact List.filterMap_cons_some hopens

/-- Whatever a task does, it opens new connections only. -/
theorem nodup_opened {α : Type} (t : Task α) (d : Deployment) :
    (Broker.opened (t.history answer d)).Nodup := by
  obtain ⟨n, hn⟩ := exists_opened_history t.run d
  rw [Task.history, hn]
  exact List.nodup_range'

end Deployment
end Renewals
