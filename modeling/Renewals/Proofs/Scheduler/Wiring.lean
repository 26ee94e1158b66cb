import Renewals.Proofs.Broker.Wiring
import Renewals.Proofs.Deployment.Calls
import Renewals.Proofs.Scheduler.CleanUp
/-! The queues that a start leaves behind on a broker that had none. -/
namespace Renewals

namespace Broker
open Renewals.Plan (Gives)
variable {d d' : Deployment} {h : List Answered}

/-- Only calls of the broker change where messages go and where they lie. -/
theorem wires_answer {call : Call} (hcall : ∀ b, call ≠ .broker b) (d : Deployment) :
    (Deployment.answer call d).2.broker.wires = d.broker.wires := by
  cases call with
  | broker b => exact absurd rfl (hcall b)
  | _ => first | rfl | exact congrArg wires (Deployment.broker_throughClient _ _ d)

/-- What the calls of a history preserve in a broker, the history preserves. -/
theorem gives_induction {I : Broker → Prop} (hg : Gives Deployment.answer d h d')
    (hwires : ∀ {b b' : Broker}, I b → b'.wires = b.wires → I b')
    (hcalls : ∀ x ∈ calls h, ∀ b, I b → I (b.perform x.1).2) (hd : I d.broker) : I d'.broker := by
  refine hg.induction (I := fun d => I d.broker) (fun x hx d hd => ?_) hd
  obtain ⟨call, a⟩ := x
  cases call with
  | broker b => exact hcalls (b, a) (List.mem_filterMap.mpr ⟨_, hx, rfl⟩) d.broker hd
  | _ => exact hwires hd (wires_answer (by simp) d)

theorem takes_of_granted {bs : List BrokerCall} (hg : Gives Deployment.answer d (granted bs) d') :
    d.broker.Takes bs d'.broker := by
  induction bs generalizing d with
  | nil =>
    cases hg
    exact .nil _
  | cons b bs ih =>
    cases hg with
    | cons ha rest => exact .cons ha (ih rest)

theorem Connecting.bare {url : String} {attempts : Int} {pause : Seconds} {c : Connection}
    (hc : Connecting url attempts pause h (.ok c)) (hg : Gives Deployment.answer d h d')
    (hd : d.broker.Bare) : d'.broker.Bare := by
  refine gives_induction hg Bare.of_wires (fun x hx b hb => ?_) hd
  cases hc with
  | made hf hlen c =>
    rw [calls_attempts, List.mem_append] at hx
    rcases hx with hx | hx
    · obtain ⟨y, -, hy⟩ := List.mem_flatMap.mp hx
      rcases List.mem_pair.mp hy with rfl | rfl
      · exact hb.connect _
      · exact hb.release _
    · obtain rfl := List.mem_singleton.mp hx
      exact hb.connect c

end Broker

namespace ScanProcess
variable {s : Settings} {d : Deployment} {p : ScanProcess}

theorem wired_of_start (hbare : d.broker.Bare) (hstart : (d.run (start s)).1 = .ok p) :
    ∃ c, p.publisher = s.publisher c ∧
      (d.run (start s)).2.broker.Wired c s.exchange s.queues fun _ => [] := by
  have hends := Task.ends_history Deployment.answer (start s) d
  rw [Task.result_answer, hstart] at hends
  have hgives := Plan.gives_history Deployment.answer (start s).run d
  have hstarting := starting_of_ends hends
  unfold Task.history at hstarting
  generalize Plan.history Deployment.answer (start s).run d = h at hgives hstarting
  cases hstarting with
  | @connected c early late r hc hl =>
    obtain ⟨connected, hearly, hlate⟩ := hgives.append
    have hbare := hc.bare hearly hbare
    cases hl with
    | @started middle hw =>
      obtain ⟨provided, hsetup, hwait⟩ := hlate.append
      have hwired := hbare.wired (Broker.takes_of_granted hsetup)
      refine ⟨c, rfl, Broker.gives_induction hwait Broker.Wired.of_wires (fun x hx => ?_) hwired⟩
      rw [calls_awaiting hw] at hx
      exact absurd hx List.not_mem_nil

end ScanProcess
end Renewals
