import Renewals.Deployment.Startup
import Renewals.Proofs.Broker.Connect
import Renewals.Proofs.Deployment.Calls
/-! What leaves the scan process while it connects to the broker. All attempts failing is an end
that the program knows about; a connection that cannot be given back behind a failed attempt is not,
and ends the attempts at once. -/
namespace Renewals

namespace Broker
open Renewals.Task (rounds paced)

variable {url : String} {attempts : Int} {pause : Seconds} {h : List Answered}
  {r : Except Failure Connection}

/-- Attempts are made up to the first success, and failing is told behind the last of them only. -/
def Persists (attempts : Int) (h : List Answered) (r : Except Failure Connection) : Prop :=
  ∃ failed : List BrokerCause,
    (failed.length < attempts.toNat ∧ outcomes h = failed.map .error ++ [.ok ()] ∧
      ∃ c, (.connect c, .ok ()) ∈ calls h ∧ r = .ok c) ∨
    (failed.length = attempts.toNat ∧ outcomes h = failed.map .error ∧
      r = .error (.broker (.unreachable attempts failed.getLast?)))

/-- The last call fails to give a connection back, and its failure is raised as it is. -/
def Stuck (h : List Answered) (r : Except Failure Connection) : Prop :=
  ∃ before c cause, h = before ++ [.broker (.release c) (.error cause)] ∧
    r = .error (.broker (.raw cause))

/-- Connecting persists unless a connection cannot be given back. -/
theorem Connecting.persists_or_stuck (hc : Connecting url attempts pause h r)
    (hmild : ∀ b cause, (b, .error cause) ∈ calls h → cause.isBroker = true) :
    ((∀ c cause, (.release c, .error cause) ∉ calls h) ∧ Persists attempts h r) ∨
      Stuck h r := by
  have hreleases (failed : List (Connection × BrokerCause)) (final : List (List Answered))
      (hfinal : ∀ c cause, (.release c, .error cause) ∉ final.flatMap calls) (c : Connection)
      (cause : BrokerCause) : (.release c, .error cause) ∉
        calls (paced pause (rounds (missed url attempts) 1 failed ++ final)) := by
    rw [calls_attempts, List.mem_append]
    rintro (hmem | hmem)
    · obtain ⟨x, -, hx⟩ := List.mem_flatMap.mp hmem
      simp at hx
    · exact hfinal c cause hmem
  cases hc with
  | @gaveUp failed hf hlen =>
    rw [← List.append_nil (rounds _ _ failed)]
    refine .inl ⟨hreleases failed [] (by simp), failed.map Prod.snd, .inr ⟨?_, ?_, ?_⟩⟩
    · rw [List.length_map, hlen]
    · rw [outcomes_attempts]
      simp
    · rw [List.getLast?_map]
  | @made failed hf hlen c =>
    have hcalls : [Broker.made url c].flatMap calls = [(.connect c, .ok ())] := rfl
    have hout : [Broker.made url c].flatMap outcomes = [.ok ()] := rfl
    refine .inl ⟨hreleases failed _ (by simp [hcalls]), failed.map Prod.snd,
      .inl ⟨?_, ?_, c, ?_, rfl⟩⟩
    · rwa [List.length_map]
    · rw [outcomes_attempts, hout]
      simp
    · rw [calls_attempts, hcalls]
      exact List.mem_append_right _ (List.mem_singleton_self _)
  | @stuck failed hf hlen x hx cause =>
    obtain ⟨before, hbefore⟩ := Task.exists_paced_concat
    exact .inr ⟨_, x.1, cause, hbefore.trans (List.append_assoc ..).symm, rfl⟩
  | @crashed failed hf hlen c cause hc =>
    refine absurd (hmild (.connect c) cause ?_) (by simp [hc])
    rw [calls_attempts]
    exact List.mem_append_right _ (List.mem_singleton_self _)

end Broker

open Renewals.Broker (calls outcomes Persists Stuck)

/-- A start ends with connecting if that fails. -/
theorem ScanProcess.start_of_unconnected {σ : Type} (w : World σ) {s : Settings} {d : σ}
    {f : Failure}
    (hf : (Broker.connect s.brokerUrl s.brokerRetries (.real s.brokerPause)).result w d =
      .error f) :
    (ScanProcess.start s).result w d = .error f ∧ (ScanProcess.start s).history w d =
      (Broker.connect s.brokerUrl s.brokerRetries (.real s.brokerPause)).history w d :=
  Task.bind_error w _ hf

/-- The program knows that the broker cannot be reached, and nothing else that connecting raises. -/
theorem Deployment.runScanProgram_of_unconnected {d : Deployment} {g : BrokerFault}
    (hg : (Broker.connect d.settings.brokerUrl d.settings.brokerRetries
      (.real d.settings.brokerPause)).result answer d = .error (.broker g)) :
    d.runScanProgram.1 = if g.isUnavailable then .ok ⟨1, none⟩ else .error (.broker g) := by
  have hstart : (d.run (ScanProcess.start d.settings)).1 = .error (.broker g) := by
    rw [← Task.result_answer]
    exact (ScanProcess.start_of_unconnected answer hg).1
  unfold runScanProgram startProcess
  generalize d.run (ScanProcess.start d.settings) = started at hstart ⊢
  obtain ⟨r, d'⟩ := started
  obtain rfl : r = .error (.broker g) := hstart
  dsimp only
  split <;> rfl

/-- As long as failures are the broker's, connecting persists and tells at most that the broker
cannot be reached, unless a connection cannot be given back behind a failed attempt: then that
failure is raised at once. Either leaves the start, and only the first gives an exit code. -/
theorem connect_told_unless_stuck {σ : Type} (w : World σ) (d : σ) :
    (∀ (url : String) (attempts : Int) (pause : Seconds),
      (∀ b cause, (b, .error cause) ∈ calls ((Broker.connect url attempts pause).history w d) →
        cause.isBroker = true) →
      ((∀ c cause, (.release c, .error cause) ∉
          calls ((Broker.connect url attempts pause).history w d)) →
        Persists attempts ((Broker.connect url attempts pause).history w d)
          ((Broker.connect url attempts pause).result w d)) ∧
      ((∃ c cause, (.release c, .error cause) ∈
          calls ((Broker.connect url attempts pause).history w d)) →
        Stuck ((Broker.connect url attempts pause).history w d)
          ((Broker.connect url attempts pause).result w d))) ∧
    (∀ (s : Settings) (f : Failure),
      (Broker.connect s.brokerUrl s.brokerRetries (.real s.brokerPause)).result w d = .error f →
      (ScanProcess.start s).result w d = .error f ∧ (ScanProcess.start s).history w d =
        (Broker.connect s.brokerUrl s.brokerRetries (.real s.brokerPause)).history w d) ∧
    ∀ (d : Deployment) (g : BrokerFault),
      (Broker.connect d.settings.brokerUrl d.settings.brokerRetries
        (.real d.settings.brokerPause)).result Deployment.answer d = .error (.broker g) →
      d.runScanProgram.1 = if g.isUnavailable then .ok ⟨1, none⟩ else .error (.broker g) := by
  refine ⟨fun url attempts pause hmild => ?_, fun s f => ScanProcess.start_of_unconnected w,
    fun d g => Deployment.runScanProgram_of_unconnected⟩
  have hc := Broker.connecting_of_ends (Task.ends_history w (Broker.connect url attempts pause) d)
  rcases hc.persists_or_stuck hmild with ⟨hnone, hpersists⟩ | hstuck
  · exact ⟨fun _ => hpersists, fun ⟨c, cause, hmem⟩ => absurd hmem (hnone c cause)⟩
  · refine ⟨fun hnone => ?_, fun _ => hstuck⟩
    obtain ⟨before, c, cause, hhistory, -⟩ := hstuck
    refine absurd ?_ (hnone c cause)
    rw [hhistory]
    exact Broker.mem_calls_right (List.mem_singleton_self _)

/-- The first connection cannot be made, and cannot be given back either. -/
def clinging : Deployment :=
  { Deployment.small (.remote .empty) with
    broker := { Broker.empty with
      plan := ⟨[("connect", [some .io]), ("release", [some .operation])]⟩ } }

theorem mild_clinging (b : BrokerCall) (cause : BrokerCause)
    (hmem : (b, .error cause) ∈
      calls ((Broker.connect "amqp://" 3 (.whole 1)).history Deployment.answer clinging)) :
    cause.isBroker = true := by
  have hcalls :
      calls ((Broker.connect "amqp://" 3 (.whole 1)).history Deployment.answer clinging) =
        [(.connect 0, .error .io), (.release 0, .error .operation)] := rfl
  rw [hcalls] at hmem
  simp only [List.mem_cons, Prod.mk.injEq, Except.error.injEq, List.not_mem_nil,
    or_false] at hmem
  rcases hmem with ⟨-, rfl⟩ | ⟨-, rfl⟩ <;> rfl

theorem connect_told_unless_stuck_clinging :
    (∀ b cause, (b, .error cause) ∈
      calls ((Broker.connect "amqp://" 3 (.whole 1)).history Deployment.answer clinging) →
      cause.isBroker = true) ∧
    Stuck ((Broker.connect "amqp://" 3 (.whole 1)).history Deployment.answer clinging)
      ((Broker.connect "amqp://" 3 (.whole 1)).result Deployment.answer clinging) ∧
    (ScanProcess.start Settings.standard).result Deployment.answer clinging =
      .error (.broker (.raw .operation)) ∧
    clinging.runScanProgram.1 = .error (.broker (.raw .operation)) := by
  have hall := connect_told_unless_stuck Deployment.answer clinging
  refine ⟨mild_clinging, (hall.1 "amqp://" 3 (.whole 1) mild_clinging).2
    ⟨0, .operation, List.mem_cons_of_mem _ List.mem_cons_self⟩,
    (hall.2.1 Settings.standard _ rfl).1, hall.2.2 clinging (.raw .operation) rfl⟩

/-- Three attempts may be made, but the first ends in a failure that is not told as the broker's. -/
theorem connect_clinging :
    (∀ b cause, (b, .error cause) ∈
      calls ((Broker.connect "amqp://" 3 (.whole 1)).history Deployment.answer clinging) →
      cause.isBroker = true) ∧
    outcomes ((Broker.connect "amqp://" 3 (.whole 1)).history Deployment.answer clinging) =
      [.error .io] ∧
    (Broker.connect "amqp://" 3 (.whole 1)).result Deployment.answer clinging =
      .error (.broker (.raw .operation)) ∧
    (BrokerFault.raw .operation).isUnavailable = false :=
  ⟨mild_clinging, rfl, rfl, rfl⟩

end Renewals
