import Renewals.Proofs.Broker.Connect
import Renewals.Proofs.Scheduler.Await
import Renewals.Proofs.Deployment.Connections
/-! The two loops of a start, connecting to the broker and waiting for the store, beside outcomes
that are given beforehand. Both stop at the first success, and pause between two attempts only. -/
namespace Renewals
open Renewals.Task (rounds paced length_rounds)

/-- Attempts are numbered from 1, and went as they were to go. -/
def Foretold {ε : Type} (outcome : Nat → Except ε Unit) (met : List (Except ε Unit)) : Prop :=
  met = (List.range' 1 met.length).map outcome

def FirstSuccess {ε : Type} (outcome : Nat → Except ε Unit) (j : Nat) : Prop :=
  0 < j ∧ outcome j = .ok () ∧ ∀ i, 0 < i → i < j → outcome i ≠ .ok ()

section
variable {ε δ : Type} {outcome : Nat → Except ε Unit} {failed : List δ} {cause : δ → ε}
  {final : List (Except ε Unit)} {j : Nat}

theorem Foretold.outcome_eq {met : List (Except ε Unit)} (h : Foretold outcome met) {i : Nat}
    (hi : i < met.length) : outcome (i + 1) = met[i] := by
  have hi' : i < ((List.range' 1 met.length).map outcome).length := by simpa using hi
  have heq : met[i] = ((List.range' 1 met.length).map outcome)[i] := by congr 1
  rw [heq, List.getElem_map, List.getElem_range', Nat.one_mul, Nat.add_comm]

/-- The attempts that have failed were to fail. -/
theorem Foretold.ne_ok (h : Foretold outcome (failed.map (fun x => .error (cause x)) ++ final))
    (hpos : 0 < j) (hj : j ≤ failed.length) : outcome j ≠ .ok () := by
  obtain ⟨i, rfl⟩ := Nat.exists_eq_succ_of_ne_zero (Nat.ne_of_gt hpos)
  have hi : i < (failed.map fun x => (.error (cause x) : Except ε Unit)).length := by
    rw [List.length_map]
    exact hj
  rw [h.outcome_eq (by simp; omega), List.getElem_append_left hi]
  simp

/-- The last attempt is the one behind those that have failed. -/
theorem Foretold.last_eq {a : Except ε Unit}
    (h : Foretold outcome (failed.map (fun x => .error (cause x)) ++ [a])) :
    outcome (failed.length + 1) = a := by
  rw [h.outcome_eq (by simp), List.getElem_append_right (by simp)]
  simp

theorem Foretold.succ_eq_of_firstSuccess
    (h : Foretold outcome (failed.map (fun x => .error (cause x)) ++ [.ok ()]))
    (hj : FirstSuccess outcome j) : failed.length + 1 = j := by
  obtain ⟨hpos, hok, hfirst⟩ := hj
  have hlast := h.last_eq
  rcases Nat.lt_trichotomy (failed.length + 1) j with hlt | heq | hgt
  · exact absurd hlast (hfirst _ (Nat.succ_pos _) hlt)
  · exact heq
  · exact absurd hok (h.ne_ok hpos (Nat.le_of_lt_succ hgt))

end

namespace Broker

/-- Attempts to connect that go as they are to go, each on a new connection that can be given
back. -/
structure Obeys (outcome : Nat → Except BrokerCause Unit) (h : List Answered) : Prop where
  expected : ∀ i cause, outcome i = .error cause → cause.isBroker = true
  new : (opened h).Nodup
  met : Foretold outcome (outcomes h)
  released : ∀ c a, (.release c, a) ∈ calls h → a = .ok ()

/-- What connecting has come to in so many tries: those that failed and have given their connection
back, and the connection that is kept, if there is one. -/
structure Tried (url : String) (attempts : Int) (pause : Seconds)
    (outcome : Nat → Except BrokerCause Unit) (tries : Nat)
    (failed : List (Connection × BrokerCause)) (kept : List Connection) (h : List Answered) :
    Prop where
  history : h = paced pause (rounds (missed url attempts) 1 failed ++ kept.map (made url))
  outcomes : outcomes h = (List.range' 1 tries).map outcome
  pauses : h.filterMap Answered.sleeps? = List.replicate (tries - 1) pause
  opened : opened h = failed.map Prod.fst ++ kept
  count : failed.length + kept.length = tries
  givenBack : ∀ x ∈ failed, closings x.1 h = [.release x.1]
  held : ∀ c ∈ kept, closings c h = []

variable {url : String} {attempts : Int} {pause : Seconds} {outcome : Nat → Except BrokerCause Unit}

theorem tried_of_foretold {failed : List (Connection × BrokerCause)} {kept : List Connection}
    {h : List Answered}
    (hh : h = paced pause (rounds (missed url attempts) 1 failed ++ kept.map (made url)))
    (hnew : (opened h).Nodup) (hout : Foretold outcome (Broker.outcomes h)) :
    Tried url attempts pause outcome (failed.length + kept.length) failed kept h := by
  have hopened : opened h = failed.map Prod.fst ++ kept := by
    rw [hh, opened_attempts, List.flatMap_map]
    exact congrArg _ (List.flatMap_singleton' kept)
  have hlen : (Broker.outcomes h).length = failed.length + kept.length := by
    have hmade (c : Connection) : Broker.outcomes (made url c) = [.ok ()] := rfl
    rw [hh, outcomes_attempts, List.flatMap_map, funext hmade, ← List.map_eq_flatMap]
    simp
  have hclosings (c : Connection) : closings c h = failed.flatMap (givenBack c) := by
    have hmade (c' : Connection) : closings c (made url c') = [] := rfl
    rw [hh, closings_attempts, List.flatMap_map]
    simp [hmade]
  obtain ⟨hfailed, -, hkept⟩ := List.nodup_append.mp (hopened ▸ hnew)
  refine ⟨hh, hlen ▸ hout, ?_, hopened, rfl, fun x hx => ?_, fun c hc => ?_⟩
  · rw [hh, Task.filterMap_sleeps_paced, List.length_append, length_rounds, List.length_map]
    intro round hround
    rcases List.mem_append.mp hround with hround | hround
    · obtain ⟨x, -, rfl⟩ := List.mem_map.mp hround
      rfl
    · obtain ⟨c, -, rfl⟩ := List.mem_map.mp hround
      rfl
  · rw [hclosings]
    exact flatMap_givenBack hfailed (List.mem_map_of_mem hx)
  · rw [hclosings]
    exact flatMap_givenBack_of_notMem fun hmem => hkept c hmem c hc rfl

/-- Connecting stops at the first success, or behind all attempts. -/
theorem tries_of_connecting {h : List Answered} {r : Except Failure Connection}
    (hc : Connecting url attempts pause h r) (hobeys : Obeys outcome h) :
    (∀ j : Nat, FirstSuccess outcome j → (j : Int) ≤ attempts →
      ∃ failed c, Tried url attempts pause outcome j failed [c] h ∧ r = .ok c) ∧
    ((∀ i : Nat, 0 < i → (i : Int) ≤ attempts → outcome i ≠ .ok ()) →
      ∃ failed, Tried url attempts pause outcome attempts.toNat failed [] h ∧
        r = .error (.broker (.unreachable attempts (failed.getLast?.map Prod.snd)))) := by
  obtain ⟨hcause, hnew, hout, hrelease⟩ := hobeys
  cases hc with
  | @gaveUp failed hf hlen =>
    have hmet := hout
    rw [← List.append_nil (rounds _ _ _), outcomes_attempts] at hmet
    constructor
    · intro j hj hle
      exact absurd hj.2.1 (hmet.ne_ok hj.1 (by omega))
    · intro _
      have hh : paced pause (rounds (missed url attempts) 1 failed) =
          paced pause (rounds (missed url attempts) 1 failed ++ [].map (made url)) := by
        rw [List.map_nil, List.append_nil]
      have ht := tried_of_foretold hh hnew hout
      exact ⟨failed, hlen ▸ ht, rfl⟩
  | @made failed hf hlen c =>
    have hmet := hout
    rw [outcomes_attempts] at hmet
    have hh : paced pause (rounds (missed url attempts) 1 failed ++ [made url c]) =
        paced pause (rounds (missed url attempts) 1 failed ++ [c].map (made url)) := rfl
    have ht := tried_of_foretold hh hnew hout
    constructor
    · intro j hj hle
      exact ⟨failed, c, hmet.succ_eq_of_firstSuccess hj ▸ ht, rfl⟩
    · intro hnone
      exact absurd hmet.last_eq (hnone _ (Nat.succ_pos _) (by omega))
  | @stuck failed hf hlen x hx cause =>
    have hmem : (.release x.1, .error cause) ∈ calls (paced pause
        (rounds (missed url attempts) 1 failed ++
          [missedBut url attempts (failed.length + 1) x ++
            [.broker (.release x.1) (.error cause)]])) := by
      rw [calls_attempts, List.flatMap_singleton, calls_append]
      exact List.mem_append_right _ (List.mem_append_right _ (List.mem_singleton_self _))
    exact absurd (hrelease _ _ hmem) (by simp)
  | @crashed failed hf hlen c cause hc =>
    have hmet := hout
    rw [outcomes_attempts] at hmet
    exact absurd (hcause _ _ hmet.last_eq) (by simp [hc])

end Broker

namespace Store

/-- Attempts to reach the store that go as they are to go. -/
structure Obeys (outcome : Nat → Except StoreFault Unit) (h : List Answered) : Prop where
  expected : ∀ i f, outcome i = .error f → f.isUnavailable = true
  met : Foretold outcome (outcomes h)

/-- What waiting has come to in so many tries, of which all but the last have failed, or all. -/
structure Tried (attempts : Int) (pause : Seconds) (outcome : Nat → Except StoreFault Unit)
    (tries : Nat) (failed : List StoreFault) (last : List (List Answered)) (h : List Answered) :
    Prop where
  history : h = paced pause (rounds (missed attempts) 1 failed ++ last)
  outcomes : outcomes h = (List.range' 1 tries).map outcome
  pauses : h.filterMap Answered.sleeps? = List.replicate (tries - 1) pause
  count : failed.length + last.length = tries

variable {attempts : Int} {pause : Seconds} {outcome : Nat → Except StoreFault Unit}

theorem tried_of_foretold {failed : List StoreFault} {last : List (List Answered)}
    {h : List Answered} (hh : h = paced pause (rounds (missed attempts) 1 failed ++ last))
    (hlast : ∀ round ∈ last, round = [.ready (.ok ())])
    (hout : Foretold outcome (Store.outcomes h)) :
    Tried attempts pause outcome (failed.length + last.length) failed last h := by
  have hlen : (Store.outcomes h).length = failed.length + last.length := by
    have hone : Store.outcomes [.ready (.ok ())] = [.ok ()] := rfl
    rw [hh, outcomes_attempts, List.eq_replicate_of_mem hlast]
    simp [List.flatMap_replicate, hone]
  refine ⟨hh, hlen ▸ hout, ?_, rfl⟩
  rw [hh, Task.filterMap_sleeps_paced, List.length_append, length_rounds]
  intro round hround
  rcases List.mem_append.mp hround with hround | hround
  · obtain ⟨f, -, rfl⟩ := List.mem_map.mp hround
    rfl
  · rw [hlast round hround]
    rfl

/-- Waiting stops at the first answer, or behind all attempts. -/
theorem tries_of_awaiting {h : List Answered} {r : Except Failure Unit}
    (ha : Awaiting attempts pause h r) (hobeys : Obeys outcome h) :
    (∀ j : Nat, FirstSuccess outcome j → (j : Int) ≤ attempts →
      ∃ failed, Tried attempts pause outcome j failed [[.ready (.ok ())]] h ∧ r = .ok ()) ∧
    ((∀ i : Nat, 0 < i → (i : Int) ≤ attempts → outcome i ≠ .ok ()) →
      ∃ failed, Tried attempts pause outcome attempts.toNat failed [] h ∧
        r = .error (.notReady attempts failed.getLast?)) := by
  obtain ⟨hfault, hout⟩ := hobeys
  cases ha with
  | @gaveUp failed hf hlen =>
    have hmet := hout
    rw [← List.append_nil (rounds _ _ _), outcomes_attempts] at hmet
    constructor
    · intro j hj hle
      exact absurd hj.2.1 (hmet.ne_ok hj.1 (by omega))
    · intro _
      have hh : paced pause (rounds (missed attempts) 1 failed) =
          paced pause (rounds (missed attempts) 1 failed ++ []) := by
        rw [List.append_nil]
      have ht := tried_of_foretold hh (by simp) hout
      exact ⟨failed, hlen ▸ ht, rfl⟩
  | @answered failed hf hlen =>
    have hmet := hout
    rw [outcomes_attempts] at hmet
    have ht := tried_of_foretold rfl (fun _ => List.mem_singleton.mp) hout
    constructor
    · intro j hj hle
      exact ⟨failed, hmet.succ_eq_of_firstSuccess hj ▸ ht, rfl⟩
    · intro hnone
      exact absurd hmet.last_eq (hnone _ (Nat.succ_pos _) (by omega))
  | @crashed failed hf hlen f hc =>
    have hmet := hout
    rw [outcomes_attempts] at hmet
    exact absurd (hfault _ _ hmet.last_eq) (by simp [hc])

end Store

/-- Whatever each attempt is to come to, both loops of a start make attempts up to the first success
and no more, or as many as they may. They pause between two of them, connecting keeps the last
connection only, and giving up tells the last failure. -/
theorem attempts_until_success {σ : Type} (w : World σ) (s : σ) (attempts : Int) (pause : Seconds) :
    (∀ (url : String) (outcome : Nat → Except BrokerCause Unit),
      Broker.Obeys outcome ((Broker.connect url attempts pause).history w s) →
      (∀ j : Nat, FirstSuccess outcome j → (j : Int) ≤ attempts → ∃ failed c,
        Broker.Tried url attempts pause outcome j failed [c]
          ((Broker.connect url attempts pause).history w s) ∧
        (Broker.connect url attempts pause).result w s = .ok c) ∧
      ((∀ i : Nat, 0 < i → (i : Int) ≤ attempts → outcome i ≠ .ok ()) → ∃ failed,
        Broker.Tried url attempts pause outcome attempts.toNat failed []
          ((Broker.connect url attempts pause).history w s) ∧
        (Broker.connect url attempts pause).result w s =
          .error (.broker (.unreachable attempts (failed.getLast?.map Prod.snd))))) ∧
    ∀ outcome : Nat → Except StoreFault Unit,
      Store.Obeys outcome ((Store.await attempts pause).history w s) →
      (∀ j : Nat, FirstSuccess outcome j → (j : Int) ≤ attempts → ∃ failed,
        Store.Tried attempts pause outcome j failed [[.ready (.ok ())]]
          ((Store.await attempts pause).history w s) ∧
        (Store.await attempts pause).result w s = .ok ()) ∧
      ((∀ i : Nat, 0 < i → (i : Int) ≤ attempts → outcome i ≠ .ok ()) → ∃ failed,
        Store.Tried attempts pause outcome attempts.toNat failed []
          ((Store.await attempts pause).history w s) ∧
        (Store.await attempts pause).result w s =
          .error (.notReady attempts failed.getLast?)) := by
  constructor
  · intro url outcome hobeys
    exact Broker.tries_of_connecting (Broker.connecting_of_ends (Task.ends_history w _ s)) hobeys
  · intro outcome hobeys
    exact Store.tries_of_awaiting (Store.awaiting_of_ends (Task.ends_history w _ s)) hobeys

/-- The third connection is the first that can be used, and the store answers when it is asked
again. -/
def wavering : Deployment :=
  { Deployment.small (.remote .empty) with
    storePlan := [.statementFails]
    broker := { Broker.empty with plan := ⟨[("connect", [some .io, some .operation])]⟩ } }

def waveringConnects : Nat → Except BrokerCause Unit
  | 1 => .error .io
  | 2 => .error .operation
  | _ => .ok ()

def waveringProbes : Nat → Except StoreFault Unit
  | 1 => .error (.unavailable "check_ready" .statement)
  | _ => .ok ()

theorem attempts_until_success_wavering :
    FirstSuccess waveringConnects 3 ∧ (3 : Int) ≤ 3 ∧
    Broker.Obeys waveringConnects
      ((Broker.connect "amqp://" 3 (.whole 2)).history Deployment.answer wavering) ∧
    (∃ failed c, Broker.Tried "amqp://" 3 (.whole 2) waveringConnects 3 failed [c]
        ((Broker.connect "amqp://" 3 (.whole 2)).history Deployment.answer wavering) ∧
      (Broker.connect "amqp://" 3 (.whole 2)).result Deployment.answer wavering = .ok c) ∧
    FirstSuccess waveringProbes 2 ∧ (2 : Int) ≤ 3 ∧
    Store.Obeys waveringProbes ((Store.await 3 (.whole 2)).history Deployment.answer wavering) ∧
    ∃ failed, Store.Tried 3 (.whole 2) waveringProbes 2 failed [[.ready (.ok ())]]
        ((Store.await 3 (.whole 2)).history Deployment.answer wavering) ∧
      (Store.await 3 (.whole 2)).result Deployment.answer wavering = .ok () := by
  have hconnects : FirstSuccess waveringConnects 3 := by
    refine ⟨by decide, rfl, ?_⟩
    rintro (_ | _ | _ | i) hpos hlt
    · exact absurd hpos (by decide)
    · exact nofun
    · exact nofun
    · omega
  have hprobes : FirstSuccess waveringProbes 2 := by
    refine ⟨by decide, rfl, ?_⟩
    rintro (_ | _ | i) hpos hlt
    · exact absurd hpos (by decide)
    · exact nofun
    · omega
  have hconnect : Broker.Obeys waveringConnects
      ((Broker.connect "amqp://" 3 (.whole 2)).history Deployment.answer wavering) := by
    refine ⟨fun i cause hcause => ?_, Deployment.nodup_opened _ _, rfl, fun c a ha => ?_⟩
    · match i with
      | 0 => cases hcause
      | 1 => cases hcause; rfl
      | 2 => cases hcause; rfl
      | i + 3 => cases hcause
    · have hcalls : Broker.calls
          ((Broker.connect "amqp://" 3 (.whole 2)).history Deployment.answer wavering) =
          [(.connect 0, .error .io), (.release 0, .ok ()), (.connect 1, .error .operation),
            (.release 1, .ok ()), (.connect 2, .ok ())] := rfl
      rw [hcalls] at ha
      have hok : c = 0 ∧ a = .ok () ∨ c = 1 ∧ a = .ok () := by simpa using ha
      exact hok.elim And.right And.right
  have hprobe : Store.Obeys waveringProbes
      ((Store.await 3 (.whole 2)).history Deployment.answer wavering) := by
    refine ⟨fun i f hf => ?_, rfl⟩
    match i with
    | 0 => cases hf
    | 1 => cases hf; rfl
    | i + 2 => cases hf
  have hboth := attempts_until_success Deployment.answer wavering 3 (.whole 2)
  exact ⟨hconnects, by decide, hconnect, (hboth.1 _ _ hconnect).1 3 hconnects (by decide),
    hprobes, by decide, hprobe, (hboth.2 _ hprobe).1 2 hprobes (by decide)⟩

end Renewals
