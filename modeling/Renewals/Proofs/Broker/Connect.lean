import Renewals.Broker.Topology
import Renewals.Proofs.Task.Retry
/-! How connecting to the broker can go. Every attempt but the last fails and has given its
connection back before the next one begins. -/
namespace Renewals

/-- The channel is closed, or the connection given back. -/
def BrokerCall.isClosing : BrokerCall → Bool
  | closeChannel _ | release _ => true
  | _ => false

namespace Answered

def opens? : Answered → Option Connection
  | opened _ c => some c
  | _ => none

def connects? : Answered → Option (Except BrokerCause Unit)
  | broker (.connect _) a => some a
  | _ => none

def called? : Answered → Option (BrokerCall × Except BrokerCause Unit)
  | broker b a => some (b, a)
  | _ => none

end Answered

namespace Broker
open Renewals.Task (rounds paced)

/-- The connections that were opened, in order. -/
def opened (h : List Answered) : List Connection := h.filterMap Answered.opens?

/-- What the broker was asked to do, and how it went. -/
def calls (h : List Answered) : List (BrokerCall × Except BrokerCause Unit) :=
  h.filterMap Answered.called?

/-- How the attempts to connect went. -/
def outcomes (h : List Answered) : List (Except BrokerCause Unit) :=
  h.filterMap Answered.connects?

/-- What was closed or given back of a connection. -/
def closings (c : Connection) (h : List Answered) : List BrokerCall :=
  ((calls h).map Prod.fst).filter fun b => b.isClosing && b.connection == c

section
variable (early late : List Answered)

@[simp] theorem opened_append : opened (early ++ late) = opened early ++ opened late :=
  List.filterMap_append

@[simp] theorem calls_append : calls (early ++ late) = calls early ++ calls late :=
  List.filterMap_append

@[simp] theorem closings_append (c : Connection) :
    closings c (early ++ late) = closings c early ++ closings c late := by simp [closings]

variable {early late}

theorem mem_calls_left {x : BrokerCall × Except BrokerCause Unit} (hx : x ∈ calls early) :
    x ∈ calls (early ++ late) := by
  rw [calls_append]
  exact List.mem_append_left _ hx

theorem mem_calls_right {x : BrokerCall × Except BrokerCause Unit} (hx : x ∈ calls late) :
    x ∈ calls (early ++ late) := by
  rw [calls_append]
  exact List.mem_append_right _ hx

end

/-! One attempt -/

def openNew (url : String) : Task Connection := Task.perform (.openConnection url)

/-- A connection that cannot be used is given back. -/
def tryOnce (url : String) (attempts : Int) (number : Nat) :
    Task (Except BrokerCause Connection) := do
  let c ← openNew url
  match ← Task.call? (.connect c) with
  | .ok _ => pure (.ok c)
  | .error cause =>
    if cause.isBroker then do
      Task.log .warning
        s!"broker connection attempt {number}/{attempts} failed: {cause.message}"
      Task.call (.release c)
      pure (.error cause)
    else throw (.broker (.raw cause))

theorem connect_eq_retry (url : String) (attempts : Int) (pause : Seconds) :
    connect url attempts pause = Task.retry (tryOnce url attempts)
      (fun last => .broker (.unreachable attempts last)) pause attempts.toNat 1 none := by
  unfold connect
  generalize attempts.toNat = left, 1 = number, (none : Option BrokerCause) = last
  induction left generalizing number last with
  | zero => rfl
  | succ left ih =>
    unfold connectFrom Task.retry tryOnce
    rw [bind_assoc]
    refine bind_congr (x := openNew url) fun c => ?_
    rw [bind_assoc]
    refine bind_congr fun a => ?_
    cases a with
    | ok => rfl
    | error cause =>
      dsimp only
      split
      · simp only [bind_assoc, pure_bind, ih]
        rfl
      · rfl

/-- The history of an attempt that succeeds. -/
def made (url : String) (c : Connection) : List Answered :=
  [.opened url c, .broker (.connect c) (.ok ())]

/-- The history of an attempt that fails, up to the connection given back. -/
def missedBut (url : String) (attempts : Int) (number : Nat) (x : Connection × BrokerCause) :
    List Answered :=
  [.opened url x.1, .broker (.connect x.1) (.error x.2),
    .logged .warning
      s!"broker connection attempt {number}/{attempts} failed: {x.2.message}"]

/-- The history of an attempt that fails. -/
def missed (url : String) (attempts : Int) (number : Nat) (x : Connection × BrokerCause) :
    List Answered :=
  missedBut url attempts number x ++ [.broker (.release x.1) (.ok ())]

/-- What a failed attempt has given back. -/
def givenBack (c : Connection) (x : Connection × BrokerCause) : List BrokerCall :=
  if x.1 = c then [.release c] else []

section
variable {failed : List (Connection × BrokerCause)} {c : Connection}

theorem flatMap_givenBack_of_notMem (hc : c ∉ failed.map Prod.fst) :
    failed.flatMap (givenBack c) = [] := by
  refine List.flatMap_eq_nil_iff.mpr fun x hx => if_neg fun h => hc ?_
  exact List.mem_map.mpr ⟨x, hx, h⟩

theorem flatMap_givenBack (hnew : (failed.map Prod.fst).Nodup) (hc : c ∈ failed.map Prod.fst) :
    failed.flatMap (givenBack c) = [.release c] := by
  induction failed with
  | nil => exact absurd hc List.not_mem_nil
  | cons x failed ih =>
    rw [List.map_cons, List.nodup_cons] at hnew
    rw [List.flatMap_cons]
    by_cases hx : x.1 = c
    · rw [flatMap_givenBack_of_notMem (hx ▸ hnew.1), givenBack, if_pos hx]
      rfl
    · rw [givenBack, if_neg hx, List.nil_append]
      exact ih hnew.2 ((List.mem_cons.mp hc).resolve_left fun h => hx h.symm)

end

section
variable (url : String) (attempts : Int) (pause : Seconds) (number : Nat)
  (failed : List (Connection × BrokerCause)) (final : List (List Answered))

theorem opened_attempts :
    opened (paced pause (rounds (missed url attempts) number failed ++ final)) =
      failed.map Prod.fst ++ final.flatMap opened := by
  have hmissed (i : Nat) (x : Connection × BrokerCause) :
      opened (missed url attempts i x) = [x.1] := rfl
  rw [List.map_eq_flatMap]
  exact Task.filterMap_rounds rfl hmissed failed final

theorem outcomes_attempts :
    outcomes (paced pause (rounds (missed url attempts) number failed ++ final)) =
      failed.map (fun x => .error x.2) ++ final.flatMap outcomes := by
  have hmissed (i : Nat) (x : Connection × BrokerCause) :
      outcomes (missed url attempts i x) = [.error x.2] := rfl
  rw [List.map_eq_flatMap]
  exact Task.filterMap_rounds rfl hmissed failed final

theorem calls_attempts :
    calls (paced pause (rounds (missed url attempts) number failed ++ final)) =
      failed.flatMap (fun x => [(.connect x.1, .error x.2), (.release x.1, .ok ())]) ++
        final.flatMap calls := by
  have hmissed (i : Nat) (x : Connection × BrokerCause) : calls (missed url attempts i x) =
      [(.connect x.1, .error x.2), (.release x.1, .ok ())] := rfl
  exact Task.filterMap_rounds rfl hmissed failed final

theorem closings_attempts (c : Connection) :
    closings c (paced pause (rounds (missed url attempts) number failed ++ final)) =
      failed.flatMap (givenBack c) ++ final.flatMap (closings c) := by
  have hgiven (x : Connection × BrokerCause) :
      ([.connect x.1, .release x.1] : List BrokerCall).filter
        (fun b => b.isClosing && b.connection == c) = givenBack c x := by
    by_cases hx : x.1 = c
    · subst hx
      simp [givenBack, BrokerCall.isClosing, BrokerCall.connection]
    · simp [givenBack, BrokerCall.isClosing, BrokerCall.connection, hx]
  simp only [closings, calls_attempts, List.map_append, List.filter_append, List.map_flatMap,
    List.filter_flatMap, List.map_cons, List.map_nil, hgiven]
  rfl

end

/-- A call goes through, or its failure is raised as it is. -/
theorem ends_call_bind {α : Type} {b : BrokerCall} {f : Unit → Task α} {h : List Answered}
    {r : Except Failure α} : (Task.call b >>= f).Ends h r ↔
      (∃ rest, h = .broker b (.ok ()) :: rest ∧ (f ()).Ends rest r) ∨
        ∃ cause, h = [.broker b (.error cause)] ∧ r = .error (.broker (.raw cause)) := by
  unfold Task.call
  rw [bind_assoc]
  refine Task.ends_perform_bind.trans ⟨?_, ?_⟩
  · rintro ⟨u | cause, rest, rfl, hr⟩
    · obtain ⟨rfl, rfl⟩ := Task.ends_throw.mp hr
      exact .inr ⟨_, rfl, rfl⟩
    · exact .inl ⟨rest, rfl, hr⟩
  · rintro (⟨rest, rfl, hr⟩ | ⟨cause, rfl, rfl⟩)
    · exact ⟨.ok (), rest, rfl, hr⟩
    · exact ⟨.error cause, [], rfl, Task.ends_throw.mpr ⟨rfl, rfl⟩⟩

/-- How one attempt can go. -/
inductive Trying (url : String) (attempts : Int) (number : Nat) :
    List Answered → Except Failure (Except BrokerCause Connection) → Prop
  | made (c : Connection) : Trying url attempts number (made url c) (.ok (.ok c))
  | missed {x : Connection × BrokerCause} (hx : x.2.isBroker = true) :
    Trying url attempts number (missed url attempts number x) (.ok (.error x.2))
  | stuck {x : Connection × BrokerCause} (hx : x.2.isBroker = true) (cause : BrokerCause) :
    Trying url attempts number
      (missedBut url attempts number x ++ [.broker (.release x.1) (.error cause)])
      (.error (.broker (.raw cause)))
  | crashed (c : Connection) {cause : BrokerCause} (hc : cause.isBroker = false) :
    Trying url attempts number [.opened url c, .broker (.connect c) (.error cause)]
      (.error (.broker (.raw cause)))

variable {url : String} {attempts : Int} {number : Nat} {pause : Seconds} {h : List Answered}

theorem trying_of_ends {r : Except Failure (Except BrokerCause Connection)}
    (ht : (tryOnce url attempts number).Ends h r) : Trying url attempts number h r := by
  obtain ⟨c, rest, rfl, hopen⟩ := Task.ends_perform_bind.mp ht
  obtain ⟨a, rest, rfl, hr⟩ := Task.ends_perform_bind.mp hopen
  cases a with
  | ok u =>
    obtain ⟨rfl, rfl⟩ := Task.ends_pure.mp hr
    exact .made c
  | error cause =>
    cases hc : cause.isBroker with
    | false =>
      simp only [hc, Bool.false_eq_true, if_false] at hr
      obtain ⟨rfl, rfl⟩ := Task.ends_throw.mp hr
      exact .crashed c hc
    | true =>
      simp only [hc, if_true] at hr
      obtain ⟨_, rest, rfl, hlog⟩ := Task.ends_perform_bind.mp hr
      rcases ends_call_bind.mp hlog with ⟨rest, rfl, hlate⟩ | ⟨cause', rfl, rfl⟩
      · obtain ⟨rfl, rfl⟩ := Task.ends_pure.mp hlate
        exact .missed (x := (c, cause)) hc
      · exact .stuck (x := (c, cause)) hc cause'

/-- How connecting can go: no attempt succeeds, or the last one does, or its connection cannot be
given back, or it fails in a way that nobody expects. -/
inductive Connecting (url : String) (attempts : Int) (pause : Seconds) :
    List Answered → Except Failure Connection → Prop
  | gaveUp {failed : List (Connection × BrokerCause)} (hf : ∀ x ∈ failed, x.2.isBroker = true)
    (hlen : failed.length = attempts.toNat) :
    Connecting url attempts pause (paced pause (rounds (missed url attempts) 1 failed))
      (.error (.broker (.unreachable attempts (failed.getLast?.map Prod.snd))))
  | made {failed : List (Connection × BrokerCause)} (hf : ∀ x ∈ failed, x.2.isBroker = true)
    (hlen : failed.length < attempts.toNat) (c : Connection) :
    Connecting url attempts pause
      (paced pause (rounds (missed url attempts) 1 failed ++ [made url c])) (.ok c)
  | stuck {failed : List (Connection × BrokerCause)} (hf : ∀ x ∈ failed, x.2.isBroker = true)
    (hlen : failed.length < attempts.toNat) {x : Connection × BrokerCause}
    (hx : x.2.isBroker = true) (cause : BrokerCause) :
    Connecting url attempts pause
      (paced pause (rounds (missed url attempts) 1 failed ++
        [missedBut url attempts (failed.length + 1) x ++ [.broker (.release x.1) (.error cause)]]))
      (.error (.broker (.raw cause)))
  | crashed {failed : List (Connection × BrokerCause)} (hf : ∀ x ∈ failed, x.2.isBroker = true)
    (hlen : failed.length < attempts.toNat) (c : Connection) {cause : BrokerCause}
    (hc : cause.isBroker = false) :
    Connecting url attempts pause
      (paced pause (rounds (missed url attempts) 1 failed ++
        [[.opened url c, .broker (.connect c) (.error cause)]]))
      (.error (.broker (.raw cause)))

theorem connecting_of_ends {r : Except Failure Connection}
    (hr : (connect url attempts pause).Ends h r) : Connecting url attempts pause h r := by
  rw [connect_eq_retry] at hr
  have hmiss (number : Nat) (h : List Answered) (cause : BrokerCause)
      (ht : (tryOnce url attempts number).Ends h (.ok (.error cause))) :
      ∃ x : Connection × BrokerCause, x.2.isBroker = true ∧ h = missed url attempts number x ∧
        cause = x.2 := by
    cases trying_of_ends ht with
    | missed hx => exact ⟨_, hx, rfl, rfl⟩
  obtain ⟨failed, hf, ⟨hlen, rfl, rfl⟩ | ⟨hlen, final, x, rfl, hx, hend⟩⟩ :=
    Task.exists_of_ends_retry hmiss hr
  · have hlast : (failed.map (some ∘ Prod.snd)).getLastD none = failed.getLast?.map Prod.snd := by
      rw [List.getLastD_eq_getLast?, List.getLast?_map]
      cases failed.getLast? <;> rfl
    rw [hlast]
    exact .gaveUp hf hlen
  · rw [Nat.add_comm] at hx
    rcases hend with ⟨c, rfl, rfl⟩ | ⟨f, rfl, rfl⟩
    · cases trying_of_ends hx with
      | made => exact .made hf hlen c
    · cases trying_of_ends hx with
      | stuck hb cause => exact .stuck hf hlen hb cause
      | crashed c hc => exact .crashed hf hlen c hc

end Broker
end Renewals
