import Renewals.Proofs.Broker.GivenBack
import Renewals.Proofs.Scheduler.Startup
/-! What a start leaves of the connection that it has made: it is kept behind a success, and behind
a failure that nobody expects. Behind every other failure it is given back. -/
namespace Renewals

/-- Connecting asks nothing of the store. -/
theorem Broker.Connecting.outcomes_eq {url : String} {attempts : Int} {pause : Seconds}
    {h : List Answered} {r : Except Failure Connection}
    (hc : Broker.Connecting url attempts pause h r) : Store.outcomes h = [] := by
  have hfailed (failed : List (Connection × BrokerCause)) (final : List (List Answered))
      (hfinal : final.flatMap Store.outcomes = []) : Store.outcomes
        (Task.paced pause (Task.rounds (Broker.missed url attempts) 1 failed ++ final)) = [] := by
    have hmissed (i : Nat) (x : Connection × BrokerCause) :
        Store.outcomes (Broker.missed url attempts i x) = [] := rfl
    refine (Task.filterMap_rounds rfl hmissed failed final).trans ?_
    rw [List.flatMap_eq_nil_iff.mpr fun _ _ => rfl, List.nil_append]
    exact hfinal
  cases hc with
  | @gaveUp failed =>
    rw [← List.append_nil (Task.rounds _ _ failed)]
    exact hfailed failed [] rfl
  | _ => exact hfailed _ _ rfl

namespace ScanProcess
open Renewals.Broker (calls opened closings withChannel granted GivenBack Disposing Tidying)
open Renewals.Broker (topologyCalls mem_withChannel closings_eq_nil calls_append calls_granted)

/-- A call behind the connection, or a probe of the store, fails in a way that a start does not
expect. -/
def Unexpected (h : List Answered) : Prop :=
  (∃ b cause, b.isSetup = true ∧ (b, .error cause) ∈ calls h ∧ cause.isBroker = false) ∨
    ∃ f, .error f ∈ Store.outcomes h ∧ f.isUnavailable = false

theorem calls_awaiting {attempts : Int} {pause : Seconds} {h : List Answered}
    {x : Except Failure Unit} (hw : Store.Awaiting attempts pause h x) : calls h = [] :=
  hw.filterMap_eq_nil (fun _ => rfl) rfl fun _ _ => rfl

theorem opened_awaiting {attempts : Int} {pause : Seconds} {h : List Answered}
    {x : Except Failure Unit} (hw : Store.Awaiting attempts pause h x) : opened h = [] :=
  hw.filterMap_eq_nil (fun _ => rfl) rfl fun _ _ => rfl

section
variable {early late : List Answered}

theorem unexpected_append : Unexpected (early ++ late) ↔ Unexpected early ∨ Unexpected late := by
  simp only [Unexpected, calls_append, Store.outcomes_append, List.mem_append, or_and_right,
    and_or_left, exists_or]
  exact or_or_or_comm

theorem outcomes_granted (bs : List BrokerCall) : Store.outcomes (granted bs) = [] := by
  induction bs with
  | nil => rfl
  | cons b bs ih => exact ih

theorem not_unexpected_granted (bs : List BrokerCall) : ¬Unexpected (granted bs) := by
  simp [Unexpected, outcomes_granted]

theorem not_unexpected_error {b : BrokerCall} {cause : BrokerCause} (hc : cause.isBroker = true) :
    ¬Unexpected [.broker b (.error cause)] := by
  rintro (⟨b', cause', -, hmem, hcause⟩ | ⟨f, hf, -⟩)
  · cases List.mem_singleton.mp hmem
    simp [hc] at hcause
  · cases hf

theorem not_unexpected_awaiting {attempts : Int} {pause : Seconds} {x : Except Failure Unit}
    (hw : Store.Awaiting attempts pause late x) (hx : ∀ f, x ≠ .error (.store f)) :
    ¬Unexpected late := by
  rintro (⟨b, cause, -, hmem, -⟩ | ⟨f, hf, hu⟩)
  · rw [calls_awaiting hw] at hmem
    cases hmem
  · exact hx f (hw.last_of_unexpected hf hu).1

end

/-- The last call fails in a way that a start does not expect, and its failure is raised as it
is. -/
inductive Escaped : List Answered → Failure → Prop
  | broker {before : List Answered} {b : BrokerCall} {cause : BrokerCause} (hb : b.isSetup = true)
    (hc : cause.isBroker = false) :
    Escaped (before ++ [.broker b (.error cause)]) (.broker (.raw cause))
  | store {before : List Answered} {f : StoreFault} (hf : f.isUnavailable = false) :
    Escaped (before ++ [.ready (.error f)]) (.store f)

theorem escaped_of_awaiting {attempts : Int} {pause : Seconds} {h : List Answered} {g : StoreFault}
    (hw : Store.Awaiting attempts pause h (.error (.store g))) (front : List Answered) :
    Escaped (front ++ h) (.store g) := by
  cases hw with
  | crashed hf hlen hc =>
    obtain ⟨before, hbefore⟩ := Task.exists_paced_concat
    rw [hbefore, ← List.append_assoc]
    exact .store hc

/-- What a start leaves of a connection: it is kept by a start that succeeds, and kept as well
behind an unexpected failure. Behind all others it is given back. -/
inductive Leaving (s : Settings) (c : Connection) (front : List Answered) :
    List Answered → Except Failure ScanProcess → Prop
  | started (hexp : ¬Unexpected front) : Leaving s c front [] (.ok (ready s c))
  | escaped {f : Failure} (hf : Escaped front f) : Leaving s c front [] (.error f)
  | released (hexp : ¬Unexpected front) (hc : (.channel c, .ok ()) ∉ calls front)
    {tail : List Answered} {x : Except Failure Unit}
    (ht : Tidying "failed to close connection" (.release c) tail x) (f : Failure) :
    Leaving s c front tail (.error (behind f x))
  | disposed (hexp : ¬Unexpected front) (hc : (.channel c, .ok ()) ∈ calls front)
    {tail : List Answered} {x : Except Failure Unit} (ht : Disposing c tail x) (f : Failure) :
    Leaving s c front tail (.error (behind f x))

variable {s : Settings} {c : Connection} {h : List Answered} {f : Failure}
  {r : Except Failure ScanProcess}

/-- While waiting for the store the queues are there. -/
theorem front_awaiting {x : Except Failure Unit}
    (hw : Store.Awaiting s.readyRetries (.real s.readyPause) h x) :
    opened (granted (setupCalls s c) ++ h) = [] ∧
      ∀ x ∈ calls (granted (setupCalls s c) ++ h), x.1.isSetup = true ∧ x.1.connection = c := by
  rw [Broker.opened_append, Broker.opened_granted, opened_awaiting hw, calls_append,
    calls_awaiting hw, List.append_nil, List.append_nil]
  exact ⟨rfl, Broker.setup_of_granted (List.Subset.refl (setupCalls s c))⟩

/-- Where the setup breaks off, some of its calls have been granted and one more has failed. -/
theorem front_failed {early : List BrokerCall} {b : BrokerCall} (cause : BrokerCause)
    (hearly : early ⊆ setupCalls s c) (hb : b ∈ setupCalls s c) :
    opened (granted early ++ [.broker b (.error cause)]) = [] ∧
      ∀ x ∈ calls (granted early ++ [.broker b (.error cause)]),
        x.1.isSetup = true ∧ x.1.connection = c := by
  rw [Broker.opened_append, Broker.opened_granted, calls_append]
  exact ⟨rfl, List.forall_mem_append.mpr ⟨Broker.setup_of_granted hearly,
    List.forall_mem_singleton.mpr (Broker.setup_of_mem hb)⟩⟩

/-- What happens behind the connection up to the clean-up opens no other and concerns no other. -/
theorem Leading.exists_front (hl : Leading s c h r) : ∃ front tail, h = front ++ tail ∧
    opened front = [] ∧ (∀ x ∈ calls front, x.1.isSetup = true ∧ x.1.connection = c) ∧
    Leaving s c front tail r := by
  cases hl with
  | @noChannel cause hc tail x ht =>
    have hb : .channel c ∈ setupCalls s c := List.mem_cons_self
    obtain ⟨hopened, hcalls⟩ := front_failed cause (List.nil_subset _) hb
    refine ⟨[.broker (.channel c) (.error cause)], tail, rfl, hopened, hcalls,
      .released (not_unexpected_error hc) (fun hmem => ?_) ht _⟩
    cases List.mem_singleton.mp hmem
  | @noTopology early late b cause hbs hc tail x ht =>
    have hb : b ∈ setupCalls s c := by rw [setupCalls, hbs]; simp
    have hearly : .channel c :: early ⊆ setupCalls s c := by
      rw [setupCalls, hbs]
      exact List.cons_subset_cons _ (List.subset_append_left _ _)
    obtain ⟨hopened, hcalls⟩ := front_failed cause hearly hb
    refine ⟨granted (.channel c :: early) ++ [.broker b (.error cause)], tail,
      (List.append_cons ..), hopened, hcalls, .disposed ?_ (by simp) ht _⟩
    exact fun h => (unexpected_append.mp h).elim (not_unexpected_granted _)
      (not_unexpected_error hc)
  | @crashed early late b cause hbs hc =>
    have hb : b ∈ setupCalls s c := by rw [hbs]; simp
    have hearly : early ⊆ setupCalls s c := by
      rw [hbs]
      exact List.subset_append_left _ _
    obtain ⟨hopened, hcalls⟩ := front_failed cause hearly hb
    exact ⟨_, [], (List.append_nil _).symm, hopened, hcalls,
      .escaped (.broker (Broker.setup_of_mem hb).1 hc)⟩
  | @notReady middle last hw tail x ht =>
    obtain ⟨hopened, hcalls⟩ := front_awaiting (c := c) hw
    refine ⟨granted (setupCalls s c) ++ middle, tail, (List.append_assoc ..).symm, hopened, hcalls,
      .disposed ?_ (by simp) ht _⟩
    exact fun h => (unexpected_append.mp h).elim (not_unexpected_granted _)
      (not_unexpected_awaiting hw nofun)
  | @broken middle g hw =>
    obtain ⟨hopened, hcalls⟩ := front_awaiting (c := c) hw
    exact ⟨_, [], (List.append_nil _).symm, hopened, hcalls, .escaped (escaped_of_awaiting hw _)⟩
  | @started middle hw =>
    obtain ⟨hopened, hcalls⟩ := front_awaiting (c := c) hw
    refine ⟨_, [], (List.append_nil _).symm, hopened, hcalls, .started ?_⟩
    exact fun h => (unexpected_append.mp h).elim (not_unexpected_granted _)
      (not_unexpected_awaiting hw nofun)

variable {front tail : List Answered}

theorem Escaped.unexpected (hf : Escaped h f) : Unexpected h := by
  cases hf with
  | @broker before b cause hb hc =>
    exact unexpected_append.mpr (.inr (.inl ⟨b, cause, hb, List.mem_singleton_self _, hc⟩))
  | @store before g hg =>
    exact unexpected_append.mpr (.inr (.inr ⟨g, List.mem_singleton_self _, hg⟩))

theorem outcomes_disposing {x : Except Failure Unit} (hd : Disposing c h x) :
    Store.outcomes h = [] := by
  cases hd with
  | both hc hr => cases hc <;> cases hr <;> rfl
  | stuck hc =>
    cases hc
    rfl

/-- The clean-up closes what belongs to the connection, and does nothing else. -/
theorem Leaving.tail_eq (hl : Leaving s c front tail r) : opened tail = [] ∧
    Store.outcomes tail = [] ∧ ∀ x ∈ calls tail, x.1.isClosing = true ∧ x.1.connection = c := by
  cases hl with
  | started | escaped => exact ⟨rfl, rfl, by simp [calls]⟩
  | released hexp hc ht =>
    obtain ⟨a, hcalls⟩ := ht.calls_eq
    rw [hcalls]
    exact ⟨ht.opened_eq, by cases ht <;> rfl, List.forall_mem_singleton.mpr ⟨rfl, rfl⟩⟩
  | disposed hexp hc ht => exact ⟨ht.opened_eq, outcomes_disposing ht, ht.closes⟩

/-- Behind the connection everything is about it, and it is not connected again. -/
theorem Leading.about (hl : Leading s c h r) : opened h = [] ∧
    ∀ x ∈ calls h, (x.1.isSetup = true ∨ x.1.isClosing = true) ∧ x.1.connection = c := by
  obtain ⟨front, tail, rfl, hopened, hsetups, hleft⟩ := hl.exists_front
  obtain ⟨hopened', -, hcloses⟩ := hleft.tail_eq
  rw [Broker.opened_append, hopened, hopened', calls_append]
  exact ⟨rfl, List.forall_mem_append.mpr
    ⟨fun x hx => ⟨.inl (hsetups x hx).1, (hsetups x hx).2⟩,
      fun x hx => ⟨.inr (hcloses x hx).1, (hcloses x hx).2⟩⟩⟩

/-- What a start that fails leaves of its connection. -/
theorem Leading.settled (hl : Leading s c h (.error f)) :
    (Unexpected h → closings c h = [] ∧ Escaped h f) ∧
      (¬Unexpected h → (∀ b cause, b.isClosing = true → (b, .error cause) ∈ calls h →
        cause.isBroker = true) → GivenBack h c) := by
  obtain ⟨front, tail, rfl, -, hsetups, hleft⟩ := hl.exists_front
  obtain ⟨-, hout, hcloses⟩ := hleft.tail_eq
  have hfront : closings c front = [] := closings_eq_nil fun x hx hclosing => by
    have hsetup := (hsetups x hx).1
    simp [BrokerCall.isSetup_of_isClosing hclosing] at hsetup
  have htail : ¬Unexpected tail := by
    rintro (⟨b, cause, hb, hmem, -⟩ | ⟨g, hg, -⟩)
    · simp [BrokerCall.isSetup_of_isClosing (hcloses _ hmem).1] at hb
    · simp [hout] at hg
  have hchannel : c ∈ withChannel (front ++ tail) ↔ (.channel c, .ok ()) ∈ calls front := by
    rw [mem_withChannel, calls_append, List.mem_append]
    exact or_iff_left fun hmem => by simpa [BrokerCall.isClosing] using (hcloses _ hmem).1
  rw [unexpected_append, or_iff_left htail, GivenBack, Broker.closings_append, hfront,
    List.nil_append]
  cases hleft with
  | escaped hf =>
    rw [List.append_nil]
    exact ⟨fun _ => ⟨rfl, hf⟩, fun hexp => absurd hf.unexpected hexp⟩
  | released hexp hc ht =>
    refine ⟨fun h => absurd h hexp, fun _ _ => ?_⟩
    obtain ⟨a, hcalls⟩ := ht.calls_eq
    rw [if_neg fun h => hc (hchannel.mp h)]
    simp [closings, hcalls, BrokerCall.isClosing, BrokerCall.connection]
  | disposed hexp hc ht =>
    refine ⟨fun h => absurd h hexp, fun _ hmild => ?_⟩
    rw [if_pos (hchannel.mpr hc)]
    exact (ht.closings_eq fun b cause hb hmem =>
      hmild b cause hb (Broker.mem_calls_right hmem)).1

end ScanProcess
end Renewals
