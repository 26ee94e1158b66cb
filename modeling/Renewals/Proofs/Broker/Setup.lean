import Renewals.Proofs.Broker.Connect
/-! How setting up a channel can go, and tidying up behind it. -/
namespace Renewals

/-- The channel is opened, or something is declared on it. -/
def BrokerCall.isSetup : BrokerCall → Bool
  | channel _ | declareExchange .. | declareQueue .. | bindQueue .. => true
  | _ => false

theorem BrokerCall.isSetup_of_isClosing {b : BrokerCall} (hb : b.isClosing = true) :
    b.isSetup = false := by
  cases b <;> first | rfl | cases hb

namespace Broker

/-- Calls that all go through. -/
def granted (bs : List BrokerCall) : List Answered := bs.map fun b => .broker b (.ok ())

@[simp] theorem calls_granted (bs : List BrokerCall) :
    calls (granted bs) = bs.map fun b => (b, .ok ()) := by
  induction bs with
  | nil => rfl
  | cons b bs ih => exact congrArg ((b, .ok ()) :: ·) ih

@[simp] theorem opened_granted (bs : List BrokerCall) : opened (granted bs) = [] := by
  induction bs with
  | nil => rfl
  | cons b bs ih => exact ih

theorem setup_of_mem_topologyCalls {c : Connection} {exchange : String} {queues : List QueueConfig}
    {b : BrokerCall} (hb : b ∈ topologyCalls c exchange queues) :
    b.isSetup = true ∧ b.connection = c := by
  have hexchange : ∀ b ∈ exchangeCalls c exchange, b.isSetup = true ∧ b.connection = c := by
    unfold exchangeCalls
    split <;> simp [BrokerCall.isSetup, BrokerCall.connection]
  rcases List.mem_append.mp hb with hb | hb
  · exact hexchange b hb
  · obtain ⟨q, -, hb⟩ := List.mem_flatMap.mp hb
    rcases List.mem_append.mp hb with hb | hb
    · exact hexchange b hb
    · rcases List.mem_cons.mp hb with rfl | hb
      · exact ⟨rfl, rfl⟩
      · split at hb
        · exact absurd hb List.not_mem_nil
        · obtain rfl := List.mem_singleton.mp hb
          exact ⟨rfl, rfl⟩

theorem setup_of_mem {c : Connection} {exchange : String} {queues : List QueueConfig}
    {b : BrokerCall} (hb : b ∈ .channel c :: topologyCalls c exchange queues) :
    b.isSetup = true ∧ b.connection = c := by
  rcases List.mem_cons.mp hb with rfl | hb
  · exact ⟨rfl, rfl⟩
  · exact setup_of_mem_topologyCalls hb

theorem setup_of_granted {c : Connection} {exchange : String} {queues : List QueueConfig}
    {bs : List BrokerCall} (hbs : bs ⊆ .channel c :: topologyCalls c exchange queues) :
    ∀ x ∈ calls (granted bs), x.1.isSetup = true ∧ x.1.connection = c := by
  rw [calls_granted]
  intro x hx
  obtain ⟨b, hb, rfl⟩ := List.mem_map.mp hx
  exact setup_of_mem (hbs hb)

/-- All calls go through, or all before the first that fails. -/
theorem ends_callAll {bs : List BrokerCall} {h : List Answered}
    {r : Except Failure (Except BrokerCause Unit)} (hr : (callAll bs).Ends h r) :
    (h = granted bs ∧ r = .ok (.ok ())) ∨ ∃ early b late cause, bs = early ++ b :: late ∧
      h = granted early ++ [.broker b (.error cause)] ∧ r = .ok (.error cause) := by
  induction bs generalizing h with
  | nil => exact .inl (Task.ends_pure.mp hr)
  | cons b bs ih =>
    obtain ⟨a, rest, rfl, hrest⟩ := Task.ends_perform_bind.mp hr
    cases a with
    | error cause =>
      obtain ⟨rfl, rfl⟩ := Task.ends_pure.mp hrest
      exact .inr ⟨[], b, bs, cause, rfl, rfl, rfl⟩
    | ok u =>
      rcases ih hrest with ⟨rfl, rfl⟩ | ⟨early, b', late, cause, rfl, rfl, rfl⟩
      · exact .inl ⟨rfl, rfl⟩
      · exact .inr ⟨b :: early, b', late, cause, rfl, rfl, rfl⟩

/-- How tidying up can go. What nobody expects is raised as it is. -/
inductive Tidying (what : String) (b : BrokerCall) : List Answered → Except Failure Unit → Prop
  | done : Tidying what b [.broker b (.ok ())] (.ok ())
  | failed {cause : BrokerCause} (hc : cause.isBroker = true) :
    Tidying what b [.broker b (.error cause), .logged .error what] (.ok ())
  | crashed {cause : BrokerCause} (hc : cause.isBroker = false) :
    Tidying what b [.broker b (.error cause)] (.error (.broker (.raw cause)))

theorem tidying_of_ends {what : String} {b : BrokerCall} {h : List Answered}
    {r : Except Failure Unit} (ht : (attemptQuietly what b).Ends h r) : Tidying what b h r := by
  obtain ⟨a, rest, rfl, hr⟩ := Task.ends_perform_bind.mp ht
  cases a with
  | ok u =>
    obtain ⟨rfl, rfl⟩ := Task.ends_pure.mp hr
    exact .done
  | error cause =>
    cases hc : cause.isBroker with
    | false =>
      simp only [hc, Bool.false_eq_true, if_false] at hr
      obtain ⟨rfl, rfl⟩ := Task.ends_throw.mp hr
      exact .crashed hc
    | true =>
      simp only [hc, if_true] at hr
      rw [← bind_pure (Task.log _ _)] at hr
      obtain ⟨_, rest, rfl, hlate⟩ := Task.ends_perform_bind.mp hr
      obtain ⟨rfl, rfl⟩ := Task.ends_pure.mp hlate
      exact .failed hc

section
variable {what : String} {b : BrokerCall} {h : List Answered} {r : Except Failure Unit}

theorem Tidying.calls_eq (ht : Tidying what b h r) : ∃ a, calls h = [(b, a)] := by
  cases ht <;> exact ⟨_, rfl⟩

theorem Tidying.opened_eq (ht : Tidying what b h r) : opened h = [] := by
  cases ht <;> rfl

theorem Tidying.ok (ht : Tidying what b h r)
    (hmild : ∀ cause, (b, .error cause) ∈ calls h → cause.isBroker = true) : r = .ok () := by
  cases ht with
  | crashed hc => exact absurd (hmild _ List.mem_cons_self) (by simp [hc])
  | _ => rfl

end

/-- How setting up a channel can go: all is declared, or there is no channel, or a declaration fails
and the channel is closed again, if it can be, or a call fails in a way that nobody expects. -/
inductive SettingUp (c : Connection) (exchange : String) (queues : List QueueConfig) :
    List Answered → Except Failure Unit → Prop
  | ready : SettingUp c exchange queues
    (granted (.channel c :: topologyCalls c exchange queues)) (.ok ())
  | noChannel {cause : BrokerCause} (hc : cause.isBroker = true) :
    SettingUp c exchange queues [.broker (.channel c) (.error cause)]
      (.error (.broker (.noChannel cause)))
  | noTopology {early late : List BrokerCall} {b : BrokerCall} {cause : BrokerCause}
    (hbs : topologyCalls c exchange queues = early ++ b :: late) (hc : cause.isBroker = true)
    {tail : List Answered}
    (ht : Tidying "failed to close channel" (.closeChannel c) tail (.ok ())) :
    SettingUp c exchange queues
      (granted (.channel c :: early) ++ .broker b (.error cause) :: tail)
      (.error (.broker (.noTopology cause)))
  | stuck {early late : List BrokerCall} {b : BrokerCall} {cause : BrokerCause}
    (hbs : topologyCalls c exchange queues = early ++ b :: late) (hc : cause.isBroker = true)
    {tail : List Answered} {f : Failure}
    (ht : Tidying "failed to close channel" (.closeChannel c) tail (.error f)) :
    SettingUp c exchange queues
      (granted (.channel c :: early) ++ .broker b (.error cause) :: tail) (.error f)
  | crashed {early late : List BrokerCall} {b : BrokerCall} {cause : BrokerCause}
    (hbs : .channel c :: topologyCalls c exchange queues = early ++ b :: late)
    (hc : cause.isBroker = false) :
    SettingUp c exchange queues (granted early ++ [.broker b (.error cause)])
      (.error (.broker (.raw cause)))

theorem settingUp_of_ends {c : Connection} {exchange : String} {queues : List QueueConfig}
    {h : List Answered} {r : Except Failure Unit}
    (hr : (setUpChannel c exchange queues).Ends h r) : SettingUp c exchange queues h r := by
  obtain ⟨a, rest, rfl, hrest⟩ := Task.ends_perform_bind.mp hr
  cases a with
  | error cause =>
    obtain ⟨rfl, rfl⟩ := Task.ends_throw.mp hrest
    cases hc : cause.isBroker with
    | false => exact @SettingUp.crashed _ _ _ [] _ _ _ rfl hc
    | true => exact .noChannel hc
  | ok u =>
    rcases Task.ends_bind.mp hrest with ⟨a, early, late, rfl, hcalls, hlate⟩ | ⟨f, hf, rfl⟩
    · rcases ends_callAll hcalls with ⟨rfl, ha⟩ | ⟨done, b, rest, cause, hbs, rfl, ha⟩
      · cases ha
        obtain ⟨rfl, rfl⟩ := Task.ends_pure.mp hlate
        rw [List.append_nil]
        exact .ready
      · cases ha
        cases hc : cause.isBroker with
        | false =>
          simp only [hc, Bool.false_eq_true, if_false] at hlate
          obtain ⟨rfl, rfl⟩ := Task.ends_throw.mp hlate
          rw [List.append_nil]
          exact @SettingUp.crashed _ _ _ (.channel c :: done) _ _ _ (congrArg _ hbs) hc
        | true =>
          simp only [hc, if_true] at hlate
          rw [List.append_assoc]
          rcases Task.ends_bind.mp hlate with ⟨_, tail, _, rfl, htail, hthrow⟩ | ⟨f, hf, rfl⟩
          · obtain ⟨rfl, rfl⟩ := Task.ends_throw.mp hthrow
            rw [List.append_nil]
            exact .noTopology hbs hc (tidying_of_ends htail)
          · exact .stuck hbs hc (tidying_of_ends hf)
    · rcases ends_callAll hf with ⟨-, ha⟩ | ⟨_, _, _, _, _, _, ha⟩ <;> cases ha

/-- How giving back a channel and its connection can go: the connection is the last, and stays if
closing the channel fails in a way that nobody expects. -/
inductive Disposing (c : Connection) : List Answered → Except Failure Unit → Prop
  | both {early late : List Answered} {r : Except Failure Unit}
    (hc : Tidying "failed to close channel" (.closeChannel c) early (.ok ()))
    (hr : Tidying "failed to close connection" (.release c) late r) :
    Disposing c (early ++ late) r
  | stuck {h : List Answered} {f : Failure}
    (hc : Tidying "failed to close channel" (.closeChannel c) h (.error f)) :
    Disposing c h (.error f)

theorem disposing_of_ends {p : Publisher} {h : List Answered} {r : Except Failure Unit}
    (hr : p.close.Ends h r) : Disposing p.connection h r := by
  rcases Task.ends_bind.mp hr with ⟨_, early, late, rfl, hearly, hlate⟩ | ⟨f, hf, rfl⟩
  · exact .both (tidying_of_ends hearly) (tidying_of_ends hlate)
  · exact .stuck (tidying_of_ends hf)

section
variable {c : Connection} {h : List Answered} {r : Except Failure Unit}

theorem Disposing.closes (hd : Disposing c h r) :
    ∀ x ∈ calls h, x.1.isClosing = true ∧ x.1.connection = c := by
  cases hd with
  | both hc hr =>
    obtain ⟨a, hcalls⟩ := hc.calls_eq
    obtain ⟨a', hcalls'⟩ := hr.calls_eq
    rw [calls_append, hcalls, hcalls']
    exact List.forall_mem_cons.mpr ⟨⟨rfl, rfl⟩, List.forall_mem_singleton.mpr ⟨rfl, rfl⟩⟩
  | stuck hc =>
    obtain ⟨a, hcalls⟩ := hc.calls_eq
    rw [hcalls]
    exact List.forall_mem_singleton.mpr ⟨rfl, rfl⟩

theorem Disposing.opened_eq (hd : Disposing c h r) : opened h = [] := by
  cases hd with
  | both hc hr => rw [opened_append, hc.opened_eq, hr.opened_eq]; rfl
  | stuck hc => exact hc.opened_eq

/-- Where nothing unexpected happens both are given back, the channel first. -/
theorem Disposing.closings_eq (hd : Disposing c h r) (hmild : ∀ b cause, b.isClosing = true →
      (b, .error cause) ∈ calls h → cause.isBroker = true) :
    closings c h = [.closeChannel c, .release c] ∧ r = .ok () := by
  cases hd with
  | both hc hr =>
    refine ⟨?_, hr.ok fun cause hcause => hmild (.release c) cause rfl ?_⟩
    · obtain ⟨a, hcalls⟩ := hc.calls_eq
      obtain ⟨a', hcalls'⟩ := hr.calls_eq
      simp [closings, hcalls, hcalls', BrokerCall.isClosing, BrokerCall.connection]
    · exact mem_calls_right hcause
  | stuck hc => cases hc.ok fun cause hcause => hmild (.closeChannel c) cause rfl hcause

end

end Broker
end Renewals
