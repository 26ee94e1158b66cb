import Renewals.Proofs.Broker.Setup
import Renewals.Proofs.Scheduler.Await
import Renewals.Scheduler.Process
/-! How a start of the scan process can go, with all that is asked of the broker and the store on
the way. -/
namespace Renewals.ScanProcess
open Renewals.Broker (granted topologyCalls Connecting Disposing Tidying)

/-- What is raised behind a clean-up: cleaning up can fail as well. -/
def behind (f : Failure) : Except Failure Unit → Failure
  | .ok _ => f
  | .error g => g

/-- Failures of some kinds are raised behind a clean-up, and all others as they are. -/
def cleaning {α : Type} (kinds : Failure → Bool) (clean : Task Unit) (t : Task α) : Task α :=
  tryCatch t fun f => do
    if kinds f then clean
    throw f

theorem ends_cleaning {α : Type} {kinds : Failure → Bool} {clean : Task Unit} {t : Task α}
    {h : List Answered} {r : Except Failure α} (hr : (cleaning kinds clean t).Ends h r) :
    (∃ a, t.Ends h (.ok a) ∧ r = .ok a) ∨
      (∃ f, kinds f = false ∧ t.Ends h (.error f) ∧ r = .error f) ∨
      ∃ f early late x, kinds f = true ∧ h = early ++ late ∧ t.Ends early (.error f) ∧
        clean.Ends late x ∧ r = .error (behind f x) := by
  rcases Task.ends_tryCatch.mp hr with hok | ⟨f, early, late, rfl, hf, hlate⟩
  · exact .inl hok
  · cases hk : kinds f with
    | false =>
      simp only [hk, Bool.false_eq_true, if_false] at hlate
      obtain ⟨rfl, rfl⟩ := Task.ends_throw.mp hlate
      exact .inr (.inl ⟨f, hk, by rwa [List.append_nil], rfl⟩)
    | true =>
      simp only [hk, if_true] at hlate
      rcases Task.ends_bind.mp hlate with ⟨_, before, after, rfl, hclean, hthrow⟩ | ⟨g, hg, rfl⟩
      · obtain ⟨rfl, rfl⟩ := Task.ends_throw.mp hthrow
        exact .inr (.inr ⟨f, early, before, _, hk, by rw [List.append_nil], hf, hclean, rfl⟩)
      · exact .inr (.inr ⟨f, early, late, _, hk, rfl, hf, hg, rfl⟩)

def isUnavailable : Failure → Bool
  | .broker f => f.isUnavailable
  | _ => false

def isNotReady : Failure → Bool
  | .notReady .. => true
  | _ => false

theorem provide_eq_cleaning (s : Settings) (c : Connection) :
    provide s c = (do
      cleaning isUnavailable (Broker.attemptQuietly "failed to close connection" (.release c))
        (Broker.setUpChannel c s.exchange s.queues)
      pure (s.publisher c)) := by
  unfold provide cleaning
  congr 2
  funext f
  cases f <;> rfl

theorem awaitStore_eq_cleaning (s : Settings) (p : Publisher) : awaitStore s p =
    cleaning isNotReady p.close (Store.await s.readyRetries (.real s.readyPause)) := by
  unfold awaitStore cleaning
  congr 1
  funext f
  cases f <;> rfl

/-- What is asked of the broker to set up the channel of a connection. -/
abbrev setupCalls (s : Settings) (c : Connection) : List BrokerCall :=
  .channel c :: topologyCalls c s.exchange s.queues

/-- The process with its jobs, not launched yet. -/
def ready (s : Settings) (c : Connection) : ScanProcess :=
  ⟨s.publisher c, [(.dueTomorrow, s.tomorrowInterval), (.dueToday, s.todayInterval)], .empty⟩

/-- How a start can go on behind a connection. -/
inductive Leading (s : Settings) (c : Connection) :
    List Answered → Except Failure ScanProcess → Prop
  | noChannel {cause : BrokerCause} (hc : cause.isBroker = true) {tail : List Answered}
    {r : Except Failure Unit} (ht : Tidying "failed to close connection" (.release c) tail r) :
    Leading s c (.broker (.channel c) (.error cause) :: tail)
      (.error (behind (.broker (.noChannel cause)) r))
  | noTopology {early late : List BrokerCall} {b : BrokerCall} {cause : BrokerCause}
    (hbs : topologyCalls c s.exchange s.queues = early ++ b :: late) (hc : cause.isBroker = true)
    {tail : List Answered} {r : Except Failure Unit} (ht : Disposing c tail r) :
    Leading s c (granted (.channel c :: early) ++ .broker b (.error cause) :: tail)
      (.error (behind (.broker (.noTopology cause)) r))
  | crashed {early late : List BrokerCall} {b : BrokerCall} {cause : BrokerCause}
    (hbs : setupCalls s c = early ++ b :: late) (hc : cause.isBroker = false) :
    Leading s c (granted early ++ [.broker b (.error cause)]) (.error (.broker (.raw cause)))
  | notReady {middle : List Answered} {last : Option StoreFault}
    (hw : Store.Awaiting s.readyRetries (.real s.readyPause) middle
      (.error (.notReady s.readyRetries last)))
    {tail : List Answered} {r : Except Failure Unit} (ht : Disposing c tail r) :
    Leading s c (granted (setupCalls s c) ++ (middle ++ tail))
      (.error (behind (.notReady s.readyRetries last) r))
  | broken {middle : List Answered} {f : StoreFault}
    (hw : Store.Awaiting s.readyRetries (.real s.readyPause) middle (.error (.store f))) :
    Leading s c (granted (setupCalls s c) ++ middle) (.error (.store f))
  | started {middle : List Answered}
    (hw : Store.Awaiting s.readyRetries (.real s.readyPause) middle (.ok ())) :
    Leading s c (granted (setupCalls s c) ++ middle) (.ok (ready s c))

/-- How a start can go. -/
inductive Starting (s : Settings) : List Answered → Except Failure ScanProcess → Prop
  | unconnected {h : List Answered} {f : Failure}
    (hc : Connecting s.brokerUrl s.brokerRetries (.real s.brokerPause) h (.error f)) :
    Starting s h (.error f)
  | connected {c : Connection} {early late : List Answered} {r : Except Failure ScanProcess}
    (hc : Connecting s.brokerUrl s.brokerRetries (.real s.brokerPause) early (.ok c))
    (hl : Leading s c late r) : Starting s (early ++ late) r

variable {s : Settings} {c : Connection} {h : List Answered}

/-- How providing the queues can go. -/
theorem leading_of_provide {r : Except Failure Publisher} (hr : (provide s c).Ends h r) :
    (h = granted (setupCalls s c) ∧ r = .ok (s.publisher c)) ∨
      ∃ f, r = .error f ∧ Leading s c h (.error f) := by
  rw [provide_eq_cleaning] at hr
  rcases Task.ends_bind.mp hr with ⟨_, early, late, rfl, hset, hlate⟩ | ⟨f, hf, rfl⟩
  · obtain ⟨rfl, rfl⟩ := Task.ends_pure.mp hlate
    rcases ends_cleaning hset with ⟨_, hset, -⟩ | ⟨_, _, _, hr⟩ | ⟨_, _, _, _, _, _, _, _, hr⟩
    · cases Broker.settingUp_of_ends hset
      exact .inl ⟨List.append_nil _, rfl⟩
    · cases hr
    · cases hr
  · refine .inr ⟨f, rfl, ?_⟩
    rcases ends_cleaning hf with ⟨_, _, hr⟩ | ⟨g, hk, hset, hr⟩ |
      ⟨g, early, late, x, hk, rfl, hset, hclean, hr⟩
    · cases hr
    · cases hr
      cases Broker.settingUp_of_ends hset with
      | stuck hbs hc ht => exact .noTopology hbs hc (.stuck ht)
      | crashed hbs hc => exact .crashed hbs hc
      | _ => cases hk
    · cases hr
      cases Broker.settingUp_of_ends hset with
      | noChannel hc => exact .noChannel hc (Broker.tidying_of_ends hclean)
      | noTopology hbs hc ht =>
        rw [List.append_assoc]
        exact .noTopology hbs hc (.both ht (Broker.tidying_of_ends hclean))
      | stuck hbs hc ht => cases ht; cases hk
      | crashed => cases hk

/-- How waiting for the store can go once the queues are there. -/
theorem leading_of_awaitStore {r : Except Failure Unit}
    (hr : (awaitStore s (s.publisher c)).Ends h r) :
    Leading s c (granted (setupCalls s c) ++ h) (r.map fun _ => ready s c) := by
  rw [awaitStore_eq_cleaning] at hr
  rcases ends_cleaning hr with ⟨_, hw, rfl⟩ | ⟨f, hk, hw, rfl⟩ |
    ⟨f, early, late, x, hk, rfl, hw, hclean, rfl⟩
  · exact .started (Store.awaiting_of_ends hw)
  · cases Store.awaiting_of_ends hw with
    | gaveUp => cases hk
    | crashed hf hlen hc => exact .broken (.crashed hf hlen hc)
  · cases Store.awaiting_of_ends hw with
    | gaveUp hf hlen => exact .notReady (.gaveUp hf hlen) (Broker.disposing_of_ends hclean)
    | crashed => cases hk

theorem starting_of_ends {r : Except Failure ScanProcess} (ht : (start s).Ends h r) :
    Starting s h r := by
  rcases Task.ends_bind.mp ht with ⟨c, early, late, rfl, hc, hlate⟩ | ⟨f, hf, rfl⟩
  · refine .connected (Broker.connecting_of_ends hc) ?_
    rcases Task.ends_bind.mp hlate with ⟨p, before, after, rfl, hp, hafter⟩ | ⟨f, hf, rfl⟩
    · rcases leading_of_provide hp with ⟨rfl, hr⟩ | ⟨_, hr, -⟩
      · cases hr
        rcases Task.ends_bind.mp hafter with ⟨_, middle, rest, rfl, hw, hrest⟩ | ⟨f, hf, rfl⟩
        · obtain ⟨rfl, rfl⟩ := Task.ends_pure.mp hrest
          rw [List.append_nil]
          exact leading_of_awaitStore hw
        · exact leading_of_awaitStore hf
      · cases hr
    · rcases leading_of_provide hf with ⟨-, hr⟩ | ⟨_, hr, hl⟩
      · cases hr
      · cases hr
        exact hl
  · exact .unconnected (Broker.connecting_of_ends hf)

end Renewals.ScanProcess
