import Renewals.Proofs.Service.Origin
import Renewals.Settings.Basic
/-! Payment dates against the billing dates that are counted from the start. What a request writes
is due a month after its start, and every rollover goes on from the payment date it finds. So a
month without the day of the start leaves its mark on all payment dates behind it, while the billing
dates come back to the day of the start. -/
namespace Renewals

/-- The payment date is on the chain that begins a month after the start. -/
def Subscription.Billed (s : Subscription) : Prop :=
  ∃ first due, s.startDate.addMonths 1 = .ok first ∧ s.nextPayment = some due ∧
    Billing.Chain first due

namespace Subscription
variable {s : Subscription}

theorem Billed.settled (h : s.Billed) (today : Day) : (s.settled today).Billed := by
  rcases s.settled_cases today with hstay | ⟨due, next, hdue, -, hn, hmoved⟩
  · rw [hstay]
    exact h
  · obtain ⟨first, due', hfirst, hdue', hchain⟩ := h
    obtain rfl : due = due' := Option.some.inj (hdue.symm.trans hdue')
    rw [hmoved]
    exact ⟨first, next, hfirst, rfl, hchain.trans (Billing.rollForward_spec hn).1⟩

theorem billed_of_accept {o : Order} {username : LooseText} {userUid : Option LooseText}
    {today : Day} {isActive : Bool} (h : o.accept username userUid today isActive = .ok s) :
    s.Billed := by
  obtain ⟨_, -, h⟩ := exists_of_bind_eq_ok h
  obtain ⟨start, -, h⟩ := exists_of_bind_eq_ok h
  obtain ⟨_, -, h⟩ := exists_of_bind_eq_ok h
  obtain ⟨next, hnext, h⟩ := exists_of_bind_eq_ok h
  obtain rfl := Except.ok.inj h
  exact ⟨next, next, eq_ok_of_mapError hnext, rfl, .refl⟩

theorem billed_of_aggregator {username : LooseText} {userUid : Option LooseText} {today : Day}
    (h : Subscription.aggregator username userUid today = .ok s) : s.Billed := by
  obtain ⟨next, hnext, h⟩ := exists_of_bind_eq_ok h
  obtain rfl := Except.ok.inj h
  exact ⟨next, next, hnext, rfl, .refl⟩

theorem Ordered.billed (h : s.Ordered) : s.Billed := by
  cases h with
  | accepted h => exact billed_of_accept h
  | aggregator h => exact billed_of_aggregator h

end Subscription

namespace Service

/-- If there is a row under the number, its payment date is on its chain. -/
def BilledAt (id : Int) (d : Deployment) : Prop :=
  ∀ r ∈ d.store.table.rows, r.id = id → r.Billed

/-- What is ordered is due a month after its start, and a rollover goes on from the payment date
that it finds. -/
theorem billedAt_finish {p : Policy} {id : Int} {d : Deployment} (steps : List Step)
    (hd : BilledAt id d) : BilledAt id (finish (serve p) steps d) :=
  rows_history (fun _ hs _ _ => hs.billed) (fun today _ h hid => (h hid).settled today) steps hd _
    (finish_mem_history (serve p) steps d)

/-! Entries that were written -/

/-- The subscription that a request to write one asks for. -/
def Request.subscription? : Request → Option Subscription
  | .create today username o userUid => (o.accept username userUid today true).toOption
  | .createAggregator today username userUid =>
    (Subscription.aggregator username userUid today).toOption
  | .update today _ username o userUid => (o.accept username userUid today o.isActive).toOption
  | _ => none

/-- What the request asks for stands in the store under the number once the request is done. -/
def Wrote (p : Policy) (r : Request) (d : Deployment) (id : Int) : Prop :=
  ∃ s, r.subscription? = some s ∧ ⟨s, id⟩ ∈ (d.run (serve p r)).2.store.table.rows

section
variable {p : Policy} {id : Int} {d : Deployment} {r : Request}

theorem billed_of_subscription? {s : Subscription} (h : r.subscription? = some s) : s.Billed := by
  have hok {ε α : Type} {x : Except ε α} {a : α} (h : x.toOption = some a) : x = .ok a := by
    cases x with
    | error e => exact absurd h (by simp [Except.toOption])
    | ok b => exact congrArg _ (Option.some.inj h)
  cases r with
  | create => exact Subscription.billed_of_accept (hok h)
  | createAggregator => exact Subscription.billed_of_aggregator (hok h)
  | update => exact Subscription.billed_of_accept (hok h)
  | _ => exact absurd h (by simp [Request.subscription?])

theorem Wrote.billedAt (h : Wrote p r d id) : BilledAt id (d.run (serve p r)).2 := by
  obtain ⟨s, hs, hmem⟩ := h
  intro q hq hid
  obtain rfl := eq_of_key_eq (Table.distinct _) hq hmem hid
  exact billed_of_subscription? hs

end

/-- An entry that was written, whatever happens to it behind that and whatever fails: the payment
date lies in the month of a billing date, on the least day of the month that the billing dates up to
that one have had. So it is never later than that billing date, and the same unless an earlier
one has had a lesser day of the month. -/
theorem payment_in_billing_month {p : Policy} {w : Request} {d : Deployment} {id : Int}
    (hw : Wrote p w d id) (steps : List Step) {r : Row}
    (hr : r ∈ (finish (serve p) steps (d.run (serve p w)).2).store.table.rows) (hid : r.id = id) :
    ∃ due k e, r.nextPayment = some due ∧ 1 ≤ k ∧ r.startDate.addMonths (k : Nat) = .ok e ∧
      e.monthIndex = due.monthIndex ∧ due ≤ e ∧
      IsLeast (Billing.daysUpTo r.startDate k) due.day ∧
      (due = e ↔ ∀ x ∈ Billing.daysUpTo r.startDate k, e.day ≤ x) ∧
      (r.startDate.day ≤ 28 → due = e) := by
  obtain ⟨first, due, hfirst, hdue, hchain⟩ := billedAt_finish steps hw.billedAt r hr hid
  obtain ⟨k, hk⟩ := Billing.Stands.of_chain hfirst hchain
  obtain ⟨e, he, hmonth, hle⟩ := hk.exists_billingDate
  refine ⟨due, k, e, hdue, hk.pos, he, hmonth, hle, hk.day, hk.eq_iff he, fun hday => ?_⟩
  exact Except.ok.inj ((hk.eq_of_day_le hday).symm.trans he)

/-- Rollovers on these days, one after the other. -/
def rollovers (days : List Day) : List Step := days.map fun today => .call (.rollover today)

/-- An empty store. -/
def blank : Deployment :=
  .fresh .standard Settings.standard.policy ⟨2026, 3, 10, by decide, by decide, by decide⟩ .plain
    (.memory (.empty 1))

/-- A subscription from the last of March on. -/
def lastOfMarch : Request :=
  .create blank.today "alice" ⟨"Cinema", 300, "31-03-2026", 12, true⟩ none

def fifthOfMay : Day := ⟨2026, 5, 5, by decide, by decide, by decide⟩

/-- April has no day 31, and the payment behind it falls due on the 30th of May. -/
def thirtiethOfMay : Row :=
  ⟨{ serviceName := "Cinema", price := 300, username := "alice", userUid := none
     startDate := ⟨2026, 3, 31, by decide, by decide, by decide⟩, counterMonths := 12
     nextPayment := some ⟨2026, 5, 30, by decide, by decide, by decide⟩, isActive := true }, 1⟩

theorem wrote_lastOfMarch : Wrote blank.policy lastOfMarch blank 1 := by
  refine ⟨{ thirtiethOfMay.toSubscription with
    nextPayment := some ⟨2026, 4, 30, by decide, by decide, by decide⟩ }, ?_, ?_⟩
  · decide +kernel
  · decide +kernel

theorem mem_rollovers_may : thirtiethOfMay ∈ (finish (serve blank.policy) (rollovers [fifthOfMay])
    (blank.run (serve blank.policy lastOfMarch)).2).store.table.rows := by
  decide +kernel

theorem payment_in_billing_month_may : Wrote blank.policy lastOfMarch blank 1 ∧
    thirtiethOfMay ∈ (finish (serve blank.policy) (rollovers [fifthOfMay])
      (blank.run (serve blank.policy lastOfMarch)).2).store.table.rows ∧ thirtiethOfMay.id = 1 ∧
    ∃ due k e, thirtiethOfMay.nextPayment = some due ∧ 1 ≤ k ∧
      thirtiethOfMay.startDate.addMonths (k : Nat) = .ok e ∧ e.monthIndex = due.monthIndex ∧
      due ≤ e ∧ IsLeast (Billing.daysUpTo thirtiethOfMay.startDate k) due.day ∧
      (due = e ↔ ∀ x ∈ Billing.daysUpTo thirtiethOfMay.startDate k, e.day ≤ x) ∧
      (thirtiethOfMay.startDate.day ≤ 28 → due = e) :=
  ⟨wrote_lastOfMarch, mem_rollovers_may, rfl,
    payment_in_billing_month wrote_lastOfMarch (rollovers [fifthOfMay]) mem_rollovers_may rfl⟩

/-- A payment date that is no billing date. -/
theorem payment_off_billing_dates : ∃ (p : Policy) (w : Request) (d : Deployment) (id : Int)
    (days : List Day) (r : Row), Wrote p w d id ∧
      r ∈ (finish (serve p) (rollovers days) (d.run (serve p w)).2).store.table.rows ∧ r.id = id ∧
      ¬ ∃ due k, r.nextPayment = some due ∧ 1 ≤ k ∧ r.startDate.addMonths (k : Nat) = .ok due := by
  refine ⟨blank.policy, lastOfMarch, blank, 1, [fifthOfMay], thirtiethOfMay, wrote_lastOfMarch,
    mem_rollovers_may, rfl, ?_⟩
  rintro ⟨due, k, hdue, -, he⟩
  obtain rfl := Option.some.inj hdue
  exact absurd (Day.addMonths_eq_ok_iff.mp he).2 (by decide)

end Service
end Renewals
