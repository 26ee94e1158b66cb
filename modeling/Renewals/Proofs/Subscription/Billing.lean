import Mathlib.Logic.Relation
import Mathlib.Order.Bounds.Basic
import Renewals.Proofs.Calendar.Month
import Renewals.Subscription.Billing
/-! The chain of payment dates. A date that is moved goes on along the chain that it is on, so it
does not matter in how many moves it gets somewhere. Each short month on the way leaves its mark on
the chain, but not on the months that are counted from the start of a subscription. -/
namespace Renewals

namespace Billing

/-- The payment date a month later. -/
def Next (d e : Day) : Prop := d.addMonths 1 = .ok e

/-- Payment dates that follow on each other, month by month. -/
abbrev Chain : Day → Day → Prop := Relation.ReflTransGen Next

theorem Next.monthIndex {d e : Day} (h : Next d e) : e.monthIndex = d.monthIndex + 1 :=
  Int.ofNat_inj.mp (Day.addMonths_eq_ok_iff.mp h).1

theorem Next.day {d e : Day} (h : Next d e) : e.day = min d.day e.span :=
  (Day.addMonths_eq_ok_iff.mp h).2

section
variable {today d e : Day}

/-- A date that has not passed stays. -/
theorem rollForward_of_le (h : today ≤ d) : rollForward today d = .ok d := by
  have hn := Day.le_iff_not_lt.mp h
  unfold rollForward
  cases today.monthIndex + 1 - d.monthIndex with
  | zero => rfl
  | succ steps => rw [rollWithin, if_neg hn]

/-- A date that has passed moves by a month, and then as the date that it has become. -/
theorem rollForward_of_lt (h : d < today) (he : Next d e) :
    rollForward today d = rollForward today e := by
  have hm := he.monthIndex
  have hsteps : today.monthIndex + 1 - d.monthIndex = today.monthIndex + 1 - e.monthIndex + 1 := by
    have := Day.lt_iff_month.mp h
    omega
  rw [rollForward, hsteps, rollWithin, if_pos h, he]
  rfl

theorem rollForward_error (h : d < today) {f : Day.Fault} (he : d.addMonths 1 = .error f) :
    rollForward today d = .error f := by
  have hsteps : today.monthIndex + 1 - d.monthIndex = today.monthIndex - d.monthIndex + 1 := by
    have := Day.lt_iff_month.mp h
    omega
  rw [rollForward, hsteps, rollWithin, if_pos h, he]

/-- Dates that have passed come closer to today month by month. -/
theorem rollForward_induction {motive : Day → Prop} (today : Day)
    (stop : ∀ d, today ≤ d → motive d)
    (step : ∀ d, d < today → (∀ e, Next d e → motive e) → motive d) (d : Day) : motive d := by
  induction hn : today.monthIndex + 1 - d.monthIndex using Nat.strong_induction_on
    generalizing d with
  | _ n ih =>
    by_cases h : d < today
    · refine step d h fun e he => ih _ ?_ e rfl
      have hm := he.monthIndex
      have := Day.lt_iff_month.mp h
      omega
    · exact stop d (Day.le_iff_not_lt.mpr h)

/-- Where a date is moved to is on its chain, and not before today. -/
theorem rollForward_spec (h : rollForward today d = .ok e) : Chain d e ∧ today ≤ e := by
  induction d using rollForward_induction today with
  | stop d hd =>
    rw [rollForward_of_le hd] at h
    obtain rfl := Except.ok.inj h
    exact ⟨.refl, hd⟩
  | step d hd ih =>
    cases hnext : d.addMonths 1 with
    | error f =>
      rw [rollForward_error hd hnext] at h
      exact absurd h (by simp)
    | ok c =>
      rw [rollForward_of_lt hd hnext] at h
      obtain ⟨hc, he⟩ := ih c hnext h
      exact ⟨.head hnext hc, he⟩

/-- The first date of a chain that is not before a day: it is on the chain, and all dates before it
have passed. -/
structure FirstFrom (today due next : Day) : Prop where
  chain : Chain due next
  reached : today ≤ next
  first : ∀ e, Chain due e → Chain e next → e ≠ next → e < today

/-- Dates further on the chain are later. -/
theorem Chain.eq_or_month_lt (h : Chain d e) : d = e ∨ d.monthIndex < e.monthIndex := by
  induction h with
  | refl => exact .inl rfl
  | tail _ hnext ih =>
    have hm := hnext.monthIndex
    right
    rcases ih with rfl | hlt
    · omega
    · omega

theorem rollForward_first (h : rollForward today d = .ok e) : FirstFrom today d e := by
  obtain ⟨hchain, hreach⟩ := rollForward_spec h
  refine ⟨hchain, hreach, ?_⟩
  induction d using rollForward_induction today with
  | stop d hd =>
    -- the date stays, and a chain does not come back
    rw [rollForward_of_le hd] at h
    obtain rfl := Except.ok.inj h
    intro c hdc hcd hne
    rcases hdc.eq_or_month_lt with rfl | hlt
    · exact absurd rfl hne
    · rcases hcd.eq_or_month_lt with rfl | hlt'
      · exact absurd rfl hne
      · omega
  | step d hd ih =>
    intro c hdc hcd hne
    rcases hdc.cases_head with rfl | ⟨x, hx, hxc⟩
    · exact hd
    · rw [rollForward_of_lt hd hx] at h
      exact ih x hx h (rollForward_spec h).1 c hxc hcd hne

/-- A date that has passed comes no further than a month behind today. -/
theorem rollForward_le {bound : Day} (hd : d < today) (h : rollForward today d = .ok e)
    (hb : today.addMonths 1 = .ok bound) : e ≤ bound := by
  induction d using rollForward_induction today with
  | stop d hstop => exact absurd hd (Day.le_iff_not_lt.mp hstop)
  | step d _ ih =>
    cases hnext : d.addMonths 1 with
    | error f =>
      rw [rollForward_error hd hnext] at h
      exact absurd h (by simp)
    | ok c =>
      rw [rollForward_of_lt hd hnext] at h
      by_cases hc : c < today
      · exact ih c hnext hc h
      · rw [rollForward_of_le (Day.le_iff_not_lt.mpr hc)] at h
        obtain rfl := Except.ok.inj h
        exact Day.addMonths_le (Nat.le_of_lt hd) hnext hb

/-- The last day from which a month is sure to follow. -/
def horizon : Day := ⟨9999, 12, 1, by decide, by decide, by decide⟩

/-- The last day that has one a month behind it. -/
def eve : Day := ⟨9999, 11, 30, by decide, by decide, by decide⟩

/-- Up to that day every date can be moved. -/
theorem exists_rollForward (h : today ≤ horizon) (d : Day) : ∃ e, rollForward today d = .ok e := by
  induction d using rollForward_induction today with
  | stop d hd => exact ⟨d, rollForward_of_le hd⟩
  | step d hd ih =>
    have hmonth : d.monthIndex + 1 < 120000 := by
      have hday := d.day_range.1
      simp only [Day.le_iff, Day.key, horizon, Day.monthIndex] at h
      simp only [Day.lt_iff, Day.key] at hd
      simp only [Day.monthIndex] at hd ⊢
      omega
    obtain ⟨e, he⟩ := d.exists_addMonths hmonth
    rw [rollForward_of_lt hd he]
    exact ih e he

/-- A move on the way makes no difference to a later one. -/
theorem rollForward_rollForward {later : Day} (hl : today ≤ later)
    (h : rollForward today d = .ok e) : rollForward later e = rollForward later d := by
  induction d using rollForward_induction today with
  | stop d hd =>
    rw [rollForward_of_le hd] at h
    rw [Except.ok.inj h]
  | step d hd ih =>
    cases hnext : d.addMonths 1 with
    | error f =>
      rw [rollForward_error hd hnext] at h
      exact absurd h (by simp)
    | ok c =>
      rw [rollForward_of_lt hd hnext] at h
      rw [ih c hnext h, rollForward_of_lt (Nat.lt_of_lt_of_le hd hl) hnext]

end

/-- The days of the month of the billing dates up to number `k`, counted in months from the start. -/
def daysUpTo (start : Day) (k : Nat) : Set Nat :=
  {x | ∃ j, 1 ≤ j ∧ j ≤ k ∧ ∃ e, start.addMonths j = .ok e ∧ x = e.day}

/-- A payment date in the month of billing date number `k`. No billing date up to that one has a
lesser day of the month, and one has the same. -/
structure Stands (start due : Day) (k : Nat) : Prop where
  pos : 1 ≤ k
  month : due.monthIndex = start.monthIndex + k
  day : IsLeast (daysUpTo start k) due.day

namespace Stands
variable {start due first : Day} {k : Nat}

theorem day_le (h : Stands start due k) : due.day ≤ start.day := by
  obtain ⟨j, -, -, e, he, hd⟩ := h.day.1
  have := (Day.addMonths_eq_ok_iff.mp he).2
  omega

theorem of_first (h : start.addMonths 1 = .ok first) : Stands start first 1 where
  pos := Nat.le_refl 1
  month := Next.monthIndex h
  day := by
    refine ⟨⟨1, Nat.le_refl 1, Nat.le_refl 1, first, h, rfl⟩, ?_⟩
    rintro x ⟨j, hlow, hhigh, e, he, rfl⟩
    obtain rfl : j = 1 := Nat.le_antisymm hhigh hlow
    exact Nat.le_of_eq (congrArg Day.day (Except.ok.inj (h.symm.trans he)))

/-- A shorter month takes the day of the month down with it, and the billing date as well. -/
theorem next (h : Stands start due k) {later : Day} (hl : Next due later) :
    Stands start later (k + 1) := by
  have hmonth : later.monthIndex = start.monthIndex + (k + 1) := by
    have := hl.monthIndex
    have := h.month
    omega
  have hrange := later.monthIndex_range
  obtain ⟨e, he⟩ := start.exists_addMonths (n := k + 1) (by omega)
  obtain ⟨hem, hed⟩ := Day.addMonths_eq_ok_iff.mp he
  have hday : later.day = min due.day e.day := by
    have hspan : e.span = later.span := Day.span_congr (by omega)
    have := h.day_le
    rw [hl.day, hed, hspan]
    omega
  refine ⟨by omega, hmonth, ?_, ?_⟩
  · rcases Nat.le_total due.day e.day with hle | hle
    · obtain ⟨j, hlow, hhigh, x, hx, hxd⟩ := h.day.1
      exact ⟨j, hlow, by omega, x, hx, by omega⟩
    · exact ⟨k + 1, by omega, Nat.le_refl _, e, he, by omega⟩
  · rintro x ⟨j, hlow, hhigh, y, hy, rfl⟩
    rcases Nat.lt_or_ge k j with hj | hj
    · obtain rfl : j = k + 1 := by omega
      obtain rfl : y = e := Except.ok.inj (hy.symm.trans he)
      omega
    · have := h.day.2 ⟨j, hlow, hj, y, hy, rfl⟩
      omega

theorem of_chain (h : start.addMonths 1 = .ok first) (hc : Chain first due) :
    ∃ k, Stands start due k := by
  induction hc with
  | refl => exact ⟨1, of_first h⟩
  | tail _ hnext ih =>
    obtain ⟨k, hk⟩ := ih
    exact ⟨k + 1, hk.next hnext⟩

/-- The billing date of the month is there, and not before the payment date. -/
theorem exists_billingDate (h : Stands start due k) :
    ∃ e, start.addMonths k = .ok e ∧ e.monthIndex = due.monthIndex ∧ due ≤ e := by
  have hrange := due.monthIndex_range
  have hmonth := h.month
  obtain ⟨e, he⟩ := start.exists_addMonths (n := k) (by omega)
  have hem := (Day.addMonths_eq_ok_iff.mp he).1
  have hle := h.day.2 ⟨k, h.pos, Nat.le_refl k, e, he, rfl⟩
  refine ⟨e, he, by omega, ?_⟩
  rw [Day.le_iff_not_lt, Day.lt_iff_month]
  omega

/-- The payment date is the billing date of its month if and only if no billing date before has had
a lesser day of the month. -/
theorem eq_iff (h : Stands start due k) {e : Day} (he : start.addMonths k = .ok e) :
    due = e ↔ ∀ x ∈ daysUpTo start k, e.day ≤ x := by
  constructor
  · rintro rfl
    exact fun x hx => h.day.2 hx
  · intro hleast
    have hem := (Day.addMonths_eq_ok_iff.mp he).1
    have hmem : e.day ∈ daysUpTo start k := ⟨k, h.pos, Nat.le_refl k, e, he, rfl⟩
    exact Day.eq_of_month (by have := h.month; omega)
      (Nat.le_antisymm (h.day.2 hmem) (hleast _ h.day.1))

/-- Months that all have the day of the start leave no mark. -/
theorem eq_of_day_le (h : Stands start due k) (hday : start.day ≤ 28) :
    start.addMonths k = .ok due := by
  obtain ⟨e, he, -, -⟩ := h.exists_billingDate
  have hkeep {j : Nat} {x : Day} (hx : start.addMonths j = .ok x) : x.day = start.day := by
    have := (Day.addMonths_eq_ok_iff.mp hx).2
    have := x.span_ge
    omega
  rw [(h.eq_iff he).mpr]
  · exact he
  · rintro x ⟨j, -, -, y, hy, rfl⟩
    rw [hkeep he, hkeep hy]

end Stands

end Billing
end Renewals
