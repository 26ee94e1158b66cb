import Renewals.Proofs.Basic
import Renewals.Proofs.Calendar.Month
import Renewals.Proofs.Text.Trim
import Renewals.Store.Basic
import Renewals.Subscription.Order
/-! What is true of every subscription that a request is accepted for. A table with constraints
checks no more than that. -/
namespace Renewals.Subscription

/-- Such as requests ask for. -/
inductive Ordered : Subscription → Prop
  | accepted {o : Order} {username : LooseText} {userUid : Option LooseText} {today : Day}
    {isActive : Bool} {s : Subscription} (h : o.accept username userUid today isActive = .ok s) :
    Ordered s
  | aggregator {username : LooseText} {userUid : Option LooseText} {today : Day} {s : Subscription}
    (h : Subscription.aggregator username userUid today = .ok s) : Ordered s

/-- A price and a term that make sense, a trimmed name that is not empty, and a payment that falls
due a month after the start or later. -/
structure Sound (s : Subscription) : Prop where
  price : 0 ≤ s.price
  months : 0 < s.counterMonths
  named : s.serviceName.isEmpty = false
  trimmed : s.serviceName.strip = s.serviceName
  ends : ∃ last, s.endDate = .ok last
  due : ∃ first due, s.startDate.addMonths 1 = .ok first ∧ s.nextPayment = some due ∧ first ≤ due

theorem checkCommercial_ok {o : Order} (h : o.checkCommercial = .ok ()) :
    o.serviceName.strip.isEmpty = false ∧ 0 ≤ o.price := by
  unfold Order.checkCommercial at h
  split at h
  next => exact absurd h (by simp)
  next hname =>
    split at h
    next => exact absurd h (by simp)
    next hprice => exact ⟨by simpa using hname, by omega⟩

theorem validate_ok {start today last : Day} {months : Int}
    (h : Term.validate start months today = .ok last) :
    0 < months ∧ Term.endDate start months = .ok last := by
  unfold Term.validate at h
  split at h
  next => exact absurd h (by simp)
  next hmonths =>
    split at h
    next => exact absurd h (by simp)
    next hend =>
      split at h
      next => exact absurd h (by simp)
      next =>
        obtain rfl := Except.ok.inj h
        exact ⟨by omega, hend⟩

variable {s : Subscription}

theorem Ordered.sound (h : s.Ordered) : s.Sound := by
  cases h with
  | accepted h =>
    obtain ⟨_, hcheck, h⟩ := exists_of_bind_eq_ok h
    obtain ⟨start, -, h⟩ := exists_of_bind_eq_ok h
    obtain ⟨last, hterm, h⟩ := exists_of_bind_eq_ok h
    obtain ⟨next, hnext, h⟩ := exists_of_bind_eq_ok h
    obtain rfl := Except.ok.inj h
    obtain ⟨hname, hprice⟩ := checkCommercial_ok (eq_ok_of_mapError hcheck)
    obtain ⟨hmonths, hend⟩ := validate_ok hterm
    exact ⟨hprice, hmonths, hname, LooseText.strip_strip _, ⟨last, hend⟩,
      next, next, eq_ok_of_mapError hnext, rfl, Day.le_refl next⟩
  | aggregator h =>
    obtain ⟨next, hnext, h⟩ := exists_of_bind_eq_ok h
    obtain rfl := Except.ok.inj h
    have hnamed : LooseText.isEmpty aggregatorName = false := by decide
    have htrimmed : LooseText.strip aggregatorName = aggregatorName := by decide
    exact ⟨Int.le_refl 0, Int.one_pos, hnamed, htrimmed, ⟨next, hnext⟩,
      next, next, hnext, rfl, Day.le_refl next⟩

/-- No constraint of a table is broken. -/
theorem Sound.violation?_eq_none (h : s.Sound) : s.violation? = none := by
  unfold violation?
  rw [if_neg (Int.not_lt.mpr h.price), if_neg (Int.not_le.mpr h.months)]

end Renewals.Subscription
