import Renewals.Proofs.Subscription.Refusals
import Renewals.Proofs.Subscription.Term
/-! What an order has to fulfil to be accepted, told by its fields alone. Whatever does not fulfil
it is refused, unless its term leaves the calendar. -/
namespace Renewals

theorem Term.validate_eq_ok_iff {start today last : Day} {months : Int} :
    Term.validate start months today = .ok last ↔
      0 < months ∧ start.addMonths months = .ok last ∧ today ≤ last := by
  unfold Term.validate Term.endDate
  rw [Day.le_iff_not_lt]
  split
  next hnone =>
    constructor
    · intro h
      exact absurd h (by simp)
    · rintro ⟨hmonths, -, -⟩
      omega
  next hmonths =>
    have hpos : 0 < months := by omega
    cases hend : start.addMonths months with
    | error f => simp
    | ok day =>
      dsimp only
      split
      next hlapsed =>
        constructor
        · intro h
          exact absurd h (by simp)
        · rintro ⟨-, hday, hnot⟩
          obtain rfl := Except.ok.inj hday
          exact absurd hlapsed hnot
      next hnot =>
        constructor
        · intro h
          obtain rfl := Except.ok.inj h
          exact ⟨hpos, rfl, hnot⟩
        · rintro ⟨-, hday, -⟩
          exact congrArg _ (Except.ok.inj hday)

/-- A longer term ends later. -/
theorem Day.le_of_months_le {d e last : Day} {months longer : Int} (hle : months ≤ longer)
    (he : d.addMonths months = .ok e) (hl : d.addMonths longer = .ok last) : e ≤ last := by
  rcases Int.lt_or_eq_of_le hle with hlt | rfl
  · exact Nat.le_of_lt (Day.addMonths_lt hlt he hl)
  · obtain rfl := Except.ok.inj (he.symm.trans hl)
    exact Day.le_refl e

namespace Order

/-- A name that can be seen, a price that is not negative, and a number of months from a day that
lead to today at least. -/
structure Meets (o : Order) (today : Day) : Prop where
  named : ∃ c ∈ o.serviceName.points, c.isBlank = false
  price : 0 ≤ o.price
  months : 0 < o.counterMonths
  term : ∃ start last, Term.readStart o.startDate = .ok start ∧
    start.addMonths o.counterMonths = .ok last ∧ today ≤ last

/-- If the order has a start and a number of months, it has an end in the calendar. -/
def Ends (o : Order) : Prop :=
  ∀ start, Term.readStart o.startDate = .ok start → 0 < o.counterMonths →
    ∃ last, start.addMonths o.counterMonths = .ok last

variable {o : Order} {username : LooseText} {userUid : Option LooseText} {today : Day}
  {isActive : Bool}

theorem checkCommercial_iff : o.checkCommercial = .ok () ↔
    (∃ c ∈ o.serviceName.points, c.isBlank = false) ∧ 0 ≤ o.price := by
  rw [← LooseText.isEmpty_strip_eq_false_iff]
  constructor
  · exact Subscription.checkCommercial_ok
  · rintro ⟨hname, hprice⟩
    simp [checkCommercial, hname, Int.not_lt.mpr hprice]

/-- The payment a month after the start is due within the term. -/
theorem Meets.exists_first (h : o.Meets today) : ∃ start first,
    Term.readStart o.startDate = .ok start ∧ start.addMonths 1 = .ok first := by
  obtain ⟨start, last, hstart, hlast, -⟩ := h.term
  obtain ⟨first, hfirst⟩ := Day.exists_addMonths_one h.months hlast
  exact ⟨start, first, hstart, hfirst⟩

/-- What is accepted for some months is accepted for more. -/
theorem Meets.longer (h : o.Meets today) {months : Int} (hlonger : o.counterMonths ≤ months)
    (hend : { o with counterMonths := months }.Ends) :
    { o with counterMonths := months }.Meets today := by
  obtain ⟨start, last, hstart, hlast, hle⟩ := h.term
  have hmonths := h.months
  obtain ⟨later, hlater⟩ := hend start hstart (Int.lt_of_lt_of_le hmonths hlonger)
  have hlater' := Day.le_of_months_le hlonger hlast hlater
  exact ⟨h.named, h.price, Int.lt_of_lt_of_le hmonths hlonger, start, later, hstart, hlater,
    Day.le_trans hle hlater'⟩

theorem exists_accept_iff :
    (∃ s, o.accept username userUid today isActive = .ok s) ↔ o.Meets today := by
  constructor
  · rintro ⟨s, h⟩
    obtain ⟨_, hcheck, h⟩ := exists_of_bind_eq_ok h
    obtain ⟨start, hstart, h⟩ := exists_of_bind_eq_ok h
    obtain ⟨last, hterm, -⟩ := exists_of_bind_eq_ok h
    obtain ⟨hname, hprice⟩ := checkCommercial_iff.mp (eq_ok_of_mapError hcheck)
    obtain ⟨hmonths, hlast, hle⟩ := Term.validate_eq_ok_iff.mp hterm
    exact ⟨hname, hprice, hmonths, start, last, eq_ok_of_mapError hstart, hlast, hle⟩
  · intro h
    obtain ⟨start, last, hstart, hlast, hle⟩ := h.term
    obtain ⟨first, hfirst⟩ := Day.exists_addMonths_one h.months hlast
    have hcheck := checkCommercial_iff.mpr ⟨h.named, h.price⟩
    have hterm := Term.validate_eq_ok_iff.mpr ⟨h.months, hlast, hle⟩
    simp only [accept, hcheck, hstart, hterm, hfirst, mapError_ok, bind, Except.bind]
    exact ⟨_, rfl⟩

/-- What is not accepted is refused. -/
theorem exists_refusal (hend : o.Ends) (h : ¬ o.Meets today) :
    ∃ r, o.accept username userUid today isActive = .error (.refused r) := by
  cases haccept : o.accept username userUid today isActive with
  | ok s => exact absurd (exists_accept_iff.mp ⟨s, haccept⟩) h
  | error f =>
    obtain ⟨r, rfl⟩ := refused_of_ends (fun start _ => hend start) f haccept
    exact ⟨r, rfl⟩

end Order
end Renewals
