import Renewals.Proofs.Subscription.Payload
import Renewals.Proofs.Subscription.Sound
/-! What becomes of orders that are formed as they should be. They are accepted or refused, and what
is accepted can be stored, unless the term ends beyond the calendar. -/
namespace Renewals

/-- A day with a day so many months later has one a month later. -/
theorem Day.exists_addMonths_one {d e : Day} {months : Int} (hm : 0 < months)
    (h : d.addMonths months = .ok e) : ∃ first, d.addMonths 1 = .ok first := by
  have hstart := d.monthIndex_range
  have hend := Day.exists_addMonths_iff.mp ⟨e, h⟩
  exact Day.exists_addMonths_iff.mpr (by omega)

/-- No term of days is longer than the calendar. -/
theorem Day.fitsWord_of_addMonths {d e : Day} {months : Int} (h : d.addMonths months = .ok e) :
    fitsWord months = true := by
  have hstart := d.monthIndex_range
  have hend := Day.exists_addMonths_iff.mp ⟨e, h⟩
  simp only [fitsWord, Bool.and_eq_true, decide_eq_true_eq]
  omega

namespace Order

/-- A name and a price that can be stored, the price not negative, and a number of months. -/
structure Valid (o : Order) : Prop where
  name : ∃ t : String, o.serviceName = t
  price : 0 ≤ o.price
  fits : fitsWord o.price = true
  months : 0 < o.counterMonths

/-- The order has a visible name, and its term begins on a day but ends on none. -/
def EndsBeyond (o : Order) : Prop :=
  o.serviceName.strip.isEmpty = false ∧ ∃ start f,
    Term.readStart o.startDate = .ok start ∧ start.addMonths o.counterMonths = .error f

variable {o : Order} {username : LooseText} {userUid : Option LooseText} {today : Day}
  {isActive : Bool} {s : Subscription}

/-- Whether it is to be active has no part in the decision on an order. -/
theorem accept_active (h : o.accept username userUid today isActive = .ok s) (active : Bool) :
    o.accept username userUid today active = .ok { s with isActive := active } := by
  obtain ⟨_, hcheck, h⟩ := exists_of_bind_eq_ok h
  obtain ⟨start, hstart, h⟩ := exists_of_bind_eq_ok h
  obtain ⟨_, hterm, h⟩ := exists_of_bind_eq_ok h
  obtain ⟨next, hnext, h⟩ := exists_of_bind_eq_ok h
  obtain rfl := Except.ok.inj h
  simp only [accept, hcheck, hstart, hterm, hnext, bind, Except.bind]
  rfl

theorem accept_of_endsBeyond (h : o.Valid) (hend : o.EndsBeyond) :
    ∃ f, o.accept username userUid today isActive = .error (.date f) := by
  obtain ⟨hname, start, f, hstart, hmonths⟩ := hend
  have hcheck : o.checkCommercial = .ok () := by
    simp [checkCommercial, hname, Int.not_lt.mpr h.price]
  have hterm : Term.validate start o.counterMonths today = .error (.date f) := by
    simp [Term.validate, Term.endDate, hmonths, Int.not_le.mpr h.months]
  exists f
  simp only [accept, hcheck, hstart, mapError_ok, bind, Except.bind, hterm]

theorem refused_validate {start last : Day} {months : Int}
    (hend : Term.endDate start months = .ok last) (today : Day) :
    FailsOnly (fun f => ∃ r, f = .refused r) (Term.validate start months today) := by
  unfold Term.validate
  split
  next => exact FailsOnly.error_iff.mpr ⟨_, rfl⟩
  next =>
    rw [hend]
    dsimp only
    split
    next => exact FailsOnly.error_iff.mpr ⟨_, rfl⟩
    next => exact .ok last

/-- An order whose term ends in the calendar is refused at most. -/
theorem refused_of_ends (hend : ∀ start, o.serviceName.strip.isEmpty = false →
      Term.readStart o.startDate = .ok start → 0 < o.counterMonths →
        ∃ last, Term.endDate start o.counterMonths = .ok last) :
    FailsOnly (fun f => ∃ r, f = .refused r) (o.accept username userUid today isActive) := by
  refine .bind (.mapError fun r _ => ⟨r, rfl⟩) fun _ hcheck => ?_
  obtain ⟨hname, -⟩ := Subscription.checkCommercial_ok (eq_ok_of_mapError hcheck)
  refine .bind (.mapError fun r _ => ⟨r, rfl⟩) fun start hstart => ?_
  have hstart := eq_ok_of_mapError hstart
  by_cases hmonths : 0 < o.counterMonths
  · obtain ⟨last, hlast⟩ := hend start hname hstart hmonths
    refine .bind (refused_validate hlast today) fun _ _ => ?_
    -- the first payment is due within the term, so its day is in the calendar if the end is
    obtain ⟨first, hfirst⟩ := Day.exists_addMonths_one hmonths hlast
    rw [hfirst]
    exact .ok _
  · have hnone : Term.validate start o.counterMonths today = .error (.refused .noMonths) :=
      if_pos (by omega)
    rw [hnone]
    exact FailsOnly.error_iff.mpr ⟨_, rfl⟩

theorem refused_of_not_endsBeyond (hend : ¬ o.EndsBeyond) :
    FailsOnly (fun f => ∃ r, f = .refused r) (o.accept username userUid today isActive) := by
  apply refused_of_ends
  intro start hname hstart _
  cases h : Term.endDate start o.counterMonths with
  | ok last => exact ⟨last, rfl⟩
  | error f => exact absurd ⟨hname, start, f, hstart, h⟩ hend

/-- What is accepted can be stored. -/
theorem Valid.storable (h : o.Valid) (huser : ∃ t : String, username = t)
    (huid : ∀ t ∈ userUid, ∃ u : String, t = u)
    (hs : o.accept username userUid today isActive = .ok s) : s.Storable := by
  obtain ⟨_, -, hs⟩ := exists_of_bind_eq_ok hs
  obtain ⟨start, -, hs⟩ := exists_of_bind_eq_ok hs
  obtain ⟨last, hterm, hs⟩ := exists_of_bind_eq_ok hs
  obtain ⟨next, -, hs⟩ := exists_of_bind_eq_ok hs
  obtain rfl := Except.ok.inj hs
  obtain ⟨name, hname⟩ := h.name
  obtain ⟨-, hlast⟩ := Subscription.validate_ok hterm
  have hstrip : ∃ t : String, o.serviceName.strip = t := by
    rw [hname]
    exact ⟨Text.strip name, rfl⟩
  exact ⟨hstrip, h.fits, huser, huid, Day.fitsWord_of_addMonths hlast⟩

end Order
end Renewals
