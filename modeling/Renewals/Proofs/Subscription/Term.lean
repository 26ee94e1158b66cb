import Renewals.Proofs.Calendar.Month
import Renewals.Subscription.Term
/-! The months of a term that are still to be billed are the billing dates from a day on, counted
from the start. In a short month a billing date lies before the day of the start, and yet the day of
the start decides: no day of that month lies between the two. -/
namespace Renewals.Term

/-- The billing dates of a term of so many months that are not before a day. -/
def datesFrom (start : Day) (months : Nat) (day : Day) : Nat :=
  (List.range months).countP fun k => (start.addMonths (k : Nat)).toOption.any (day ≤ ·)

variable {start day last e : Day} {k n : Nat}

theorem monthsBegun_eq (start day : Day) : monthsBegun start day =
    day.monthIndex - start.monthIndex + if start.day < day.day then 1 else 0 := by
  have hs := start.month_range
  have hd := day.month_range
  unfold monthsBegun Day.monthIndex
  omega

/-- A billing date is not before a day if no more months have begun until then. -/
theorem le_billingDate_iff (h : start.addMonths k = .ok e) :
    day ≤ e ↔ monthsBegun start day ≤ k := by
  obtain ⟨hmonth, hday⟩ := Day.addMonths_eq_ok_iff.mp h
  rw [Day.le_iff_not_lt, Day.lt_iff_month, monthsBegun_eq]
  by_cases hm : day.monthIndex = e.monthIndex
  · have hspan : day.day ≤ e.span := Day.span_congr hm ▸ day.day_range.2
    split <;> omega
  · split <;> omega

theorem billingDate_lt (h : start.addMonths k = .ok e) (hl : start.addMonths n = .ok last)
    (hk : k < n) : e < last := Day.addMonths_lt (Int.ofNat_lt.mpr hk) h hl

/-- All billing dates up to the last one are there. -/
theorem exists_billingDate (hl : start.addMonths n = .ok last) (hk : k ≤ n) :
    ∃ e, start.addMonths k = .ok e := by
  have hn := (Day.addMonths_eq_ok_iff.mp hl).1
  have hrange := last.monthIndex_range
  exact start.exists_addMonths (by omega)

theorem countP_le_range (b n : Nat) : (List.range n).countP (b ≤ ·) = n - b := by
  induction n with
  | zero => simp
  | succ n ih =>
    rw [List.range_succ, List.countP_append, ih, List.countP_singleton]
    by_cases h : b ≤ n
    · simp only [h, decide_true, ↓reduceIte]
      omega
    · simp only [h, decide_false, Bool.false_eq_true, ↓reduceIte]
      omega

/-- The billing dates from a day on are those behind the months that have begun. -/
theorem datesFrom_eq (hl : start.addMonths n = .ok last) (day : Day) :
    datesFrom start n day = n - (monthsBegun start day).toNat := by
  rw [← countP_le_range]
  refine List.countP_congr fun k hk => ?_
  obtain ⟨e, he⟩ := exists_billingDate hl (Nat.le_of_lt (List.mem_range.mp hk))
  simp only [he, Except.toOption, Option.any_some, decide_eq_true_eq, le_billingDate_iff he]
  omega

/-- What is left of a term is counted without a fault, and is the number of billing dates left. -/
theorem monthsLeft_eq_datesFrom {months : Int} (hm : 0 ≤ months)
    (hl : endDate start months = .ok last) (day : Day) :
    monthsLeft start months day = .ok (datesFrom start months.toNat day) := by
  obtain ⟨n, rfl⟩ := Int.eq_ofNat_of_zero_le hm
  have hend : start.addMonths n = .ok last := hl
  have hstart : day ≤ start ↔ monthsBegun start day ≤ 0 := by
    have hzero : start.addMonths (0 : Nat) = .ok start :=
      Day.addMonths_eq_ok_iff.mpr ⟨rfl, (Nat.min_eq_left start.day_range.2).symm⟩
    exact le_billingDate_iff hzero
  rw [Int.toNat_natCast, datesFrom_eq hend]
  simp only [monthsLeft, hl]
  split
  next hover =>
    -- the first billing date that is left would come before the last day, and so before this one
    have hnone : ¬ (monthsBegun start day).toNat < n := by
      intro hk
      obtain ⟨e, he⟩ := exists_billingDate hend (Nat.le_of_lt hk)
      have hday : day ≤ e := (le_billingDate_iff he).mpr (Int.self_le_toNat _)
      exact Nat.lt_irrefl _ (Nat.lt_of_le_of_lt (Day.le_trans hover hday) (billingDate_lt he hend hk))
    congr 1
    omega
  next =>
    split
    next hearly =>
      have hbegun := hstart.mp hearly
      congr 1
      omega
    next hlate =>
      have hbegun := mt hstart.mpr hlate
      congr 1
      omega

end Renewals.Term
