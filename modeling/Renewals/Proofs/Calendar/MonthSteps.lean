import Renewals.Proofs.Calendar.Month
/-! Laws of steps of months, forward and back. A step succeeds as long as it stays within the
calendar, it keeps the order of days, and more months lead further. Two steps in a row come into the
month that they sum up to, but a day of the month that the month on the way does not have is lost. -/
namespace Renewals.Day

/-- A year and a month of it, `n` months from the month of a day, or before it if `n` is negative.
The year need not be one of the calendar. -/
structure MonthFrom (d : Day) (n year month : Int) : Prop where
  month_range : 1 ≤ month ∧ month ≤ 12
  apart : 12 * year + month = 12 * d.year + d.month + n

variable {d e f g : Day} {a b n : Int}

theorem monthFrom_iff :
    d.MonthFrom n e.year e.month ↔ (e.monthIndex : Int) = d.monthIndex + n := by
  have hd := d.month_range
  have he := e.month_range
  simp only [monthIndex]
  constructor
  · rintro ⟨-, hapart⟩
    omega
  · intro h
    exact ⟨by omega, by omega⟩

/-- A step of months fails only if the month that it leads to is not in the calendar. -/
theorem exists_addMonths_iff_monthFrom : (∃ e, d.addMonths n = .ok e) ↔
    ∃ year month, d.MonthFrom n year month ∧ 1 ≤ year ∧ year ≤ 9999 := by
  constructor
  · rintro ⟨e, he⟩
    have hmonth := (addMonths_eq_ok_iff.mp he).1
    have hyear := e.year_range
    exact ⟨e.year, e.month, monthFrom_iff.mpr hmonth, by omega, by omega⟩
  · rintro ⟨year, month, ⟨hmonth, hapart⟩, hyear⟩
    have hd := d.month_range
    rw [exists_addMonths_iff, monthIndex]
    omega

/-- A second step leaves the calendar where the one step of the sum does. -/
theorem exists_addMonths_add_iff (he : d.addMonths a = .ok e) :
    (∃ f, e.addMonths b = .ok f) ↔ ∃ g, d.addMonths (a + b) = .ok g := by
  have hmonth := (addMonths_eq_ok_iff.mp he).1
  rw [exists_addMonths_iff, exists_addMonths_iff, hmonth, Int.add_assoc]

section
variable (he : d.addMonths a = .ok e) (hf : e.addMonths b = .ok f)
  (hg : d.addMonths (a + b) = .ok g)
include he hf hg

theorem monthIndex_addMonths_add : f.monthIndex = g.monthIndex := by
  have hem := (addMonths_eq_ok_iff.mp he).1
  have hfm := (addMonths_eq_ok_iff.mp hf).1
  have hgm := (addMonths_eq_ok_iff.mp hg).1
  omega

/-- Beside the one step, two steps cut the day of the month once more, in the month on the way. -/
theorem day_addMonths_add : f.day = min g.day e.span := by
  have hed := (addMonths_eq_ok_iff.mp he).2
  have hfd := (addMonths_eq_ok_iff.mp hf).2
  have hgd := (addMonths_eq_ok_iff.mp hg).2
  have hspan := span_congr (monthIndex_addMonths_add he hf hg)
  rw [hfd, hed, hgd, hspan, Nat.min_right_comm]

theorem addMonths_add_le : f ≤ g := by
  have hmonth := monthIndex_addMonths_add he hf hg
  have hday := day_addMonths_add he hf hg
  rw [le_iff_not_lt, lt_iff_month]
  omega

theorem addMonths_add_eq_iff : f = g ↔ g.day ≤ e.span := by
  have hday := day_addMonths_add he hf hg
  constructor
  · rintro rfl
    omega
  · intro hle
    exact eq_of_month (monthIndex_addMonths_add he hf hg) (by omega)

end

/-- A step of months succeeds exactly if the month that it leads to lies in the years 1 to 9999, and
it keeps the day of the month or takes the last one there is. It keeps the order of days, and with
more months it leads to a later day. A second step fails exactly if the one step of the sum does.
Otherwise it comes into the month of the one step, never later in it, and to the same day exactly if
the month on the way has a day of that number. -/
theorem addMonths_ordered_and_composed (d : Day) (a b : Int) :
    ((∃ e, d.addMonths a = .ok e) ↔
      ∃ year month, d.MonthFrom a year month ∧ 1 ≤ year ∧ year ≤ 9999) ∧
    (∀ e, d.addMonths a = .ok e → d.MonthFrom a e.year e.month ∧ e.day = min d.day e.span) ∧
    (∀ later e f, d ≤ later → d.addMonths a = .ok e → later.addMonths a = .ok f → e ≤ f) ∧
    (∀ more e f, a < more → d.addMonths a = .ok e → d.addMonths more = .ok f → e < f) ∧
    ∀ e, d.addMonths a = .ok e →
      ((∃ f, e.addMonths b = .ok f) ↔ ∃ g, d.addMonths (a + b) = .ok g) ∧
      ∀ f g, e.addMonths b = .ok f → d.addMonths (a + b) = .ok g →
        (f.year = g.year ∧ f.month = g.month) ∧ f ≤ g ∧ (f = g ↔ g.day ≤ e.span) := by
  refine ⟨exists_addMonths_iff_monthFrom, ?lands, fun _ _ _ => addMonths_le,
    fun _ _ _ => addMonths_lt, ?composes⟩
  case lands =>
    intro e he
    obtain ⟨hmonth, hday⟩ := addMonths_eq_ok_iff.mp he
    exact ⟨monthFrom_iff.mpr hmonth, hday⟩
  case composes =>
    intro e he
    refine ⟨exists_addMonths_add_iff he, fun f g hf hg => ?_⟩
    have hmonth := monthIndex_eq_iff.mp (monthIndex_addMonths_add he hf hg)
    exact ⟨hmonth, addMonths_add_le he hf hg, addMonths_add_eq_iff he hf hg⟩

/-- From the end of January a year and a month on, and then a year back. The February on the way has
no leap day, and so the one of the start's year is missed. -/
theorem addMonths_ordered_and_composed_leap :
    let start : Day := ⟨2024, 1, 31, by decide, by decide, by decide⟩
    let leap : Day := ⟨2024, 2, 29, by decide, by decide, by decide⟩
    let way : Day := ⟨2025, 2, 28, by decide, by decide, by decide⟩
    let back : Day := ⟨2024, 2, 28, by decide, by decide, by decide⟩
    let fromLeap : Day := ⟨2025, 3, 29, by decide, by decide, by decide⟩
    let further : Day := ⟨2025, 3, 31, by decide, by decide, by decide⟩
    start.addMonths 13 = .ok way ∧ (start.MonthFrom 13 2025 2 ∧ way.day = min 31 way.span) ∧
      (start ≤ leap ∧ leap.addMonths 13 = .ok fromLeap ∧ way ≤ fromLeap) ∧
      ((13 : Int) < 14 ∧ start.addMonths 14 = .ok further ∧ way < further) ∧
      (way.addMonths (-12) = .ok back ∧ start.addMonths (13 + -12) = .ok leap) ∧
      (back.year = leap.year ∧ back.month = leap.month) ∧ back ≤ leap ∧
      (back = leap ↔ leap.day ≤ way.span) := by
  intro start leap way back fromLeap further
  have hway : start.addMonths 13 = .ok way := addMonths_eq_ok_iff.mpr ⟨by decide, by decide⟩
  have hleap : leap.addMonths 13 = .ok fromLeap := addMonths_eq_ok_iff.mpr ⟨by decide, by decide⟩
  have hfurther : start.addMonths 14 = .ok further :=
    addMonths_eq_ok_iff.mpr ⟨by decide, by decide⟩
  have hback : way.addMonths (-12) = .ok back := addMonths_eq_ok_iff.mpr ⟨by decide, by decide⟩
  have hdirect : start.addMonths (13 + -12) = .ok leap :=
    addMonths_eq_ok_iff.mpr ⟨by decide, by decide⟩
  have hlate : start ≤ leap := by decide
  have hmore : (13 : Int) < 14 := by decide
  obtain ⟨-, hlands, hkeeps, hgrows, hcomposes⟩ := addMonths_ordered_and_composed start 13 (-12)
  exact ⟨hway, hlands way hway, ⟨hlate, hleap, hkeeps leap way fromLeap hlate hway hleap⟩,
    ⟨hmore, hfurther, hgrows 14 way further hmore hway hfurther⟩, ⟨hback, hdirect⟩,
    (hcomposes way hway).2 back leap hback hdirect⟩

end Renewals.Day
