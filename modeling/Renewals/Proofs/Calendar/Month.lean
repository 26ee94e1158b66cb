import Renewals.Calendar.Month
/-! Steps of months. A step leads into the month that is meant, to the day of the month that was
left or to the last one there is. -/
namespace Renewals.Day

theorem day_lt (d : Day) : d.day < 32 := by
  have hday := d.day_range
  have hlen := monthLength_le d.year d.month
  omega

theorem monthIndex_eq_iff {a b : Day} :
    a.monthIndex = b.monthIndex ↔ a.year = b.year ∧ a.month = b.month := by
  have ha := a.month_range
  have hb := b.month_range
  simp only [monthIndex]
  omega

theorem eq_of_month {a b : Day} (hm : a.monthIndex = b.monthIndex) (hd : a.day = b.day) :
    a = b := by
  obtain ⟨hyear, hmonth⟩ := monthIndex_eq_iff.mp hm
  obtain ⟨year, month, day, _, _, _⟩ := a
  obtain ⟨year', month', day', _, _, _⟩ := b
  obtain rfl : year = year' := hyear
  obtain rfl : month = month' := hmonth
  obtain rfl : day = day' := hd
  rfl

theorem eq_of_key {a b : Day} (h : a.key = b.key) : a = b := by
  have ha := a.day_lt
  have hb := b.day_lt
  simp only [key] at h
  apply eq_of_month <;> omega

theorem lt_iff_month {a b : Day} :
    a < b ↔ a.monthIndex < b.monthIndex ∨ (a.monthIndex = b.monthIndex ∧ a.day < b.day) := by
  have ha := a.day_lt
  have hb := b.day_lt
  simp only [lt_iff, key]
  omega

theorem le_iff_not_lt {a b : Day} : a ≤ b ↔ ¬ b < a := by
  simp only [lt_iff, le_iff]
  omega

theorem le_refl (a : Day) : a ≤ a := Nat.le_refl a.key

theorem le_trans {a b c : Day} (hab : a ≤ b) (hbc : b ≤ c) : a ≤ c := Nat.le_trans hab hbc

/-- How many days the month of a day has. -/
def span (d : Day) : Nat := monthLength d.year d.month

theorem span_ge (d : Day) : 28 ≤ d.span := monthLength_ge d.year d.month

theorem span_congr {a b : Day} (h : a.monthIndex = b.monthIndex) : a.span = b.span := by
  obtain ⟨hyear, hmonth⟩ := monthIndex_eq_iff.mp h
  simp only [span, hyear, hmonth]

/-- A month within the calendar has each day of the month, or else a last one. -/
theorem exists_inMonth (index : Int) (hlow : 12 ≤ index) (hhigh : index < 120000) {day : Nat}
    (hday : 1 ≤ day) : ∃ e, inMonth index day = .ok e ∧ (e.monthIndex : Int) = index ∧
      e.day = min day e.span := by
  let year := (index / 12).toNat
  let month := (index % 12).toNat + 1
  have hlen := monthLength_ge year month
  have hy : 1 ≤ index / 12 ∧ index / 12 ≤ 9999 := by omega
  have hm : 1 ≤ month ∧ month ≤ 12 := by omega
  have hd : 1 ≤ min day (monthLength year month) ∧
      min day (monthLength year month) ≤ monthLength year month := by omega
  refine ⟨⟨year, month, min day (monthLength year month), by omega, hm, hd⟩, ?_, ?_, rfl⟩
  · simp only [inMonth, make]
    rw [dif_pos hy, dif_pos hm, dif_pos hd]
  · simp only [monthIndex, year, month]
    omega

theorem monthIndex_range (d : Day) : 12 ≤ d.monthIndex ∧ d.monthIndex < 120000 := by
  have hy := d.year_range
  have hm := d.month_range
  simp only [monthIndex]
  omega

/-- Where a step of months leads to, forward or back. -/
theorem addMonths_eq_ok_iff {d e : Day} {n : Int} :
    d.addMonths n = .ok e ↔ (e.monthIndex : Int) = d.monthIndex + n ∧ e.day = min d.day e.span := by
  constructor
  · intro h
    have hrange : 12 ≤ (d.monthIndex + n : Int) ∧ (d.monthIndex + n : Int) < 120000 := by
      simp only [addMonths, inMonth, make] at h
      split at h
      · omega
      · exact absurd h (by simp)
    obtain ⟨f, hf, hm, hday⟩ := exists_inMonth _ hrange.1 hrange.2 d.day_range.1
    obtain rfl : f = e := Except.ok.inj (hf.symm.trans h)
    exact ⟨hm, hday⟩
  · rintro ⟨hm, hday⟩
    have he := e.monthIndex_range
    obtain ⟨f, hf, hm', hday'⟩ := exists_inMonth (d.monthIndex + n) (by omega) (by omega)
      d.day_range.1
    have hmonth : f.monthIndex = e.monthIndex := by omega
    rw [span_congr hmonth, ← hday] at hday'
    rw [← eq_of_month hmonth hday']
    exact hf

/-- A step of months succeeds as long as it stays within the calendar. -/
theorem exists_addMonths_iff {d : Day} {n : Int} :
    (∃ e, d.addMonths n = .ok e) ↔ 12 ≤ d.monthIndex + n ∧ d.monthIndex + n < 120000 := by
  constructor
  · rintro ⟨e, he⟩
    have hmonth := (addMonths_eq_ok_iff.mp he).1
    have hrange := e.monthIndex_range
    omega
  · rintro ⟨hlow, hhigh⟩
    obtain ⟨e, he, -, -⟩ := exists_inMonth _ hlow hhigh d.day_range.1
    exact ⟨e, he⟩

theorem exists_addMonths (d : Day) {n : Nat} (h : d.monthIndex + n < 120000) :
    ∃ e, d.addMonths n = .ok e := by
  have hlow := d.monthIndex_range
  exact exists_addMonths_iff.mpr (by omega)

/-- The same step of months keeps the order of days, though it may make two of them one. -/
theorem addMonths_le {a b c e : Day} {n : Int} (hab : a ≤ b) (hc : a.addMonths n = .ok c)
    (he : b.addMonths n = .ok e) : c ≤ e := by
  obtain ⟨hcm, hcd⟩ := addMonths_eq_ok_iff.mp hc
  obtain ⟨hem, hed⟩ := addMonths_eq_ok_iff.mp he
  rw [le_iff_not_lt, lt_iff_month] at hab ⊢
  by_cases hm : a.monthIndex = b.monthIndex
  · have hspan : c.span = e.span := span_congr (by omega)
    omega
  · omega

/-- More months from the same day lead to a later one. -/
theorem addMonths_lt {d e f : Day} {a b : Int} (hab : a < b) (he : d.addMonths a = .ok e)
    (hf : d.addMonths b = .ok f) : e < f := by
  have hem := (addMonths_eq_ok_iff.mp he).1
  have hfm := (addMonths_eq_ok_iff.mp hf).1
  rw [lt_iff_month]
  omega

theorem eq_of_make {year month day : Nat} {e : Day} (h : make year month day = .ok e) :
    e.year = year ∧ e.month = month ∧ e.day = day := by
  simp only [make, Int.toNat_natCast] at h
  split at h
  · split at h
    · split at h
      · obtain rfl := Except.ok.inj h
        exact ⟨rfl, rfl, rfl⟩
      · exact absurd h (by simp)
    · exact absurd h (by simp)
  · exact absurd h (by simp)

/-- The day after lies in the same month, or it is the first of the next month behind the last day
of this one. -/
theorem next_cases {d e : Day} (h : d.next = .ok e) :
    (e.monthIndex = d.monthIndex ∧ e.day = d.day + 1) ∨
      (d.day = d.span ∧ e.monthIndex = d.monthIndex + 1 ∧ e.day = 1) := by
  have hm := d.month_range
  have hd := d.day_range
  simp only [monthIndex, span]
  unfold next at h
  split at h
  · obtain ⟨hy', hm', hd'⟩ := eq_of_make h
    omega
  · split at h
    · obtain ⟨hy', hm', hd'⟩ := eq_of_make h
      omega
    · split at h
      · have hmake : make (d.year + 1 : Nat) 1 1 = .ok e := h
        obtain ⟨hy', hm', hd'⟩ := eq_of_make hmake
        omega
      · exact absurd h (by simp)

/-- The day after is another day. -/
theorem lt_of_next {d e : Day} (h : d.next = .ok e) : d < e := by
  rw [lt_iff_month]
  have hcases := next_cases h
  omega

/-- No day comes in between. -/
theorem next_le {d e x : Day} (h : d.next = .ok e) (hx : d < x) : e ≤ x := by
  rw [le_iff_not_lt, lt_iff_month]
  rw [lt_iff_month] at hx
  have hpos := x.day_range.1
  rcases next_cases h with hcase | hcase
  · omega
  · -- in the month of the last day there is none behind it
    have hspan : x.monthIndex = d.monthIndex → x.day ≤ d.span :=
      fun he => span_congr he ▸ x.day_range.2
    omega

theorem exists_make {year month day : Nat} (hy : 1 ≤ year ∧ year ≤ 9999)
    (hm : 1 ≤ month ∧ month ≤ 12) (hd : 1 ≤ day ∧ day ≤ monthLength year month) :
    ∃ e, make year month day = .ok e :=
  ⟨_, make_self ⟨year, month, day, hy, hm, hd⟩⟩

/-- Every day before another has a day after. -/
theorem exists_next {d x : Day} (h : d < x) : ∃ e, d.next = .ok e := by
  have hy := d.year_range
  have hm := d.month_range
  have hd := d.day_range
  have hfirst (year month : Nat) : 1 ≤ 1 ∧ 1 ≤ monthLength year month := by
    have := monthLength_ge year month
    omega
  unfold next
  split
  next hlt => exact exists_make hy hm (by omega)
  next hend =>
    split
    next hmonth => exact exists_make hy (by omega) (hfirst _ _)
    next hmonth =>
      split
      next hyear =>
        have hrange : 1 ≤ d.year + 1 ∧ d.year + 1 ≤ 9999 := by omega
        exact exists_make hrange (by decide) (hfirst _ _)
      next hyear =>
        -- this would be the last day of all, and nothing lies behind it
        have hyear : d.year = 9999 := by omega
        have hmonth : d.month = 12 := by omega
        have hlength : monthLength 9999 12 = 31 := rfl
        rw [hyear, hmonth, hlength] at hend
        have hx := x.monthIndex_range
        have hxday := x.day_lt
        simp only [lt_iff, key, monthIndex, hyear, hmonth] at h hx
        omega

end Renewals.Day
