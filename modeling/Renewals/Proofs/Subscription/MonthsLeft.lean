import Renewals.Proofs.Subscription.Term
/-! How the months left of a term become fewer from day to day. They are computed from the distance
of two months and of two days of the month, and yet each billing date that passes takes one of them
and nothing else does, also where a short month cuts the billing date. -/
namespace Renewals.Term

/-- What is left of a term of so many months on each day: all billing dates at first, and one less
behind each of them. While the term runs, the months that have begun are missing, no more and no
less. -/
structure CountsDown (start : Day) (months : Nat) (last : Day) (left : Day → Nat) : Prop where
  counted : ∀ day, left day = datesFrom start months day
  bounded : ∀ day, left day ≤ months
  falling : ∀ day later, day ≤ later → left later ≤ left day
  drops : ∀ k < months, ∃ due after, start.addMonths (k : Nat) = .ok due ∧ due.next = .ok after ∧
    left due = left after + 1
  rests : ∀ day after, day.next = .ok after → (∀ k < months, start.addMonths (k : Nat) ≠ .ok day) →
    left after = left day
  running : ∀ day, start < day → day < last → (left day : Int) = months - monthsBegun start day

variable {start last day later due after : Day} {k n : Nat}

theorem datesFrom_le (start : Day) (n : Nat) (day : Day) : datesFrom start n day ≤ n := by
  have hle := List.countP_le_length
    (p := fun k => (start.addMonths (k : Nat)).toOption.any (day ≤ ·)) (l := List.range n)
  rwa [List.length_range] at hle

/-- As a day moves on, billing dates fall behind it and none comes back. -/
theorem datesFrom_anti (h : day ≤ later) : datesFrom start n later ≤ datesFrom start n day := by
  apply List.countP_mono_left
  intro k _ hk
  obtain ⟨e, he, hle⟩ := (Option.any_eq_true _ _).mp hk
  apply (Option.any_eq_true _ _).mpr
  exact ⟨e, he, decide_eq_true (Day.le_trans h (of_decide_eq_true hle))⟩

/-- A billing date in a short month is cut, and so its own month has not begun before it. -/
theorem monthsBegun_billingDate (h : start.addMonths k = .ok due) : monthsBegun start due = k := by
  obtain ⟨hmonth, hday⟩ := Day.addMonths_eq_ok_iff.mp h
  rw [monthsBegun_eq, if_neg (by omega)]
  omega

/-- On the day after a billing date the next month has begun. -/
theorem monthsBegun_next (h : start.addMonths k = .ok due) (hnext : due.next = .ok after)
    (hl : start.addMonths n = .ok last) (hk : k < n) : monthsBegun start after = k + 1 := by
  obtain ⟨e, he⟩ := exists_billingDate (k := k + 1) hl hk
  have hbefore := billingDate_lt h he (Nat.lt_succ_self k)
  have hupper := (le_billingDate_iff he).mp (Day.next_le hnext hbefore)
  have hlower : ¬ monthsBegun start after ≤ k := by
    intro hle
    exact Day.le_iff_not_lt.mp ((le_billingDate_iff h).mpr hle) (Day.lt_of_next hnext)
  omega

/-- A day that is no billing date takes nothing with it. -/
theorem datesFrom_next (hl : start.addMonths n = .ok last) (hnext : day.next = .ok after)
    (hnone : ∀ k < n, start.addMonths (k : Nat) ≠ .ok day) :
    datesFrom start n after = datesFrom start n day := by
  apply List.countP_congr
  intro k hk
  have hk := List.mem_range.mp hk
  obtain ⟨e, he⟩ := exists_billingDate hl (Nat.le_of_lt hk)
  simp only [he, Except.toOption, Option.any_some, decide_eq_true_eq]
  constructor
  · intro h
    exact Day.le_trans (Nat.le_of_lt (Day.lt_of_next hnext)) h
  · intro h
    rcases Nat.lt_or_eq_of_le h with hlt | heq
    · exact Day.next_le hnext hlt
    · exact absurd (Day.eq_of_key heq ▸ he) (hnone k hk)

/-- What is computed for each day counts the billing dates from that day on. -/
theorem monthsLeft_counts_down (hl : endDate start n = .ok last) : ∃ left : Day → Nat,
    (∀ day, monthsLeft start n day = .ok (left day)) ∧ CountsDown start n last left := by
  have hend : start.addMonths n = .ok last := hl
  have hleft := monthsLeft_eq_datesFrom (Int.natCast_nonneg n) hl
  refine ⟨datesFrom start n, hleft, fun day => rfl, datesFrom_le start n,
    fun day later => datesFrom_anti, ?drops, fun day after => datesFrom_next hend, ?running⟩
  case drops =>
    intro k hk
    obtain ⟨due, hdue⟩ := exists_billingDate hend (Nat.le_of_lt hk)
    obtain ⟨after, hafter⟩ := Day.exists_next (billingDate_lt hdue hend hk)
    refine ⟨due, after, hdue, hafter, ?_⟩
    rw [datesFrom_eq hend, datesFrom_eq hend, monthsBegun_billingDate hdue,
      monthsBegun_next hdue hafter hend hk]
    omega
  case running =>
    intro day hstart hlast
    have hzero : start.addMonths (0 : Nat) = .ok start :=
      Day.addMonths_eq_ok_iff.mpr ⟨rfl, (Nat.min_eq_left start.day_range.2).symm⟩
    have hsome : ¬ monthsBegun start day ≤ 0 := by
      intro h
      exact Day.le_iff_not_lt.mp ((le_billingDate_iff hzero).mpr h) hstart
    have hfew := (le_billingDate_iff hend).mp (Nat.le_of_lt hlast)
    rw [datesFrom_eq hend]
    omega

/-- A term from the end of January over the end of February in a leap year. -/
theorem monthsLeft_counts_down_january :
    let start : Day := ⟨2024, 1, 31, by decide, by decide, by decide⟩
    let last : Day := ⟨2025, 2, 28, by decide, by decide, by decide⟩
    endDate start (13 : Nat) = .ok last ∧ ∃ left : Day → Nat,
      (∀ day, monthsLeft start (13 : Nat) day = .ok (left day)) ∧
        CountsDown start 13 last left := by
  intro start last
  have hl : endDate start (13 : Nat) = .ok last :=
    Day.addMonths_eq_ok_iff.mpr ⟨by decide, by decide⟩
  exact ⟨hl, monthsLeft_counts_down hl⟩

end Renewals.Term
