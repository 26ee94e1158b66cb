import Renewals.Proofs.Store.Schema
import Renewals.Proofs.Store.Sums
/-! What a store that does not fail answers. It takes what can be stored, and works out every sum but
over a day beyond the calendar or for a name without a written form. -/
namespace Renewals

theorem Term.exists_monthsLeft_iff {start day : Day} {months : Int} :
    (∃ n, monthsLeft start months day = .ok n) ↔ ∃ last, endDate start months = .ok last := by
  unfold monthsLeft
  cases endDate start months with
  | error f => simp
  | ok last =>
    simp only [Except.ok.injEq, exists_eq', iff_true]
    split
    next => exact ⟨_, rfl⟩
    next => split <;> exact ⟨_, rfl⟩

/-- A sum exists if all terms in it end. -/
theorem Table.exists_sum_iff {t : Table} {w : Window} {last : Day} :
    (∃ total, t.sum w last = .ok total) ↔
      ∀ r ∈ t.rows, inWindow w last r.toSubscription = true → ∃ e, r.endDate = .ok e := by
  have hfold (rows : List Row) (total : Int) :
      (∃ sum, rows.foldlM (fun total r => do
        let n ← Term.monthsLeft r.startDate r.counterMonths w.startDate
        pure (total + r.price * n)) total = .ok sum) ↔ ∀ r ∈ rows, ∃ e, r.endDate = .ok e := by
    -- the fold carries the total along, so the induction is for every total so far
    induction rows generalizing total with
    | nil => simp [pure, Except.pure]
    | cons r rows ih =>
      rw [List.foldlM_cons, List.forall_mem_cons]
      have hends : (∃ n, Term.monthsLeft r.startDate r.counterMonths w.startDate = .ok n) ↔
          ∃ e, r.endDate = .ok e := Term.exists_monthsLeft_iff
      cases hleft : Term.monthsLeft r.startDate r.counterMonths w.startDate with
      | error f =>
        have hnone : ¬ ∃ e, r.endDate = .ok e := by
          rw [← hends, hleft]
          simp
        simp [hnone, bind, Except.bind]
      | ok n =>
        have hsome : ∃ e, r.endDate = .ok e := by
          rw [← hends, hleft]
          exact ⟨n, rfl⟩
        simp only [hsome, true_and]
        exact ih _
  unfold sum
  rw [hfold]
  constructor
  · intro h r hr hin
    exact h r (List.mem_filter.mpr ⟨hr, hin⟩)
  · intro h r hr
    obtain ⟨hr, hin⟩ := List.mem_filter.mp hr
    exact h r hr hin

/-- Failures that nobody has thought of: a day beyond the calendar, and half of a pair without its
partner. -/
def StoreFault.isOverlooked : StoreFault → Bool
  | .date _ | .torn _ => true
  | _ => false

namespace Store
variable {s : Store} {x : Subscription} {id : Int} {w : Window}

section
variable (hs : s.schema = .plain ∨ s.schema = .checked)
include hs

/-- A query goes as it goes over the rows, if it is handed what can be stored. -/
theorem ask_of_run_ok {q : Query} {r : q.Answer × Table} (hp : prepare q = .ok ())
    (hq : ∀ p ∈ q.parameters, take p = .ok ()) (hrun : run s.schema s.table q = .ok r) :
    (s.ask .sound q).1 = .ok r.1 := by
  simp [ask, session, hp, reach_of_take hs hq, hrun, commit, bind, Except.bind, pure, Except.pure]

theorem ask_create (hx : x.Storable) (hv : x.violation? = none)
    (hnext : fitsWord s.table.nextId = true) :
    (s.ask .sound (.create x)).1 = .ok s.table.nextId := by
  have hrun : run s.schema s.table (.create x) = .ok (s.table.nextId, s.table.insert x) := by
    simp only [run, checkRow_of_violation?_eq_none hv, hnext, ↓reduceIte]
    rfl
  have hq : ∀ p ∈ (Query.create x).parameters, take p = .ok () := hx.take
  exact ask_of_run_ok hs rfl hq hrun

theorem ask_update_eq_hits (hx : x.Storable) (hv : x.violation? = none) (hid : fitsWord id = true) :
    (s.ask .sound (.update (some id) x)).1 = .ok (s.table.hits id) := by
  have hq : ∀ p ∈ (Query.update (some id) x).parameters, take p = .ok () := by
    intro p hp
    rcases List.mem_append.mp hp with hp | hp
    · exact hx.take p hp
    · obtain rfl := List.mem_singleton.mp hp
      simp [take, hid]
  have hrun : ∃ t, run s.schema s.table (.update (some id) x) = .ok (s.table.hits id, t) := by
    by_cases h0 : s.table.hits id = 0
    · exact ⟨s.table, by simp only [run, h0, ↓reduceIte]⟩
    · exists s.table.replace id x
      simp only [run, if_neg h0, checkRow_of_violation?_eq_none hv]
      rfl
  obtain ⟨t, hrun⟩ := hrun
  exact ask_of_run_ok hs rfl hq hrun

theorem exists_ask_sum_iff : (∃ total, (s.ask .sound (.sum w)).1 = .ok total) ↔
    w.Storable ∧ ∃ last, w.endDate = .ok last ∧
      ∀ r ∈ s.table.rows, Table.inWindow w last r.toSubscription = true →
        ∃ e, r.endDate = .ok e := by
  have hopen : Open .sound s.schema := ⟨.inl rfl, hs⟩
  constructor
  · rintro ⟨total, h⟩
    obtain ⟨-, hw, last, hlast, hsum⟩ := ask_sum_eq_ok_iff.mp h
    exact ⟨hw, last, hlast, Table.exists_sum_iff.mp ⟨total, hsum⟩⟩
  · rintro ⟨hw, last, hlast, hrows⟩
    obtain ⟨total, hsum⟩ := Table.exists_sum_iff.mpr hrows
    exact ⟨total, ask_sum_eq_ok_iff.mpr ⟨hopen, hw, last, hlast, hsum⟩⟩

theorem overlooked_ask_sum : FailsOnly (·.isOverlooked = true) (s.ask .sound (.sum w)).1 := by
  have htake : ∀ p ∈ (Query.sum w).parameters, FailsOnly (·.isOverlooked = true) (take p) := by
    intro p hp
    obtain ⟨t, rfl⟩ : ∃ t, p = .text t := by
      simp only [Query.parameters, List.mem_cons, Option.mem_toList, Option.map_eq_some_iff] at hp
      rcases hp with rfl | ⟨t, -, rfl⟩ <;> exact ⟨_, rfl⟩
    simp only [take]
    split
    next => exact .ok ()
    next => exact FailsOnly.error_iff.mpr rfl
  have hreach : FailsOnly (·.isOverlooked = true) (reach .sound s.schema (.sum w)) := by
    rcases hs with h | h <;> rw [h] <;> exact .forM htake
  have hrun : FailsOnly (·.isOverlooked = true) (run s.schema s.table (.sum w)) :=
    .bind (.mapError fun _ _ => rfl) fun _ _ => .bind (.mapError fun _ _ => rfl) fun _ _ => .ok _
  exact failsOnly_ask (by simp) (.mapError fun _ _ => rfl) hreach hrun (.ok ())

end

end Store
end Renewals
