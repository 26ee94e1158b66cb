import Mathlib.Algebra.BigOperators.Ring.Finset
import Renewals.Proofs.Store.Rows
import Renewals.Proofs.Subscription.Sound
import Renewals.Proofs.Subscription.Term
/-! Sums over a window. Over sound rows nothing can go wrong on the way, and every row counts with as
many prices as it has billing dates from the start of the window on. -/
namespace Renewals

/-- A sum by keys: what falls under each key is summed on its own. -/
theorem sum_map_fibers {α κ : Type} [DecidableEq κ] (f : α → Int) (key : α → κ) {keys : Finset κ}
    {xs : List α} (h : ∀ a ∈ xs, key a ∈ keys) :
    (xs.map f).sum = ∑ k ∈ keys, ((xs.filter (key · == k)).map f).sum := by
  induction xs with
  | nil => simp
  | cons a xs ih =>
    have hsplit (k : κ) : (((a :: xs).filter (key · == k)).map f).sum =
        (if key a = k then f a else 0) + ((xs.filter (key · == k)).map f).sum := by
      by_cases hk : key a = k <;> simp [hk]
    rw [List.map_cons, List.sum_cons, ih fun b hb => h b (List.mem_cons_of_mem a hb)]
    simp only [hsplit, Finset.sum_add_distrib, Finset.sum_ite_eq, if_pos (h a List.mem_cons_self)]

/-- A price for each billing date from a day on. -/
def Subscription.chargeFrom (s : Subscription) (day : Day) : Int :=
  s.price * Term.datesFrom s.startDate s.counterMonths.toNat day

namespace Table

/-- What the rows in a window are charged from its start on. -/
def charge (t : Table) (w : Window) (last : Day) : Int :=
  ((t.select (inWindow w last)).map (·.chargeFrom w.startDate)).sum

/-- The services that an owner has rows of. -/
def services (t : Table) (username : LooseText) : Finset LooseText :=
  ((t.rows.filter (·.username == username)).map (·.serviceName)).toFinset

variable {t : Table} {w : Window} {last : Day}

theorem mem_services {username name : LooseText} : name ∈ t.services username ↔
    ∃ r ∈ t.rows, r.username = username ∧ r.serviceName = name := by
  simp [services, and_assoc]

theorem sum_of_sound (ht : ∀ r ∈ t.rows, r.toSubscription.Sound) :
    t.sum w last = .ok (t.charge w last) := by
  have hfold (rows : List Row) (hr : ∀ r ∈ rows, r.toSubscription.Sound) (total : Int) :
      rows.foldlM (fun total r => do
        let n ← Term.monthsLeft r.startDate r.counterMonths w.startDate
        pure (total + r.price * n)) total =
      .ok (total + (rows.map (·.chargeFrom w.startDate)).sum) := by
    -- the fold carries the total along, so the induction is for every total so far
    induction rows generalizing total with
    | nil => simp [pure, Except.pure]
    | cons r rows ih =>
      have hsound := hr r List.mem_cons_self
      obtain ⟨last, hlast⟩ := hsound.ends
      have hleft := Term.monthsLeft_eq_datesFrom (Int.le_of_lt hsound.months) hlast w.startDate
      rw [List.foldlM_cons, hleft, List.map_cons, List.sum_cons, ← Int.add_assoc]
      exact ih (fun q hq => hr q (List.mem_cons_of_mem r hq)) (total + r.chargeFrom w.startDate)
  have hall := hfold (t.select (inWindow w last)) (fun r hr => ht r (List.mem_of_mem_filter hr)) 0
  rw [Int.zero_add] at hall
  exact hall

/-- A window over all services is as much as the windows over each of them. -/
theorem charge_eq_sum (hw : w.serviceName = none) : t.charge w last =
    ∑ name ∈ t.services w.username, t.charge { w with serviceName := some name } last := by
  have hselect (name : LooseText) :
      t.select (inWindow { w with serviceName := some name } last) =
        (t.select (inWindow w last)).filter (·.serviceName == name) := by
    unfold select
    rw [List.filter_filter]
    refine List.filter_congr fun r _ => ?_
    simp only [inWindow, hw, Option.all_none, Option.all_some, Bool.and_true]
    exact Bool.and_comm _ _
  have hkeys : ∀ r ∈ t.select (inWindow w last), r.serviceName ∈ t.services w.username := by
    intro r hr
    obtain ⟨hmem, hin⟩ := List.mem_filter.mp hr
    simp only [inWindow, Bool.and_eq_true, beq_iff_eq] at hin
    exact mem_services.mpr ⟨r, hmem, hin.1.1.1, rfl⟩
  simp only [charge, hselect]
  exact sum_map_fibers _ _ hkeys

end Table

/-- Whole texts. -/
structure Window.Storable (w : Window) : Prop where
  username : ∃ t : String, w.username = t
  serviceName : ∀ name ∈ w.serviceName, ∃ t : String, name = t

namespace Store

/-- A session that can read the rows. -/
def Open (o : Outcome) (schema : Schema) : Prop :=
  (o = .sound ∨ o = .commitFails) ∧ (schema = .plain ∨ schema = .checked)

variable {o : Outcome} {schema : Schema} {s : Store} {w : Window} {total : Int}

theorem take_sum_iff : (∀ p ∈ (Query.sum w).parameters, take p = .ok ()) ↔ w.Storable := by
  constructor
  · intro h
    refine ⟨exists_whole_of_take (h _ List.mem_cons_self), fun name hname => ?_⟩
    exact exists_whole_of_take (h _ (by simp [Query.parameters, Option.mem_def.mp hname]))
  · rintro ⟨⟨user, huser⟩, hname⟩ p hp
    rcases List.mem_cons.mp hp with rfl | hp
    · rw [huser]
      exact take_whole user
    · simp only [Option.mem_toList, Option.map_eq_some_iff] at hp
      obtain ⟨name, hw, rfl⟩ := hp
      obtain ⟨t, rfl⟩ := hname name hw
      exact take_whole t

theorem Open.reach (h : Open o schema) {q : Query} (hq : ∀ p ∈ q.parameters, take p = .ok ()) :
    reach o schema q = .ok () := by
  obtain ⟨rfl | rfl, hs⟩ := h
  · exact reach_of_take hs hq
  · rw [← reach_of_take hs hq]
    rcases hs with rfl | rfl <;> rfl

theorem open_of_reach {q : Query} (h : Store.reach o schema q = .ok ()) (ho : o ≠ .cannotOpen)
    (hq : q ≠ .ready) : Open o schema := by
  cases o with
  | cannotOpen => exact absurd rfl ho
  | statementFails => exact absurd h (by simp [Store.reach])
  | crashes => exact absurd h (by simp [Store.reach])
  | _ =>
    cases schema with
    | unreachable => exact absurd h (by simp [Store.reach])
    | absent => exact absurd h (by simp [Store.reach, hq])
    | _ => simp [Open]

/-- A sum is answered by an open session, over names that can be stored, to a day that exists. -/
theorem ask_sum_eq_ok_iff : (s.ask o (.sum w)).1 = .ok total ↔ Open o s.schema ∧ w.Storable ∧
    ∃ last, w.endDate = .ok last ∧ s.table.sum w last = .ok total := by
  constructor
  · intro h
    obtain ⟨hcan, hs⟩ := session_of_ask h
    obtain ⟨hreach, hrun⟩ := of_session hs
    obtain ⟨last, hlast, hrun⟩ := exists_of_bind_eq_ok hrun
    obtain ⟨sum, hsum, hrun⟩ := exists_of_bind_eq_ok hrun
    obtain ⟨rfl, -⟩ := Prod.mk.inj (Except.ok.inj hrun)
    exact ⟨open_of_reach hreach hcan (by simp), take_sum_iff.mp (take_of_reach hreach), last,
      eq_ok_of_mapError hlast, eq_ok_of_mapError hsum⟩
  · rintro ⟨hopen, hw, last, hlast, hsum⟩
    have hsession : session o s.schema s.table (.sum w) = .ok (total, s.table) := by
      simp only [session, prepare, hlast, hopen.reach (take_sum_iff.mpr hw), run, Except.map,
        mapError_ok, bind, Except.bind, hsum]
      simp [commit, Query.writes, pure, Except.pure]
    have hcan : o ≠ .cannotOpen := by
      rcases hopen.1 with rfl | rfl <;> simp
    simp only [ask, if_neg hcan, hsession]

end Store
end Renewals
