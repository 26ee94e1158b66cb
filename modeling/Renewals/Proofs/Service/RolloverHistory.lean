import Renewals.Proofs.Service.Rollover
import Renewals.Settings.Basic
/-! Rollovers night after night. What one of them has failed to do, or has done too often, a later
one makes good: only the last night decides where the payment dates are. -/
namespace Renewals.Service

/-- A day with a rollover, the time of day, and how the calls of the store and the cache go. -/
structure Night where
  day : Day
  clock : Binary64
  storePlan : List Outcome
  cachePlan : List ClientOutcome

namespace Night

/-- The deployment that the night finds. -/
def fall (n : Night) (d : Deployment) : Deployment :=
  { d with today := n.day, clock := n.clock, storePlan := n.storePlan, cachePlan := n.cachePlan }

/-- The rollover of the night, whatever has been before. -/
def run (p : Policy) (n : Night) (d : Deployment) : Except Failure Nat × Deployment :=
  (n.fall d).run (rollover p n.day)

/-- The store does not fail, and the cache does not crash. -/
structure Quiet (n : Night) : Prop where
  store : ∀ o ∈ n.storePlan, o = .sound
  cache : ∀ o ∈ n.cachePlan, o ≠ .crashes

/-- What is left after one night and the next. -/
def after (p : Policy) (nights : List Night) (d : Deployment) : Deployment :=
  nights.foldl (fun d n => (n.run p d).2) d

end Night

/-- Rows as they are in a store that is there, with room in the cache for an entry. -/
structure Sturdy (d : Deployment) : Prop where
  schema : d.store.schema = .plain ∨ d.store.schema = .checked
  ids : ∀ r ∈ d.store.table.rows, fitsWord r.id = true
  room : d.cache.HasRoom

section
variable {p : Policy} {d : Deployment} {n : Night}

theorem Night.schema_run (p : Policy) (n : Night) (d : Deployment) :
    (n.run p d).2.store.schema = d.store.schema :=
  Deployment.schema_run (rollover p n.day) (n.fall d)

/-- Rows keep their numbers. -/
theorem Night.fits_run (hids : ∀ r ∈ d.store.table.rows, fitsWord r.id = true) :
    ∀ q ∈ (n.run p d).2.store.table.rows, fitsWord q.id = true := by
  intro q hq
  obtain ⟨r, hr, rfl | rfl⟩ := (partlySettled_rollover p n.day (n.fall d)).exists_of_mem hq
  · exact hids q hr
  · exact hids r hr

theorem Sturdy.run (hd : Sturdy d) : Sturdy (n.run p d).2 where
  schema := by
    rw [Night.schema_run]
    exact hd.schema
  ids := Night.fits_run hd.ids
  room := by
    rw [Cache.HasRoom, Night.run, Deployment.size?_run]
    exact hd.room

/-- A night does not change where a later one brings the rows. -/
theorem map_settled_run {last : Day} (hday : n.day ≤ last) (hlast : last ≤ Billing.horizon) :
    (n.run p d).2.store.table.rows.map (Row.settled last) =
      d.store.table.rows.map (Row.settled last) :=
  (partlySettled_rollover p n.day (n.fall d)).map_settled hday hlast

/-- Neither do many nights. -/
theorem map_settled_after {last : Day} (hlast : last ≤ Billing.horizon) {nights : List Night}
    (hnights : ∀ n ∈ nights, n.day ≤ last) (hd : Sturdy d) : Sturdy (Night.after p nights d) ∧
      (Night.after p nights d).store.table.rows.map (Row.settled last) =
        d.store.table.rows.map (Row.settled last) := by
  induction nights generalizing d with
  | nil => exact ⟨hd, rfl⟩
  | cons n nights ih =>
    obtain ⟨hend, hrows⟩ := ih (fun m hm => hnights m (List.mem_cons_of_mem n hm)) hd.run
    exact ⟨hend, hrows.trans (map_settled_run (hnights n List.mem_cons_self) hlast)⟩

/-- A quiet night brings every row to its day. -/
theorem rows_run (hd : Sturdy d) (hfin : (Binary64.ofInt? p.ttl).isSome = true) (hn : n.Quiet)
    (hday : n.day ≤ Billing.horizon) : ∃ k, (n.run p d).1 = .ok k ∧
      (n.run p d).2.store.table.rows = d.store.table.rows.map (Row.settled n.day) :=
  rows_rollover (d := n.fall d) ⟨hd.schema, hn.store, hn.cache, hd.room, hfin⟩ hd.ids hday

end

/-- However many rollovers there have been up to a day, in whatever order of days, and whatever has
failed in each of them, one of that day that nothing fails leaves the rows that it would have left
had it been the only one, and none of them is overdue. -/
theorem rows_after_nights (p : Policy) {d : Deployment} (hd : Sturdy d)
    (hfin : (Binary64.ofInt? p.ttl).isSome = true) {nights : List Night} {last only : Night}
    (hday : last.day ≤ Billing.horizon) (hsame : only.day = last.day)
    (hnights : ∀ n ∈ nights, n.day ≤ last.day) (hlast : last.Quiet) (honly : only.Quiet) :
    ∃ k m, (last.run p (Night.after p nights d)).1 = .ok k ∧ (only.run p d).1 = .ok m ∧
      (last.run p (Night.after p nights d)).2.store.table.rows =
        (only.run p d).2.store.table.rows ∧
      ∀ r ∈ (only.run p d).2.store.table.rows, r.isOverdue last.day = false := by
  obtain ⟨hend, hrows⟩ := map_settled_after (p := p) hday hnights hd
  obtain ⟨k, hk, hlastRows⟩ := rows_run hend hfin hlast hday
  obtain ⟨m, hm, honlyRows⟩ := rows_run hd hfin honly (hsame ▸ hday)
  refine ⟨k, m, hk, hm, ?_, fun q hq => ?_⟩
  · rw [hlastRows, honlyRows, hrows, hsame]
  · rw [honlyRows, hsame] at hq
    obtain ⟨r, -, rfl⟩ := List.mem_map.mp hq
    exact Subscription.isOverdue_settled hday

/-- A write that is not kept, a crash of the store, a crash of the cache behind a write, and a night
too many. -/
def someNights : List Night :=
  [⟨Deployment.someDay 22 (by decide), .zero, [.sound, .commitFails], []⟩,
    ⟨Deployment.someDay 25 (by decide), .zero, [.crashes], []⟩,
    ⟨Deployment.someDay 24 (by decide), .zero, [], [.crashes]⟩,
    ⟨Deployment.someDay 24 (by decide), .zero, [], []⟩]

def someNight : Night := ⟨Deployment.someDay 25 (by decide), .zero, [], [.timedOut]⟩

theorem rows_after_nights_small :
    ∃ k m, (someNight.run Settings.standard.policy (Night.after Settings.standard.policy someNights
        (Deployment.small (.remote .empty)))).1 = .ok k ∧
      (someNight.run Settings.standard.policy (Deployment.small (.remote .empty))).1 = .ok m ∧
      (someNight.run Settings.standard.policy (Night.after Settings.standard.policy someNights
        (Deployment.small (.remote .empty)))).2.store.table.rows =
        (someNight.run Settings.standard.policy
          (Deployment.small (.remote .empty))).2.store.table.rows ∧
      ∀ r ∈ (someNight.run Settings.standard.policy
        (Deployment.small (.remote .empty))).2.store.table.rows,
        r.isOverdue someNight.day = false := by
  have hsturdy : Sturdy (Deployment.small (.remote .empty)) :=
    ⟨.inl rfl, fun r hr => (Deployment.storable_small _ r hr).id,
      (by decide : (none : Option Nat) ≠ some 0)⟩
  have hquiet : someNight.Quiet := ⟨by decide, by decide⟩
  exact rows_after_nights Settings.standard.policy hsturdy (by decide +kernel) (by decide) rfl
    (by decide) hquiet hquiet

end Renewals.Service
