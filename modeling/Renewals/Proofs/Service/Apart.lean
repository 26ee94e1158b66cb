import Renewals.Proofs.Deployment.Cells
import Renewals.Proofs.Service.Footprint
import Renewals.Proofs.Service.Requests
/-! Requests about different subscriptions stand apart. Each of them calls for the row under its own
number and the place where this row is cached, so that it does not matter which of two comes first,
and a third subscription takes no notice of either. -/
namespace Renewals.Service

/-- A request to replace, to remove or to read the subscription under a number. -/
def Request.On (id : Int) : Request → Prop
  | .update _ k .. | .remove k | .read k => k = id
  | _ => False

variable {p : Policy} {id : Int}

/-- The row that is read is cached under the number that it was read by. -/
theorem along_read (p : Policy) (id : Int) (d : Deployment) :
    (read p id).Along (fun c _ => c.About id) d := by
  have halong {α : Type} {t : Task α} (ht : Task.Only (·.About id) t) (d : Deployment) :
      t.Along (fun c _ => c.About id) d := ht.along (fun _ _ hc => hc) d
  refine Task.along_bind.mpr ⟨halong (only_getCached_of rfl) d, fun found _ => ?_⟩
  cases found with
  | some s => exact halong (.pure s) _
  | none =>
    refine Task.along_bind.mpr ⟨halong (.ask (.read id) rfl) _, fun row hrow => ?_⟩
    have hask := (congrArg Prod.fst (Deployment.run_ask (.read id) _)).symm.trans hrow
    have hread := (Deployment.run_of_ask (eq_ok_of_mapError hask)).2
    obtain rfl : row.id = id := (Table.find?_eq_some_iff.mp (Store.run_read hread).1).2
    exact halong (.bind (only_keep_of (fun _ => trivial) fun _ => rfl) fun _ => .pure _) _

theorem Request.On.along {r : Request} (hr : r.On id) (p : Policy) (d : Deployment) :
    (serve p r).Along (fun c _ => c.About id) d := by
  have hlog : ∀ line, (Call.log line).About id := fun _ => trivial
  cases r with
  | update today k username o userUid =>
    obtain rfl : k = id := hr
    exact Task.Only.along (.bind (only_update_of hlog (fun _ => rfl) fun _ _ => rfl)
      fun _ => .pure _) (fun _ _ hc => hc) d
  | remove k =>
    obtain rfl : k = id := hr
    exact Task.Only.along (.bind (only_remove_of hlog rfl rfl) fun _ => .pure _)
      (fun _ _ hc => hc) d
  | read k =>
    obtain rfl : k = id := hr
    exact Task.along_bind.mpr ⟨along_read p k d, fun _ _ => trivial⟩
  | _ => exact hr.elim

/-- The row under a number and what a reader of its cached value finds, now and later. -/
def Untouched (id : Int) (d e : Deployment) : Prop :=
  e.store.table.find? id = d.store.table.find? id ∧
    ∀ later, d.clock.UpTo later →
      e.cache.live? later (cacheKey id) = d.cache.live? later (cacheKey id)

theorem untouched_of_matches {keys : List LooseText} {S : Cell → Prop} {d e : Deployment}
    (h : d.Matches keys S e) (hS : ∀ c : Cell, c.Of id → S c) : Untouched id d e :=
  ⟨Eq.symm (h.same (.row id) (hS _ rfl)),
    fun _ hnow => (h.live?_eq (hS (.place (cacheKey id)) rfl) hnow).symm⟩

/-- Two requests about different subscriptions, while no call fails and the cache has room for both
of them. In either order each request gets the same reply, the same rows are left, and whatever is
asked of the cache then finds the same. A request touches no other subscription than its own. -/
theorem serve_comm (p : Policy) {d : Deployment} {i j : Int} (hij : i ≠ j) {a b : Request}
    (ha : a.On i) (hb : b.On j) (hstore : ∀ o ∈ d.storePlan, o = .sound)
    (hcache : ∀ o ∈ d.cachePlan, o = .sound)
    (hroom : d.cache.RoomFor [cacheKey i, cacheKey j]) :
    let behindA := (d.run (serve p a)).2
    let behindB := (d.run (serve p b)).2
    let ab := (behindA.run (serve p b)).2
    let ba := (behindB.run (serve p a)).2
    (d.run (serve p a)).1 = (behindB.run (serve p a)).1 ∧
      (d.run (serve p b)).1 = (behindA.run (serve p b)).1 ∧
      ab.store.table = ba.store.table ∧
      (∀ {α : Type} (read : Json → Except DecodeFault α) (key : LooseText) (later : Binary64),
        d.clock.UpTo later →
          (Deployment.run (Task.getCached read key) { ab with clock := later }).1 =
            (Deployment.run (Task.getCached read key) { ba with clock := later }).1) ∧
      (∀ k, k ≠ i → Untouched k d behindA) ∧ (∀ k, k ≠ j → Untouched k d behindB) ∧
      ∀ k, k ≠ i → k ≠ j → Untouched k d ab ∧ Untouched k d ba := by
  intro behindA behindB ab ba
  have hcalm : d.Calm [cacheKey i, cacheKey j] := ⟨hstore, hcache, hroom⟩
  have hi : (cacheKey i : LooseText) ∈ [(cacheKey i : LooseText), cacheKey j] := by simp
  have hj : (cacheKey j : LooseText) ∈ [(cacheKey i : LooseText), cacheKey j] := by simp
  obtain ⟨hfirst, hsecond, hends⟩ := hcalm.run_comm hij (ha.along p) (hb.along p) hi hj
  have hA := hcalm.matches_run (ha.along p d) hi
  have hB := hcalm.matches_run (hb.along p d) hj
  have hAB := hA.right.matches_run (hb.along p behindA) hj
  have hBA := hB.right.matches_run (ha.along p behindB) hi
  have hnot {k l : Int} (hkl : k ≠ l) (c : Cell) (hc : c.Of k) : ¬ c.Of l :=
    fun hl => hkl (hc.unique hl)
  have hclock : ab.clock = d.clock := by
    simp only [ab, behindA, Deployment.clock_run]
  refine ⟨hfirst, hsecond, Table.eq_of_find? fun k => hends.same (.row k) trivial, ?_,
    fun k hk => untouched_of_matches hA (hnot hk), fun k hk => untouched_of_matches hB (hnot hk),
    fun k hki hkj => ⟨?_, ?_⟩⟩
  · intro α read key later hnow
    exact hends.run_getCached trivial hi (hclock ▸ hnow) read
  · exact untouched_of_matches ((hA.mono (hnot hki)).trans (hAB.mono (hnot hkj))) fun _ hc => hc
  · exact untouched_of_matches ((hB.mono (hnot hkj)).trans (hBA.mono (hnot hki))) fun _ hc => hc

/-- Two owners' rows, and a cache with two places. -/
def twoOwners : Deployment :=
  { Deployment.small (.memory (.empty 2)) with
    store := ⟨.plain, (Table.empty.insert Deployment.someSubscription).insert
      { Deployment.someSubscription with username := "bob" }, ⟨0, 0, 0⟩⟩ }

def recast : Request :=
  .update twoOwners.today 1 "alice" ⟨"Cinema", 300, "01-08-2025", 6, true⟩ none

theorem serve_comm_twoOwners :
    let behindA := (twoOwners.run (serve twoOwners.policy recast)).2
    let behindB := (twoOwners.run (serve twoOwners.policy (.read 2))).2
    (1 : Int) ≠ 2 ∧ recast.On 1 ∧ (Request.read 2).On 2 ∧ (∀ o ∈ twoOwners.storePlan, o = .sound) ∧
      (∀ o ∈ twoOwners.cachePlan, o = .sound) ∧ twoOwners.cache.RoomFor [cacheKey 1, cacheKey 2] ∧
      (twoOwners.run (serve twoOwners.policy recast)).1.isOk = true ∧
      (twoOwners.run (serve twoOwners.policy (.read 2))).1.isOk = true ∧
      (twoOwners.run (serve twoOwners.policy recast)).1 =
        (behindB.run (serve twoOwners.policy recast)).1 ∧
      (twoOwners.run (serve twoOwners.policy (.read 2))).1 =
        (behindA.run (serve twoOwners.policy (.read 2))).1 ∧
      (behindA.run (serve twoOwners.policy (.read 2))).2.store.table =
        (behindB.run (serve twoOwners.policy recast)).2.store.table ∧
      Untouched 2 twoOwners behindA ∧ Untouched 1 twoOwners behindB := by
  have hstore : ∀ o ∈ twoOwners.storePlan, o = .sound := fun _ h => absurd h List.not_mem_nil
  have hcache : ∀ o ∈ twoOwners.cachePlan, o = .sound := fun _ h => absurd h List.not_mem_nil
  have hroom : twoOwners.cache.RoomFor [cacheKey 1, cacheKey 2] := by
    intro n hn
    obtain rfl : 2 = n := Option.some.inj hn
    simp [twoOwners, Deployment.small, Deployment.fresh, Cache.items, MemoryCache.empty,
      Holdings.empty]
  have hrecast : (twoOwners.run (serve twoOwners.policy recast)).1.isOk = true := by decide +kernel
  have hread : (twoOwners.run (serve twoOwners.policy (.read 2))).1.isOk = true := by decide +kernel
  obtain ⟨hfirst, hsecond, htable, -, hA, hB, -⟩ := serve_comm twoOwners.policy
    (by decide : (1 : Int) ≠ 2) (a := recast) (b := .read 2) rfl rfl hstore hcache hroom
  exact ⟨by decide, rfl, rfl, hstore, hcache, hroom, hrecast, hread, hfirst, hsecond, htable,
    hA 2 (by decide), hB 1 (by decide)⟩

end Renewals.Service
