import Renewals.Proofs.Cache.Overwrite
import Renewals.Proofs.Service.Refusals
import Renewals.Proofs.Service.Traces
/-! One request, made to create a subscription and then to update what was created. The update finds
the row under its number and puts the same row in its place, but for one thing: what is created is
active whatever the request says, and what is updated is what the request says. -/
namespace Renewals

namespace Deployment

/-- A deployment behind some calls: the store is defined as before, the clock stands, and no calls
are to come that go otherwise. -/
structure Follows (start d : Deployment) : Prop where
  schema : d.store.schema = start.store.schema
  clock : d.clock = start.clock
  storePlan : ∀ o ∈ d.storePlan, o ∈ start.storePlan
  cachePlan : ∀ o ∈ d.cachePlan, o ∈ start.cachePlan
  size : d.cache.size? = start.cache.size?

theorem Follows.refl (d : Deployment) : d.Follows d := ⟨rfl, rfl, fun _ h => h, fun _ h => h, rfl⟩

theorem Follows.answer {start d : Deployment} (h : start.Follows d) (c : Call) :
    start.Follows (answer c d).2 where
  schema := (schema_answer c d).trans h.schema
  clock := (clock_answer c d).trans h.clock
  storePlan o ho := h.storePlan o (storePlan_answer c d ho)
  cachePlan o ho := h.cachePlan o (cachePlan_answer c d ho)
  size := (size?_answer c d).trans h.size

theorem Follows.run {α : Type} {start d : Deployment} (h : start.Follows d) (t : Task α) :
    start.Follows (d.run t).2 :=
  run_induction (I := start.Follows) (fun c _ hd => hd.answer c) t h

end Deployment

namespace Service
variable {p : Policy} {start d : Deployment} {id : Int} {s s' : Subscription}

theorem run_keep_eq_ok_iff {r : Row} : (d.run (keep p r)).1 = .ok () ↔
    FailsOnly (·.isUnavailable = true)
      (Deployment.answer (.put (cacheKey r.id) r.toJson.text p.ttl) d).1 := by
  have hrun : d.run (keep p r) =
      (Deployment.answer (.put (cacheKey r.id) r.toJson.text p.ttl) d).2.run
        (tolerate "failed to cache subscription" (cacheKey r.id)
          (Deployment.answer (.put (cacheKey r.id) r.toJson.text p.ttl) d).1) := rfl
  rw [hrun]
  constructor
  · intro h f hf
    rw [hf] at h
    by_contra hu
    simp only [tolerate, hu, if_false] at h
    exact absurd h (by simp)
  · intro h
    exact run_tolerate_of_borne _ _ (isBorne_of_tolerated h) _

/-- The subscription is the last row, and its entry is all that has come into the cache. -/
structure Placed (p : Policy) (start : Deployment) (id : Int) (s : Subscription) (d : Deployment) :
    Prop where
  table : d.store.table = start.store.table.insert s
  cache : (∀ o ∈ start.cachePlan, o = .sound) → d.cache =
    (Cache.put .sound start.clock (cacheKey id) (Row.toJson ⟨s, id⟩).text p.ttl start.cache).2

/-- Where a subscription can come in as the last row. What the cache does not take, the service
bears. -/
structure Receives (p : Policy) (id : Int) (d : Deployment) : Prop where
  storePlan : ∀ o ∈ d.storePlan, o = .sound
  schema : d.store.schema = .plain ∨ d.store.schema = .checked
  nextId : d.store.table.nextId = id
  word : fitsWord id = true
  takes : (∀ o ∈ d.cachePlan, o = .sound) ∧ (∀ payload, FailsOnly (·.isUnavailable = true)
    (Cache.put .sound d.clock (cacheKey id) payload p.ttl d.cache).1) ∨ d.Bearable p.ttl

/-- The entry comes in behind the row, and takes the place of one that was put there before. -/
theorem Receives.keep (hstart : Receives p id start) (hd : start.Follows d)
    (htable : d.store.table = start.store.table.insert s)
    (hcache : (∀ o ∈ start.cachePlan, o = .sound) → d.cache = start.cache ∨ ∃ before, d.cache =
      (Cache.put .sound start.clock (cacheKey id) before p.ttl start.cache).2) :
    (d.run (keep p ⟨s, id⟩)).1 = .ok () ∧ Placed p start id s (d.run (keep p ⟨s, id⟩)).2 := by
  let payload := (Row.toJson ⟨s, id⟩).text
  have hput (hsound : ∀ o ∈ start.cachePlan, o = .sound) :
      (Deployment.answer (.put (cacheKey id) payload p.ttl) d).1 =
        (Cache.put .sound start.clock (cacheKey id) payload p.ttl start.cache).1 ∧
      (Deployment.answer (.put (cacheKey id) payload p.ttl) d).2.cache =
        (Cache.put .sound start.clock (cacheKey id) payload p.ttl start.cache).2 := by
    have hplan : ∀ o ∈ d.cachePlan, o = .sound := fun o ho => hsound o (hd.cachePlan o ho)
    have hanswer := Deployment.answer_put_sound hplan (cacheKey id) payload p.ttl
    rw [hanswer.1, hanswer.2, hd.clock]
    rcases hcache hsound with h | ⟨before, h⟩
    · rw [h]
      exact ⟨rfl, rfl⟩
    · rw [h, Cache.put_put]
      exact ⟨rfl, rfl⟩
  constructor
  · rcases hstart.takes with ⟨hsound, htaken⟩ | hbear
    · rw [run_keep_eq_ok_iff]
      exact (hput hsound).1 ▸ htaken payload
    · refine run_keep ⟨fun o ho => hbear.plan o (hd.cachePlan o ho), ?_, hbear.finite⟩ _
      rw [Cache.HasRoom, hd.size]
      exact hbear.room
  · constructor
    · rw [(store_of_only (only_keep ⟨s, id⟩) d).1, htable]
    · intro hsound
      exact (parts_tolerate _ _ _ _).2.trans (hput hsound).2

section
variable {today : Day} {username : LooseText} {o : Order} {userUid : Option LooseText}

/-- An update of what has come in last puts another in its place. -/
theorem Receives.update (hstart : Receives p id start) (hd : start.Follows d)
    (hplaced : Placed p start id s d) (hs' : s'.Storable)
    (haccept : o.accept username userUid today o.isActive = .ok s') :
    (d.run (update p today id username o userUid)).1 = .ok 1 ∧
      Placed p start id s' (d.run (update p today id username o userUid)).2 := by
  have hask : (Deployment.answer (.ask (.update (some id) s')) d).1 = .ok (1 : Nat) := by
    have hsound := Deployment.answer_ask_sound (fun o ho => hstart.storePlan o (hd.storePlan o ho))
      (.update (some id) s')
    have hhits : d.store.table.hits id = 1 := by
      rw [hplaced.table, ← hstart.nextId, Table.hits_insert]
    rw [hsound.1, Store.ask_update_eq_hits (hd.schema ▸ hstart.schema) hs'
      (violation?_of_accept haccept) hstart.word, hhits]
  let behind := (Deployment.answer (.ask (.update (some id) s')) d).2
  have htable : behind.store.table = start.store.table.insert s' := by
    rw [(Store.run_update (Deployment.run_of_ask hask).2).2, hplaced.table, ← hstart.nextId,
      Table.replace, Table.modify_insert]
  obtain ⟨hkeep, hbehind⟩ := hstart.keep (hd.answer _) htable
    fun hsound => .inr ⟨_, hplaced.cache hsound⟩
  have hrun : d.run (Service.update p today id username o userUid) =
      behind.run (Service.keep p ⟨s', id⟩ >>= fun _ => pure 1) := by
    have hstored : d.run (Task.ask (.update (some id) s') >>= keepHit p ⟨s', id⟩) =
      behind.run (keepHit p ⟨s', id⟩ (1 : Nat)) := Deployment.run_ask_bind_ok hask _
    unfold Service.update
    rw [haccept]
    exact hstored
  rw [hrun, Deployment.run_bind, hkeep]
  exact ⟨rfl, hbehind⟩

/-- Behind a creation that has succeeded, what it asks for is in its place. -/
theorem receives_of_create (hstore : ∀ x ∈ d.storePlan, x = .sound)
    (hcache : (∀ x ∈ d.cachePlan, x = .sound) ∨ d.Bearable p.ttl)
    (h : (d.run (create p today username o userUid)).1 = .ok id) : Receives p id d ∧ ∃ s,
      o.accept username userUid today true = .ok s ∧ s.Storable ∧
      Placed p d id s (d.run (create p today username o userUid)).2 := by
  cases haccept : o.accept username userUid today true with
  | error f =>
    unfold create at h
    rw [haccept] at h
    exact absurd h (by simp [Task.lift])
  | ok s =>
    have hcreate : d.run (create p today username o userUid) = d.run (store p s) := by
      unfold create
      rw [haccept]
      rfl
    rw [hcreate] at h ⊢
    cases ha : (Deployment.answer (.ask (.create s)) d).1 with
    | error f =>
      rw [store, Deployment.run_ask_bind_error ha] at h
      exact absurd h (by simp)
    | ok n =>
      let behind := (Deployment.answer (.ask (.create s)) d).2
      have hrun : d.run (store p s) = behind.run (keep p ⟨s, n⟩ >>= fun _ => pure n) :=
        Deployment.run_ask_bind_ok ha _
      rw [hrun] at h ⊢
      obtain rfl : id = n := eq_of_then_pure h
      have hkeep : (behind.run (keep p ⟨s, id⟩)).1 = .ok () := by
        rw [Deployment.run_bind] at h
        split at h
        next hok => exact hok
        next => exact absurd h (by simp)
      obtain ⟨htake, hstored⟩ := Deployment.run_of_ask ha
      obtain ⟨hid, htable, hword⟩ := Store.run_create hstored
      have hreceives : Receives p id d := by
        refine ⟨hstore, ?_, hid.symm, hword, hcache.imp_left fun hsound => ⟨hsound, ?_⟩⟩
        · obtain ⟨hopen, hsession⟩ := Store.session_of_ask ha
          exact (Store.open_of_reach (Store.of_session hsession).1 hopen (by simp)).2
        · intro payload
          have hplan : ∀ o ∈ behind.cachePlan, o = .sound := hsound
          have hput := Deployment.answer_put_sound hplan (cacheKey id) (Row.toJson ⟨s, id⟩).text p.ttl
          have htaken := run_keep_eq_ok_iff.mp hkeep
          rw [hput.1] at htaken
          rwa [Cache.put_fst] at htaken
      refine ⟨hreceives, s, rfl, Subscription.storable_of_take htake, ?_⟩
      rw [Deployment.run_bind, hkeep]
      exact (hreceives.keep ((Deployment.Follows.refl d).answer _) htable fun _ => .inl rfl).2

/-- The same rows, and the same in the cache unless a call of it may fail. -/
def Unchanged (start d e : Deployment) : Prop :=
  d.store.table = e.store.table ∧ ((∀ o ∈ start.cachePlan, o = .sound) → d.cache = e.cache)

theorem Placed.unchanged {e : Deployment} (hd : Placed p start id s d) (he : Placed p start id s e) :
    Unchanged start d e :=
  ⟨hd.table.trans he.table.symm, fun h => (hd.cache h).trans (he.cache h).symm⟩

/-- An update with the request that has created the row finds it and makes it as active as the
request says, which it may not be yet. That is all it changes, and a second one changes nothing. -/
theorem update_of_created (hstore : ∀ x ∈ d.storePlan, x = .sound)
    (hcache : (∀ x ∈ d.cachePlan, x = .sound) ∨ d.Bearable p.ttl)
    (h : (d.run (create p today username o userUid)).1 = .ok id) :
    let again := update p today id username o userUid
    let created := (d.run (create p today username o userUid)).2
    let updated := (created.run again).2
    (created.run again).1 = .ok 1 ∧ (updated.run again).1 = .ok 1 ∧
      Unchanged d (updated.run again).2 updated ∧
      (o.isActive = true → Unchanged d updated created) ∧
      ∃ s, o.accept username userUid today true = .ok s ∧ Placed p d id s created ∧
        Placed p d id { s with isActive := o.isActive } updated := by
  intro again created updated
  obtain ⟨hreceives, s, haccept, hs, hcreated⟩ := receives_of_create hstore hcache h
  have hfollows : d.Follows created := (Deployment.Follows.refl d).run _
  have hs' : Subscription.Storable { s with isActive := o.isActive } := { hs with }
  have hagain := Order.accept_active haccept o.isActive
  obtain ⟨hone, hupdated⟩ := hreceives.update hfollows hcreated hs' hagain
  obtain ⟨htwo, htwice⟩ := hreceives.update (hfollows.run again) hupdated hs' hagain
  refine ⟨hone, htwo, htwice.unchanged hupdated, fun hactive => ?_, s, haccept, hcreated, hupdated⟩
  have hsame : { s with isActive := o.isActive } = s := by
    rw [hactive]
    exact Except.ok.inj ((Order.accept_active haccept true).symm.trans haccept)
  rw [hsame] at hupdated
  exact hupdated.unchanged hcreated

end

/-- A request for a subscription that is to rest for now. -/
def resting : Order := ⟨" Music ", 500, "01-03-2026", 6, false⟩

theorem update_of_created_resting :
    (∀ x ∈ blank.storePlan, x = .sound) ∧
    ((∀ x ∈ blank.cachePlan, x = .sound) ∨ blank.Bearable blank.policy.ttl) ∧
    (blank.run (create blank.policy blank.today "alice" resting none)).1 = .ok 1 ∧
    let again := update blank.policy blank.today 1 "alice" resting none
    let created := (blank.run (create blank.policy blank.today "alice" resting none)).2
    let updated := (created.run again).2
    (created.run again).1 = .ok 1 ∧ (updated.run again).1 = .ok 1 ∧
      Unchanged blank (updated.run again).2 updated ∧
      (resting.isActive = true → Unchanged blank updated created) ∧
      ∃ s, resting.accept "alice" none blank.today true = .ok s ∧
        Placed blank.policy blank 1 s created ∧
        Placed blank.policy blank 1 { s with isActive := resting.isActive } updated := by
  have hstore : ∀ x ∈ blank.storePlan, x = .sound := fun _ h => absurd h List.not_mem_nil
  have hcache : ∀ x ∈ blank.cachePlan, x = .sound := fun _ h => absurd h List.not_mem_nil
  have hcreate : (blank.run (create blank.policy blank.today "alice" resting none)).1 = .ok 1 := by
    decide +kernel
  exact ⟨hstore, .inl hcache, hcreate, update_of_created hstore (.inl hcache) hcreate⟩

/-- It does not rest until the request is made a second time, as an update. -/
theorem update_changes_resting :
    let created := (blank.run (create blank.policy blank.today "alice" resting none)).2
    let updated := (created.run (update blank.policy blank.today 1 "alice" resting none)).2
    (blank.run (create blank.policy blank.today "alice" resting none)).1 = .ok 1 ∧
      created.store.table.rows.map (·.isActive) = [true] ∧
      updated.store.table.rows.map (·.isActive) = [false] := by
  decide +kernel

end Service
end Renewals
