import Renewals.Deployment.Basic
import Renewals.Proofs.Cache.Items
import Renewals.Proofs.Number.Binary64
import Renewals.Proofs.Store.Rows
/-! What the calls of a task do to the parts of a deployment. A call touches the store or the cache,
never both, and the clock stands still meanwhile. -/
namespace Renewals.Deployment

/-- All calls to come go well, and the cache has room. -/
structure Steady (d : Deployment) : Prop where
  store : ∀ o ∈ d.storePlan, o = .sound
  cache : ∀ o ∈ d.cachePlan, o = .sound
  room : d.cache.HasRoom

theorem headD_eq {α : Type} {xs : List α} {a : α} (h : ∀ x ∈ xs, x = a) : xs.headD a = a := by
  cases xs with
  | nil => rfl
  | cons x xs => exact h x List.mem_cons_self

section
variable {α : Type} (call : ClientCall) (f : ClientOutcome → Cache → α × Cache) (d : Deployment)

@[simp] theorem store_throughClient : (d.throughClient call f).2.store = d.store := by
  unfold throughClient
  split <;> rfl

@[simp] theorem storePlan_throughClient :
    (d.throughClient call f).2.storePlan = d.storePlan := by
  unfold throughClient
  split <;> rfl

@[simp] theorem clock_throughClient : (d.throughClient call f).2.clock = d.clock := by
  unfold throughClient
  split <;> rfl

@[simp] theorem broker_throughClient : (d.throughClient call f).2.broker = d.broker := by
  unfold throughClient
  split <;> rfl

theorem cachePlan_throughClient {o : ClientOutcome}
    (h : o ∈ (d.throughClient call f).2.cachePlan) : o ∈ d.cachePlan := by
  unfold throughClient at h
  split at h
  next => exact h
  next => exact List.mem_of_mem_tail h

/-- The call goes well, or in one of the ways to come. -/
theorem throughClient_eq : ∃ o, (d.throughClient call f).1 = (f o d.cache).1 ∧
    (d.throughClient call f).2.cache = (f o d.cache).2 ∧ (o = .sound ∨ o ∈ d.cachePlan) := by
  unfold throughClient
  split
  next => exact ⟨.sound, rfl, rfl, .inl rfl⟩
  next =>
    refine ⟨d.cachePlan.headD .sound, rfl, rfl, ?_⟩
    cases d.cachePlan with
    | nil => exact .inl rfl
    | cons o outcomes => exact .inr List.mem_cons_self

end

@[simp] theorem clock_answer (c : Call) (d : Deployment) : (answer c d).2.clock = d.clock := by
  cases c <;> first | rfl | exact clock_throughClient _ _ _

theorem store_answer {c : Call} (h : ∀ q, c ≠ .ask q) (d : Deployment) :
    (answer c d).2.store = d.store := by
  cases c with
  | ask q => exact absurd rfl (h q)
  | _ => first | rfl | exact store_throughClient _ _ _

theorem storePlan_of_answer {c : Call} (h : ∀ q, c ≠ .ask q) (d : Deployment) :
    (answer c d).2.storePlan = d.storePlan := by
  cases c with
  | ask q => exact absurd rfl (h q)
  | _ => first | rfl | exact storePlan_throughClient _ _ _

@[simp] theorem schema_answer (c : Call) (d : Deployment) :
    (answer c d).2.store.schema = d.store.schema := by
  cases c with
  | ask q => exact Store.schema_ask _ q d.store
  | _ => rw [store_answer (by simp)]

/-- Rows that can be written down stay so. -/
theorem storable_answer (c : Call) {d : Deployment} (h : d.store.table.Storable) :
    (answer c d).2.store.table.Storable := by
  cases c with
  | ask q => exact Store.storable_ask h _ q
  | _ =>
    rw [store_answer (by simp)]
    exact h

theorem storePlan_answer (c : Call) (d : Deployment) {o : Outcome}
    (h : o ∈ (answer c d).2.storePlan) : o ∈ d.storePlan := by
  cases c with
  | ask q => exact List.mem_of_mem_tail h
  | _ => first | exact h | exact storePlan_throughClient _ _ d ▸ h

theorem cachePlan_answer (c : Call) (d : Deployment) {o : ClientOutcome}
    (h : o ∈ (answer c d).2.cachePlan) : o ∈ d.cachePlan := by
  cases c <;> first | exact h | exact cachePlan_throughClient _ _ d h

/-- What the cache keeps of itself whatever it is told, it keeps behind every call. -/
theorem cache_answer {α : Type} {kind : Cache → α}
    (hfetch : ∀ o now key c, kind (Cache.fetch o now key c).2 = kind c)
    (hput : ∀ o now key payload ttl c, kind (Cache.put o now key payload ttl c).2 = kind c)
    (hdrop : ∀ o now key c, kind (Cache.drop o now key c).2 = kind c) (c : Call) (d : Deployment) :
    kind (answer c d).2.cache = kind d.cache := by
  have hclient {β : Type} (call : ClientCall) (f : ClientOutcome → Cache → β × Cache)
      (hf : ∀ o, kind (f o d.cache).2 = kind d.cache) :
      kind (d.throughClient call f).2.cache = kind d.cache := by
    obtain ⟨o, -, hc, -⟩ := throughClient_eq call f d
    rw [hc]
    exact hf o
  cases c with
  | fetch key => exact hclient _ _ fun o => hfetch o d.clock key d.cache
  | put key payload ttl => exact hclient _ _ fun o => hput o d.clock key payload ttl d.cache
  | drop key => exact hclient _ _ fun o => hdrop o d.clock key d.cache
  | ping => exact hclient _ _ fun _ => rfl
  | closeCache => exact hclient _ _ fun _ => rfl
  | _ => rfl

@[simp] theorem size?_answer (c : Call) (d : Deployment) :
    (answer c d).2.cache.size? = d.cache.size? :=
  cache_answer Cache.size?_fetch Cache.size?_put Cache.size?_drop c d

@[simp] theorem limit_answer (c : Call) (d : Deployment) :
    (answer c d).2.cache.limit = d.cache.limit :=
  cache_answer Cache.limit_fetch Cache.limit_put Cache.limit_drop c d

/-! The store -/

section
variable {q : Query} {d : Deployment}

theorem run_of_ask {a : q.Answer} (ha : (answer (.ask q) d).1 = .ok a) :
    (∀ p ∈ q.parameters, Store.take p = .ok ()) ∧
      Store.run d.store.schema d.store.table q = .ok (a, (answer (.ask q) d).2.store.table) :=
  Store.run_of_ask ha

/-- A store that answers has its tables. -/
theorem schema_of_answer (hq : q ≠ .ready) {a : q.Answer} (ha : (answer (.ask q) d).1 = .ok a) :
    d.store.schema = .plain ∨ d.store.schema = .checked :=
  Store.schema_of_reach hq (Store.of_session (Store.session_of_ask ha).2).1

theorem table_of_ask_error {f : StoreFault} (ha : (answer (.ask q) d).1 = .error f) :
    (answer (.ask q) d).2.store.table = d.store.table :=
  Store.table_of_ask_error ha

theorem table_of_ask_ok (hq : q.writes = false) {a : q.Answer}
    (ha : (answer (.ask q) d).1 = .ok a) :
    (answer (.ask q) d).2.store.table = d.store.table :=
  Store.run_of_not_writes hq (run_of_ask ha).2

end

/-- What every call preserves, every task preserves. -/
theorem run_induction {I : Deployment → Prop} (hcall : ∀ c d, I d → I (answer c d).2) {α : Type}
    (t : Task α) {d : Deployment} (hd : I d) : I (d.run t).2 := by
  unfold run
  generalize ExceptT.run t = plan
  induction plan generalizing d with
  | done a => exact hd
  | call c next ih => exact ih _ (hcall c d hd)

@[simp] theorem clock_run {α : Type} (t : Task α) (d : Deployment) :
    (d.run t).2.clock = d.clock :=
  run_induction (I := fun d' => d'.clock = d.clock)
    (fun c d' hd => (clock_answer c d').trans hd) t rfl

@[simp] theorem schema_run {α : Type} (t : Task α) (d : Deployment) :
    (d.run t).2.store.schema = d.store.schema :=
  run_induction (I := fun d' => d'.store.schema = d.store.schema)
    (fun c d' hd => (schema_answer c d').trans hd) t rfl

theorem storable_run {α : Type} (t : Task α) {d : Deployment} (h : d.store.table.Storable) :
    (d.run t).2.store.table.Storable :=
  run_induction (I := fun d' => d'.store.table.Storable) (fun c _ => storable_answer c) t h

theorem storePlan_run {α : Type} (t : Task α) (d : Deployment) {o : Outcome}
    (h : o ∈ (d.run t).2.storePlan) : o ∈ d.storePlan :=
  run_induction (I := fun d' => o ∈ d'.storePlan → o ∈ d.storePlan)
    (fun c d' hd h => hd (storePlan_answer c d' h)) t id h

@[simp] theorem size?_run {α : Type} (t : Task α) (d : Deployment) :
    (d.run t).2.cache.size? = d.cache.size? :=
  run_induction (I := fun d' => d'.cache.size? = d.cache.size?)
    (fun c d' hd => (size?_answer c d').trans hd) t rfl

section
variable (key payload : LooseText) (ttl : Int) (d : Deployment)

theorem answer_fetch : ∃ o, (answer (.fetch key) d).1 = (Cache.fetch o d.clock key d.cache).1 ∧
    (answer (.fetch key) d).2.cache = (Cache.fetch o d.clock key d.cache).2 ∧
    (o = .sound ∨ o ∈ d.cachePlan) := throughClient_eq _ _ d

theorem answer_put : ∃ o,
    (answer (.put key payload ttl) d).1 = (Cache.put o d.clock key payload ttl d.cache).1 ∧
    (answer (.put key payload ttl) d).2.cache = (Cache.put o d.clock key payload ttl d.cache).2 ∧
    (o = .sound ∨ o ∈ d.cachePlan) := throughClient_eq _ _ d

theorem answer_drop : ∃ o, (answer (.drop key) d).1 = (Cache.drop o d.clock key d.cache).1 ∧
    (answer (.drop key) d).2.cache = (Cache.drop o d.clock key d.cache).2 ∧
    (o = .sound ∨ o ∈ d.cachePlan) := throughClient_eq _ _ d

end

variable {key payload : LooseText} {ttl : Int} {d : Deployment} {h : Held}

theorem mem_items_fetch : h ∈ (answer (.fetch key) d).2.cache.items ↔ h ∈ d.cache.items := by
  obtain ⟨o, -, hc, -⟩ := answer_fetch key d
  rw [hc]
  exact Cache.mem_items_fetch

theorem live?_of_fetch {found : Option LooseText} (ha : (answer (.fetch key) d).1 = .ok found) :
    found = d.cache.live? d.clock key := by
  obtain ⟨o, hr, -, -⟩ := answer_fetch key d
  exact Cache.live?_of_fetch (hr.symm.trans ha)

theorem mem_items_put (hm : h ∈ (answer (.put key payload ttl) d).2.cache.items) :
    (h ∈ d.cache.items ∧ ((answer (.put key payload ttl) d).1 = .ok () → h.key ≠ key)) ∨
      (h.key = key ∧ h.payload = payload ∧
        d.cache.limit.expiry? d.clock ttl = some h.expires) := by
  obtain ⟨o, hr, hc, -⟩ := answer_put key payload ttl d
  rw [hc] at hm
  rcases Cache.mem_items_put hm with ⟨hm, hk⟩ | hnew
  · exact .inl ⟨hm, fun hok => hk (hr.symm.trans hok)⟩
  · exact .inr hnew

theorem mem_items_drop (hm : h ∈ (answer (.drop key) d).2.cache.items) :
    h ∈ d.cache.items ∧
      ((answer (.drop key) d).1 = .ok () → h.key = key → h.isLive d.clock = false) := by
  obtain ⟨o, hr, hc, -⟩ := answer_drop key d
  rw [hc] at hm
  obtain ⟨hm, hk⟩ := Cache.mem_items_drop hm
  exact ⟨hm, fun hok => hk (hr.symm.trans hok)⟩

theorem mem_drop_of_ne (hm : h ∈ d.cache.items) (hne : h.key ≠ key) :
    h ∈ (answer (.drop key) d).2.cache.items := by
  obtain ⟨o, -, hc, -⟩ := answer_drop key d
  rw [hc]
  exact Cache.mem_drop_of_ne hm hne

theorem live?_fetch (other : LooseText) :
    (answer (.fetch key) d).2.cache.live? d.clock other = d.cache.live? d.clock other := by
  ext payload
  simp only [Cache.live?_eq_some_iff, mem_items_fetch]

/-- A value that was taken is found until it expires. -/
theorem live?_put_until {e later : Binary64} (hok : (answer (.put key payload ttl) d).1 = .ok ())
    (he : d.cache.limit.expiry? d.clock ttl = some e) (hnow : d.clock.UpTo later)
    (hl : later.below e = true) :
    (answer (.put key payload ttl) d).2.cache.live? later key = some payload := by
  have hlnow : d.clock.below e = true := by
    rcases hnow with hnow | hnow
    · rwa [hnow]
    · exact Binary64.below_trans hnow hl
  obtain ⟨o, hr, hc, -⟩ := answer_put key payload ttl d
  rw [hc]
  exact Cache.live?_eq_some_iff.mpr
    ⟨_, Cache.mem_put (hr.symm.trans hok) he hlnow, rfl, hl, rfl⟩

theorem live?_put {e : Binary64} (hok : (answer (.put key payload ttl) d).1 = .ok ())
    (he : d.cache.limit.expiry? d.clock ttl = some e) (hl : d.clock.below e = true) :
    (answer (.put key payload ttl) d).2.cache.live? d.clock key = some payload :=
  live?_put_until hok he (.refl _) hl

/-- What has no time to live is gone at once. -/
theorem live?_put_dead {e : Binary64} (hok : (answer (.put key payload ttl) d).1 = .ok ())
    (he : d.cache.limit.expiry? d.clock ttl = some e) (hl : d.clock.below e = false) :
    (answer (.put key payload ttl) d).2.cache.live? d.clock key = none := by
  refine Cache.live?_eq_none_iff.mpr fun h hm hk => ?_
  rcases mem_items_put hm with ⟨-, hne⟩ | ⟨-, -, hx⟩
  · exact absurd hk (hne hok)
  · obtain rfl := Option.some.inj (he.symm.trans hx)
    exact hl

/-- Behind a value that was not taken, what lives is as before. -/
theorem live?_put_of_error {f : CacheFault} (ha : (answer (.put key payload ttl) d).1 = .error f)
    (other : LooseText) : (answer (.put key payload ttl) d).2.cache.live? d.clock other =
      d.cache.live? d.clock other := by
  obtain ⟨o, hr, hc, -⟩ := answer_put key payload ttl d
  rw [hc]
  exact Cache.live?_congr fun _ _ hl => Cache.mem_items_put_of_error (hr.symm.trans ha) hl

theorem live?_put_of_ne {keys : List LooseText} (hr : d.cache.RoomFor keys) (hk : key ∈ keys)
    {other : LooseText} (hne : other ≠ key) :
    (answer (.put key payload ttl) d).2.cache.live? d.clock other =
      d.cache.live? d.clock other := by
  obtain ⟨o, -, hc, -⟩ := answer_put key payload ttl d
  rw [hc]
  exact hr.live?_put hk hne

theorem live?_drop_of_ne {other : LooseText} (hne : other ≠ key) :
    (answer (.drop key) d).2.cache.live? d.clock other = d.cache.live? d.clock other := by
  obtain ⟨o, -, hc, -⟩ := answer_drop key d
  rw [hc]
  exact Cache.live?_drop_of_ne hne

theorem roomFor_put {keys : List LooseText} (hr : d.cache.RoomFor keys) (hk : key ∈ keys) :
    (answer (.put key payload ttl) d).2.cache.RoomFor keys := by
  obtain ⟨o, -, hc, -⟩ := answer_put key payload ttl d
  rw [hc]
  exact hr.put hk

theorem roomFor_drop {keys : List LooseText} (hr : d.cache.RoomFor keys) :
    (answer (.drop key) d).2.cache.RoomFor keys := by
  obtain ⟨o, -, hc, -⟩ := answer_drop key d
  rw [hc]
  exact hr.of_items (Cache.size?_drop ..) fun _ hm _ => (Cache.mem_items_drop hm).1

theorem live?_drop (hok : (answer (.drop key) d).1 = .ok ()) :
    (answer (.drop key) d).2.cache.live? d.clock key = none :=
  Cache.live?_eq_none_iff.mpr fun _ hm hk => (mem_items_drop hm).2 hok hk

/-! Tasks of one call -/

section
variable {α : Type} {read : Json → Except DecodeFault α} {key : LooseText} {d : Deployment}

theorem run_ask?_bind (q : Query) (next : Except StoreFault q.Answer → Task α) (d : Deployment) :
    d.run (Task.ask? q >>= next) =
      (answer (.ask q) d).2.run (next (answer (.ask q) d).1) := rfl

/-- What follows the answer of the cache. -/
theorem run_getCached : d.run (Task.getCached read key) =
    (answer (.fetch key) d).2.run (do
      match ← Task.lift .cache (answer (.fetch key) d).1 with
      | none => pure none
      | some payload => do
        let a ← Task.lift .cache (Cache.decode read key payload)
        pure (some a)) := rfl

/-- Reading is one call, whatever becomes of the text. -/
theorem run_getCached_snd : (d.run (Task.getCached read key)).2 = (answer (.fetch key) d).2 := by
  rw [run_getCached]
  cases (answer (.fetch key) d).1 with
  | error f => rfl
  | ok found =>
    cases found with
    | none => rfl
    | some payload =>
      simp only [Task.lift, pure_bind]
      cases Cache.decode read key payload <;> rfl

theorem run_lift {ε β : Type} (f : ε → Failure) (x : Except ε β) (d : Deployment) :
    d.run (Task.lift f x) = (x.mapError f, d) := by
  cases x <;> rfl

theorem run_putCached (key : LooseText) (v : Json) (ttl : Int) (d : Deployment) :
    d.run (Task.putCached key (.ok v) ttl) =
      ((answer (.put key v.text ttl) d).1.mapError .cache, (answer (.put key v.text ttl) d).2) :=
  run_lift _ _ _

theorem run_dropCached (key : LooseText) (d : Deployment) :
    d.run (Task.dropCached key) =
      ((answer (.drop key) d).1.mapError .cache, (answer (.drop key) d).2) :=
  run_lift _ _ _

/-- The value of a task is handed on in another form. -/
theorem run_map {β : Type} (t : Task α) (g : α → β) (d : Deployment) :
    d.run (do return g (← t)) = ((d.run t).1.map g, (d.run t).2) := by
  rw [run_bind]
  cases (d.run t).1 <;> rfl

theorem run_then_pure {t : Task Unit} (ht : (d.run t).1 = .ok ()) (a : α) :
    (d.run (t >>= fun _ => pure a)).1 = .ok a := by
  rw [run_bind, ht, run_pure]

theorem run_ask (q : Query) (d : Deployment) :
    d.run (Task.ask q) = ((answer (.ask q) d).1.mapError .store, (answer (.ask q) d).2) :=
  run_lift _ _ _

theorem run_ask_ok {q : Query} {a : q.Answer} (ha : (answer (.ask q) d).1 = .ok a) :
    d.run (Task.ask q) = (.ok a, (answer (.ask q) d).2) := by
  rw [run_ask, ha]
  rfl

theorem run_ask_error {q : Query} {f : StoreFault} (ha : (answer (.ask q) d).1 = .error f) :
    d.run (Task.ask q) = (.error (.store f), (answer (.ask q) d).2) := by
  rw [run_ask, ha]
  rfl

theorem run_ask_bind_ok {q : Query} {a : q.Answer} (ha : (answer (.ask q) d).1 = .ok a)
    (next : q.Answer → Task α) :
    d.run (Task.ask q >>= next) = (answer (.ask q) d).2.run (next a) := by
  rw [run_bind, run_ask_ok ha]

theorem run_ask_bind_error {q : Query} {f : StoreFault} (ha : (answer (.ask q) d).1 = .error f)
    (next : q.Answer → Task α) :
    d.run (Task.ask q >>= next) = (.error (.store f), (answer (.ask q) d).2) := by
  rw [run_bind, run_ask_error ha]

theorem run_getCached_none (hf : (answer (.fetch key) d).1 = .ok none) :
    d.run (Task.getCached read key) = (.ok none, (answer (.fetch key) d).2) := by
  rw [run_getCached, hf]
  rfl

theorem run_getCached_some {payload : LooseText} {a : α}
    (hf : (answer (.fetch key) d).1 = .ok (some payload))
    (ha : Cache.decode read key payload = .ok a) :
    d.run (Task.getCached read key) = (.ok (some a), (answer (.fetch key) d).2) := by
  rw [run_getCached, hf]
  simp only [Task.lift, pure_bind, ha]
  rfl

theorem run_getCached_error {payload : LooseText} {f : CacheFault}
    (hf : (answer (.fetch key) d).1 = .ok (some payload))
    (ha : Cache.decode read key payload = .error f) :
    d.run (Task.getCached read key) = (.error (.cache f), (answer (.fetch key) d).2) := by
  rw [run_getCached, hf]
  simp only [Task.lift, pure_bind, ha]
  rfl

/-- What was fetched decides on what a reader is told. -/
theorem run_getCached_congr {e : Deployment} {found : Option LooseText}
    (hd : (answer (.fetch key) d).1 = .ok found) (he : (answer (.fetch key) e).1 = .ok found) :
    (d.run (Task.getCached read key)).1 = (e.run (Task.getCached read key)).1 := by
  cases found with
  | none => rw [run_getCached_none hd, run_getCached_none he]
  | some payload =>
    cases ha : Cache.decode read key payload with
    | ok a => rw [run_getCached_some hd ha, run_getCached_some he ha]
    | error f => rw [run_getCached_error hd ha, run_getCached_error he ha]

end

/-! Calls that go well -/

/-- No call of the cache crashes, and a value with so long to live fits in. -/
structure Bearable (ttl : Int) (d : Deployment) : Prop where
  plan : ∀ o ∈ d.cachePlan, o ≠ .crashes
  room : d.cache.HasRoom
  finite : (Binary64.ofInt? ttl).isSome = true

namespace Bearable
variable {ttl : Int} (hd : d.Bearable ttl)
include hd

protected theorem answer (c : Call) : (answer c d).2.Bearable ttl where
  plan o ho := hd.plan o (cachePlan_answer c d ho)
  room := by
    rw [Cache.HasRoom, size?_answer]
    exact hd.room
  finite := hd.finite

protected theorem run {α : Type} (t : Task α) : (d.run t).2.Bearable ttl :=
  run_induction (fun c _ hd => hd.answer c) t hd

theorem ne_crashes {o : ClientOutcome} (ho : o = .sound ∨ o ∈ d.cachePlan) : o ≠ .crashes := by
  rcases ho with rfl | ho
  · simp
  · exact hd.plan o ho

theorem fetch (key : LooseText) :
    FailsOnly (·.isUnavailable = true) (answer (.fetch key) d).1 := by
  obtain ⟨o, hr, -, ho⟩ := answer_fetch key d
  rw [hr]
  exact Cache.fetch_tolerated (hd.ne_crashes ho) d.clock key d.cache

theorem put (key payload : LooseText) :
    FailsOnly (·.isUnavailable = true) (answer (.put key payload ttl) d).1 := by
  obtain ⟨o, hr, -, ho⟩ := answer_put key payload ttl d
  rw [hr]
  exact Cache.put_tolerated (hd.ne_crashes ho) hd.finite hd.room d.clock key payload

theorem drop (key : LooseText) :
    FailsOnly (·.isUnavailable = true) (answer (.drop key) d).1 := by
  obtain ⟨o, hr, -, ho⟩ := answer_drop key d
  rw [hr]
  exact Cache.drop_tolerated (hd.ne_crashes ho) d.clock key d.cache

end Bearable

theorem answer_ask_sound (h : ∀ o ∈ d.storePlan, o = .sound) (q : Query) :
    (answer (.ask q) d).1 = (d.store.ask .sound q).1 ∧
      (answer (.ask q) d).2.store = (d.store.ask .sound q).2 := by
  have ho := headD_eq h
  simp only [answer, Deployment.ask, ho, and_true]
  rfl

theorem answer_put_sound (h : ∀ o ∈ d.cachePlan, o = .sound) (key payload : LooseText) (ttl : Int) :
    (answer (.put key payload ttl) d).1 = (Cache.put .sound d.clock key payload ttl d.cache).1 ∧
      (answer (.put key payload ttl) d).2.cache =
        (Cache.put .sound d.clock key payload ttl d.cache).2 := by
  obtain ⟨o, hr, hc, ho⟩ := answer_put key payload ttl d
  rw [ho.elim id (h o)] at hr hc
  exact ⟨hr, hc⟩

/-- No call of the cache fails, and it has room for a value. -/
structure SoundCache (d : Deployment) : Prop where
  plan : ∀ o ∈ d.cachePlan, o = .sound
  room : d.cache.HasRoom

namespace SoundCache
variable (hd : d.SoundCache)
include hd

protected theorem answer (c : Call) : (answer c d).2.SoundCache where
  plan o ho := hd.plan o (cachePlan_answer c d ho)
  room := by
    rw [Cache.HasRoom, size?_answer]
    exact hd.room

theorem fetch (key : LooseText) :
    (answer (.fetch key) d).1 = .ok (d.cache.live? d.clock key) := by
  obtain ⟨o, hr, -, ho⟩ := answer_fetch key d
  rw [ho.elim id (hd.plan o)] at hr
  exact hr.trans (Cache.fetch_sound d.clock key d.cache)

theorem put (key payload : LooseText) (ttl : Int) :
    (answer (.put key payload ttl) d).1 = (Cache.put .sound d.clock key payload ttl d.cache).1 ∧
      (answer (.put key payload ttl) d).2.cache =
        (Cache.put .sound d.clock key payload ttl d.cache).2 :=
  answer_put_sound hd.plan key payload ttl

theorem drop (key : LooseText) :
    (answer (.drop key) d).1 = .ok () ∧
      (answer (.drop key) d).2.cache = (Cache.drop .sound d.clock key d.cache).2 := by
  obtain ⟨o, hr, hc, ho⟩ := answer_drop key d
  rw [ho.elim id (hd.plan o)] at hr hc
  exact ⟨hr.trans (Cache.drop_sound d.clock key d.cache), hc⟩

end SoundCache

namespace Steady
variable (hd : d.Steady)
include hd

theorem soundCache : d.SoundCache := ⟨hd.cache, hd.room⟩

protected theorem wait (later : Binary64) : Steady { d with clock := later } :=
  ⟨hd.store, hd.cache, hd.room⟩

protected theorem answer (c : Call) : (answer c d).2.Steady where
  store o ho := hd.store o (storePlan_answer c d ho)
  cache := (hd.soundCache.answer c).plan
  room := (hd.soundCache.answer c).room

theorem fetch (key : LooseText) :
    (answer (.fetch key) d).1 = .ok (d.cache.live? d.clock key) := hd.soundCache.fetch key

theorem put (hp : d.cache.size? = none → 0 < ttl) (hb : (Binary64.ofInt? ttl).isSome = true)
    (key payload : LooseText) : (answer (.put key payload ttl) d).1 = .ok () :=
  (hd.soundCache.put key payload ttl).1.trans (Cache.put_sound hp hb hd.room d.clock key payload)

theorem drop (key : LooseText) : (answer (.drop key) d).1 = .ok () := (hd.soundCache.drop key).1

theorem ask (q : Query) : (answer (.ask q) d).1 = (d.store.ask .sound q).1 ∧
    (answer (.ask q) d).2.store = (d.store.ask .sound q).2 := answer_ask_sound hd.store q

end Steady

/-! A deployment to try runs on -/

def someDay (day : Nat) (h : 1 ≤ day ∧ day ≤ 31) : Day := ⟨2025, 8, day, by decide, by decide, h⟩

def someSubscription : Subscription where
  serviceName := aggregatorName
  price := 0
  username := "alice"
  userUid := none
  startDate := someDay 1 (by decide)
  counterMonths := 1
  nextPayment := some (someDay 20 (by decide))
  isActive := true

def someToday : Day := someDay 21 (by decide)

/-- One row under the number 1, and nothing cached or failing yet. -/
def small (cache : Cache) : Deployment :=
  { fresh .standard Settings.standard.policy someToday .plain cache with
    store := ⟨.plain, Table.empty.insert someSubscription, ⟨0, 0, 0⟩⟩ }

theorem storable_small (cache : Cache) : (small cache).store.table.Storable := by
  intro r hr
  obtain rfl : r = ⟨someSubscription, 1⟩ := List.mem_singleton.mp hr
  exact ⟨⟨⟨_, rfl⟩, rfl, ⟨_, rfl⟩, fun _ h => absurd h (by simp [someSubscription]), rfl⟩, rfl⟩

theorem steady_small {cache : Cache} (hr : cache.HasRoom) : (small cache).Steady :=
  ⟨fun _ h => absurd h List.not_mem_nil, fun _ h => absurd h List.not_mem_nil, hr⟩

end Renewals.Deployment
