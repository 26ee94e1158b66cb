import Renewals.Proofs.Cache.Overwrite
import Renewals.Proofs.Deployment.Calls
import Renewals.Proofs.Task.Agree
/-! A deployment as rows under numbers and places in the cache. A call about one number is answered
by what is under that number and in its place, and changes nothing else, as long as no call fails
and the cache has room for all that is put into it. -/
namespace Renewals

/-- What can be under a number in the store, or under a key in the cache. -/
inductive Cell
  | row (id : Int)
  | place (key : LooseText)

namespace Cell

/-- The row under a number, and the place where it is cached. -/
def Of (id : Int) : Cell → Prop
  | row k => k = id
  | place key => key = cacheKey id

/-- Two numbers have nothing in common. -/
theorem Of.unique {c : Cell} {i j : Int} (hi : c.Of i) (hj : c.Of j) : i = j := by
  cases c with
  | row k => exact hi.symm.trans hj
  | place key => exact cacheKey_injective (LooseText.whole.inj (hi.symm.trans hj))

/-- The same row, or the same value as long as it lives. -/
def Same (d e : Deployment) : Cell → Prop
  | row id => d.store.table.find? id = e.store.table.find? id
  | place key => ∀ h : Held, h.key = key → h.isLive d.clock = true →
    (h ∈ d.cache.items ↔ h ∈ e.cache.items)

variable {d e f : Deployment} {c : Cell}

theorem Same.refl (d : Deployment) (c : Cell) : c.Same d d := by
  cases c with
  | row id => rfl
  | place key => exact fun _ _ _ => Iff.rfl

theorem Same.symm (hclock : d.clock = e.clock) (h : c.Same d e) : c.Same e d := by
  cases c with
  | row id => exact Eq.symm h
  | place key => exact fun g hk hl => (h g hk (hclock ▸ hl)).symm

theorem Same.trans (hclock : d.clock = e.clock) (h : c.Same d e) (h' : c.Same e f) :
    c.Same d f := by
  cases c with
  | row id => exact Eq.trans h h'
  | place key => exact fun g hk hl => (h g hk hl).trans (h' g hk (hclock ▸ hl))

end Cell

/-- A call about the row under a number or its place in the cache, or none of either. -/
def Call.About (id : Int) : Call → Prop
  | .ask q => Store.About id q
  | .fetch key | .put key .. | .drop key => key = cacheKey id
  | .log _ => True
  | _ => False

namespace Deployment

/-- No call to come fails, and there is room for what is put under these keys. -/
structure Calm (keys : List LooseText) (d : Deployment) : Prop where
  store : ∀ o ∈ d.storePlan, o = .sound
  cache : ∀ o ∈ d.cachePlan, o = .sound
  room : d.cache.RoomFor keys

variable {keys : List LooseText} {id : Int} {c : Call} {d e : Deployment}

theorem Calm.hasRoom (h : d.Calm keys) {key : LooseText} (hk : key ∈ keys) : d.cache.HasRoom := by
  intro hz
  have hroom := h.room 0 hz
  have hpos := List.length_pos_of_mem hk
  omega

theorem Calm.soundCache (h : d.Calm keys) {key : LooseText} (hk : key ∈ keys) : d.SoundCache :=
  ⟨h.cache, h.hasRoom hk⟩

theorem Calm.answer (h : d.Calm keys) (hc : c.About id) (hk : (cacheKey id : LooseText) ∈ keys) :
    (answer c d).2.Calm keys where
  store o ho := h.store o (storePlan_answer c d ho)
  cache o ho := h.cache o (cachePlan_answer c d ho)
  room := by
    cases c with
    | ask q => exact h.room
    | fetch key =>
      exact h.room.of_items (size?_answer _ _) fun g hg _ => mem_items_fetch.mp hg
    | put key payload ttl =>
      obtain rfl : key = cacheKey id := hc
      exact roomFor_put h.room hk
    | drop key => exact roomFor_drop h.room
    | log line => exact h.room
    | _ => exact hc.elim

/-- Two deployments that are alike in such cells, and in how their calls go. -/
structure Matches (keys : List LooseText) (S : Cell → Prop) (d e : Deployment) : Prop where
  left : d.Calm keys
  right : e.Calm keys
  clock : d.clock = e.clock
  schema : d.store.schema = e.store.schema
  size : d.cache.size? = e.cache.size?
  limit : d.cache.limit = e.cache.limit
  same : ∀ c, S c → c.Same d e

namespace Matches
variable {S T : Cell → Prop} {f : Deployment}

theorem refl (h : d.Calm keys) : Matches keys S d d :=
  ⟨h, h, rfl, rfl, rfl, rfl, fun c _ => .refl d c⟩

theorem symm (h : Matches keys S d e) : Matches keys S e d :=
  ⟨h.right, h.left, h.clock.symm, h.schema.symm, h.size.symm, h.limit.symm,
    fun c hc => (h.same c hc).symm h.clock⟩

theorem trans (h : Matches keys S d e) (h' : Matches keys S e f) : Matches keys S d f :=
  ⟨h.left, h'.right, h.clock.trans h'.clock, h.schema.trans h'.schema, h.size.trans h'.size,
    h.limit.trans h'.limit, fun c hc => (h.same c hc).trans h.clock (h'.same c hc)⟩

theorem mono (h : Matches keys T d e) (hS : ∀ c, S c → T c) : Matches keys S d e :=
  { h with same := fun c hc => h.same c (hS c hc) }

end Matches

/-- A call about a number leaves the cells of all others alone. -/
theorem Calm.matches_answer (h : d.Calm keys) (hc : c.About id)
    (hk : (cacheKey id : LooseText) ∈ keys) :
    Matches keys (fun cell => ¬ cell.Of id) d (Deployment.answer c d).2 where
  left := h
  right := h.answer hc hk
  clock := (clock_answer c d).symm
  schema := (schema_answer c d).symm
  size := (size?_answer c d).symm
  limit := (limit_answer c d).symm
  same cell hcell := by
    cases cell with
    | row k =>
      have hne : k ≠ id := hcell
      cases c with
      | ask q =>
        have hstore := (answer_ask_sound h.store q).2
        simp only [Cell.Same, hstore]
        exact (Store.find?_ask_of_ne hc d.store hne).symm
      | _ =>
        simp only [Cell.Same]
        rw [store_answer (by simp)]
    | place key =>
      have hne : key ≠ cacheKey id := hcell
      rintro g rfl hl
      cases c with
      | ask q => rfl
      | fetch key => exact mem_items_fetch.symm
      | put key payload ttl =>
        obtain rfl : key = cacheKey id := hc
        rw [(answer_put_sound h.cache _ payload ttl).2]
        exact (h.room.mem_items_put_iff hk hl hne).symm
      | drop key =>
        obtain rfl : key = cacheKey id := hc
        exact ⟨fun hg => mem_drop_of_ne hg hne, fun hg => (mem_items_drop hg).1⟩
      | log line => rfl
      | _ => exact hc.elim

/-- What lives in a place is found there, now and later. -/
theorem Matches.live?_eq {S : Cell → Prop} (h : Matches keys S d e) {key : LooseText}
    (hS : S (.place key)) {later : Binary64} (hnow : d.clock.UpTo later) :
    d.cache.live? later key = e.cache.live? later key := by
  refine Cache.live?_congr fun g hg hl => h.same _ hS g hg ?_
  rcases hnow with rfl | hnow
  · exact hl
  · exact Binary64.below_trans hnow hl

theorem Matches.run_getCached {S : Cell → Prop} (h : Matches keys S d e) {key own : LooseText}
    (hS : S (.place key)) (hk : own ∈ keys) {later : Binary64} (hnow : d.clock.UpTo later)
    {α : Type} (read : Json → Except DecodeFault α) :
    (Deployment.run (Task.getCached read key) { d with clock := later }).1 =
      (Deployment.run (Task.getCached read key) { e with clock := later }).1 := by
  have hd : SoundCache { d with clock := later } := ⟨h.left.cache, h.left.hasRoom hk⟩
  have he : SoundCache { e with clock := later } := ⟨h.right.cache, h.right.hasRoom hk⟩
  exact run_getCached_congr ((hd.fetch key).trans (congrArg _ (h.live?_eq hS hnow))) (he.fetch key)

/-- What lived under a key is gone once the key is dropped. -/
theorem SoundCache.notMem_items_drop (h : d.SoundCache) {key : LooseText} {g : Held}
    (hk : g.key = key) (hl : g.isLive d.clock = true) :
    g ∉ (Deployment.answer (.drop key) d).2.cache.items := by
  intro hg
  have hdead := (mem_items_drop hg).2 (h.drop key).1 hk
  rw [hl] at hdead
  exact Bool.noConfusion hdead

/-- Behind a call about a number two deployments are alike in its cells if they have the same row
there and the same in its place. -/
theorem Matches.of_cells (h : Matches keys (Cell.Of id) d e) (hc : c.About id)
    (hk : (cacheKey id : LooseText) ∈ keys)
    (hrow : (Deployment.answer c d).2.store.table.find? id =
      (Deployment.answer c e).2.store.table.find? id)
    (hplace : ∀ g : Held, g.key = cacheKey id → g.isLive d.clock = true →
      (g ∈ (Deployment.answer c d).2.cache.items ↔ g ∈ (Deployment.answer c e).2.cache.items)) :
    Matches keys (Cell.Of id) (Deployment.answer c d).2 (Deployment.answer c e).2 where
  left := h.left.answer hc hk
  right := h.right.answer hc hk
  clock := by rw [clock_answer, clock_answer, h.clock]
  schema := by rw [schema_answer, schema_answer, h.schema]
  size := by rw [size?_answer, size?_answer, h.size]
  limit := by rw [limit_answer, limit_answer, h.limit]
  same cell hcell := by
    cases cell with
    | row k =>
      obtain rfl : k = id := hcell
      exact hrow
    | place key =>
      obtain rfl : key = cacheKey id := hcell
      simp only [Cell.Same, clock_answer]
      exact hplace

/-- A call about a number is answered from the cells of this number, and they alone decide on what
is in them then. -/
theorem Matches.answer (h : Matches keys (Cell.Of id) d e) (hc : c.About id)
    (hk : (cacheKey id : LooseText) ∈ keys) :
    (answer c d).1 = (answer c e).1 ∧
      Matches keys (Cell.Of id) (answer c d).2 (answer c e).2 := by
  have hrow : d.store.table.find? id = e.store.table.find? id := h.same (.row id) rfl
  have hplace := h.same (.place (cacheKey id)) rfl
  have hd := h.left.soundCache hk
  have he := h.right.soundCache hk
  have hkept (hask : ∀ q, c ≠ .ask q) : (Deployment.answer c d).2.store.table.find? id =
      (Deployment.answer c e).2.store.table.find? id := by
    rw [store_answer hask, store_answer hask, hrow]
  cases c with
  | ask q =>
    have hsd := answer_ask_sound h.left.store q
    have hse := answer_ask_sound h.right.store q
    obtain ⟨hanswer, hrow'⟩ := Store.ask_about hc h.schema hrow
    refine ⟨?_, h.of_cells hc hk ?_ hplace⟩
    · rw [hsd.1, hse.1, hanswer]
    · rw [hsd.2, hse.2, hrow']
  | fetch key =>
    obtain rfl : key = cacheKey id := hc
    refine ⟨?_, h.of_cells rfl hk (hkept (by simp)) fun g hg hl => ?_⟩
    · rw [hd.fetch, he.fetch, ← h.clock, h.live?_eq rfl (.refl _)]
    · rw [mem_items_fetch, mem_items_fetch]
      exact hplace g hg hl
  | put key payload ttl =>
    obtain rfl : key = cacheKey id := hc
    have hpd := hd.put (cacheKey id) payload ttl
    have hpe := he.put (cacheKey id) payload ttl
    rw [← h.clock] at hpe
    refine ⟨?_, h.of_cells rfl hk (hkept (by simp)) fun g hg hl => ?_⟩
    · rw [hpd.1, hpe.1]
      exact Cache.put_fst_congr h.size h.limit d.clock (cacheKey id) payload payload ttl
    · rw [hpd.2, hpe.2]
      exact Cache.mem_items_put_congr h.size h.limit hg hl (hplace g hg hl)
  | drop key =>
    obtain rfl : key = cacheKey id := hc
    refine ⟨(hd.drop _).1.trans (he.drop _).1.symm, h.of_cells rfl hk (hkept (by simp)) fun g hg hl => ?_⟩
    exact iff_of_false (hd.notMem_items_drop hg hl) (he.notMem_items_drop hg (h.clock ▸ hl))
  | log line => exact ⟨rfl, h.of_cells hc hk hrow hplace⟩
  | _ => exact hc.elim

/-! Tasks about one number each -/

section
variable {α β : Type} {t : Task α} {u : Task β}

/-- A task about a number leaves the cells of all others alone. -/
theorem Calm.matches_run (h : d.Calm keys) (ht : t.Along (fun c _ => c.About id) d)
    (hk : (cacheKey id : LooseText) ∈ keys) :
    Matches keys (fun cell => ¬ cell.Of id) d (d.run t).2 :=
  ht.run (I := Matches keys (fun cell => ¬ cell.Of id) d)
    (fun _ _ hc h => h.trans (h.right.matches_answer hc hk)) (.refl h)

/-- The cells of a number decide on how a task about it ends, and on what is in them then. -/
theorem Matches.run (h : Matches keys (Cell.Of id) d e)
    (ht : ∀ d, t.Along (fun c _ => c.About id) d) (hk : (cacheKey id : LooseText) ∈ keys) :
    (d.run t).1 = (e.run t).1 ∧ Matches keys (Cell.Of id) (d.run t).2 (e.run t).2 :=
  Task.Agree.of_calls (fun _ _ _ hc _ h => h.answer hc hk) t d e h (ht d) (ht e)

/-- Tasks about different numbers can be run in any order: each ends as it would alone, and there is
no cell that tells which was the first. -/
theorem Calm.run_comm (h : d.Calm keys) {i j : Int} (hij : i ≠ j)
    (ht : ∀ d, t.Along (fun c _ => c.About i) d) (hu : ∀ d, u.Along (fun c _ => c.About j) d)
    (hi : (cacheKey i : LooseText) ∈ keys) (hj : (cacheKey j : LooseText) ∈ keys) :
    (d.run t).1 = ((d.run u).2.run t).1 ∧ (d.run u).1 = ((d.run t).2.run u).1 ∧
      Matches keys (fun _ => True) ((d.run t).2.run u).2 ((d.run u).2.run t).2 := by
  have hnot {k l : Int} (hkl : k ≠ l) (c : Cell) (hc : c.Of k) : ¬ c.Of l :=
    fun hl => hkl (hc.unique hl)
  have hafter := h.matches_run (ht d) hi
  have hafter' := h.matches_run (hu d) hj
  have hthen := hafter.right.matches_run (hu (d.run t).2) hj
  have hthen' := hafter'.right.matches_run (ht (d.run u).2) hi
  obtain ⟨hfirst, hcells⟩ := (hafter'.mono (hnot hij)).run ht hi
  obtain ⟨hsecond, hcells'⟩ := (hafter.mono (hnot hij.symm)).run hu hj
  have hleft := (hthen.symm.mono (hnot hij)).trans hcells
  have hright := hcells'.symm.trans (hthen'.mono (hnot hij.symm))
  have helsewhere : Matches keys (fun c => ¬ c.Of i ∧ ¬ c.Of j) ((d.run t).2.run u).2
      ((d.run u).2.run t).2 :=
    ((hthen.symm.mono fun _ => And.right).trans (hafter.symm.mono fun _ => And.left)).trans
      ((hafter'.mono fun _ => And.right).trans (hthen'.mono fun _ => And.left))
  refine ⟨hfirst, hsecond, { hleft with same := fun c _ => ?_ }⟩
  by_cases hci : c.Of i
  · exact hleft.same c hci
  · by_cases hcj : c.Of j
    · exact hright.same c hcj
    · exact helsewhere.same c ⟨hci, hcj⟩

end

end Deployment
end Renewals
