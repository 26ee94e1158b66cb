import Renewals.Proofs.Deployment.Calls
import Renewals.Proofs.Number.Binary64
import Renewals.Proofs.Service.Requests
import Renewals.Proofs.Task.Triple
/-! What the service keeps true of the cache. Every cached value was a row of the store when it was
put, whatever has failed since; and if nothing fails, what is alive is a row of now. -/
namespace Renewals

/-- The cached form of a row. -/
structure Held.Shows (h : Held) (r : Row) : Prop where
  key : h.key = cacheKey r.id
  payload : h.payload = r.toJson.text

namespace Service

/-- A value that was put while the store stood as in `m`, and showed one of its rows. -/
def PutAt (ttl : Int) (m : Deployment) (h : Held) : Prop :=
  ∃ r ∈ m.store.table.rows, r.Storable ∧ h.Shows r ∧
    m.cache.limit.expiry? m.clock ttl = some h.expires

/-- In the middle of a request. A value was put at a moment of the past, or shows a row of now that
is not to change any more, one that is not `busy`. If all is `calm`, no live value shows what is
no more, except under the keys of `stale` rows. -/
structure Coherent (calm : Prop) (ttl : Int) (past : List Deployment) (busy stale : Int → Prop)
    (d : Deployment) : Prop where
  storable : d.store.table.Storable
  origin : ∀ h ∈ d.cache.items, (∃ m ∈ past, PutAt ttl m h) ∨
    ∃ r ∈ d.store.table.rows, ¬ busy r.id ∧ h.Shows r ∧
      d.cache.limit.expiry? d.clock ttl = some h.expires
  lasting : calm → 0 < ttl ∧ (Binary64.ofInt? ttl).isSome = true
  steady : calm → d.Steady
  current : calm → ∀ h ∈ d.cache.items, h.isLive d.clock = true →
    (∃ i, stale i ∧ h.key = cacheKey i) ∨ ∃ r ∈ d.store.table.rows, h.Shows r

/-- Between requests all values were put in the past. -/
abbrev Kept (calm : Prop) (ttl : Int) (past : List Deployment) : Deployment → Prop :=
  Coherent calm ttl past (fun _ => True) fun _ => False

/-- Where a request ends. -/
abbrev Left (calm : Prop) (ttl : Int) (past : List Deployment) : Deployment → Prop :=
  Coherent calm ttl past (fun _ => False) fun _ => False

namespace Coherent

variable {calm : Prop} {ttl : Int} {past : List Deployment} {busy stale busy' stale' : Int → Prop}
  {d : Deployment}

theorem mono (hd : Coherent calm ttl past busy stale d) (hb : ∀ i, busy' i → busy i)
    (hs : ∀ i, stale i → stale' i) : Coherent calm ttl past busy' stale' d where
  storable := hd.storable
  origin h hm := by
    rcases hd.origin h hm with hp | ⟨r, hr, hn, hr'⟩
    · exact .inl hp
    · exact .inr ⟨r, hr, fun hi => hn (hb r.id hi), hr'⟩
  lasting := hd.lasting
  steady := hd.steady
  current hc h hm hl := by
    rcases hd.current hc h hm hl with ⟨i, hi, hk⟩ | hr
    · exact .inl ⟨i, hs i hi, hk⟩
    · exact .inr hr

theorem left (hd : Coherent calm ttl past busy (fun _ => False) d) : Left calm ttl past d :=
  hd.mono (fun _ => False.elim) fun _ hi => hi

/-- Behind a call that leaves the store alone all depends on what the cache holds then. -/
theorem of_cache {c : Call} (hd : Coherent calm ttl past busy stale d) (hq : ∀ q, c ≠ .ask q)
    (horigin : ∀ h ∈ (Deployment.answer c d).2.cache.items, (∃ m ∈ past, PutAt ttl m h) ∨
      ∃ r ∈ d.store.table.rows, ¬ busy' r.id ∧ h.Shows r ∧
        d.cache.limit.expiry? d.clock ttl = some h.expires)
    (hcurrent : calm → ∀ h ∈ (Deployment.answer c d).2.cache.items, h.isLive d.clock = true →
      (∃ i, stale' i ∧ h.key = cacheKey i) ∨ ∃ r ∈ d.store.table.rows, h.Shows r) :
    Coherent calm ttl past busy' stale' (Deployment.answer c d).2 where
  storable := by
    rw [Deployment.store_answer hq]
    exact hd.storable
  origin := by
    rw [Deployment.store_answer hq, Deployment.clock_answer, Deployment.limit_answer]
    exact horigin
  lasting := hd.lasting
  steady hc := (hd.steady hc).answer c
  current hc := by
    rw [Deployment.store_answer hq, Deployment.clock_answer]
    exact hcurrent hc

/-- A call that brings nothing into the cache and leaves the store alone. -/
theorem of_items {c : Call} (hd : Coherent calm ttl past busy stale d) (hq : ∀ q, c ≠ .ask q)
    (hi : ∀ h ∈ (Deployment.answer c d).2.cache.items, h ∈ d.cache.items) :
    Coherent calm ttl past busy stale (Deployment.answer c d).2 :=
  hd.of_cache hq (fun h hm => hd.origin h (hi h hm)) fun hc h hm => hd.current hc h (hi h hm)

theorem fetch (hd : Coherent calm ttl past busy stale d) (key : LooseText) :
    Coherent calm ttl past busy stale (Deployment.answer (.fetch key) d).2 :=
  hd.of_items (by simp) fun _ => Deployment.mem_items_fetch.mp

theorem log (hd : Coherent calm ttl past busy stale d) (line : LogLine) :
    Coherent calm ttl past busy stale (Deployment.answer (.log line) d).2 :=
  hd.of_items (by simp) fun _ hm => hm

/-- The row that is put has to be in the store. -/
theorem put (hd : Coherent calm ttl past busy stale d) {r : Row} (hr : r ∈ d.store.table.rows) :
    Coherent calm ttl past (fun i => busy i ∧ i ≠ r.id) (fun i => stale i ∧ i ≠ r.id)
      (Deployment.answer (.put (cacheKey r.id) r.toJson.text ttl) d).2 := by
  refine hd.of_cache (by simp) (fun h hm => ?origin) fun hc h hm hl => ?current
  case origin =>
    rcases Deployment.mem_items_put hm with ⟨hm, -⟩ | ⟨hk, hp, he⟩
    · rcases hd.origin h hm with ho | ⟨q, hq, hn, hs⟩
      · exact .inl ho
      · exact .inr ⟨q, hq, fun hi => hn hi.1, hs⟩
    · exact .inr ⟨r, hr, fun hi => hi.2 rfl, ⟨hk, hp⟩, he⟩
  case current =>
    obtain ⟨hpos, hfin⟩ := hd.lasting hc
    rcases Deployment.mem_items_put hm with ⟨hm, hk⟩ | ⟨hk, hp, -⟩
    · have hk := hk ((hd.steady hc).put (fun _ => hpos) hfin _ _)
      rcases hd.current hc h hm hl with ⟨i, hi, hki⟩ | hr
      · exact .inl ⟨i, ⟨hi, fun he => hk (he ▸ hki)⟩, hki⟩
      · exact .inr hr
    · exact .inr ⟨r, hr, hk, hp⟩

theorem drop (hd : Coherent calm ttl past busy stale d) (id : Int) :
    Coherent calm ttl past busy (fun i => stale i ∧ i ≠ id)
      (Deployment.answer (.drop (cacheKey id)) d).2 := by
  refine hd.of_cache (by simp) (fun h hm => hd.origin h (Deployment.mem_items_drop hm).1)
    fun hc h hm hl => ?_
  obtain ⟨hm, hdead⟩ := Deployment.mem_items_drop hm
  rcases hd.current hc h hm hl with ⟨i, hi, hk⟩ | hr
  · refine .inl ⟨i, ⟨hi, fun he => ?_⟩, hk⟩
    have := hdead ((hd.steady hc).drop _) (he ▸ hk)
    exact Bool.noConfusion (hl.symm.trans this)
  · exact .inr hr

/-- Rows may come and go, as far as the cache does not show them or is known to be behind. -/
theorem ask {q : Query} (hd : Coherent calm ttl past busy stale d)
    (hkeep : ∀ r ∈ d.store.table.rows, busy r.id ∧ stale' r.id ∨
      r ∈ (Deployment.answer (.ask q) d).2.store.table.rows) (hs : ∀ i, stale i → stale' i) :
    Coherent calm ttl past busy stale' (Deployment.answer (.ask q) d).2 where
  storable := Store.storable_ask hd.storable _ q
  origin h hm := by
    rcases hd.origin h hm with hp | ⟨r, hr, hn, hsh⟩
    · exact .inl hp
    · refine .inr ⟨r, ?_, hn, hsh⟩
      exact (hkeep r hr).resolve_left fun hb => hn hb.1
  lasting := hd.lasting
  steady hc := (hd.steady hc).answer _
  current hc h hm hl := by
    rcases hd.current hc h hm hl with ⟨i, hi, hk⟩ | ⟨r, hr, hsh⟩
    · exact .inl ⟨i, hs i hi, hk⟩
    · rcases hkeep r hr with hb | hr
      · exact .inl ⟨r.id, hb.2, hsh.key⟩
      · exact .inr ⟨r, hr, hsh⟩

theorem ask_of_rows {q : Query} (hd : Coherent calm ttl past busy stale d)
    (hr : ∀ r ∈ d.store.table.rows, r ∈ (Deployment.answer (.ask q) d).2.store.table.rows) :
    Coherent calm ttl past busy stale (Deployment.answer (.ask q) d).2 :=
  hd.ask (fun r h => .inr (hr r h)) fun _ hi => hi

theorem ask_error {q : Query} {f : StoreFault} (hd : Coherent calm ttl past busy stale d)
    (ha : (Deployment.answer (.ask q) d).1 = .error f) :
    Coherent calm ttl past busy stale (Deployment.answer (.ask q) d).2 :=
  hd.ask_of_rows fun r hr => by
    rw [Deployment.table_of_ask_error ha]
    exact hr

end Coherent

/-! Requests -/

section
variable {calm : Prop} {p : Policy} {past : List Deployment} {busy : Int → Prop}

theorem triple_tolerate {I : Deployment → Prop}
    (hlog : ∀ d line, I d → I (Deployment.answer (.log line) d).2) (what key : String)
    (r : Except CacheFault Unit) : Triple I (tolerate what key r) (fun _ => I) I := by
  unfold tolerate
  split
  · exact Triple.pure fun _ hd => hd
  · split
    · exact Triple.perform fun d hd => hlog d _ hd
    · exact Triple.throw fun _ hd => hd

/-- The rows stay as they are, whatever is known of them. -/
theorem triple_keep (r : Row) (F : Store → Prop) :
    Triple (fun d => Coherent calm p.ttl past busy (· = r.id) d ∧ r ∈ d.store.table.rows ∧
        F d.store)
      (keep p r)
      (fun _ d => Coherent calm p.ttl past (fun i => busy i ∧ i ≠ r.id) (fun _ => False) d ∧
        F d.store)
      (Left calm p.ttl past) := by
  refine Triple.bind (Q := fun _ d => Coherent calm p.ttl past (fun i => busy i ∧ i ≠ r.id)
    (fun _ => False) d ∧ F d.store) (Triple.perform fun d hd => ⟨?_, ?_⟩) fun a => ?_
  · exact (hd.1.put hd.2.1).mono (fun _ hi => hi) fun _ hi => hi.2 hi.1
  · rw [Deployment.store_answer (by simp)]
    exact hd.2.2
  · exact (triple_tolerate (fun d line hd => ⟨hd.1.log line, hd.2⟩) _ _ a).weaken
      (fun _ hd => hd) (fun _ _ hd => hd) fun _ hd => hd.1.left

theorem triple_forget (id : Int) :
    Triple (Coherent calm p.ttl past busy (· = id)) (forget id)
      (fun _ => Coherent calm p.ttl past busy fun _ => False) (Left calm p.ttl past) := by
  refine Triple.bind (Q := fun _ => Coherent calm p.ttl past busy fun _ => False)
    (Triple.perform fun d hd => ?_) fun a => ?_
  · exact (hd.drop id).mono (fun _ hi => hi) fun _ hi => hi.2 hi.1
  · exact (triple_tolerate (fun d line hd => hd.log line) _ _ a).weaken (fun _ hd => hd)
      (fun _ _ hd => hd) fun _ hd => hd.left

/-- What is found alive is what some value shows. -/
theorem triple_ask {q : Query} (hq : q.writes = false) :
    Triple (Coherent calm p.ttl past busy fun _ => False) (Task.ask q)
      (fun _ => Coherent calm p.ttl past busy fun _ => False) (Left calm p.ttl past) := by
  refine Triple.ask (fun d a hd ha => hd.ask_of_rows fun r hr => ?_)
    fun d f hd ha => (hd.ask_error ha).left
  rw [Deployment.table_of_ask_ok hq ha]
  exact hr

theorem triple_store (s : Subscription) :
    Triple (Kept calm p.ttl past) (store p s) (fun _ => Left calm p.ttl past)
      (Left calm p.ttl past) := by
  refine Triple.bind (Q := fun id d => Kept calm p.ttl past d ∧ ⟨s, id⟩ ∈ d.store.table.rows)
    (Triple.ask ?_ fun d f hd ha => (hd.ask_error ha).left) fun id => ?_
  · intro d id hd ha
    obtain ⟨rfl, ht, -⟩ := Store.run_create (Deployment.run_of_ask ha).2
    refine ⟨hd.ask_of_rows fun r hr => ?_, ?_⟩
    · rw [ht]
      exact Table.mem_insert.mpr (.inl hr)
    · rw [ht]
      exact Table.mem_insert.mpr (.inr rfl)
  · refine Triple.bind ?_ fun _ => Triple.pure fun d hd => hd
    refine (triple_keep ⟨s, id⟩ fun _ => True).weaken
      (fun d hd => ⟨hd.1.mono (fun _ hi => hi) ?_, hd.2, trivial⟩) (fun _ d hd => hd.1.left)
      fun d hd => hd
    exact fun _ => False.elim

theorem triple_update (today : Day) (id : Int) (username : LooseText) (o : Order)
    (userUid : Option LooseText) :
    Triple (Kept calm p.ttl past) (update p today id username o userUid)
      (fun _ => Left calm p.ttl past) (Left calm p.ttl past) := by
  refine Triple.bind (Triple.lift_same fun d hd => hd.left) fun s => ?_
  refine Triple.bind (Q := fun n d => Coherent calm p.ttl past (fun _ => True) (· = id) d ∧
    (n = 0 → Kept calm p.ttl past d) ∧ (n ≠ 0 → ⟨s, id⟩ ∈ d.store.table.rows))
    (Triple.ask ?_ fun d f hd ha => (hd.ask_error ha).left) fun n => ?_
  · intro d n hd ha
    obtain ⟨rfl, ht⟩ := Store.run_update (Deployment.run_of_ask ha).2
    refine ⟨hd.ask (fun r hr => ?_) fun _ => False.elim, fun h0 => hd.ask_of_rows fun r hr => ?_,
      fun h0 => ?_⟩
    · rw [ht]
      by_cases he : r.id = id
      · exact .inl ⟨trivial, he⟩
      · exact .inr (Table.mem_modify.mpr (.inl ⟨hr, he⟩))
    · rw [ht, Table.replace, Table.modify_of_hits_eq_zero h0]
      exact hr
    · rw [ht]
      obtain ⟨r, hr, rfl⟩ := Table.hits_ne_zero_iff.mp h0
      exact Table.mem_modify.mpr (.inr ⟨r, hr, rfl, rfl⟩)
  · by_cases h0 : n = 0
    · rw [if_neg (not_not.mpr h0)]
      exact Triple.pure fun d hd => (hd.2.1 h0).left
    · rw [if_pos h0]
      refine Triple.bind ?_ fun _ => Triple.pure fun d hd => hd
      exact (triple_keep ⟨s, id⟩ fun _ => True).weaken (fun d hd => ⟨hd.1, hd.2.2 h0, trivial⟩)
        (fun _ d hd => hd.1.left) fun d hd => hd

theorem triple_remove (id : Int) :
    Triple (Kept calm p.ttl past) (remove id) (fun _ => Left calm p.ttl past)
      (Left calm p.ttl past) := by
  refine Triple.bind (Q := fun _ => Kept calm p.ttl past)
    ((triple_forget id).weaken (fun d hd => hd.mono (fun _ hi => hi) fun _ => False.elim)
      (fun _ _ hd => hd) fun _ hd => hd) fun _ => ?_
  refine Triple.bind (Q := fun _ => Coherent calm p.ttl past (fun _ => True) (· = id))
    (Triple.ask ?_ fun d f hd ha => (hd.ask_error ha).left) fun n => ?_
  · intro d n hd ha
    have ht := (Store.run_remove (Deployment.run_of_ask ha).2).2
    refine hd.ask (fun r hr => ?_) fun _ => False.elim
    rw [ht]
    by_cases he : r.id = id
    · exact .inl ⟨trivial, he⟩
    · exact .inr (Table.mem_erase.mpr ⟨hr, he⟩)
  · exact Triple.bind (triple_forget id) fun _ => Triple.pure fun d hd => hd.left

theorem triple_read (id : Int) :
    Triple (Kept calm p.ttl past) (read p id) (fun _ => Left calm p.ttl past)
      (Left calm p.ttl past) := by
  refine Triple.bind (Q := fun _ => Kept calm p.ttl past) ?_ fun found => ?_
  · refine Triple.bind (Q := fun _ => Kept calm p.ttl past)
      (Triple.perform fun d hd => hd.fetch _) fun r => ?_
    refine Triple.bind (Triple.lift_same fun _ hd => hd.left) fun payload? => ?_
    cases payload? with
    | none => exact Triple.pure fun _ hd => hd
    | some payload =>
      exact Triple.bind (Triple.lift_same fun _ hd => hd.left) fun _ => Triple.pure fun _ hd => hd
  · cases found with
    | some s => exact Triple.pure fun _ hd => hd.left
    | none =>
      refine Triple.bind (Q := fun row d => Kept calm p.ttl past d ∧ row ∈ d.store.table.rows)
        (Triple.ask ?_ fun d f hd ha => (hd.ask_error ha).left) fun row => ?_
      · intro d row hd ha
        obtain ⟨hrow, ht⟩ := Store.run_read (Deployment.run_of_ask ha).2
        rw [ht]
        exact ⟨hd.ask_of_rows fun r hr => ht ▸ hr, (Table.find?_eq_some_iff.mp hrow).1⟩
      · refine Triple.bind ?_ fun _ => Triple.pure fun d hd => hd
        exact (triple_keep row fun _ => True).weaken
          (fun d hd => ⟨hd.1.mono (fun _ hi => hi) fun _ => False.elim, hd.2, trivial⟩)
          (fun _ d hd => hd.1.left) fun d hd => hd

/-- Rows that are still to be moved stand in the store as they were found. -/
structure Rolling (calm : Prop) (ttl : Int) (past : List Deployment) (rs : List Row)
    (d : Deployment) : Prop where
  coherent : Coherent calm ttl past (fun i => ∃ r ∈ rs, r.id = i) (fun _ => False) d
  rows : ∀ r ∈ rs, r ∈ d.store.table.rows

theorem Rolling.rest {ttl : Int} {r : Row} {rs : List Row} {d : Deployment}
    (hd : Rolling calm ttl past (r :: rs) d) : Rolling calm ttl past rs d where
  coherent := hd.coherent.mono (fun _ ⟨q, hq, hi⟩ => ⟨q, List.mem_cons_of_mem r hq, hi⟩)
    fun _ hi => hi
  rows q hq := hd.rows q (List.mem_cons_of_mem r hq)

/-- One row changes, and the others that are to be moved stay as they were found. -/
theorem Rolling.setNextPayment {ttl : Int} {r : Row} {rs : List Row} {d : Deployment}
    (hd : Rolling calm ttl past (r :: rs) d) (hrs : ∀ q ∈ rs, r.id ≠ q.id) {day : Option Day}
    {n : Nat} (ha : (Deployment.answer (.ask (.setNextPayment r.id day)) d).1 = .ok n) :
    let d' := (Deployment.answer (.ask (.setNextPayment r.id day)) d).2
    Coherent calm ttl past (fun i => ∃ q ∈ r :: rs, q.id = i) (· = r.id) d' ∧
      { r with nextPayment := day } ∈ d'.store.table.rows ∧ ∀ q ∈ rs, q ∈ d'.store.table.rows := by
  have ht := (Store.run_setNextPayment (Deployment.run_of_ask ha).2).2
  refine ⟨hd.coherent.ask (fun q hq => ?_) fun _ => False.elim, ?_, fun q hq => ?_⟩
  · rw [ht]
    by_cases he : q.id = r.id
    · exact .inl ⟨⟨r, List.mem_cons_self, he.symm⟩, he⟩
    · exact .inr (Table.mem_modify.mpr (.inl ⟨hq, he⟩))
  · rw [ht]
    exact Table.mem_modify.mpr (.inr ⟨r, hd.rows r List.mem_cons_self, rfl, rfl⟩)
  · rw [ht]
    exact Table.mem_modify.mpr
      (.inl ⟨hd.rows q (List.mem_cons_of_mem r hq), fun he => hrs q hq he.symm⟩)

theorem triple_moveRow (today : Day) {r : Row} {rs : List Row} (hrs : ∀ q ∈ rs, r.id ≠ q.id) :
    Triple (Rolling calm p.ttl past (r :: rs)) (moveRow p today r)
      (fun _ => Rolling calm p.ttl past rs) (Left calm p.ttl past) := by
  unfold moveRow
  split
  next => exact Triple.pure fun d hd => hd.rest
  next due hdue =>
    refine Triple.bind (Triple.lift_same fun d hd => hd.coherent.left) fun next => ?_
    let moved : Row := { r with nextPayment := some next }
    refine Triple.bind (Q := fun (a : Except StoreFault Nat) d => match a with
      | .error _ => Rolling calm p.ttl past rs d
      | .ok _ => Coherent calm p.ttl past (fun i => ∃ q ∈ r :: rs, q.id = i) (· = r.id) d ∧
          moved ∈ d.store.table.rows ∧ ∀ q ∈ rs, q ∈ d.store.table.rows)
      (Triple.perform fun d hd => ?_) fun a => ?_
    · cases ha : (Deployment.answer (.ask (.setNextPayment r.id (some next))) d).1 with
      | error f =>
        refine ⟨hd.rest.coherent.ask_error ha, fun q hq => ?_⟩
        rw [Deployment.table_of_ask_error ha]
        exact hd.rest.rows q hq
      | ok n => exact hd.setNextPayment hrs ha
    · cases a with
      | error f =>
        cases f with
        | unavailable =>
          exact Triple.bind (Q := fun _ => Rolling calm p.ttl past rs)
            (Triple.perform fun d hd => ⟨hd.coherent.log _, hd.rows⟩) fun _ =>
              Triple.pure fun d hd => hd
        | _ => exact Triple.throw fun d hd => hd.coherent.left
      | ok n =>
        refine Triple.bind ?_ fun _ => Triple.pure fun d hd => hd
        refine (triple_keep moved fun s => ∀ q ∈ rs, q ∈ s.table.rows).weaken (fun d hd => hd)
          (fun _ d hd => ⟨hd.1.mono (fun i ⟨q, hq, hi⟩ => ?_) fun _ hi => hi, hd.2⟩) fun d hd => hd
        exact ⟨⟨q, List.mem_cons_of_mem r hq, hi⟩, fun he => hrs q hq (hi.trans he).symm⟩

theorem triple_moveRows (today : Day) {rs : List Row} (hrs : rs.Pairwise fun a b => a.id ≠ b.id) :
    Triple (Rolling calm p.ttl past rs) (moveRows p today rs) (fun _ => Left calm p.ttl past)
      (Left calm p.ttl past) := by
  induction rs with
  | nil => exact Triple.pure fun d hd => hd.coherent.left
  | cons r rs ih =>
    obtain ⟨hr, hrs⟩ := List.pairwise_cons.mp hrs
    refine Triple.bind (triple_moveRow today hr) fun n => ?_
    exact Triple.bind (ih hrs) fun _ => Triple.pure fun d hd => hd

theorem triple_rollover (today : Day) :
    Triple (Kept calm p.ttl past) (rollover p today) (fun _ => Left calm p.ttl past)
      (Left calm p.ttl past) := by
  refine Triple.bind (Q := fun rs d => rs.Pairwise (fun a b => a.id ≠ b.id) ∧
    Rolling calm p.ttl past rs d) (Triple.ask ?_ fun d f hd ha => (hd.ask_error ha).left)
    fun rs => ?_
  · intro d rs hd ha
    have ht := Deployment.table_of_ask_ok rfl ha
    obtain rfl := Store.run_overdue (Deployment.run_of_ask ha).2
    refine ⟨d.store.table.distinct.filter _, ?_, fun r hr => ?_⟩
    · exact (hd.ask_of_rows fun r hr => ht ▸ hr).mono (fun _ _ => trivial) fun _ hi => hi
    · rw [ht]
      exact (List.mem_filter.mp hr).1
  · intro d ⟨hrs, hd⟩
    exact triple_moveRows today hrs d hd

theorem triple_serve (r : Request) :
    Triple (Kept calm p.ttl past) (serve p r) (fun _ => Left calm p.ttl past)
      (Left calm p.ttl past) := by
  have hreply {α : Type} {t : Task α} {f : α → Reply}
      (ht : Triple (Kept calm p.ttl past) t (fun _ => Left calm p.ttl past)
        (Left calm p.ttl past)) :
      Triple (Kept calm p.ttl past) (do return f (← t)) (fun _ => Left calm p.ttl past)
        (Left calm p.ttl past) :=
    Triple.bind ht fun _ => Triple.pure fun d hd => hd
  cases r with
  | create today username o userUid =>
    exact hreply (Triple.bind (Triple.lift_same fun _ hd => hd.left) triple_store)
  | createAggregator today username userUid =>
    exact hreply (Triple.bind (Triple.lift_same fun _ hd => hd.left) triple_store)
  | update today id username o userUid => exact hreply (triple_update today id username o userUid)
  | remove id => exact hreply (triple_remove id)
  | read id => exact hreply (triple_read id)
  | list username role limit offset =>
    have hask {q : Query} (hq : q.writes = false) : Triple (Kept calm p.ttl past) (Task.ask q)
        (fun _ => Left calm p.ttl past) (Left calm p.ttl past) :=
      (triple_ask hq).weaken (fun _ hd => hd) (fun _ _ hd => hd.left) fun _ hd => hd
    exact hreply (iteInduction (motive := fun t => Triple _ t _ _) (fun _ => hask rfl)
      fun _ => hask rfl)
  | sum username o =>
    refine hreply (Triple.bind (Triple.lift_same fun _ hd => hd.left) fun w => ?_)
    exact (triple_ask rfl).weaken (fun _ hd => hd) (fun _ _ hd => hd.left) fun _ hd => hd
  | rollover today => exact hreply (triple_rollover today)

/-! Runs -/

/-- What shows a row of now was put in the past, once now is past. -/
theorem Coherent.kept {ttl : Int} {d : Deployment} (hd : Left calm ttl past d) :
    Kept calm ttl (past ++ [d]) d where
  storable := hd.storable
  origin h hm := by
    rcases hd.origin h hm with ⟨m, hp, hput⟩ | ⟨r, hr, -, hs, he⟩
    · exact .inl ⟨m, List.mem_append_left _ hp, hput⟩
    · exact .inl ⟨d, List.mem_append_right _ List.mem_cons_self, r, hr, hd.storable r hr, hs, he⟩
  lasting := hd.lasting
  steady := hd.steady
  current := hd.current

/-- Nothing comes to life as time passes. -/
theorem Coherent.wait {ttl : Int} {d : Deployment} {later : Binary64} (hd : Kept calm ttl past d)
    (hl : d.clock.below later = true) : Left calm ttl past { d with clock := later } where
  storable := hd.storable
  origin h hm := by
    rcases hd.origin h hm with hp | ⟨_, _, hn, _⟩
    · exact .inl hp
    · exact absurd trivial hn
  lasting := hd.lasting
  steady hc := (hd.steady hc).wait later
  current hc h hm hh := hd.current hc h hm (Binary64.below_trans hl hh)

theorem Coherent.step {d : Deployment} (hd : Kept calm p.ttl past d) (s : Step) :
    Kept calm p.ttl (past ++ [s.after (serve p) d]) (s.after (serve p) d) := by
  cases s with
  | call r => exact ((triple_serve r).after hd).kept
  | wait later =>
    refine Coherent.kept ?_
    simp only [Step.after]
    split
    next h => exact hd.wait h
    next => exact hd.left

end

end Service
end Renewals
