import Mathlib.Data.List.Nodup
import Mathlib.Data.List.Perm.Basic
import Renewals.Proofs.Basic
import Renewals.Proofs.Subscription.Payload
/-! What a query does to the rows of the store. A query that fails changes none of them, and a row
that gets in can be stored. -/
namespace Renewals

/-- Active, with a payment date that has passed. -/
def Subscription.isOverdue (s : Subscription) (day : Day) : Bool :=
  s.isActive && s.nextPayment.any fun d => decide (d < day)

namespace Table

theorem distinct (t : Table) : t.rows.Pairwise fun a b => a.id ≠ b.id :=
  t.ascending.imp Int.ne_of_lt

theorem find?_eq_some_iff {t : Table} {id : Int} {r : Row} :
    t.find? id = some r ↔ r ∈ t.rows ∧ r.id = id := by
  constructor
  · intro h
    exact ⟨List.mem_of_find?_eq_some h, by simpa using List.find?_some h⟩
  · rintro ⟨hm, rfl⟩
    exact find?_of_mem t.distinct hm

theorem hits_ne_zero_iff {t : Table} {id : Int} : t.hits id ≠ 0 ↔ ∃ r ∈ t.rows, r.id = id := by
  rw [← Nat.pos_iff_ne_zero, hits, List.countP_pos_iff]
  simp only [beq_iff_eq]

theorem mem_modify {t : Table} {id : Int} {f : Subscription → Subscription} {q : Row} :
    q ∈ (t.modify id f).rows ↔
      (q ∈ t.rows ∧ q.id ≠ id) ∨ ∃ r ∈ t.rows, r.id = id ∧ q = ⟨f r.toSubscription, r.id⟩ := by
  rw [rows_modify, List.mem_map]
  constructor
  · rintro ⟨r, hr, rfl⟩
    split
    next h => exact .inr ⟨r, hr, h, rfl⟩
    next h => exact .inl ⟨hr, h⟩
  · rintro (⟨hq, hk⟩ | ⟨r, hr, hk, rfl⟩)
    · exact ⟨q, hq, if_neg hk⟩
    · exact ⟨r, hr, if_pos hk⟩

theorem mem_erase {t : Table} {id : Int} {q : Row} :
    q ∈ (t.erase id).rows ↔ q ∈ t.rows ∧ q.id ≠ id := by
  simp

theorem find?_erase_self (t : Table) (id : Int) : (t.erase id).find? id = none := by
  cases h : (t.erase id).find? id with
  | none => rfl
  | some r =>
    obtain ⟨hr, hid⟩ := find?_eq_some_iff.mp h
    exact absurd hid (mem_erase.mp hr).2

theorem mem_insert {t : Table} {s : Subscription} {q : Row} :
    q ∈ (t.insert s).rows ↔ q ∈ t.rows ∨ q = ⟨s, t.nextId⟩ := by
  simp

theorem eq_of_rows {t u : Table} (h : t.rows = u.rows) : t = u := by
  obtain ⟨rows, _⟩ := t
  obtain ⟨rows', _⟩ := u
  obtain rfl : rows = rows' := h
  rfl

theorem ne_of_hits_eq_zero {t : Table} {id : Int} (h : t.hits id = 0) : ∀ r ∈ t.rows, r.id ≠ id := by
  intro r hr he
  exact hits_ne_zero_iff.mpr ⟨r, hr, he⟩ h

theorem modify_of_hits_eq_zero {t : Table} {id : Int} (h : t.hits id = 0)
    (f : Subscription → Subscription) : t.modify id f = t := by
  apply eq_of_rows
  rw [rows_modify]
  exact (List.map_congr_left fun r hr => if_neg (ne_of_hits_eq_zero h r hr)).trans (List.map_id _)

theorem erase_of_hits_eq_zero {t : Table} {id : Int} (h : t.hits id = 0) : t.erase id = t := by
  apply eq_of_rows
  rw [rows_erase, List.filter_eq_self]
  intro r hr
  simpa using ne_of_hits_eq_zero h r hr

theorem hits_nextId (t : Table) : t.hits t.nextId = 0 := by
  by_contra h
  obtain ⟨r, hr, hid⟩ := hits_ne_zero_iff.mp h
  exact Int.ne_of_lt (lt_nextAfter t.ascending r hr) hid

theorem hits_insert (t : Table) (s : Subscription) : (t.insert s).hits t.nextId = 1 := by
  have hrest : t.rows.countP (·.id == t.nextId) = 0 := t.hits_nextId
  simp [hits, hrest]

/-- The row that was inserted last is changed as if another had been inserted. -/
theorem modify_insert (t : Table) (s : Subscription) (f : Subscription → Subscription) :
    (t.insert s).modify t.nextId f = t.insert (f s) := by
  have hrest := congrArg rows (modify_of_hits_eq_zero t.hits_nextId f)
  rw [rows_modify] at hrest
  refine eq_of_rows ?_
  rw [rows_modify, rows_insert, List.map_append, hrest, rows_insert]
  simp

@[simp] theorem hits_modify (t : Table) (id other : Int) (f : Subscription → Subscription) :
    (t.modify id f).hits other = t.hits other := by
  simp only [hits, rows_modify, List.countP_map]
  refine List.countP_congr fun r _ => ?_
  simp only [Function.comp]
  split <;> rfl

/-- Changes of different rows can be made in any order. -/
theorem modify_comm (t : Table) {i j : Int} (hij : i ≠ j) (f g : Subscription → Subscription) :
    (t.modify i f).modify j g = (t.modify j g).modify i f := by
  refine eq_of_rows ?_
  simp only [rows_modify, List.map_map]
  refine List.map_congr_left fun r _ => ?_
  by_cases hi : r.id = i
  · simp [hi, hij]
  · by_cases hj : r.id = j <;> simp [hi, hj, hij.symm]

theorem modify_modify (t : Table) (id : Int) (f g : Subscription → Subscription) :
    (t.modify id f).modify id g = t.modify id fun s => g (f s) := by
  refine eq_of_rows ?_
  simp only [rows_modify, List.map_map]
  refine List.map_congr_left fun r _ => ?_
  by_cases hr : r.id = id <;> simp [hr]

theorem erase_modify (t : Table) (i j : Int) (f : Subscription → Subscription) :
    (t.modify j f).erase i = (t.erase i).modify j f := by
  refine eq_of_rows ?_
  simp only [rows_modify, rows_erase, List.filter_map]
  congr 1
  refine List.filter_congr fun r _ => ?_
  simp only [Function.comp]
  split <;> rfl

/-- A number selects a row at most once. -/
theorem countP_select {t : Table} {r : Row} (hr : r ∈ t.rows) (p : Subscription → Bool) :
    (t.select p).countP (·.id == r.id) = if p r.toSubscription then 1 else 0 := by
  have hone : ∀ q ∈ t.rows, (q.id == r.id && p q.toSubscription) = true ↔
      (q == r && p r.toSubscription) = true := by
    intro q hq
    constructor
    · intro h
      obtain ⟨hid, hp⟩ := Bool.and_eq_true_iff.mp h
      obtain rfl := eq_of_key_eq t.distinct hq hr (by simpa using hid)
      simpa using hp
    · intro h
      obtain ⟨he, hp⟩ := Bool.and_eq_true_iff.mp h
      obtain rfl : q = r := by simpa using he
      simpa using hp
  have hnodup : t.rows.Nodup := t.distinct.imp fun hne he => hne (congrArg Row.id he)
  rw [select, List.countP_filter, List.countP_congr hone]
  cases p r.toSubscription with
  | true =>
    simp only [Bool.and_true]
    exact List.count_eq_one_of_mem hnodup hr
  | false => simp

theorem any_select {t : Table} {r : Row} (hr : r ∈ t.rows) (p : Subscription → Bool) :
    (t.select p).any (·.id == r.id) = p r.toSubscription := by
  rw [Bool.eq_iff_iff, List.any_eq_true]
  constructor
  · rintro ⟨q, hq, he⟩
    obtain ⟨hmem, hp⟩ := List.mem_filter.mp hq
    obtain rfl := eq_of_key_eq t.distinct hmem hr (by simpa using he)
    exact hp
  · intro hp
    exact ⟨r, List.mem_filter.mpr ⟨hr, hp⟩, by simp⟩

theorem find?_modify (t : Table) (id : Int) (f : Subscription → Subscription) (k : Int) :
    (t.modify id f).find? k =
      (t.find? k).map fun r => if r.id = id then ⟨f r.toSubscription, r.id⟩ else r := by
  simp only [find?, rows_modify, List.find?_map]
  congr 2
  funext r
  simp only [Function.comp]
  split <;> rfl

theorem find?_modify_of_ne {t : Table} {id k : Int} (hk : k ≠ id)
    (f : Subscription → Subscription) : (t.modify id f).find? k = t.find? k := by
  rw [find?_modify]
  cases hr : t.find? k with
  | none => rfl
  | some r =>
    obtain ⟨-, rfl⟩ := find?_eq_some_iff.mp hr
    rw [Option.map_some, if_neg hk]

theorem find?_erase_of_ne {t : Table} {id k : Int} (hk : k ≠ id) :
    (t.erase id).find? k = t.find? k := by
  ext r
  rw [find?_eq_some_iff, find?_eq_some_iff, mem_erase]
  constructor
  · rintro ⟨⟨hr, -⟩, hid⟩
    exact ⟨hr, hid⟩
  · rintro ⟨hr, rfl⟩
    exact ⟨⟨hr, hk⟩, rfl⟩

theorem hits_eq (t : Table) (id : Int) : t.hits id = if (t.find? id).isSome then 1 else 0 := by
  cases hf : t.find? id with
  | none =>
    by_contra h
    obtain ⟨r, hr, hid⟩ := hits_ne_zero_iff.mp h
    have hsome := hf.symm.trans (find?_eq_some_iff.mpr ⟨hr, hid⟩)
    exact absurd hsome (by simp)
  | some r =>
    obtain ⟨hr, rfl⟩ := find?_eq_some_iff.mp hf
    simpa [select, hits] using countP_select hr fun _ => true

/-- Tables that have the same rows of a kind select the same list of them. -/
theorem select_eq {t u : Table} {p : Subscription → Bool}
    (h : ∀ r : Row, p r.toSubscription = true → (r ∈ t.rows ↔ r ∈ u.rows)) :
    t.select p = u.select p := by
  have hsorted (v : Table) : (v.select p).Pairwise fun a b => a.id < b.id := v.ascending.filter _
  have hnodup (v : Table) : (v.select p).Nodup :=
    (hsorted v).imp fun hlt he => Int.ne_of_lt hlt (congrArg Row.id he)
  have hsame (r : Row) : r ∈ t.select p ↔ r ∈ u.select p := by
    simp only [select, List.mem_filter]
    exact and_congr_left (h r)
  have hperm := (List.perm_ext_iff_of_nodup (hnodup t) (hnodup u)).mpr hsame
  exact hperm.eq_of_pairwise
    (fun _ _ _ _ hab hba => absurd hba (Int.not_lt.mpr (Int.le_of_lt hab))) (hsorted t) (hsorted u)

/-- A table is what is found under the numbers. -/
theorem eq_of_find? {t u : Table} (h : ∀ id, t.find? id = u.find? id) : t = u := by
  have hfound (v : Table) (r : Row) : v.find? r.id = some r ↔ r ∈ v.rows :=
    find?_eq_some_iff.trans (and_iff_left rfl)
  have hmem (r : Row) : r ∈ t.rows ↔ r ∈ u.rows := by
    rw [← hfound, ← hfound, h r.id]
  have hselect := select_eq (p := fun _ => true) fun r _ => hmem r
  exact eq_of_rows (by simpa [select] using hselect)

def Storable (t : Table) : Prop := ∀ r ∈ t.rows, r.Storable

theorem Storable.modify {t : Table} (h : t.Storable) (id : Int) {f : Subscription → Subscription}
    (hf : ∀ r ∈ t.rows, (f r.toSubscription).Storable) : (t.modify id f).Storable := by
  intro q hq
  rcases mem_modify.mp hq with ⟨hq, -⟩ | ⟨r, hr, -, rfl⟩
  · exact h q hq
  · exact ⟨hf r hr, (h r hr).id⟩

end Table

namespace Store

theorem take_of_reach {o : Outcome} {schema : Schema} {q : Query}
    (h : reach o schema q = .ok ()) : ∀ p ∈ q.parameters, take p = .ok () := by
  unfold reach at h
  split at h
  next => exact absurd h (by simp)
  next => exact absurd h (by simp)
  next => exact absurd h (by simp)
  next =>
    split at h
    next hq =>
      subst hq
      exact fun p hp => absurd hp List.not_mem_nil
    next => exact absurd h (by simp)
  next => exact take_of_forM h

theorem schema_of_reach {o : Outcome} {schema : Schema} {q : Query} (hq : q ≠ .ready)
    (h : reach o schema q = .ok ()) : schema = .plain ∨ schema = .checked := by
  cases schema with
  | plain => exact .inl rfl
  | checked => exact .inr rfl
  | unreachable => cases o <;> exact absurd h (by simp [reach])
  | absent => cases o <;> exact absurd h (by simp [reach, hq])

theorem session_of_ask {o : Outcome} {q : Query} {s : Store} {a : q.Answer}
    (h : (s.ask o q).1 = .ok a) :
    o ≠ .cannotOpen ∧ session o s.schema s.table q = .ok (a, (s.ask o q).2.table) := by
  unfold ask at h ⊢
  split at h
  next => exact absurd h (by simp)
  next hc =>
    rw [if_neg hc]
    split at h
    next a' t hs =>
      obtain rfl := Except.ok.inj h
      exact ⟨hc, by simp only [hs]⟩
    next => exact absurd h (by simp)

theorem of_session {o : Outcome} {schema : Schema} {t : Table} {q : Query} {r : q.Answer × Table}
    (h : session o schema t q = .ok r) : reach o schema q = .ok () ∧ run schema t q = .ok r := by
  obtain ⟨_, -, h⟩ := exists_of_bind_eq_ok h
  obtain ⟨_, hreach, h⟩ := exists_of_bind_eq_ok h
  obtain ⟨r', hr, h⟩ := exists_of_bind_eq_ok h
  obtain ⟨_, -, h⟩ := exists_of_bind_eq_ok h
  obtain rfl := Except.ok.inj h
  exact ⟨hreach, hr⟩

/-- A query fails in no other way than its stages do. -/
theorem failsOnly_ask {E : StoreFault → Prop} {o : Outcome} {q : Query} {s : Store}
    (hopen : o = .cannotOpen → E .unopened) (hprepare : FailsOnly E (prepare q))
    (hreach : FailsOnly E (reach o s.schema q)) (hrun : FailsOnly E (run s.schema s.table q))
    (hcommit : FailsOnly E (commit o q)) : FailsOnly E (s.ask o q).1 := by
  have hsession : FailsOnly E (session o s.schema s.table q) :=
    .bind hprepare fun _ _ => .bind hreach fun _ _ => .bind hrun fun _ _ =>
      .bind hcommit fun _ _ => .ok _
  unfold ask
  split
  next hc => exact FailsOnly.error_iff.mpr (hopen hc)
  next =>
    cases hr : session o s.schema s.table q with
    | error f => exact FailsOnly.error_iff.mpr (hsession f hr)
    | ok r => exact .ok _

/-- A query that was answered had parameters that can be stored, and did what queries do. -/
theorem run_of_ask {o : Outcome} {q : Query} {s : Store} {a : q.Answer}
    (h : (s.ask o q).1 = .ok a) :
    (∀ p ∈ q.parameters, take p = .ok ()) ∧
      run s.schema s.table q = .ok (a, (s.ask o q).2.table) := by
  obtain ⟨hreach, hrun⟩ := of_session (session_of_ask h).2
  exact ⟨take_of_reach hreach, hrun⟩

theorem table_of_ask_error {o : Outcome} {q : Query} {s : Store} {f : StoreFault}
    (h : (s.ask o q).1 = .error f) : (s.ask o q).2.table = s.table := by
  unfold ask at h ⊢
  split
  next => rfl
  next hc =>
    rw [if_neg hc] at h
    split
    next he => rw [he] at h; exact absurd h (by simp)
    next => rfl

theorem schema_ask (o : Outcome) (q : Query) (s : Store) : (s.ask o q).2.schema = s.schema := by
  unfold ask
  split
  next => rfl
  next => split <;> rfl

/-- The rows and the schema decide; how many sessions there were does not matter. -/
theorem ask_congr {s t : Store} (hs : s.schema = t.schema) (ht : s.table = t.table) (o : Outcome)
    (q : Query) : (s.ask o q).1 = (t.ask o q).1 ∧ (s.ask o q).2.table = (t.ask o q).2.table := by
  unfold ask
  rw [hs, ht]
  split
  next => exact ⟨rfl, ht⟩
  next => split <;> exact ⟨rfl, rfl⟩

/-- The rows decide on an answer through what a query finds in them, and not otherwise. -/
theorem ask_fst_congr {s t : Store} (hs : s.schema = t.schema) {q : Query}
    (hrun : (run s.schema s.table q).map Prod.fst = (run t.schema t.table q).map Prod.fst)
    (o : Outcome) : (s.ask o q).1 = (t.ask o q).1 := by
  have hfst (u : Store) : (u.ask o q).1 =
      if o = .cannotOpen then .error .unopened
      else (session o u.schema u.table q).map Prod.fst := by
    unfold ask
    split
    next => rfl
    next => cases session o u.schema u.table q <;> rfl
  have hsession (u : Store) : (session o u.schema u.table q).map Prod.fst =
      (prepare q).bind fun _ => (reach o u.schema q).bind fun _ =>
        ((run u.schema u.table q).map Prod.fst).bind fun a => (commit o q).map fun _ => a := by
    unfold session
    cases prepare q with
    | error f => rfl
    | ok _ =>
      cases reach o u.schema q with
      | error f => rfl
      | ok _ =>
        cases run u.schema u.table q with
        | error f => rfl
        | ok r => cases commit o q <;> rfl
  rw [hfst, hfst, hsession, hsession, hrun, hs]

/-! Queries one by one -/

theorem run_create {schema : Schema} {t t' : Table} {s : Subscription} {id : Int}
    (h : run schema t (.create s) = .ok (id, t')) :
    id = t.nextId ∧ t' = t.insert s ∧ fitsWord id = true := by
  obtain ⟨_, -, h⟩ := exists_of_bind_eq_ok h
  split at h
  next hw =>
    obtain ⟨rfl, rfl⟩ := Prod.mk.inj (Except.ok.inj h)
    exact ⟨rfl, rfl, hw⟩
  next => exact absurd h (by simp [throw, throwThe, MonadExceptOf.throw])

theorem run_update {schema : Schema} {t t' : Table} {id : Int} {s : Subscription} {n : Nat}
    (h : run schema t (.update (some id) s) = .ok (n, t')) :
    n = t.hits id ∧ t' = t.replace id s := by
  simp only [run] at h
  split at h
  next h0 =>
    obtain ⟨rfl, rfl⟩ := Prod.mk.inj (Except.ok.inj h)
    exact ⟨h0.symm, (Table.modify_of_hits_eq_zero h0 _).symm⟩
  next h0 =>
    obtain ⟨_, -, h⟩ := exists_of_bind_eq_ok h
    obtain ⟨rfl, rfl⟩ := Prod.mk.inj (Except.ok.inj h)
    exact ⟨rfl, rfl⟩

theorem run_read {schema : Schema} {t t' : Table} {id : Int} {r : Row}
    (h : run schema t (.read id) = .ok (r, t')) : t.find? id = some r ∧ t' = t := by
  simp only [run] at h
  split at h
  next hf =>
    obtain ⟨rfl, rfl⟩ := Prod.mk.inj (Except.ok.inj h)
    exact ⟨hf, rfl⟩
  next => exact absurd h (by simp)

theorem run_remove {schema : Schema} {t t' : Table} {id : Int} {n : Nat}
    (h : run schema t (.remove id) = .ok (n, t')) : n = t.hits id ∧ t' = t.erase id := by
  obtain ⟨rfl, rfl⟩ := Prod.mk.inj (Except.ok.inj h)
  exact ⟨rfl, rfl⟩

theorem run_setNextPayment {schema : Schema} {t t' : Table} {id : Int} {day : Option Day}
    {n : Nat} (h : run schema t (.setNextPayment id day) = .ok (n, t')) :
    n = t.hits id ∧ t' = t.modify id fun s => { s with nextPayment := day } := by
  obtain ⟨rfl, rfl⟩ := Prod.mk.inj (Except.ok.inj h)
  exact ⟨rfl, rfl⟩

theorem run_overdue {schema : Schema} {t t' : Table} {day : Day} {rs : List Row}
    (h : run schema t (.overdue day) = .ok (rs, t')) : rs = t.select (·.isOverdue day) :=
  (Prod.mk.inj (Except.ok.inj h)).1.symm

theorem run_of_not_writes {schema : Schema} {t t' : Table} {q : Query} {a : q.Answer}
    (hw : q.writes = false) (h : run schema t q = .ok (a, t')) : t' = t := by
  cases q with
  | create s => exact Bool.noConfusion hw
  | update id s => exact Bool.noConfusion hw
  | remove id => exact Bool.noConfusion hw
  | setNextPayment id day => exact Bool.noConfusion hw
  | read id => exact (run_read h).2
  | sum w =>
    obtain ⟨_, -, h⟩ := exists_of_bind_eq_ok h
    obtain ⟨_, -, h⟩ := exists_of_bind_eq_ok h
    exact (Prod.mk.inj (Except.ok.inj h)).2.symm
  | _ => exact (Prod.mk.inj (Except.ok.inj h)).2.symm

/-- There is no such row, and a read gets as far as to see that. -/
structure Lacks (s : Store) (id : Int) : Prop where
  find : s.table.find? id = none
  reach : reach .sound s.schema (.read id) = .ok ()

theorem Lacks.read {s : Store} {id : Int} (h : s.Lacks id) :
    (s.ask .sound (.read id)).1 = .error (.notFound id) := by
  have hsession : session .sound s.schema s.table (.read id) = .error (.notFound id) := by
    simp only [session, prepare, h.reach, run, h.find, bind, Except.bind]
  simp only [ask, hsession]
  rfl

theorem lacks_of_remove {s : Store} {id : Int} {n : Nat}
    (h : (s.ask .sound (.remove id)).1 = .ok n) : (s.ask .sound (.remove id)).2.Lacks id where
  find := by
    rw [(run_remove (run_of_ask h).2).2]
    exact s.table.find?_erase_self id
  reach := by
    have hid : take (.number id) = .ok () := (run_of_ask h).1 _ List.mem_cons_self
    rw [schema_ask]
    cases hs : s.schema with
    | unreachable => simp [ask, session, prepare, reach, hs, bind, Except.bind] at h
    | absent => simp [ask, session, prepare, reach, hs, bind, Except.bind] at h
    | _ => simp [reach, Query.parameters, hid, bind, Except.bind, pure, Except.pure]

/-- The store takes in nothing that it could not hand out again. -/
theorem storable_ask {s : Store} (hs : s.table.Storable) (o : Outcome) (q : Query) :
    (s.ask o q).2.table.Storable := by
  cases ha : (s.ask o q).1 with
  | error f => rw [table_of_ask_error ha]; exact hs
  | ok a =>
    obtain ⟨htake, hrun⟩ := run_of_ask ha
    generalize (s.ask o q).2.table = t at hrun
    cases q with
    | create e =>
      obtain ⟨rfl, rfl, hw⟩ := run_create hrun
      intro r hr
      rcases Table.mem_insert.mp hr with hr | rfl
      · exact hs r hr
      · exact ⟨Subscription.storable_of_take htake, hw⟩
    | update id e =>
      have he : e.Storable :=
        Subscription.storable_of_take fun p hp => htake p (List.mem_append_left _ hp)
      cases id with
      | none =>
        rw [← (Prod.mk.inj (Except.ok.inj hrun)).2]
        exact hs
      | some id =>
        rw [(run_update hrun).2]
        exact hs.modify id fun _ _ => he
    | remove id =>
      rw [(run_remove hrun).2]
      exact fun r hr => hs r (Table.mem_erase.mp hr).1
    | setNextPayment id day =>
      rw [(run_setNextPayment hrun).2]
      exact hs.modify id fun r hr => { (hs r hr).toStorable with }
    | _ =>
      rw [run_of_not_writes rfl hrun]
      exact hs

/-- Rows that a query brings in are such, under whatever number. A payment date alone is no row. -/
def Brings (Φ : Row → Prop) : Query → Prop
  | .create s => ∀ id, Φ ⟨s, id⟩
  | .update id s => ∀ i ∈ id, Φ ⟨s, i⟩
  | .setNextPayment .. => False
  | _ => True

/-- All rows are such as before, or brought in. -/
theorem rows_ask {Φ : Row → Prop} {s : Store} (hs : ∀ r ∈ s.table.rows, Φ r) (o : Outcome)
    {q : Query} (hq : Brings Φ q) : ∀ r ∈ (s.ask o q).2.table.rows, Φ r := by
  cases ha : (s.ask o q).1 with
  | error f => rw [table_of_ask_error ha]; exact hs
  | ok a =>
    have hrun := (run_of_ask ha).2
    generalize (s.ask o q).2.table = t at hrun
    cases q with
    | create e =>
      obtain ⟨-, rfl, -⟩ := run_create hrun
      intro r hr
      rcases Table.mem_insert.mp hr with hr | rfl
      · exact hs r hr
      · exact hq _
    | update id e =>
      cases id with
      | none =>
        rw [← (Prod.mk.inj (Except.ok.inj hrun)).2]
        exact hs
      | some id =>
        rw [(run_update hrun).2]
        intro r hr
        rcases Table.mem_modify.mp hr with ⟨hr, -⟩ | ⟨q, -, rfl, rfl⟩
        · exact hs r hr
        · exact hq q.id rfl
    | remove id =>
      rw [(run_remove hrun).2]
      exact fun r hr => hs r (Table.mem_erase.mp hr).1
    | setNextPayment id day => exact hq.elim
    | _ =>
      rw [run_of_not_writes rfl hrun]
      exact hs

/-! What becomes of the rows if nothing fails -/

/-- The rows behind a query that is answered as it should be. -/
def rowsAfter (schema : Schema) (q : Query) (t : Table) : Table :=
  (ask .sound q ⟨schema, t, ⟨0, 0, 0⟩⟩).2.table

theorem table_ask (s : Store) (q : Query) :
    (s.ask .sound q).2.table = rowsAfter s.schema q s.table :=
  (ask_congr (s := s) (t := ⟨s.schema, s.table, ⟨0, 0, 0⟩⟩) rfl rfl .sound q).2

theorem rowsAfter_of_not_writes {schema : Schema} {q : Query} (hq : q.writes = false) (t : Table) :
    rowsAfter schema q t = t := by
  unfold rowsAfter
  cases ha : (ask .sound q ⟨schema, t, ⟨0, 0, 0⟩⟩).1 with
  | error f => rw [table_of_ask_error ha]
  | ok a => exact run_of_not_writes hq (run_of_ask ha).2

section
variable {schema : Schema} {q : Query} {answer : Table → q.Answer} {change : Table → Table}

/-- What the store is handed decides whether it is reached, the rows do not. -/
theorem ask_of_run (hp : prepare q = .ok ())
    (hrun : ∀ t, run schema t q = .ok (answer t, change t)) {s : Store} (hs : s.schema = schema) :
    (s.ask .sound q).1 = (reach .sound schema q).map (fun _ => answer s.table) ∧
      rowsAfter schema q s.table =
        (if reach .sound schema q = .ok () then change else id) s.table := by
  subst hs
  cases hr : reach .sound s.schema q with
  | error f =>
    constructor
    · simp [ask, session, hp, hr, bind, Except.bind, Except.map]
    · simp [rowsAfter, ask, session, hp, hr, bind, Except.bind]
  | ok u =>
    constructor
    · simp [ask, session, hp, hr, hrun, commit, bind, Except.bind, Except.map, pure, Except.pure]
    · simp [rowsAfter, ask, session, hp, hr, hrun, commit, bind, Except.bind, pure, Except.pure]

theorem rowsAfter_of_run (hp : prepare q = .ok ())
    (hrun : ∀ t, run schema t q = .ok (answer t, change t)) :
    (∀ t, rowsAfter schema q t = t) ∨ ∀ t, rowsAfter schema q t = change t := by
  have h (t : Table) := (ask_of_run hp hrun (s := ⟨schema, t, ⟨0, 0, 0⟩⟩) rfl).2
  by_cases hr : reach .sound schema q = .ok ()
  · exact .inr fun t => by rw [h t, if_pos hr]
  · exact .inl fun t => by
      rw [h t, if_neg hr]
      rfl

end

theorem forM_take {ps : List Parameter} (h : ∀ p ∈ ps, take p = .ok ()) :
    ps.forM take = .ok () := by
  induction ps with
  | nil => rfl
  | cons p ps ih =>
    simp only [List.forM, h p List.mem_cons_self]
    exact ih fun q hq => h q (List.mem_cons_of_mem p hq)

theorem reach_of_take {schema : Schema} (hs : schema = .plain ∨ schema = .checked) {q : Query}
    (hq : ∀ p ∈ q.parameters, take p = .ok ()) : reach .sound schema q = .ok () := by
  rcases hs with rfl | rfl <;> exact forM_take hq

theorem rowsAfter_remove (schema : Schema) (id : Int) :
    (∀ t, rowsAfter schema (.remove id) t = t) ∨
      ∀ t, rowsAfter schema (.remove id) t = t.erase id :=
  rowsAfter_of_run rfl fun _ => rfl

theorem ne_of_mem_rowsAfter_remove {schema : Schema} (hs : schema = .plain ∨ schema = .checked)
    {t : Table} (ht : t.Storable) {id : Int} {r : Row}
    (hr : r ∈ (rowsAfter schema (.remove id) t).rows) : r.id ≠ id := by
  have hrun : rowsAfter schema (.remove id) t = _ :=
    (ask_of_run rfl (fun _ => rfl) (s := ⟨schema, t, ⟨0, 0, 0⟩⟩) rfl).2
  rw [hrun] at hr
  split at hr
  next => exact (Table.mem_erase.mp hr).2
  next hno =>
    rintro rfl
    exact hno (reach_of_take hs (by simp [Query.parameters, take, (ht r hr).id]))

theorem rowsAfter_setNextPayment (schema : Schema) (id : Int) (day : Option Day) :
    (∀ t, rowsAfter schema (.setNextPayment id day) t = t) ∨
      ∀ t, rowsAfter schema (.setNextPayment id day) t =
        t.modify id fun s => { s with nextPayment := day } :=
  rowsAfter_of_run rfl fun _ => rfl

theorem rowsAfter_update (schema : Schema) (id : Int) (s : Subscription) :
    (∀ t, rowsAfter schema (.update (some id) s) t = t) ∨
      ∀ t, rowsAfter schema (.update (some id) s) t = t.replace id s := by
  cases hc : checkRow schema "update" s with
  | ok u =>
    have hrun (t : Table) :
        run schema t (.update (some id) s) = .ok (t.hits id, t.replace id s) := by
      by_cases h0 : t.hits id = 0
      · simp only [run, if_pos h0, Table.replace, Table.modify_of_hits_eq_zero h0]
        rw [h0]
      · simp only [run, if_neg h0, hc]
        rfl
    exact rowsAfter_of_run rfl hrun
  | error f =>
    refine .inl fun t => ?_
    unfold rowsAfter
    cases ha : (ask .sound (.update (some id) s) ⟨schema, t, ⟨0, 0, 0⟩⟩).1 with
    | error f => rw [table_of_ask_error ha]
    | ok n =>
      have hrun := (run_of_ask ha).2
      by_cases h0 : t.hits id = 0
      · rw [(run_update hrun).2, Table.replace, Table.modify_of_hits_eq_zero h0]
      · simp only [run, if_neg h0, hc] at hrun
        exact absurd hrun (by simp [bind, Except.bind])

/-- How many rows there are under the number decides the answer. -/
theorem ask_update {s t : Store} (hs : s.schema = t.schema) {id : Int}
    (hn : s.table.hits id = t.table.hits id) (e : Subscription) :
    (s.ask .sound (.update (some id) e)).1 = (t.ask .sound (.update (some id) e)).1 := by
  refine ask_fst_congr hs ?_ .sound
  simp only [run, hs, hn]
  split
  next => rfl
  next => cases checkRow t.schema "update" e <;> rfl

theorem ask_setNextPayment {s : Store} (hs : s.schema = .plain ∨ s.schema = .checked) {id : Int}
    (hid : fitsWord id = true) (day : Option Day) :
    (s.ask .sound (.setNextPayment id day)).1 = .ok (s.table.hits id) := by
  rw [(ask_of_run rfl (fun _ => rfl) rfl).1, reach_of_take hs (by simpa [Query.parameters, take])]
  rfl

theorem ask_setNextPayment_lost {s : Store} (hs : s.schema = .plain ∨ s.schema = .checked)
    {id : Int} (hid : fitsWord id = true) (day : Option Day) {o : Outcome}
    (ho : o = .statementFails ∨ o = .commitFails) :
    ∃ q c, (s.ask o (.setNextPayment id day)).1 = .error (.unavailable q c) := by
  have htake : take (.number id) = .ok () := by simp [take, hid]
  rcases ho with rfl | rfl <;> rcases hs with hs | hs <;>
    simp [ask, session, prepare, reach, hs, Query.parameters, htake, run, commit, Query.writes,
      bind, Except.bind, pure, Except.pure]

theorem ask_overdue {s : Store} (hs : s.schema = .plain ∨ s.schema = .checked) (day : Day) :
    (s.ask .sound (.overdue day)).1 = .ok (s.table.select (·.isOverdue day)) := by
  rw [(ask_of_run rfl (fun _ => rfl) rfl).1, reach_of_take hs (by simp [Query.parameters])]
  rfl

theorem ask_dueOn {s : Store} (hs : s.schema = .plain ∨ s.schema = .checked) (day : Day) :
    (s.ask .sound (.dueOn day)).1 =
      .ok (s.table.select fun r => r.isActive && r.nextPayment == some day) := by
  rw [(ask_of_run rfl (fun _ => rfl) rfl).1, reach_of_take hs (by simp [Query.parameters])]
  rfl

/-! Queries about one row -/

/-- What is asked of the row under a number, and of no other one. -/
def About (id : Int) : Query → Prop
  | .read k | .remove k => k = id
  | .update k _ => k = some id
  | _ => False

section
variable {id : Int} {q : Query} (hq : About id q)
include hq

/-- The row under the number decides on the answer, and on what is under it then. -/
theorem ask_about {s t : Store} (hs : s.schema = t.schema)
    (hrow : s.table.find? id = t.table.find? id) :
    (s.ask .sound q).1 = (t.ask .sound q).1 ∧
      (s.ask .sound q).2.table.find? id = (t.ask .sound q).2.table.find? id := by
  have hhits : s.table.hits id = t.table.hits id := by
    rw [Table.hits_eq, Table.hits_eq, hrow]
  rw [table_ask, table_ask, hs]
  cases q with
  | read k =>
    obtain rfl : k = id := hq
    rw [rowsAfter_of_not_writes rfl, rowsAfter_of_not_writes rfl]
    refine ⟨ask_fst_congr hs ?_ .sound, hrow⟩
    simp only [run, hrow]
    cases t.table.find? k <;> rfl
  | update k e =>
    obtain rfl : k = some id := hq
    refine ⟨ask_update hs hhits e, ?_⟩
    rcases rowsAfter_update t.schema id e with h | h
    · rw [h, h, hrow]
    · rw [h, h, Table.replace, Table.replace, Table.find?_modify, Table.find?_modify, hrow]
  | remove k =>
    obtain rfl : k = id := hq
    refine ⟨ask_fst_congr hs ?_ .sound, ?_⟩
    · simp only [run, hhits]
      rfl
    · rcases rowsAfter_remove t.schema k with h | h
      · rw [h, h, hrow]
      · rw [h, h, Table.find?_erase_self, Table.find?_erase_self]
  | _ => exact hq.elim

/-- What is under other numbers stays there. -/
theorem find?_ask_of_ne (s : Store) {k : Int} (hk : k ≠ id) :
    (s.ask .sound q).2.table.find? k = s.table.find? k := by
  rw [table_ask]
  cases q with
  | read k => rw [rowsAfter_of_not_writes rfl]
  | update k e =>
    obtain rfl : k = some id := hq
    rcases rowsAfter_update s.schema id e with h | h
    · rw [h]
    · rw [h, Table.replace, Table.find?_modify_of_ne hk]
  | remove k =>
    obtain rfl : k = id := hq
    rcases rowsAfter_remove s.schema k with h | h
    · rw [h]
    · rw [h, Table.find?_erase_of_ne hk]
  | _ => exact hq.elim

end

end Store
end Renewals
