import Renewals.Proofs.Service.Effects
import Renewals.Proofs.Service.Stages
/-! The calls of a rollover, an update and a removal, if all goes well. -/
namespace Renewals

def Call.asks : Call → Bool
  | .ask _ => true
  | _ => false

/-- Whether a call looks for rows that are overdue. -/
def Call.seeks : Call → Bool
  | .ask (.overdue _) => true
  | _ => false

/-- Whether a call sets the payment date of a row and nothing else. -/
def Call.dates (id : Int) : Call → Bool
  | .ask (.setNextPayment i _) => i == id
  | _ => false

/-- Whether a call puts an entry into the cache or drops it. -/
def Call.touches (id : Int) : Call → Bool
  | .put key _ _ => key == .whole (cacheKey id)
  | .drop key => key == .whole (cacheKey id)
  | _ => false

theorem Call.asks_of_touches {c : Call} {id : Int} (h : c.touches id = true) : c.asks = false := by
  cases c with
  | ask q => exact Bool.noConfusion h
  | _ => rfl

namespace Service

/-! What the rollover does -/

section
variable (p : Policy) (today : Day)

/-- Rows as they are moved, up to one whose date is beyond the calendar. -/
def movedRows (today : Day) : List Row → List Row
  | [] => []
  | r :: rs =>
    match r.nextPayment.map (Billing.rollForward today) with
    | none => movedRows today rs
    | some (.error _) => []
    | some (.ok next) => { r with nextPayment := some next } :: movedRows today rs

def moved (t : Table) : List Row := movedRows today (t.select (·.isOverdue today))

/-- The calls of a rollover behind its query. -/
def moves (t : Table) : List Call := (moved today t).flatMap fun r => [dateOf r, entryOf p r]

/-- The calls of a rollover that finds these rows. -/
def rolling (t : Table) : List Call := .ask (.overdue today) :: moves p today t

end

section
variable {p : Policy} {today : Day}

theorem exists_of_mem_movedRows {rs : List Row} {m : Row} (hm : m ∈ movedRows today rs) :
    ∃ r ∈ rs, r.id = m.id := by
  induction rs with
  | nil => exact absurd hm List.not_mem_nil
  | cons r rs ih =>
    simp only [movedRows] at hm
    split at hm
    next =>
      obtain ⟨q, hq, hid⟩ := ih hm
      exact ⟨q, List.mem_cons_of_mem r hq, hid⟩
    next => exact absurd hm List.not_mem_nil
    next next _ =>
      rcases List.mem_cons.mp hm with rfl | hm
      · exact ⟨r, List.mem_cons_self, rfl⟩
      · obtain ⟨q, hq, hid⟩ := ih hm
        exact ⟨q, List.mem_cons_of_mem r hq, hid⟩

theorem mem_moves {t : Table} {c : Call} (hc : c ∈ moves p today t) :
    ∃ m ∈ moved today t, c = dateOf m ∨ c = entryOf p m := by
  obtain ⟨m, hm, hc⟩ := List.mem_flatMap.mp hc
  refine ⟨m, hm, ?_⟩
  simpa using hc

theorem mem_rolling {t : Table} {c : Call} (hc : c ∈ rolling p today t) :
    c = .ask (.overdue today) ∨ ∃ m, c = dateOf m ∨ c = entryOf p m := by
  rcases List.mem_cons.mp hc with he | hc
  · exact .inl he
  · obtain ⟨m, -, he⟩ := mem_moves hc
    exact .inr ⟨m, he⟩

variable {keys : List LooseText} {F : Table → Prop} {start : Deployment}

theorem follows_moveRows (hs : start.store.schema = .plain ∨ start.store.schema = .checked)
    (hp : Suits p start) {rs : List Row} (hrs : ∀ r ∈ rs, fitsWord r.id = true)
    {R : Except Failure Nat → List Call → Prop} (hR : ∀ r, R r []) :
    (moveRows p today rs).run.Follows (Calm p keys F start) R
      ((movedRows today rs).flatMap fun r => [dateOf r, entryOf p r]) := by
  induction rs generalizing R with
  | nil => exact .done (hR _)
  | cons r rs ih =>
    have hmore (n : Nat) : ((moveRows p today rs) >>= fun m => pure (n + m) : Task Nat).run.Follows
        (Calm p keys F start) R ((movedRows today rs).flatMap fun r => [dateOf r, entryOf p r]) :=
      Plan.Follows.bind_task (ih (fun q hq => hrs q (List.mem_cons_of_mem r hq)) fun a => by
        cases a with
        | ok m => exact .done (hR _)
        | error f => exact hR _)
    refine Plan.Follows.bind_task (t := moveRow p today r) ?_
    cases hdue : r.nextPayment with
    | none =>
      simp only [moveRow_none hdue, movedRows, hdue, Option.map_none]
      exact .done (hmore 0)
    | some due =>
      cases hnext : Billing.rollForward today due with
      | error f =>
        simp only [moveRow_error hdue hnext, movedRows, hdue, hnext, Option.map_some,
          List.flatMap_nil]
        exact .done (hR _)
      | ok next =>
        obtain ⟨behind, heq, hbehind⟩ := moveRow_ok p hdue hnext
        simp only [movedRows, hdue, hnext, Option.map_some, List.flatMap_cons, List.cons_append,
          List.nil_append]
        rw [heq]
        refine .call fun d hd => ?_
        have hw : fitsWord r.id = true := hrs r List.mem_cons_self
        have hask := (hd.steady.ask (.setNextPayment r.id (some next))).1.trans
          (Store.ask_setNextPayment (hd.schema ▸ hs) hw _)
        obtain ⟨behind', heq', hend⟩ := hbehind (d.store.table.hits r.id)
        refine ((congrArg behind hask).trans heq') ▸ .call fun d hd => ?_
        exact ((congrArg behind' (hd.put hp _ _)).trans hend) ▸ .done (hmore 1)

/-- The rows that the rollover finds decide what it does from then on. -/
theorem makes_moves (hs : start.store.schema = .plain ∨ start.store.schema = .checked)
    (hp : Suits p start) : ∃ behind,
      (serve p (.rollover today)).run = .call (.ask (.overdue today)) behind ∧
      ∀ d, Calm p keys F start d → (behind (Deployment.answer (.ask (.overdue today)) d).1).Makes
        (Calm p keys F start) (moves p today d.store.table) := by
  obtain ⟨behind, heq, hbehind⟩ := serve_rollover_eq p today
  refine ⟨behind, heq, fun d hd => ?_⟩
  have hask := (hd.steady.ask (.overdue today)).1.trans
    (Store.ask_overdue (hd.schema ▸ hs) today)
  rw [(congrArg behind hask).trans (hbehind _)]
  refine Plan.Follows.bind_task (follows_moveRows hs hp (fun r hr => ?_) fun r => ?_)
  · exact (hd.storable r (List.mem_filter.mp hr).1).id
  · cases r with
    | ok n => exact .done rfl
    | error f => rfl

end

/-! What the other request does -/

/-- A request that writes an entry. -/
inductive Writing
  | update (today : Day) (username : LooseText) (o : Order) (userUid : Option LooseText)
  | remove

def Writing.request (id : Int) : Writing → Request
  | .update today username o userUid => .update today id username o userUid
  | .remove => .remove id

/-- The rows that an update does not add to or take from. -/
def Writing.Keeps (id : Int) (n : Nat) : Writing → Table → Prop
  | .update .., t => t.hits id = n
  | .remove, _ => True

/-- The calls of a writing. An update that is refused makes none; one that finds no row puts
nothing. -/
inductive Writing.Script (p : Policy) (id : Int) : Writing → List Call → Prop
  | refused (today : Day) (username : LooseText) (o : Order) (userUid : Option LooseText) :
    Script p id (.update today username o userUid) []
  | update (today : Day) (username : LooseText) (o : Order) (userUid : Option LooseText)
    (s : Subscription) (rest : List Call) (h : ∀ c ∈ rest, c = entryOf p ⟨s, id⟩) :
    Script p id (.update today username o userUid) (.ask (.update (some id) s) :: rest)
  | remove (rest : List Call) (h : ∀ c ∈ rest, c = .drop (cacheKey id)) :
    Script p id .remove (.drop (cacheKey id) :: .ask (.remove id) :: rest)

section
variable {p : Policy} {keys : List LooseText} {start : Deployment} {id : Int}

theorem exists_update_script (hp : Suits p start) (today : Day) (username : LooseText) (o : Order)
    (userUid : Option LooseText) :
    ∃ calls, Writing.Script p id (.update today username o userUid) calls ∧
      (serve p (.update today id username o userUid)).run.Makes
        (Calm p keys (·.hits id = start.store.table.hits id) start) calls := by
  rcases serve_update_eq p id today username o userUid with ⟨r, heq⟩ | ⟨s, behind, heq, hend⟩
  · exact ⟨[], .refused .., heq ▸ .done rfl⟩
  · -- The answer depends on no more than whether there is such a row.
    have hask {d : Deployment} (hd : Calm p keys (·.hits id = start.store.table.hits id) start d) :=
      (hd.steady.ask (.update (some id) s)).1.trans (Store.ask_update hd.schema hd.rows s)
    rcases hend (start.store.ask .sound (.update (some id) s)).1 with
      ⟨r, hr⟩ | ⟨behind', heq', r, hr⟩
    · refine ⟨_, .update _ _ _ _ s [] (by simp), heq ▸ .call fun d hd => ?_⟩
      exact (congrArg behind (hask hd)).trans hr ▸ .done rfl
    · refine ⟨_, .update _ _ _ _ s [entryOf p ⟨s, id⟩] (by simp), heq ▸ .call fun d hd => ?_⟩
      refine (congrArg behind (hask hd)).trans heq' ▸ .call fun d hd => ?_
      exact (congrArg behind' (hd.put hp _ _)).trans hr ▸ .done rfl

theorem exists_remove_script {F : Table → Prop} : ∃ calls, Writing.Script p id .remove calls ∧
    (serve p (.remove id)).run.Makes (Calm p keys F start) calls := by
  obtain ⟨behind, heq, hnext⟩ := serve_remove_eq p id
  obtain ⟨behind', heq', hok, herr⟩ := removeStored_eq id
  have hdrop {d : Deployment} (hd : Calm p keys F start d) :=
    (congrArg behind (hd.steady.drop _)).trans hnext
  have hask {d : Deployment} (hd : Calm p keys F start d) :=
    (hd.steady.ask (.remove id)).1.trans (Store.ask_of_run rfl (fun _ => rfl) hd.schema).1
  cases hr : Store.reach .sound start.store.schema (.remove id) with
  | error f =>
    refine ⟨_, .remove [] (by simp), heq ▸ .call fun d hd => ?_⟩
    refine (hdrop hd).trans heq' ▸ .call fun d hd => ?_
    have ha := (hask hd).trans (by rw [hr]; rfl)
    exact (congrArg behind' ha).trans (herr f) ▸ .done rfl
  | ok u =>
    refine ⟨_, .remove [.drop (cacheKey id)] (by simp), heq ▸ .call fun d hd => ?_⟩
    refine (hdrop hd).trans heq' ▸ .call fun d hd => ?_
    have ha := (hask hd).trans (by rw [hr]; rfl)
    obtain ⟨behind'', heq'', hend⟩ := forgetAgain_eq id (d.store.table.hits id)
    refine ((congrArg behind' ha).trans (hok _)).trans heq'' ▸ .call fun d hd => ?_
    exact (congrArg behind'' (hd.steady.drop _)).trans hend ▸ .done rfl

theorem exists_script (hp : Suits p start) (w : Writing) :
    ∃ calls, w.Script p id calls ∧ (serve p (w.request id)).run.Makes
      (Calm p keys (w.Keeps id (start.store.table.hits id)) start) calls := by
  cases w with
  | update today username o userUid => exact exists_update_script hp today username o userUid
  | remove => exact exists_remove_script

/-- Once a writing has asked the store, it does not ask it again. -/
theorem Writing.Script.asks_once {w : Writing} {calls : List Call} (h : w.Script p id calls) :
    calls.Pairwise fun a b => a.asks = true → b.asks = false := by
  cases h with
  | refused => exact .nil
  | update _ _ _ _ s rest h =>
    refine List.pairwise_cons.mpr ⟨fun c hc _ => h c hc ▸ rfl, ?_⟩
    exact List.pairwise_of_forall_mem_list fun a ha b hb _ => h b hb ▸ rfl
  | remove rest h =>
    refine List.pairwise_cons.mpr ⟨fun c _ ha => absurd ha (by simp [Call.asks]), ?_⟩
    refine List.pairwise_cons.mpr ⟨fun c hc _ => h c hc ▸ rfl, ?_⟩
    exact List.pairwise_of_forall_mem_list fun a ha b hb _ => h b hb ▸ rfl

theorem Writing.Script.eq_nil {w : Writing} {calls : List Call} (h : w.Script p id calls)
    (hno : ∀ c ∈ calls, c.asks = false) : calls = [] := by
  cases h with
  | refused => rfl
  | update => exact Bool.noConfusion (hno _ List.mem_cons_self)
  | remove => exact Bool.noConfusion (hno _ (List.mem_cons_of_mem _ List.mem_cons_self))

/-! What the scripts do to the rows and the entry -/

variable {w : Writing} {calls : List Call} {schema : Schema} {c : Call}

theorem touches_entryOf (r : Row) : (entryOf p r).touches r.id = true := by
  simp [entryOf, Call.touches]

theorem dates_dateOf (r : Row) : (dateOf r).dates r.id = true := by
  simp [dateOf, Call.dates]

theorem rowsBehind_of_not_asks (hc : c.asks = false) (t : Table) : rowsBehind schema t c = t := by
  cases c with
  | ask q => exact Bool.noConfusion hc
  | _ => rfl

theorem foldl_rowsBehind_of_not_asks (hcalls : ∀ c ∈ calls, c.asks = false) (t : Table) :
    calls.foldl (rowsBehind schema) t = t := by
  induction calls with
  | nil => rfl
  | cons c calls ih =>
    rw [List.foldl_cons, rowsBehind_of_not_asks (hcalls c List.mem_cons_self)]
    exact ih fun c' hc' => hcalls c' (List.mem_cons_of_mem c hc')

@[simp] theorem rowsBehind_overdue (t : Table) (day : Day) :
    rowsBehind schema t (.ask (.overdue day)) = t := Store.rowsAfter_of_not_writes rfl t

theorem entryBehind_of_asks (hc : c.asks = true) (now : Binary64) (key : LooseText)
    (entry : Option LooseText) : entryBehind now key entry c = entry := by
  cases c with
  | ask q => rfl
  | _ => exact Bool.noConfusion hc

theorem entryBehind_entryOf_of_ne {m : Row} (hm : m.id ≠ id) (now : Binary64)
    (entry : Option LooseText) : entryBehind now (cacheKey id) entry (entryOf p m) = entry :=
  if_neg fun h => hm (cacheKey_injective (LooseText.whole.inj h))

theorem rowsBehind_dateOf (schema : Schema) (m : Row) :
    (∀ t, rowsBehind schema t (dateOf m) = t) ∨ ∀ t, rowsBehind schema t (dateOf m) =
      t.modify m.id fun s => { s with nextPayment := m.nextPayment } :=
  Store.rowsAfter_setNextPayment schema m.id m.nextPayment

/-- The rollover changes rows only by dating them. -/
theorem rowsBehind_of_mem_rolling {today : Day} {t : Table} (hc : c ∈ rolling p today t)
    (schema : Schema) : (∃ m, c = dateOf m) ∨ ∀ u, rowsBehind schema u c = u := by
  rcases mem_rolling hc with rfl | ⟨m, he | rfl⟩
  · exact .inr fun u => rowsBehind_overdue u today
  · exact .inl ⟨m, he⟩
  · exact .inr fun u => rowsBehind_of_not_asks rfl u

/-- A writing asks the store for its one change, and else it puts or drops its one entry. -/
theorem Writing.Script.of_mem (h : w.Script p id calls) (hc : c ∈ calls) :
    (w ≠ .remove ∧ ∃ s, c = .ask (.update (some id) s) ∨ c = entryOf p ⟨s, id⟩) ∨
      (w = .remove ∧ (c = .ask (.remove id) ∨ c = .drop (cacheKey id))) := by
  cases h with
  | refused => exact absurd hc List.not_mem_nil
  | update _ _ _ _ s rest h =>
    rcases List.mem_cons.mp hc with he | hc
    · exact .inl ⟨Writing.noConfusion, s, .inl he⟩
    · exact .inl ⟨Writing.noConfusion, s, .inr (h c hc)⟩
  | remove rest h =>
    rcases List.mem_cons.mp hc with he | hc
    · exact .inr ⟨rfl, .inr he⟩
    · rcases List.mem_cons.mp hc with he | hc
      · exact .inr ⟨rfl, .inl he⟩
      · exact .inr ⟨rfl, .inr (h c hc)⟩

/-- A call of a writing leaves the rows alone, or it changes or takes away the one row. -/
theorem Writing.Script.rows (h : w.Script p id calls) (hc : c ∈ calls) (schema : Schema) :
    (∀ t, rowsBehind schema t c = t) ∨
      (w ≠ .remove ∧ c.asks = true ∧ ∃ s, ∀ t, rowsBehind schema t c = t.replace id s) ∨
      (w = .remove ∧ ∀ t, rowsBehind schema t c = t.erase id) := by
  rcases h.of_mem hc with ⟨hw, s, rfl | rfl⟩ | ⟨hw, rfl | rfl⟩
  · rcases Store.rowsAfter_update schema id s with hr | hr
    · exact .inl hr
    · exact .inr (.inl ⟨hw, rfl, s, hr⟩)
  · exact .inl fun t => rfl
  · rcases Store.rowsAfter_remove schema id with hr | hr
    · exact .inl hr
    · exact .inr (.inr ⟨hw, hr⟩)
  · exact .inl fun t => rfl

/-- A call of a writing that is not one of the store overwrites the entry. -/
theorem Writing.Script.entry (h : w.Script p id calls) (hc : c ∈ calls) (hn : c.asks = false)
    (now : Binary64) (a b : Option LooseText) :
    entryBehind now (cacheKey id) a c = entryBehind now (cacheKey id) b c := by
  rcases h.of_mem hc with ⟨-, s, rfl | rfl⟩ | ⟨-, rfl | rfl⟩
  · exact Bool.noConfusion hn
  · simp [entryOf, entryBehind]
  · exact Bool.noConfusion hn
  · simp [entryBehind]

theorem Writing.Script.touches (h : w.Script p id calls) (hc : c ∈ calls) (hn : c.asks = false) :
    c.touches id = true := by
  rcases h.of_mem hc with ⟨-, s, rfl | rfl⟩ | ⟨-, rfl | rfl⟩
  · exact Bool.noConfusion hn
  · exact touches_entryOf ⟨s, id⟩
  · exact Bool.noConfusion hn
  · simp [Call.touches]

/-- No row comes up but under the number of an update. -/
theorem Writing.Script.mem_rows (h : w.Script p id calls) (hc : c ∈ calls) {t : Table} {r : Row}
    (hr : r ∈ (rowsBehind schema t c).rows) : (w ≠ .remove ∧ r.id = id) ∨ r ∈ t.rows := by
  rcases h.rows hc schema with he | ⟨hw, -, s, he⟩ | ⟨-, he⟩
  · exact .inr (he t ▸ hr)
  · rw [he] at hr
    rcases Table.mem_modify.mp hr with ⟨hr, -⟩ | ⟨q, -, hq, rfl⟩
    · exact .inr hr
    · exact .inl ⟨hw, hq⟩
  · rw [he] at hr
    exact .inr (Table.mem_erase.mp hr).1

theorem Writing.Script.mem_rows_foldl (h : w.Script p id calls) {made : List Call}
    (hmade : ∀ c ∈ made, c ∈ calls) {t : Table} {r : Row}
    (hr : r ∈ (made.foldl (rowsBehind schema) t).rows) :
    (w ≠ .remove ∧ r.id = id) ∨ r ∈ t.rows := by
  induction made generalizing t with
  | nil => exact .inr hr
  | cons c made ih =>
    rcases ih (fun c' hc' => hmade c' (List.mem_cons_of_mem c hc')) hr with hi | hr
    · exact .inl hi
    · exact h.mem_rows (hmade c List.mem_cons_self) hr

/-- Behind the query of a removal there is no such row. -/
theorem Writing.Script.ne_of_remove (h : Writing.remove.Script p id calls)
    (hs : schema = .plain ∨ schema = .checked) {made : List Call} (hmade : ∀ c ∈ made, c ∈ calls)
    {q : Call} (hq : q ∈ made) (ha : q.asks = true) {t : Table} (ht : t.Storable) {r : Row}
    (hr : r ∈ (made.foldl (rowsBehind schema) t).rows) : r.id ≠ id := by
  obtain ⟨early, late, rfl⟩ := List.append_of_mem hq
  rw [List.foldl_append, List.foldl_cons] at hr
  have hold {made : List Call} (hm : ∀ c ∈ made, c ∈ calls) {t : Table} {r : Row}
      (hr : r ∈ (made.foldl (rowsBehind schema) t).rows) : r ∈ t.rows :=
    (h.mem_rows_foldl hm hr).resolve_left fun hw => hw.1 rfl
  have hr := hold (fun c hc => hmade c (by simp [hc])) hr
  obtain rfl : q = .ask (.remove id) := by
    rcases h.of_mem (hmade q hq) with ⟨hw, -⟩ | ⟨-, he | rfl⟩
    · exact absurd rfl hw
    · exact he
    · exact Bool.noConfusion ha
  exact Store.ne_of_mem_rowsAfter_remove hs
    (fun r hr => ht r (hold (fun c hc => hmade c (by simp [hc])) hr)) hr

/-- The rollover may date other rows before or after, and a row that is removed at any time. -/
theorem Writing.Script.rows_dateOf (h : w.Script p id calls) (hc : c ∈ calls) {m : Row}
    (hm : m.id ≠ id ∨ w = .remove ∨ c.asks = false) (t : Table) :
    rowsBehind schema (rowsBehind schema t c) (dateOf m) =
      rowsBehind schema (rowsBehind schema t (dateOf m)) c := by
  rcases rowsBehind_dateOf schema m with hd | hd
  · rw [hd, hd]
  · rcases h.rows hc schema with he | ⟨hw, ha, s, he⟩ | ⟨-, he⟩
    · rw [he, he]
    · have hne : m.id ≠ id :=
        hm.resolve_right fun hn => hn.elim hw fun hn => Bool.noConfusion (ha.symm.trans hn)
      rw [hd, hd, he, he]
      exact t.modify_comm (Ne.symm hne) _ _
    · rw [hd, hd, he, he]
      exact (t.erase_modify id m.id _).symm

/-- The rows as far as the order of the calls does not matter. A removal takes its row away in any
order, but what an update makes the payment date may be overwritten. -/
def Writing.settled (id : Int) : Writing → Table → Table
  | .update .., t => t.modify id fun s => { s with nextPayment := none }
  | .remove, t => t

theorem Writing.settled_settled (w : Writing) (t : Table) :
    w.settled id (w.settled id t) = w.settled id t := by
  cases w with
  | remove => rfl
  | update => simp only [settled, Table.modify_modify]

theorem Writing.settled_dateOf (w : Writing) {m : Row} (hm : m.id = id) (hw : w ≠ .remove)
    (t : Table) : w.settled id (rowsBehind schema t (dateOf m)) = w.settled id t := by
  subst hm
  rcases rowsBehind_dateOf schema m with hd | hd
  · rw [hd]
  · cases w with
    | remove => exact absurd rfl hw
    | update => simp only [hd, settled, Table.modify_modify]

/-- What does not count of the rows does not come to count later. -/
theorem Writing.settled_rowsBehind_dateOf (w : Writing) (m : Row) (t : Table) :
    w.settled id (rowsBehind schema (w.settled id t) (dateOf m)) =
      w.settled id (rowsBehind schema t (dateOf m)) := by
  by_cases hm : m.id = id ∧ w ≠ .remove
  · rw [w.settled_dateOf hm.1 hm.2, w.settled_dateOf hm.1 hm.2, w.settled_settled]
  · rcases rowsBehind_dateOf schema m with hd | hd
    · rw [hd, hd, w.settled_settled]
    · cases w with
      | remove => rfl
      | update =>
        have hne : id ≠ m.id := fun he => hm ⟨he.symm, Writing.noConfusion⟩
        rw [hd, hd]
        simp only [settled, t.modify_comm hne, Table.modify_modify]

theorem Writing.Script.settled_rowsBehind (h : w.Script p id calls) (hc : c ∈ calls) (t : Table) :
    w.settled id (rowsBehind schema (w.settled id t) c) = w.settled id (rowsBehind schema t c) := by
  rcases h.rows hc schema with he | ⟨hw, -, s, he⟩ | ⟨rfl, -⟩
  · rw [he, he]
    exact w.settled_settled t
  · cases w with
    | remove => exact absurd rfl hw
    | update =>
      simp only [he, settled, Table.replace, Table.modify_modify]
  · rfl

theorem Writing.Script.settled_comm (h : w.Script p id calls) (hc : c ∈ calls) (m : Row)
    (t : Table) :
    w.settled id (rowsBehind schema (w.settled id (rowsBehind schema t c)) (dateOf m)) =
      w.settled id (rowsBehind schema (w.settled id (rowsBehind schema t (dateOf m))) c) := by
  rw [w.settled_rowsBehind_dateOf, h.settled_rowsBehind hc]
  by_cases hm : m.id ≠ id ∨ w = .remove
  · rw [h.rows_dateOf hc (hm.elim .inl fun hw => .inr (.inl hw))]
  · obtain ⟨hid, hw⟩ := not_or.mp hm
    have hid : m.id = id := not_not.mp hid
    rw [w.settled_dateOf hid hw, ← h.settled_rowsBehind hc (rowsBehind schema t (dateOf m)),
      w.settled_dateOf hid hw, h.settled_rowsBehind hc]

theorem Writing.settled_foldl {made : List Call} (h : ∀ c ∈ made, ∀ t,
      w.settled id (rowsBehind schema (w.settled id t) c) = w.settled id (rowsBehind schema t c))
    (t : Table) : w.settled id (made.foldl (rowsBehind schema) t) =
      made.foldl (fun t c => w.settled id (rowsBehind schema t c)) (w.settled id t) := by
  induction made generalizing t with
  | nil => rfl
  | cons c made ih =>
    rw [List.foldl_cons, List.foldl_cons, h c List.mem_cons_self,
      ih fun c' hc' => h c' (List.mem_cons_of_mem c hc')]

/-! Calls that fit -/

theorem Writing.Keeps.modify {n : Nat} {t : Table} (h : w.Keeps id n t) (i : Int)
    (f : Subscription → Subscription) : w.Keeps id n (t.modify i f) := by
  cases w with
  | update => exact (t.hits_modify i id f).trans h
  | remove => trivial

theorem Writing.Script.fits (h : w.Script p id calls) (hk : (cacheKey id : LooseText) ∈ keys)
    (n : Nat) : ∀ c ∈ calls, Fits p keys (w.Keeps id n) start c := by
  have hask {q : Query} (hq : .ask q ∈ calls) : Fits p keys (w.Keeps id n) start (.ask q) := by
    intro t ht
    change w.Keeps id n (rowsBehind start.store.schema t (.ask q))
    rcases h.rows hq start.store.schema with he | ⟨-, -, s, he⟩ | ⟨rfl, -⟩
    · rw [he]
      exact ht
    · rw [he]
      exact ht.modify id _
    · trivial
  intro c hc
  rcases h.of_mem hc with ⟨-, s, rfl | rfl⟩ | ⟨-, rfl | rfl⟩
  · exact hask hc
  · exact ⟨hk, rfl⟩
  · exact hask hc
  · trivial

/-- The keys of all entries that may be put. -/
def concerned (today : Day) (id : Int) (t : Table) : List LooseText :=
  cacheKey id :: (t.select (·.isOverdue today)).map (cacheKey ·.id)

theorem fits_moves {today : Day} {t : Table} {n : Nat}
    (hr : ∀ r ∈ t.rows, (w ≠ .remove ∧ r.id = id) ∨ r ∈ start.store.table.rows) :
    ∀ c ∈ moves p today t,
      Fits p (concerned today id start.store.table) (w.Keeps id n) start c := by
  intro c hc
  obtain ⟨m, hm, rfl | rfl⟩ := mem_moves hc
  · intro u hu
    change w.Keeps id n (rowsBehind start.store.schema u (dateOf m))
    rcases rowsBehind_dateOf start.store.schema m with hd | hd
    · rw [hd]
      exact hu
    · rw [hd]
      exact hu.modify m.id _
  · obtain ⟨r, hrm, hid⟩ := exists_of_mem_movedRows hm
    obtain ⟨hrt, hover⟩ := List.mem_filter.mp hrm
    refine ⟨?_, rfl⟩
    rw [← hid]
    rcases hr r hrt with ⟨-, he⟩ | hr
    · exact he ▸ List.mem_cons_self
    · exact List.mem_cons_of_mem _ (List.mem_map.mpr ⟨r, List.mem_filter.mpr ⟨hr, hover⟩, rfl⟩)

end

end Service
end Renewals
