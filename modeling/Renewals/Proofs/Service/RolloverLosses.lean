import Renewals.Proofs.Service.RolloverHistory
import Renewals.Proofs.Service.Scripts
import Renewals.Proofs.Service.Traces
/-! A rollover that cannot write some of its rows. They stay as they are and out of the cache, the
others are brought to today all the same, and a later rollover of that day moves just those that
were left behind. -/
namespace Renewals

/-- A date is written, or else the store cannot keep it. -/
def Outcome.Goes (lost : Bool) (o : Outcome) : Prop :=
  if lost then o = .statementFails ∨ o = .commitFails else o = .sound

namespace Deployment
variable {t u : Task Nat} {d : Deployment} {m n : Nat}

/-- What two tasks count, one after the other. -/
theorem run_sum (ht : (d.run t).1 = .ok m) (hu : ((d.run t).2.run u).1 = .ok n) :
    d.run (do let k ← t; pure (k + (← u))) = (.ok (m + n), ((d.run t).2.run u).2) := by
  rw [run_bind, ht]
  show (d.run t).2.run (u >>= fun k => pure (m + k)) = _
  rw [run_bind, hu]
  rfl

theorem calls_sum (ht : (d.run t).1 = .ok m) :
    d.calls (do let k ← t; pure (k + (← u))) = d.calls t ++ (d.run t).2.calls u := by
  rw [calls_bind, ht]
  show _ ++ (d.run t).2.calls (u >>= fun k => pure (m + k)) = _
  rw [calls_bind]
  cases ((d.run t).2.run u).1 <;> simp

end Deployment

namespace Service

/-- How the calls go that write the dates of rows, some of which are lost. -/
def Goes (lost : Int → Bool) : List Row → List Outcome → Prop
  | [], _ => True
  | r :: rs, plan => (plan.headD .sound).Goes (lost r.id) ∧ Goes lost rs plan.tail

variable {p : Policy} {today : Day} {d : Deployment} {r : Row} {rs : List Row}

/-- What is left to do once the store has been handed the date of a row. -/
def afterDate (p : Policy) (m : Row) :
    Except StoreFault (Query.setNextPayment m.id m.nextPayment).Answer → Task Nat
  | .error (.unavailable ..) => do
    Task.log .error s!"failed to update next payment date for id={m.id}"
    pure 0
  | .error f => throw (.store f)
  | .ok _ => do
    keep p m
    pure 1

/-- A row that is to be moved is one call of the store, and what follows its answer. -/
theorem moveRow_eq {due next : Day} (hdue : r.nextPayment = some due)
    (hnext : Billing.rollForward today due = .ok next) {m : Row}
    (hm : m = { r with nextPayment := some next }) :
    moveRow p today r = Task.ask? (.setNextPayment m.id m.nextPayment) >>= afterDate p m := by
  subst hm
  unfold moveRow
  simp only [hdue, hnext, Task.lift, pure_bind]
  apply bind_congr
  intro a
  cases a with
  | ok n => rfl
  | error f => cases f <;> rfl

theorem only_afterDate (m : Row) (a : Except StoreFault (Query.setNextPayment m.id _).Answer) :
    Task.Only (Asks p.ttl fun _ => False) (afterDate p m a) := by
  unfold afterDate
  split
  next => exact .bind (.perform (c := .log _) trivial) fun _ => .pure 0
  next => exact .throw _
  next => exact .bind (only_keep m) fun _ => .pure 1

/-- A run that brings some of the rows to today and counts them. It leaves the other rows as they
are, and out of the cache. -/
structure Advances (today : Day) (chosen : Row → Bool) (t : Task Nat) (d : Deployment) : Prop where
  count : (d.run t).1 = .ok (d.store.table.rows.countP chosen)
  rows : (d.run t).2.store.table.rows =
    d.store.table.rows.map fun r => if chosen r then r.settled today else r
  spared : ∀ r ∈ d.store.table.rows, chosen r = false → ∀ c ∈ d.calls t, c.touches r.id = false

namespace Advances
variable {chosen later : Row → Bool} {t u : Task Nat}

theorem congr (h : Advances today chosen t d)
    (hsame : ∀ r ∈ d.store.table.rows, chosen r = later r) : Advances today later t d where
  count := by
    rw [h.count]
    exact congrArg Except.ok (List.countP_congr fun r hr => by rw [hsame r hr])
  rows := by
    rw [h.rows]
    exact List.map_congr_left fun r hr => by rw [hsame r hr]
  spared r hr hlater := h.spared r hr ((hsame r hr).trans hlater)

theorem none_chosen (today : Day) (d : Deployment) :
    Advances today (fun _ => false) (pure 0 : Task Nat) d where
  count := by simp
  rows := by simp
  spared _ _ _ _ hc := absurd hc List.not_mem_nil

/-- Two runs, the second of which lets the rows alone that the first has moved. -/
theorem append (h : Advances today chosen t d) (h' : Advances today later u (d.run t).2)
    (hfar : ∀ r ∈ d.store.table.rows, chosen r = true →
      later r = false ∧ later (r.settled today) = false) :
    Advances today (fun r => chosen r || later r) (do let n ← t; pure (n + (← u))) d where
  count := by
    have hmoved : (d.run t).2.store.table.rows.countP later =
        d.store.table.rows.countP later := by
      rw [h.rows, List.countP_map]
      apply List.countP_congr
      intro r hr
      cases hchosen : chosen r with
      | true =>
        obtain ⟨hlater, hsettled⟩ := hfar r hr hchosen
        simp [hchosen, hlater, hsettled]
      | false => simp [hchosen]
    rw [Deployment.run_sum h.count h'.count, hmoved,
      countP_or fun r hr hchosen => (hfar r hr hchosen).1]
  rows := by
    rw [Deployment.run_sum h.count h'.count, h'.rows, h.rows, List.map_map]
    apply List.map_congr_left
    intro r hr
    cases hchosen : chosen r with
    | true =>
      obtain ⟨-, hsettled⟩ := hfar r hr hchosen
      simp [hchosen, hsettled]
    | false => simp [hchosen]
  spared r hr hnone c hc := by
    obtain ⟨hchosen, hlater⟩ := Bool.or_eq_false_iff.mp hnone
    rw [Deployment.calls_sum h.count, List.mem_append] at hc
    rcases hc with hc | hc
    · exact h.spared r hr hchosen c hc
    · have hr' : r ∈ (d.run t).2.store.table.rows := by
        rw [h.rows, List.mem_map]
        exact ⟨r, hr, by simp [hchosen]⟩
      exact h'.spared r hr' hlater c hc

/-- Behind a query that leaves the rows as they are. -/
theorem behind_ask {q : Query} {next : q.Answer → Task Nat} {a : q.Answer}
    (ha : (Deployment.answer (.ask q) d).1 = .ok a)
    (ht : (Deployment.answer (.ask q) d).2.store.table = d.store.table)
    (h : Advances today chosen (next a) (Deployment.answer (.ask q) d).2) :
    Advances today chosen (Task.ask q >>= next) d where
  count := by
    rw [Deployment.run_ask_bind_ok ha, h.count, ht]
  rows := by
    rw [Deployment.run_ask_bind_ok ha, h.rows, ht]
  spared r hr hnone c hc := by
    have hcalls : d.calls (Task.ask q) = [.ask q] := by
      unfold Task.ask
      rw [Deployment.calls_ask?_bind, ha]
      rfl
    rw [Deployment.calls_bind, hcalls, Deployment.run_ask_ok ha] at hc
    rcases List.mem_cons.mp hc with rfl | hc
    · rfl
    · rw [← ht] at hr
      exact h.spared r hr hnone c hc

end Advances

/-- The calls behind the query are for this row alone. -/
theorem touches_keep {q : Row} {id : Int} (hne : q.id ≠ id) :
    ∀ c ∈ d.calls (keep p q), c.touches id = false := by
  have honly : Task.Only (fun c => c.touches id = false) (keep p q) := by
    apply Task.Only.bind
    · apply Task.Only.perform
      have hkey : (LooseText.whole (cacheKey q.id) == .whole (cacheKey id)) = false := by
        rw [beq_eq_false_iff_ne]
        intro hkey
        exact hne (cacheKey_injective (LooseText.whole.inj hkey))
      exact hkey
    · intro a
      unfold tolerate
      split
      next => exact .pure ()
      next =>
        split
        next => exact .perform rfl
        next => exact .throw _
  exact honly d

section
variable {m : Row}

/-- A date that the store cannot keep. -/
theorem advances_lost {q : String} {c : StoreCause}
    (ha : (Deployment.answer (dateOf m) d).1 = .error (.unavailable q c)) :
    Advances today (fun _ => false)
      (Task.ask? (.setNextPayment m.id m.nextPayment) >>= afterDate p m) d := by
  have ht : (Deployment.answer (dateOf m) d).2.store.table = d.store.table :=
    Deployment.table_of_ask_error ha
  unfold dateOf at ha ht
  refine ⟨?_, ?_, ?_⟩
  · rw [Deployment.run_ask?_bind, ha, List.countP_false]
    rfl
  · rw [Deployment.run_ask?_bind, ha]
    change (Deployment.answer (.ask _) d).2.store.table.rows = _
    rw [ht]
    simp
  · intro r _ _ c' hc
    rw [Deployment.calls_ask?_bind, ha] at hc
    rcases List.mem_cons.mp hc with rfl | hc
    · rfl
    · obtain rfl := List.mem_singleton.mp hc
      rfl

/-- A date that is written, and the entry in the cache behind it. -/
theorem advances_kept (hr : r ∈ d.store.table.rows) {next : Day}
    (hm : m = { r with nextPayment := some next }) (hsettled : r.settled today = m) {n : Nat}
    (ha : (Deployment.answer (dateOf m) d).1 = .ok n)
    (hborne : (Task.ask? (.setNextPayment m.id m.nextPayment) >>= afterDate p m).Along Borne d) :
    Advances today (fun q => q.id == r.id)
      (Task.ask? (.setNextPayment m.id m.nextPayment) >>= afterDate p m) d := by
  obtain ⟨hhits, ht⟩ := Store.run_setNextPayment (Deployment.run_of_ask ha).2
  have hid : m.id = r.id := by rw [hm]
  have halong := hborne.2
  unfold dateOf at ha
  rw [ha] at halong
  have hkeep := run_keep_of_borne (Task.along_bind.mp halong).1
  have hone : d.store.table.rows.countP (·.id == r.id) = 1 := by
    have := Table.countP_select hr fun _ => true
    simpa [Table.select] using this
  refine ⟨?_, ?_, ?_⟩
  · rw [Deployment.run_ask?_bind, ha, hone]
    exact Deployment.run_then_pure hkeep 1
  · rw [Deployment.run_ask?_bind, ha]
    have hstore := (store_of_only (.bind (only_keep (p := p) m) fun _ => .pure 1)
      (Deployment.answer (.ask (.setNextPayment m.id m.nextPayment)) d).2).1
    change (Deployment.run (keep p m >>= fun _ => pure 1) _).2.store.table.rows = _
    rw [hstore, ht, Table.rows_modify]
    apply List.map_congr_left
    intro q hq
    by_cases he : q.id = r.id
    · obtain rfl := eq_of_key_eq d.store.table.distinct hq hr he
      rw [if_pos hid.symm, if_pos (by simp), hsettled, hm]
    · rw [if_neg (hid ▸ he), if_neg (by simpa using he)]
  · intro q hq hne c hc
    rw [Deployment.calls_ask?_bind, ha] at hc
    rcases List.mem_cons.mp hc with rfl | hc
    · rfl
    · change c ∈ Deployment.calls (keep p m >>= fun _ => pure 1) _ at hc
      rw [Deployment.calls_bind, hkeep, Deployment.calls_pure, List.append_nil] at hc
      apply touches_keep _ c hc
      rw [hid]
      intro he
      simp [he] at hne

end

/-- One row is moved, unless the store cannot keep its date. -/
theorem advances_moveRow {lost : Bool} (hs : d.store.schema = .plain ∨ d.store.schema = .checked)
    (hr : r ∈ d.store.table.rows) (hid : fitsWord r.id = true) (hover : r.isOverdue today = true)
    (hday : today ≤ Billing.horizon) (hgo : (d.storePlan.headD .sound).Goes lost)
    (hborne : (moveRow p today r).Along Borne d) :
    Advances today (fun q => q.id == r.id && !lost) (moveRow p today r) d := by
  obtain ⟨hactive, due, hdue, -⟩ := Subscription.isOverdue_iff.mp hover
  obtain ⟨next, hnext⟩ := Billing.exists_rollForward hday due
  obtain ⟨m, hm⟩ : ∃ m : Row, m = { r with nextPayment := some next } := ⟨_, rfl⟩
  have hsettled : r.settled today = m := by
    rw [hm]
    exact congrArg (Row.mk · r.id) (Subscription.settled_eq hactive hdue hnext)
  have hfits : fitsWord m.id = true := by
    rw [hm]
    exact hid
  rw [moveRow_eq hdue hnext hm] at hborne ⊢
  cases lost with
  | true =>
    obtain ⟨q, c, ha⟩ := Store.ask_setNextPayment_lost (s := d.store) hs hfits m.nextPayment hgo
    apply (advances_lost ha).congr
    simp
  | false =>
    have hsound : d.storePlan.headD .sound = .sound := hgo
    have ha := Store.ask_setNextPayment hs hfits m.nextPayment
    rw [← hsound] at ha
    apply (advances_kept hr hm hsettled ha hborne).congr
    simp

/-- Moving a row takes one call of the store. -/
theorem storePlan_moveRow (hover : r.isOverdue today = true) (hday : today ≤ Billing.horizon) :
    (d.run (moveRow p today r)).2.storePlan = d.storePlan.tail := by
  obtain ⟨-, due, hdue, -⟩ := Subscription.isOverdue_iff.mp hover
  obtain ⟨next, hnext⟩ := Billing.exists_rollForward hday due
  rw [moveRow_eq hdue hnext rfl, Deployment.run_ask?_bind]
  exact (store_of_only (only_afterDate _ _) _).2

/-- All rows are moved, one after the other, but for those whose dates the store cannot keep. -/
theorem advances_moveRows {lost : Int → Bool} (hrs : rs.Pairwise fun a b => a.id ≠ b.id)
    (hs : d.store.schema = .plain ∨ d.store.schema = .checked)
    (hmem : ∀ r ∈ rs, r ∈ d.store.table.rows) (hids : ∀ r ∈ rs, fitsWord r.id = true)
    (hover : ∀ r ∈ rs, r.isOverdue today = true) (hday : today ≤ Billing.horizon)
    (hgo : Goes lost rs d.storePlan) (hborne : (moveRows p today rs).Along Borne d) :
    Advances today (fun q => rs.any (·.id == q.id) && !lost q.id) (moveRows p today rs) d := by
  induction rs generalizing d with
  | nil => exact .none_chosen today d
  | cons r rs ih =>
    obtain ⟨hr, hrest⟩ := List.pairwise_cons.mp hrs
    obtain ⟨hfirst, hlater⟩ := hgo
    obtain ⟨halong, hbehind⟩ := Task.along_bind.mp hborne
    have hmove := advances_moveRow hs (hmem r List.mem_cons_self) (hids r List.mem_cons_self)
      (hover r List.mem_cons_self) hday hfirst halong
    have hplan := storePlan_moveRow (p := p) (d := d) (hover r List.mem_cons_self) hday
    have hstay : ∀ q ∈ rs, q ∈ (d.run (moveRow p today r)).2.store.table.rows := by
      intro q hq
      rw [hmove.rows, List.mem_map]
      have hne : (q.id == r.id) = false := by simpa using fun he => hr q hq he.symm
      exact ⟨q, hmem q (List.mem_cons_of_mem r hq), by simp [hne]⟩
    have hnext := ih hrest (by rw [Deployment.schema_run]; exact hs) hstay
      (fun q hq => hids q (List.mem_cons_of_mem r hq))
      (fun q hq => hover q (List.mem_cons_of_mem r hq)) (by rw [hplan]; exact hlater)
      (Task.along_bind.mp (hbehind _ hmove.count)).1
    apply (hmove.append hnext ?_).congr
    · intro q _
      by_cases he : q.id = r.id
      · simp [he]
      · have hne : (q.id == r.id) = false := beq_eq_false_iff_ne.mpr he
        have hne' : (r.id == q.id) = false := beq_eq_false_iff_ne.mpr fun h => he h.symm
        simp only [List.any_cons, hne, hne', Bool.false_and, Bool.false_or]
    · -- no other row has the number of the one that has been moved
      intro q _ hq
      have he : q.id = r.id := by simpa using (Bool.and_eq_true_iff.mp hq).1
      have hnone : rs.any (·.id == r.id) = false := by
        rw [List.any_eq_false]
        intro x hx
        simpa using fun h => hr x hx h.symm
      have hid : (q.settled today).id = r.id := he
      simp [he, hid, hnone]

/-- A rollover that finds the rows that are overdue moves them, but for those whose dates the store
cannot keep. -/
theorem advances_rollover {lost : Int → Bool}
    (hids : ∀ r ∈ d.store.table.rows, fitsWord r.id = true) (hday : today ≤ Billing.horizon)
    (hfind : ∃ rows, (Deployment.answer (.ask (.overdue today)) d).1 = .ok rows)
    (hgo : Goes lost (d.store.table.select (·.isOverdue today)) d.storePlan.tail)
    (hborne : (rollover p today).Along Borne d) :
    Advances today (fun r => r.isOverdue today && !lost r.id) (rollover p today) d := by
  obtain ⟨rows, ha⟩ := hfind
  have ht := Deployment.table_of_ask_ok rfl ha
  have hs := Deployment.schema_of_answer (q := .overdue today) (by simp) ha
  obtain rfl := Store.run_overdue (Deployment.run_of_ask ha).2
  have hfound {r : Row} : r ∈ d.store.table.select (·.isOverdue today) ↔
      r ∈ d.store.table.rows ∧ r.isOverdue today = true := List.mem_filter
  have hdistinct : (d.store.table.select (·.isOverdue today)).Pairwise fun a b => a.id ≠ b.id :=
    d.store.table.distinct.filter _
  have hmoves := advances_moveRows (p := p) (d := (Deployment.answer (.ask (.overdue today)) d).2)
    hdistinct (by rw [Deployment.schema_answer]; exact hs)
    (fun r hr => by rw [ht]; exact (hfound.mp hr).1) (fun r hr => hids r (hfound.mp hr).1)
    (fun r hr => (hfound.mp hr).2) hday hgo (Task.along_behind_ask hborne ha)
  apply Advances.behind_ask ha ht
  apply hmoves.congr
  intro r hr
  rw [ht] at hr
  rw [Table.any_select hr]

theorem goes_of_sound {plan : List Outcome} (h : ∀ o ∈ plan, o = .sound) (rs : List Row) :
    Goes (fun _ => false) rs plan := by
  induction rs generalizing plan with
  | nil => trivial
  | cons r rs ih => exact ⟨Deployment.headD_eq h, ih fun o ho => h o (List.mem_of_mem_tail ho)⟩

/-- Without rows that are overdue, a rollover writes nothing to the cache. -/
theorem borne_rollover (hnone : ∀ r ∈ d.store.table.rows, r.isOverdue today = false) :
    (rollover p today).Along Borne d := by
  apply Task.along_bind.mpr
  constructor
  · exact Task.along_bind.mpr ⟨⟨trivial, trivial⟩, fun a _ => by cases a <;> trivial⟩
  · intro rows hrows
    rw [Deployment.run_ask] at hrows
    have hfound := Store.run_overdue (Deployment.run_of_ask (eq_ok_of_mapError hrows)).2
    have hnil : rows = [] := by
      rw [hfound]
      exact List.filter_eq_nil_iff.mpr fun r hr => by simp [hnone r hr]
    rw [hnil]
    trivial

end Service

/-- A row whose payment date has passed is brought to the first date of its chain that is not before
today, which is at most a month off. The rest of the row is as it was. -/
def Row.BroughtTo (today : Day) (r q : Row) : Prop :=
  ∃ due next bound, r.nextPayment = some due ∧ due < today ∧ Billing.FirstFrom today due next ∧
    today.addMonths 1 = .ok bound ∧ next ≤ bound ∧ q = { r with nextPayment := some next }

theorem Row.broughtTo_settled {today : Day} (hday : today ≤ Billing.eve) {r : Row}
    (hover : r.isOverdue today = true) : r.BroughtTo today (r.settled today) := by
  obtain ⟨hactive, due, hdue, hlt⟩ := Subscription.isOverdue_iff.mp hover
  obtain ⟨next, hnext⟩ := Billing.exists_rollForward (Day.le_trans hday (by decide)) due
  have hmonth : today.monthIndex + 1 < 120000 := by
    have heve : Billing.eve.monthIndex = 119998 := rfl
    rw [Day.le_iff_not_lt, Day.lt_iff_month] at hday
    omega
  obtain ⟨bound, hbound⟩ := today.exists_addMonths hmonth
  refine ⟨due, next, bound, hdue, hlt, Billing.rollForward_first hnext, hbound,
    Billing.rollForward_le hlt hnext hbound, ?_⟩
  exact congrArg (Row.mk · r.id) (Subscription.settled_eq hactive hdue hnext)

namespace Service.Night
variable {p : Policy} {d : Deployment} {n : Night} {chosen : Row → Bool}

/-- The rollover of a night finds its rows, and the store keeps the date of each but for some that
are lost. The cache does what it is asked, or it cannot be reached. -/
structure Loses (p : Policy) (n : Night) (lost : Int → Bool) (d : Deployment) : Prop where
  finds : ∃ rows, (Deployment.answer (.ask (.overdue n.day)) (n.fall d)).1 = .ok rows
  goes : Service.Goes lost (d.store.table.select (·.isOverdue n.day)) n.storePlan.tail
  cache : (rollover p n.day).Along Borne (n.fall d)

/-- The rollover of a night moves such rows and tells how many they are. All others stay as they
are, and nothing is written to the cache for them. -/
structure Moves (p : Policy) (n : Night) (chosen : Row → Bool) (d : Deployment) : Prop where
  count : (n.run p d).1 = .ok (d.store.table.rows.countP chosen)
  rows : List.Forall₂ (fun r q => if chosen r then r.BroughtTo n.day q else q = r)
    d.store.table.rows (n.run p d).2.store.table.rows
  spared : ∀ r ∈ d.store.table.rows, chosen r = false →
    ∀ c ∈ (n.fall d).calls (rollover p n.day), c.touches r.id = false

theorem Moves.of_rollover (hday : n.day ≤ Billing.eve)
    (hover : ∀ r ∈ d.store.table.rows, chosen r = true → r.isOverdue n.day = true)
    (h : Advances n.day chosen (rollover p n.day) (n.fall d)) : n.Moves p chosen d where
  count := h.count
  rows := by
    have hrows : (n.run p d).2.store.table.rows =
        d.store.table.rows.map fun r => if chosen r then r.settled n.day else r := h.rows
    rw [hrows, List.forall₂_map_right_iff, List.forall₂_same]
    intro r hr
    cases hchosen : chosen r with
    | true =>
      simp only [↓reduceIte]
      exact Row.broughtTo_settled hday (hover r hr hchosen)
    | false => simp
  spared := h.spared

section
variable {lost : Int → Bool} (h : n.Loses p lost d)
include h

theorem Loses.schema : d.store.schema = .plain ∨ d.store.schema = .checked := by
  obtain ⟨rows, ha⟩ := h.finds
  exact Deployment.schema_of_answer (q := .overdue n.day) (d := n.fall d) (by simp) ha

variable (hids : ∀ r ∈ d.store.table.rows, fitsWord r.id = true) (hday : n.day ≤ Billing.eve)
include hids hday

/-- The rollover of a night moves all rows that are overdue and not lost. -/
theorem Loses.advances : Advances n.day (fun r => r.isOverdue n.day && !lost r.id)
    (rollover p n.day) (n.fall d) :=
  advances_rollover (d := n.fall d) hids (Day.le_trans hday (by decide)) h.finds h.goes h.cache

/-- What is overdue behind it has been lost. -/
theorem Loses.lost_of_overdue {q : Row} (hq : q ∈ (n.run p d).2.store.table.rows)
    (hover : q.isOverdue n.day = true) : lost q.id = true := by
  have hrows : (n.run p d).2.store.table.rows = d.store.table.rows.map fun r =>
      if r.isOverdue n.day && !lost r.id then r.settled n.day else r := (h.advances hids hday).rows
  rw [hrows] at hq
  obtain ⟨r, -, rfl⟩ := List.mem_map.mp hq
  cases hchosen : r.isOverdue n.day && !lost r.id with
  | true =>
    have hsettled := Subscription.isOverdue_settled (s := r.toSubscription)
      (Day.le_trans hday (by decide) : n.day ≤ Billing.horizon)
    rw [if_pos hchosen] at hover
    exact Bool.noConfusion (hsettled.symm.trans hover)
  | false =>
    rw [if_neg (by simp [hchosen])] at hover ⊢
    simpa [hover] using hchosen

end

/-- A night on which the store fails nothing loses no row. -/
theorem loses_of_sound (hs : d.store.schema = .plain ∨ d.store.schema = .checked)
    (hstore : ∀ o ∈ n.storePlan, o = .sound) (hcache : (rollover p n.day).Along Borne (n.fall d)) :
    n.Loses p (fun _ => false) d where
  finds := by
    have hask := Store.ask_overdue hs n.day
    rw [← Deployment.headD_eq hstore] at hask
    exact ⟨_, hask⟩
  goes := goes_of_sound (fun o ho => hstore o (List.mem_of_mem_tail ho)) _
  cache := hcache

section
variable {first again once : Night} {lost : Int → Bool}

/-- A rollover that loses some of the rows brings all others that are overdue to its day. Another
one of that day that the store does not fail moves just those that were lost, and a third none. -/
theorem rollover_makes_good (p : Policy) (hday : first.day ≤ Billing.eve)
    (hagain : again.day = first.day) (honce : once.day = first.day)
    (hids : ∀ r ∈ d.store.table.rows, fitsWord r.id = true) (hfirst : first.Loses p lost d)
    (hstore : ∀ o ∈ again.storePlan ++ once.storePlan, o = .sound)
    (hcache : (rollover p again.day).Along Borne (again.fall (first.run p d).2)) :
    first.Moves p (fun r => r.isOverdue first.day && !lost r.id) d ∧
      again.Moves p (fun r => r.isOverdue first.day && lost r.id) (first.run p d).2 ∧
      once.Moves p (fun _ => false) (again.run p (first.run p d).2).2 := by
  have hids₁ := fits_run (p := p) (n := first) hids
  have hids₂ := fits_run (p := p) (n := again) hids₁
  have hagainDay : again.day ≤ Billing.eve := hagain ▸ hday
  have hsecond : again.Loses p (fun _ => false) (first.run p d).2 := by
    apply loses_of_sound _ (fun o ho => hstore o (List.mem_append_left _ ho)) hcache
    rw [schema_run]
    exact hfirst.schema
  have hnone : ∀ r ∈ (again.run p (first.run p d).2).2.store.table.rows,
      r.isOverdue once.day = false := by
    intro r hr
    rw [honce, ← hagain]
    have := hsecond.lost_of_overdue hids₁ hagainDay hr
    simpa using this
  have hthird : once.Loses p (fun _ => false) (again.run p (first.run p d).2).2 := by
    apply loses_of_sound _ (fun o ho => hstore o (List.mem_append_right _ ho))
      (borne_rollover hnone)
    rw [schema_run]
    exact hsecond.schema
  refine ⟨?_, ?_, ?_⟩
  · apply Moves.of_rollover hday
    · intro r _ hr
      exact (Bool.and_eq_true_iff.mp hr).1
    · exact hfirst.advances hids hday
  · apply Moves.of_rollover hagainDay
    · intro r _ hr
      rw [hagain]
      exact (Bool.and_eq_true_iff.mp hr).1
    · apply (hsecond.advances hids₁ hagainDay).congr
      -- of the rows that are still overdue none has been moved
      intro r hr
      rw [hagain]
      cases hover : r.isOverdue first.day with
      | true => rw [hfirst.lost_of_overdue hids hday hr hover, Bool.not_false]
      | false => rfl
  · apply Moves.of_rollover (honce ▸ hday)
    · intro r _ hr
      exact Bool.noConfusion hr
    · apply (hthird.advances hids₂ (honce ▸ hday)).congr
      intro r hr
      rw [hnone r hr, Bool.false_and]

end

/-- A payment date at the end of a month, one in the middle, and one that nobody waits for. -/
def ledger : Table :=
  ((Table.empty.insert { Deployment.someSubscription with
      nextPayment := some ⟨2023, 10, 31, by decide, by decide, by decide⟩ }).insert
    Deployment.someSubscription).insert { Deployment.someSubscription with isActive := false }

/-- The store cannot keep the second row, and the cache cannot be reached for the first. -/
def patchy : Night :=
  { someNight with storePlan := [.sound, .sound, .commitFails] }

def clear : Night := { someNight with cachePlan := [] }

def withLedger : Deployment :=
  { Deployment.small (.remote .empty) with store := ⟨.plain, ledger, ⟨0, 0, 0⟩⟩ }

theorem rollover_makes_good_ledger :
    patchy.Moves Settings.standard.policy (fun r => r.isOverdue patchy.day && !(r.id == 2))
        withLedger ∧
      clear.Moves Settings.standard.policy (fun r => r.isOverdue patchy.day && r.id == 2)
        (patchy.run Settings.standard.policy withLedger).2 ∧
      clear.Moves Settings.standard.policy (fun _ => false) (clear.run Settings.standard.policy
        (patchy.run Settings.standard.policy withLedger).2).2 := by
  have hfall : (patchy.fall withLedger).Bearable Settings.standard.policy.ttl :=
    ⟨by decide, nofun, by decide +kernel⟩
  have hfirst : patchy.Loses Settings.standard.policy (· == 2) withLedger :=
    ⟨⟨_, rfl⟩, ⟨rfl, .inr rfl, trivial⟩, along_rollover_of_bearable hfall patchy.day⟩
  have hstore : ∀ o ∈ clear.storePlan ++ clear.storePlan, o = .sound := by decide
  have hagain : (clear.fall (patchy.run Settings.standard.policy withLedger).2).Bearable
      Settings.standard.policy.ttl :=
    ⟨nofun, (hfall.run (rollover Settings.standard.policy patchy.day)).room, hfall.finite⟩
  have hday : clear.day = patchy.day := rfl
  exact rollover_makes_good Settings.standard.policy (by decide) hday hday (by decide) hfirst
    hstore (along_rollover_of_bearable hagain clear.day)

end Service.Night
end Renewals
