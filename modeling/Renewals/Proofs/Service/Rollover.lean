import Renewals.Proofs.Deployment.Calls
import Renewals.Proofs.Subscription.Billing
import Renewals.Proofs.Task.Triple
import Renewals.Service.Basic
/-! What a rollover makes of the rows. Whatever fails on the way, each row is as it was or has been
brought to today; if the store does not fail, all rows have been brought to today. -/
namespace Renewals

/-- An active subscription whose payment date, if it has one, is brought to today. -/
def Subscription.settled (today : Day) (s : Subscription) : Subscription :=
  match s.nextPayment.map (Billing.rollForward today) with
  | some (.ok next) => if s.isActive then { s with nextPayment := some next } else s
  | _ => s

def Row.settled (today : Day) (r : Row) : Row := ⟨r.toSubscription.settled today, r.id⟩

namespace Subscription
variable {today : Day} {s : Subscription}

theorem settled_eq {due next : Day} (ha : s.isActive = true) (hd : s.nextPayment = some due)
    (hn : Billing.rollForward today due = .ok next) :
    s.settled today = { s with nextPayment := some next } := by
  simp only [settled, hd, Option.map_some, hn, ha, ↓reduceIte]

theorem isOverdue_iff : s.isOverdue today = true ↔
    s.isActive = true ∧ ∃ due, s.nextPayment = some due ∧ due < today := by
  cases hd : s.nextPayment with
  | none => simp [isOverdue, hd]
  | some due => simp [isOverdue, hd]

/-- What is not overdue stays as it is. -/
theorem settled_of_not_overdue (h : s.isOverdue today = false) : s.settled today = s := by
  unfold settled
  split
  next next hnext =>
    split
    next ha =>
      obtain ⟨due, hd, hn⟩ := Option.map_eq_some_iff.mp hnext
      have hle : today ≤ due := by
        rw [Day.le_iff_not_lt]
        exact fun hlt => Bool.noConfusion (h.symm.trans (isOverdue_iff.mpr ⟨ha, due, hd, hlt⟩))
      rw [Billing.rollForward_of_le hle] at hn
      rw [← Except.ok.inj hn, ← hd]
    next => rfl
  next => rfl

/-- A subscription stays as it is, or its payment date has passed and is brought forward. -/
theorem settled_cases (today : Day) (s : Subscription) : s.settled today = s ∨
    ∃ due next, s.nextPayment = some due ∧ due < today ∧ Billing.rollForward today due = .ok next ∧
      s.settled today = { s with nextPayment := some next } := by
  by_cases hover : s.isOverdue today = true
  · obtain ⟨ha, due, hd, hlt⟩ := isOverdue_iff.mp hover
    cases hn : Billing.rollForward today due with
    | error f =>
      left
      simp only [settled, hd, Option.map_some, hn]
    | ok next => exact .inr ⟨due, next, hd, hlt, hn, settled_eq ha hd hn⟩
  · exact .inl (settled_of_not_overdue (by simpa using hover))

/-- A payment date that is brought forward twice ends where it would have ended at once. -/
theorem settled_settled {later : Day} (hl : today ≤ later)
    (hreach : today = later ∨ later ≤ Billing.horizon) :
    (s.settled today).settled later = s.settled later := by
  by_cases hover : s.isOverdue today = true
  · obtain ⟨ha, due, hd, -⟩ := isOverdue_iff.mp hover
    cases hn : Billing.rollForward today due with
    | error f =>
      have hstay : s.settled today = s := by simp only [settled, hd, Option.map_some, hn]
      rw [hstay]
    | ok next =>
      have hagain := Billing.rollForward_rollForward hl hn
      obtain ⟨last, hlast⟩ : ∃ last, Billing.rollForward later due = .ok last := by
        rcases hreach with rfl | hreach
        · exact ⟨next, hn⟩
        · exact Billing.exists_rollForward hreach due
      rw [settled_eq ha hd hn, settled_eq ha hd hlast]
      exact settled_eq (s := { s with nextPayment := some next }) ha rfl (hagain.trans hlast)
  · have hstay : s.settled today = s := settled_of_not_overdue (by simpa using hover)
    rw [hstay]

/-- Once a payment date has been brought to a day, it has not passed on that day. -/
theorem isOverdue_settled (hreach : today ≤ Billing.horizon) :
    (s.settled today).isOverdue today = false := by
  by_cases hover : s.isOverdue today = true
  · obtain ⟨ha, due, hd, -⟩ := isOverdue_iff.mp hover
    obtain ⟨next, hn⟩ := Billing.exists_rollForward hreach due
    rw [settled_eq ha hd hn, ← Bool.not_eq_true]
    intro h
    obtain ⟨-, e, he, hlt⟩ := isOverdue_iff.mp h
    obtain rfl := Option.some.inj he
    exact absurd hlt (Day.le_iff_not_lt.mp (Billing.rollForward_spec hn).2)
  · have hstay : s.settled today = s := settled_of_not_overdue (by simpa using hover)
    rw [hstay]
    simpa using hover

end Subscription

/-- Some rows have been brought to today, and the others are as they were. -/
def Table.PartlySettled (today : Day) (t u : Table) : Prop :=
  ∃ g : Row → Row, (∀ r, g r = r ∨ g r = r.settled today) ∧ u.rows = t.rows.map g

namespace Table.PartlySettled
variable {today : Day} {t u : Table}

theorem refl (today : Day) (t : Table) : PartlySettled today t t :=
  ⟨id, fun _ => .inl rfl, (List.map_id _).symm⟩

/-- Where a row of now comes from. -/
theorem exists_of_mem (h : PartlySettled today t u) {q : Row} (hq : q ∈ u.rows) :
    ∃ r ∈ t.rows, q = r ∨ q = r.settled today := by
  obtain ⟨g, hg, hrows⟩ := h
  rw [hrows] at hq
  obtain ⟨r, hr, rfl⟩ := List.mem_map.mp hq
  exact ⟨r, hr, hg r⟩

/-- A row that is not overdue is still there. -/
theorem mem_of_not_overdue (h : PartlySettled today t u) {r : Row} (hr : r ∈ t.rows)
    (hover : r.isOverdue today = false) : r ∈ u.rows := by
  obtain ⟨g, hg, hrows⟩ := h
  have hkeep : r.settled today = r := congrArg (Row.mk · r.id)
    (Subscription.settled_of_not_overdue hover)
  have hgr : g r = r := (hg r).elim id fun h => h.trans hkeep
  rw [hrows]
  exact List.mem_map.mpr ⟨r, hr, hgr⟩

/-- One row more is brought to today. -/
theorem setNextPayment (h : PartlySettled today t u) {r : Row} (hr : r ∈ u.rows) {due next : Day}
    (ha : r.isActive = true) (hd : r.nextPayment = some due)
    (hn : Billing.rollForward today due = .ok next) :
    PartlySettled today t (u.modify r.id fun s => { s with nextPayment := some next }) := by
  obtain ⟨g, hg, hrows⟩ := h
  have hid (a : Row) : (g a).id = a.id := by
    rcases hg a with h | h <;> rw [h]
    rfl
  refine ⟨fun a => if a.id = r.id then a.settled today else g a, fun a => ?_, ?_⟩
  · by_cases he : a.id = r.id
    · exact .inr (if_pos he)
    · exact (hg a).imp (if_neg he).trans (if_neg he).trans
  · rw [Table.rows_modify, hrows, List.map_map]
    refine List.map_congr_left fun a hmem => ?_
    simp only [Function.comp, hid]
    split
    next he =>
      have hga : g a = r := by
        have : g a ∈ u.rows := by
          rw [hrows]
          exact List.mem_map_of_mem hmem
        exact eq_of_key_eq u.distinct this hr ((hid a).trans he)
      have hnew : r.settled today = ⟨{ r.toSubscription with nextPayment := some next }, r.id⟩ :=
        congrArg (Row.mk · r.id) (Subscription.settled_eq ha hd hn)
      rw [hga, he, ← hnew]
      -- the row may have been brought to today before; then it does not move any more
      rcases hg a with h | h
      · rw [← hga, h]
      · rw [← hga, h]
        exact congrArg (Row.mk · a.id)
          (Subscription.settled_settled (Day.le_refl _) (.inl rfl))
    next => rfl

/-- Rows that are partly settled are settled as the rows they were would have been. -/
theorem map_settled (h : PartlySettled today t u) {later : Day} (hl : today ≤ later)
    (hreach : later ≤ Billing.horizon) :
    u.rows.map (Row.settled later) = t.rows.map (Row.settled later) := by
  obtain ⟨g, hg, hrows⟩ := h
  rw [hrows, List.map_map]
  refine List.map_congr_left fun r _ => ?_
  rcases hg r with h | h
  · rw [Function.comp, h]
  · rw [Function.comp, h]
    exact congrArg (Row.mk · r.id) (Subscription.settled_settled hl (.inr hreach))

end Table.PartlySettled

namespace Service

/-- The store does not fail, and a failure of the cache is one that the service puts up with. -/
structure Reliable (p : Policy) (d : Deployment) : Prop where
  schema : d.store.schema = .plain ∨ d.store.schema = .checked
  store : ∀ o ∈ d.storePlan, o = .sound
  cache : ∀ o ∈ d.cachePlan, o ≠ .crashes
  room : d.cache.HasRoom
  finite : (Binary64.ofInt? p.ttl).isSome = true

namespace Reliable
variable {p : Policy} {d : Deployment}

theorem answer (hd : Reliable p d) (c : Call) : Reliable p (Deployment.answer c d).2 where
  schema := by rw [Deployment.schema_answer]; exact hd.schema
  store o ho := hd.store o (Deployment.storePlan_answer c d ho)
  cache o ho := hd.cache o (Deployment.cachePlan_answer c d ho)
  room := by rw [Cache.HasRoom, Deployment.size?_answer]; exact hd.room
  finite := hd.finite

theorem ask (hd : Reliable p d) (q : Query) :
    (Deployment.answer (.ask q) d).1 = (d.store.ask .sound q).1 := by
  change (d.store.ask (d.storePlan.headD .sound) q).1 = _
  rw [Deployment.headD_eq hd.store]

theorem bearable (hd : Reliable p d) : d.Bearable p.ttl := ⟨hd.cache, hd.room, hd.finite⟩

end Reliable

/-- In the middle of a rollover. The rows that are still to be moved stand in the store as they were
found; if all is `calm`, no other row is overdue any more. -/
structure Moving (calm : Prop) (p : Policy) (today : Day) (start : Table) (rs : List Row)
    (d : Deployment) : Prop where
  rows : start.PartlySettled today d.store.table
  left : ∀ r ∈ rs, r ∈ d.store.table.rows ∧ r.isOverdue today = true
  rest : calm → ∀ r ∈ d.store.table.rows, r.isOverdue today = true → r ∈ rs
  reliable : calm → Reliable p d

section
variable {calm : Prop} {p : Policy} {today : Day} {start : Table} {r : Row} {rs : List Row}
  {d : Deployment}

/-- A call that leaves the store alone. -/
theorem Moving.answer (hd : Moving calm p today start rs d) {c : Call} (hc : ∀ q, c ≠ .ask q) :
    Moving calm p today start rs (Deployment.answer c d).2 where
  rows := by rw [Deployment.store_answer hc]; exact hd.rows
  left := by rw [Deployment.store_answer hc]; exact hd.left
  rest := by rw [Deployment.store_answer hc]; exact hd.rest
  reliable hcalm := (hd.reliable hcalm).answer c

/-- The row is passed over. -/
theorem Moving.skip (hd : Moving calm p today start (r :: rs) d) (hn : ¬ calm) :
    Moving calm p today start rs d where
  rows := hd.rows
  left q hq := hd.left q (List.mem_cons_of_mem r hq)
  rest hcalm := absurd hcalm hn
  reliable hcalm := absurd hcalm hn

theorem Moving.ask_error (hd : Moving calm p today start rs d) {q : Query} {f : StoreFault}
    (ha : (Deployment.answer (.ask q) d).1 = .error f) :
    Moving calm p today start rs (Deployment.answer (.ask q) d).2 where
  rows := by rw [Deployment.table_of_ask_error ha]; exact hd.rows
  left := by rw [Deployment.table_of_ask_error ha]; exact hd.left
  rest := by rw [Deployment.table_of_ask_error ha]; exact hd.rest
  reliable hcalm := (hd.reliable hcalm).answer _

/-- One row is brought to today, and the others that are to be moved stay as they were found. -/
theorem Moving.setNextPayment (hd : Moving calm p today start (r :: rs) d)
    (hrs : ∀ q ∈ rs, r.id ≠ q.id) {due next : Day} (hdue : r.nextPayment = some due)
    (hnext : Billing.rollForward today due = .ok next) {n : Nat}
    (ha : (Deployment.answer (.ask (.setNextPayment r.id (some next))) d).1 = .ok n) :
    Moving calm p today start rs
      (Deployment.answer (.ask (.setNextPayment r.id (some next))) d).2 := by
  have ht := (Store.run_setNextPayment (Deployment.run_of_ask ha).2).2
  obtain ⟨hr, hover⟩ := hd.left r List.mem_cons_self
  obtain ⟨hactive, -⟩ := Subscription.isOverdue_iff.mp hover
  refine ⟨?_, fun q hq => ?_, fun hcalm q hq hoverq => ?_,
    fun hcalm => (hd.reliable hcalm).answer _⟩
  · rw [ht]
    exact hd.rows.setNextPayment hr hactive hdue hnext
  · obtain ⟨hmem, hoverq⟩ := hd.left q (List.mem_cons_of_mem r hq)
    rw [ht]
    exact ⟨Table.mem_modify.mpr (.inl ⟨hmem, fun he => hrs q hq he.symm⟩), hoverq⟩
  · rw [ht] at hq
    rcases Table.mem_modify.mp hq with ⟨hq, hne⟩ | ⟨a, -, -, rfl⟩
    · rcases List.mem_cons.mp (hd.rest hcalm q hq hoverq) with rfl | hmem
      · exact absurd rfl hne
      · exact hmem
    · -- the row that has just been moved is not overdue
      obtain ⟨-, _, hsome, hlt⟩ := Subscription.isOverdue_iff.mp hoverq
      obtain rfl := Option.some.inj hsome
      exact absurd hlt (Day.le_iff_not_lt.mp (Billing.rollForward_spec hnext).2)

/-- Where a rollover is broken off. -/
abbrev BrokenOff (calm : Prop) (today : Day) (start : Table) (d : Deployment) : Prop :=
  ¬ calm ∧ start.PartlySettled today d.store.table

theorem triple_keep_moving (q : Row) :
    Triple (Moving calm p today start rs) (keep p q) (fun _ => Moving calm p today start rs)
      (BrokenOff calm today start) := by
  refine Triple.bind (Q := fun a d => Moving calm p today start rs d ∧
    (calm → FailsOnly (·.isUnavailable = true) a))
    (Triple.perform fun d hd => ⟨hd.answer (by simp), fun hcalm => ?_⟩) fun a => ?_
  · exact (hd.reliable hcalm).bearable.put _ _
  · unfold tolerate
    split
    next => exact Triple.pure fun d hd => hd.1
    next f =>
      split
      next => exact Triple.perform fun d hd => hd.1.answer (by simp)
      next hf =>
        exact Triple.throw fun d hd => ⟨fun hcalm => hf (hd.2 hcalm f rfl), hd.1.rows⟩

section
variable (hreach : calm → today ≤ Billing.horizon)
  (hids : calm → ∀ r ∈ start.rows, fitsWord r.id = true)
include hreach hids

omit hreach in
/-- The call that is to move a row moves it, or fails and leaves it as it is. -/
theorem Moving.answer_setNextPayment (hd : Moving calm p today start (r :: rs) d)
    (hrs : ∀ q ∈ rs, r.id ≠ q.id) {due next : Day} (hdue : r.nextPayment = some due)
    (hnext : Billing.rollForward today due = .ok next) :
    Moving calm p today start rs
        (Deployment.answer (.ask (.setNextPayment r.id (some next))) d).2 ∧
      ∀ f, (Deployment.answer (.ask (.setNextPayment r.id (some next))) d).1 = .error f →
        ¬ calm := by
  cases ha : (Deployment.answer (.ask (.setNextPayment r.id (some next))) d).1 with
  | ok n => exact ⟨hd.setNextPayment hrs hdue hnext ha, fun f hf => absurd hf (by simp)⟩
  | error f =>
    have hn : ¬ calm := by
      intro hcalm
      have hid : fitsWord r.id = true := by
        obtain ⟨q, hq, rfl | rfl⟩ := hd.rows.exists_of_mem (hd.left r List.mem_cons_self).1
        · exact hids hcalm _ hq
        · exact hids hcalm q hq
      have hrel := hd.reliable hcalm
      rw [hrel.ask, Store.ask_setNextPayment hrel.schema hid] at ha
      exact absurd ha (by simp)
    exact ⟨(hd.skip hn).ask_error ha, fun _ _ => hn⟩

theorem triple_moveRow_moving (hrs : ∀ q ∈ rs, r.id ≠ q.id) :
    Triple (Moving calm p today start (r :: rs)) (moveRow p today r)
      (fun _ => Moving calm p today start rs) (BrokenOff calm today start) := by
  unfold moveRow
  split
  next hnone =>
    refine Triple.pure fun d hd => ?_
    obtain ⟨-, due, hdue, -⟩ := Subscription.isOverdue_iff.mp (hd.left r List.mem_cons_self).2
    exact absurd (hnone.symm.trans hdue) (by simp)
  next due hdue =>
    cases hnext : Billing.rollForward today due with
    | error f =>
      refine Triple.bind (Q := fun _ _ => False)
        (Triple.throw fun d hd => ⟨fun hcalm => ?_, hd.rows⟩) fun _ _ => False.elim
      obtain ⟨e, he⟩ := Billing.exists_rollForward (hreach hcalm) due
      exact absurd (hnext.symm.trans he) (by simp)
    | ok next =>
      refine Triple.bind (Q := fun a d => a = next ∧ Moving calm p today start (r :: rs) d)
        (Triple.pure fun d hd => ⟨rfl, hd⟩) fun moved => ?_
      refine Triple.bind (Q := fun (a : Except StoreFault Nat) d =>
        Moving calm p today start rs d ∧ ∀ f, a = .error f → ¬ calm) (Triple.perform ?_) fun a => ?_
      · rintro d ⟨rfl, hd⟩
        exact hd.answer_setNextPayment hids hrs hdue hnext
      · cases a with
        | ok n =>
          exact Triple.bind ((triple_keep_moving _).weaken (fun _ hd => hd.1) (fun _ _ hd => hd)
            fun _ hd => hd) fun _ => Triple.pure fun _ hd => hd
        | error f =>
          cases f with
          | unavailable =>
            exact Triple.bind (Q := fun _ => Moving calm p today start rs)
              (Triple.perform fun d hd => hd.1.answer (by simp)) fun _ => Triple.pure fun _ hd => hd
          | _ => exact Triple.throw fun d hd => ⟨hd.2 _ rfl, hd.1.rows⟩

theorem triple_moveRows_moving (hrs : rs.Pairwise fun a b => a.id ≠ b.id) :
    Triple (Moving calm p today start rs) (moveRows p today rs)
      (fun _ => Moving calm p today start []) (BrokenOff calm today start) := by
  induction rs with
  | nil => exact Triple.pure fun _ hd => hd
  | cons r rs ih =>
    obtain ⟨hr, hrs⟩ := List.pairwise_cons.mp hrs
    refine Triple.bind (triple_moveRow_moving hreach hids hr) fun n => ?_
    exact Triple.bind (ih hrs) fun _ => Triple.pure fun _ hd => hd

theorem triple_rollover_moving :
    Triple (fun d => d.store.table = start ∧ (calm → Reliable p d)) (rollover p today)
      (fun _ => Moving calm p today start []) (BrokenOff calm today start) := by
  refine Triple.bind (Q := fun rs d => rs.Pairwise (fun a b => a.id ≠ b.id) ∧
    Moving calm p today start rs d) (Triple.ask ?_ ?_) fun rs => ?_
  · rintro d rs ⟨rfl, hrel⟩ ha
    have ht := Deployment.table_of_ask_ok rfl ha
    obtain rfl := Store.run_overdue (Deployment.run_of_ask ha).2
    refine ⟨d.store.table.distinct.filter _, ?_, fun r hr => ?_, fun _ r hr hover => ?_,
      fun hcalm => (hrel hcalm).answer _⟩
    · rw [ht]
      exact .refl today _
    · rw [ht]
      exact List.mem_filter.mp hr
    · rw [ht] at hr
      exact List.mem_filter.mpr ⟨hr, hover⟩
  · rintro d f ⟨rfl, hrel⟩ ha
    refine ⟨fun hcalm => ?_, ?_⟩
    · rw [(hrel hcalm).ask, Store.ask_overdue (hrel hcalm).schema] at ha
      exact absurd ha (by simp)
    · rw [Deployment.table_of_ask_error ha]
      exact .refl today _
  · intro d ⟨hrs, hd⟩
    exact triple_moveRows_moving hreach hids hrs d hd

end

/-- Whatever fails, a rollover changes rows only by bringing them to today. -/
theorem partlySettled_rollover (p : Policy) (today : Day) (d : Deployment) :
    d.store.table.PartlySettled today (d.run (rollover p today)).2.store.table := by
  have hrun : Triple (fun d' => d'.store.table = d.store.table ∧ (False → Reliable p d'))
      (rollover p today) (fun _ d' => d.store.table.PartlySettled today d'.store.table)
      fun d' => d.store.table.PartlySettled today d'.store.table :=
    (triple_rollover_moving False.elim False.elim).weaken (fun _ hd => hd) (fun _ _ hd => hd.rows)
      fun _ hd => hd.2
  exact hrun.after (I := fun d' => d.store.table.PartlySettled today d'.store.table)
    ⟨rfl, False.elim⟩

/-- A rollover that the store does not fail comes to an end, and has brought every row to today. -/
theorem rows_rollover (hd : Reliable p d) (hids : ∀ r ∈ d.store.table.rows, fitsWord r.id = true)
    (hreach : today ≤ Billing.horizon) : ∃ n, (d.run (rollover p today)).1 = .ok n ∧
      (d.run (rollover p today)).2.store.table.rows =
        d.store.table.rows.map (Row.settled today) := by
  have hstart : d.store.table = d.store.table ∧ (True → Reliable p d) := ⟨rfl, fun _ => hd⟩
  have hrun := triple_rollover_moving (fun _ => hreach) (fun _ => hids) d hstart
  generalize d.run (rollover p today) = result at hrun
  obtain ⟨f | n, d'⟩ := result
  · exact absurd trivial hrun.1
  · refine ⟨n, rfl, ?_⟩
    have hover (r : Row) (hr : r ∈ d'.store.table.rows) : r.settled today = r := by
      refine congrArg (Row.mk · r.id) (Subscription.settled_of_not_overdue ?_)
      rw [← Bool.not_eq_true]
      exact fun h => absurd (hrun.rest trivial r hr h) List.not_mem_nil
    rw [← hrun.rows.map_settled (Day.le_refl _) hreach]
    exact ((List.map_congr_left hover).trans (List.map_id _)).symm

end

end Service
end Renewals
