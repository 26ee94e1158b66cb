import Renewals.Proofs.Scheduler.Scan
import Renewals.Proofs.Service.Footprint
import Renewals.Proofs.Service.Rollover
import Renewals.Settings.Basic
/-! Scans and rollovers of many days together. A rollover leaves a payment alone up to and on the
day on which it falls due, so whatever jobs a day runs before a scan, the scan still finds it. -/
namespace Renewals

/-- A job on a day, at a time of day. -/
structure Errand where
  day : Day
  clock : Binary64
  task : JobTask

namespace Errand

def perform (p : Policy) (pub : Publisher) (e : Errand) : Task Nat :=
  match e.task with
  | .scan h => Scan.run pub e.day h
  | .rollover => Service.rollover p e.day

/-- The deployment that the job finds. -/
def meet (e : Errand) (d : Deployment) : Deployment := { d with today := e.day, clock := e.clock }

def after (p : Policy) (pub : Publisher) (d : Deployment) (e : Errand) : Deployment :=
  ((e.meet d).run (e.perform p pub)).2

def calls (p : Policy) (pub : Publisher) (d : Deployment) (e : Errand) : List Call :=
  (e.meet d).calls (e.perform p pub)

/-- What many jobs leave, one after the other. -/
def afterAll (p : Policy) (pub : Publisher) (errands : List Errand) (d : Deployment) : Deployment :=
  errands.foldl (after p pub) d

/-- A scan of the day before for the payments of tomorrow, or one of the day itself for those of
today. -/
def Reminds (e : Errand) (due : Day) : Prop :=
  (e.task = .scan .dueTomorrow ∧ e.day.next = .ok due) ∨ (e.task = .scan .dueToday ∧ e.day = due)

theorem reminds_iff {e : Errand} {h : Horizon} (ht : e.task = .scan h) {due : Day} :
    e.Reminds due ↔ h.target e.day = .ok due := by
  cases h with
  | dueTomorrow => simp [Reminds, ht, Horizon.target]
  | dueToday => simp [Reminds, ht, Horizon.target]

end Errand

/-- The row is in the store, active, and its payment falls due on the day. -/
def Awaits (due : Day) (r : Row) (d : Deployment) : Prop :=
  r ∈ d.store.table.rows ∧ r.isActive = true ∧ r.nextPayment = some due

section
variable {p : Policy} {pub : Publisher} {d : Deployment} {e : Errand}

theorem broker_rollover (p : Policy) (today : Day) (d : Deployment) :
    (d.run (Service.rollover p today)).2.broker = d.broker := by
  have honly : Task.Only (Service.Asks p.ttl fun _ => True) (Service.rollover p today) :=
    Service.only_rollover trivial fun _ _ => trivial
  refine honly.run (I := fun d' => d'.broker = d.broker) (fun c d' hc hd' => ?_) rfl
  rw [← hd']
  cases c with
  | ask q => rfl
  | fetch | put | drop => exact Deployment.broker_throughClient _ _ _
  | log line => rfl
  | _ => exact absurd hc id

theorem attempts_rollover (p : Policy) (today : Day) (d : Deployment) (id : Int) :
    attempts id (d.calls (Service.rollover p today)) = 0 := by
  refine List.countP_eq_zero.mpr fun c hc => ?_
  have hasks : Service.Asks p.ttl (fun _ => True) c :=
    Service.only_rollover trivial (fun _ _ => trivial) d c hc
  cases c with
  | broker b => exact absurd hasks (by simp [Service.Asks])
  | _ => simp [Call.isAbout]

/-- No job touches a payment up to the day on which it falls due. -/
theorem Awaits.after {due : Day} {r : Row} (hr : Awaits due r d) (hday : e.day ≤ due) :
    Awaits due r (e.after p pub d) := by
  obtain ⟨hmem, hactive, hdue⟩ := hr
  refine ⟨?_, hactive, hdue⟩
  unfold Errand.after Errand.perform
  cases e.task with
  | scan h =>
    simp only [Scan.table_run]
    exact hmem
  | rollover =>
    refine (Service.partlySettled_rollover p e.day (e.meet d)).mem_of_not_overdue hmem ?_
    have hnot : ¬ due < e.day := Day.le_iff_not_lt.mp hday
    simp [Subscription.isOverdue, hdue, hnot]

theorem Awaits.afterAll {due : Day} {r : Row} {errands : List Errand} (hr : Awaits due r d)
    (hdays : ∀ e ∈ errands, e.day ≤ due) : Awaits due r (Errand.afterAll p pub errands d) := by
  induction errands generalizing d with
  | nil => exact hr
  | cons e errands ih =>
    exact ih (hr.after (hdays e List.mem_cons_self)) fun f hf => hdays f (List.mem_cons_of_mem e hf)

theorem Scan.Fit.meet (hd : Scan.Fit pub d) (e : Errand) : Scan.Fit pub (e.meet d) :=
  ⟨hd.schema, hd.store, hd.rows, hd.broker⟩

section
variable (hroutes : ∀ h : Horizon, pub.routingKey? h.name ≠ none)
include hroutes

/-- A job leaves the store and the broker fit for the next. -/
theorem Scan.Fit.after (hd : Scan.Fit pub d) (e : Errand) : Scan.Fit pub (e.after p pub d) where
  schema := by
    rw [Errand.after, Deployment.schema_run]
    exact hd.schema
  store o ho := hd.store o (Deployment.storePlan_run (e.perform p pub) (e.meet d) ho)
  rows := Deployment.storable_run (e.perform p pub) (d := e.meet d) hd.rows
  broker := by
    unfold Errand.after Errand.perform
    cases e.task with
    | scan h => exact (Scan.run_spec (hd.meet e) hroutes 0).2
    | rollover =>
      simp only [broker_rollover]
      exact hd.broker

theorem Scan.Fit.afterAll (hd : Scan.Fit pub d) (errands : List Errand) :
    Scan.Fit pub (Errand.afterAll p pub errands d) := by
  induction errands generalizing d with
  | nil => exact hd
  | cons e errands ih => exact ih (hd.after hroutes e)

/-- A scan that is about the day of a payment makes one attempt, and no other job makes any. -/
theorem attempts_eq (hd : Scan.Fit pub d) {due : Day} {r : Row} (hr : Awaits due r d) :
    (e.Reminds due → attempts r.id (e.calls p pub d) = 1) ∧
      (¬ e.Reminds due → attempts r.id (e.calls p pub d) = 0) := by
  obtain ⟨hmem, hactive, hdue⟩ := hr
  cases ht : e.task with
  | rollover =>
    have hnot : ¬ e.Reminds due := by simp [Errand.Reminds, ht]
    refine ⟨fun h => absurd h hnot, fun _ => ?_⟩
    simp only [Errand.calls, Errand.perform, ht]
    exact attempts_rollover p e.day (e.meet d) r.id
  | scan h =>
    rw [Errand.reminds_iff ht]
    simp only [Errand.calls, Errand.perform, ht, (Scan.run_spec (hd.meet e) hroutes r.id).1]
    cases h.target e.day with
    | error f => exact ⟨fun he => absurd he (by simp), fun _ => rfl⟩
    | ok day =>
      have hcount : ((e.meet d).store.table.select (Scan.FallsDue day)).countP (·.id == r.id) = _ :=
        Table.countP_select hmem _
      simp only [hcount, Scan.FallsDue, hactive, hdue, Bool.true_and, beq_iff_eq, Option.some.injEq,
        Except.ok.injEq]
      exact ⟨fun he => if_pos he.symm, fun he => if_neg (Ne.symm he)⟩

/-- Only payments that fall due are attempted. -/
theorem exists_awaits (hd : Scan.Fit pub d) {id : Int} (h : attempts id (e.calls p pub d) ≠ 0) :
    ∃ due r, Awaits due r d ∧ r.id = id ∧ e.Reminds due := by
  cases ht : e.task with
  | rollover =>
    simp only [Errand.calls, Errand.perform, ht] at h
    exact absurd (attempts_rollover p e.day (e.meet d) id) h
  | scan horizon =>
    simp only [Errand.calls, Errand.perform, ht, (Scan.run_spec (hd.meet e) hroutes id).1] at h
    cases htarget : horizon.target e.day with
    | error f =>
      rw [htarget] at h
      exact absurd rfl h
    | ok day =>
      rw [htarget] at h
      obtain ⟨r, hr, hid⟩ := List.countP_pos_iff.mp (Nat.pos_of_ne_zero h)
      obtain ⟨hmem, hfalls⟩ := List.mem_filter.mp hr
      obtain ⟨hactive, hdue⟩ := Bool.and_eq_true_iff.mp hfalls
      exact ⟨day, r, ⟨hmem, hactive, by simpa using hdue⟩, by simpa using hid,
        (Errand.reminds_iff ht).mpr htarget⟩

end
end

/-- What a run of jobs owes to the payments: none is moved before it falls due, each is attempted
when it should be and at no other time, and no row under both horizons on one day. -/
structure Punctual (p : Policy) (pub : Publisher) (d : Deployment) (errands : List Errand) :
    Prop where
  kept : ∀ past early late due r, errands = past ++ early ++ late →
    Awaits due r (Errand.afterAll p pub past d) → (∀ e ∈ early, e.day ≤ due) →
    Awaits due r (Errand.afterAll p pub (past ++ early) d)
  attempted : ∀ past early now late due r, errands = past ++ early ++ now :: late →
    Awaits due r (Errand.afterAll p pub past d) → now.day ≤ due →
    (now.Reminds due →
      attempts r.id (now.calls p pub (Errand.afterAll p pub (past ++ early) d)) = 1) ∧
    (¬ now.Reminds due →
      attempts r.id (now.calls p pub (Errand.afterAll p pub (past ++ early) d)) = 0)
  apart : ∀ past first mid second late h h' id,
    errands = past ++ first :: mid ++ second :: late →
    first.task = .scan h → second.task = .scan h' → h ≠ h' → first.day = second.day →
    attempts id (first.calls p pub (Errand.afterAll p pub past d)) = 0 ∨
      attempts id (second.calls p pub (Errand.afterAll p pub (past ++ first :: mid) d)) = 0

namespace Errand
variable {p : Policy} {pub : Publisher} {d : Deployment}

theorem afterAll_append (early late : List Errand) (d : Deployment) :
    afterAll p pub (early ++ late) d = afterAll p pub late (afterAll p pub early d) :=
  List.foldl_append

theorem day_le {past late : List Errand} {now e : Errand}
    (hdays : (past ++ now :: late).Pairwise (·.day ≤ ·.day)) (he : e ∈ past) : e.day ≤ now.day :=
  (List.pairwise_append.mp hdays).2.2 e he now List.mem_cons_self

/-- A payment that a job is about falls due on its day or behind it. -/
theorem Reminds.le {e : Errand} {due : Day} (h : e.Reminds due) : e.day ≤ due := by
  rcases h with ⟨-, hnext⟩ | ⟨-, rfl⟩
  · exact Nat.le_of_lt (Day.lt_of_next hnext)
  · exact Day.le_refl _

/-- Two horizons on one day are about payments of two days. -/
theorem Reminds.ne {a b : Errand} {h h' : Horizon} (ha : a.task = .scan h) (hb : b.task = .scan h')
    (hne : h ≠ h') (hday : a.day = b.day) {due : Day} (hdue : a.Reminds due) : ¬ b.Reminds due := by
  intro hdue'
  rw [reminds_iff ha] at hdue
  rw [reminds_iff hb, ← hday] at hdue'
  have hnext : a.day.next ≠ .ok a.day := fun he => Nat.lt_irrefl _ (Day.lt_of_next he)
  cases h <;> cases h'
  · exact hne rfl
  · obtain rfl := Except.ok.inj hdue'
    exact hnext hdue
  · obtain rfl := Except.ok.inj hdue
    exact hnext hdue'
  · exact hne rfl

end Errand

/-- Every horizon has a queue. -/
theorem Settings.routingKey?_ne_none (s : Settings) (connection : Connection) (h : Horizon) :
    (s.publisher connection).routingKey? h.name ≠ none := by
  cases h <;> simp [Publisher.routingKey?, Settings.publisher, Settings.queues]

/-- Jobs of any kind, in any order, on days that do not go back: no reminder is lost to a rollover
and none is doubled. -/
theorem punctual_of_sorted (p : Policy) (s : Settings) (connection : Connection) {d : Deployment}
    {errands : List Errand} (hd : Scan.Fit (s.publisher connection) d)
    (hdays : errands.Pairwise (·.day ≤ ·.day)) :
    Punctual p (s.publisher connection) d errands where
  kept past early late due r herrands hr hearly := by
    rw [Errand.afterAll_append]
    exact hr.afterAll hearly
  attempted past early now late due r herrands hr hnow := by
    have hroutes := s.routingKey?_ne_none connection
    have hearly : ∀ e ∈ early, e.day ≤ due := by
      intro e he
      have hle := Errand.day_le (herrands ▸ hdays) (List.mem_append_right past he)
      exact Day.le_trans hle hnow
    rw [Errand.afterAll_append]
    exact attempts_eq hroutes ((hd.afterAll hroutes past).afterAll hroutes early)
      (hr.afterAll hearly)
  apart past first mid second late h h' id herrands hfirst hsecond hne hday := by
    have hroutes := s.routingKey?_ne_none connection
    by_contra hnot
    obtain ⟨hone, htwo⟩ := not_or.mp hnot
    obtain ⟨due, r, hr, rfl, hdue⟩ := exists_awaits hroutes (hd.afterAll hroutes past) hone
    obtain ⟨due', q, hq, hid, hdue'⟩ := exists_awaits hroutes (hd.afterAll hroutes _) htwo
    -- the day does not change between the two scans, so the payment is still there
    have hmid : ∀ e ∈ first :: mid, e.day ≤ due := by
      intro e he
      have hle := Errand.day_le (herrands ▸ hdays) (List.mem_append_right past he)
      exact Day.le_trans (hday ▸ hle) hdue.le
    have hstill : Awaits due r (Errand.afterAll p (s.publisher connection) (first :: mid) _) :=
      hr.afterAll hmid
    rw [← Errand.afterAll_append] at hstill
    obtain rfl := eq_of_key_eq (Table.distinct _) hq.1 hstill.1 hid
    obtain rfl : due' = due := Option.some.inj (hq.2.2.symm.trans hstill.2.2)
    exact hdue.ne hfirst hsecond hne hday hdue'

/-- Scans and rollovers around a day on which a payment falls due. -/
def errandsAround (before due behind : Day) : List Errand :=
  [⟨before, .zero, .scan .dueTomorrow⟩, ⟨due, .zero, .rollover⟩, ⟨due, .zero, .scan .dueToday⟩,
    ⟨due, .zero, .scan .dueTomorrow⟩, ⟨behind, .zero, .rollover⟩, ⟨behind, .zero, .scan .dueToday⟩]

/-- A broker that does not take the second message. -/
def someDelivery : Deployment :=
  { Deployment.small (.remote .empty) with
    broker := { Broker.empty with plan := ⟨[("publish", [none, some .io])]⟩ } }

theorem punctual_errandsAround :
    Awaits (Deployment.someDay 20 (by decide)) ⟨Deployment.someSubscription, 1⟩ someDelivery ∧
      Punctual Settings.standard.policy (Settings.standard.publisher 0) someDelivery
        (errandsAround (Deployment.someDay 19 (by decide)) (Deployment.someDay 20 (by decide))
          Deployment.someToday) := by
  refine ⟨⟨List.mem_singleton.mpr rfl, rfl, rfl⟩, punctual_of_sorted _ _ _ ⟨.inl rfl,
    fun _ h => absurd h List.not_mem_nil, Deployment.storable_small (.remote .empty), ?_, ?_⟩
    (by decide)⟩
  · rintro x hx - cause hc
    obtain rfl := List.mem_singleton.mp hx
    simp only [List.mem_cons, reduceCtorEq, Option.some.injEq, List.not_mem_nil, or_false,
      false_or] at hc
    rw [hc]
    rfl
  · intro m
    have hchannel : someDelivery.broker.channel? 0 = none := rfl
    have hreleased : someDelivery.broker.released = [] := rfl
    simp [Broker.refusal?, Settings.publisher, hchannel, hreleased]

end Renewals
