import Renewals.Proofs.Deployment.Calls
import Renewals.Proofs.Subscription.Notice
import Renewals.Proofs.Task.Calls
import Renewals.Scheduler.Scan
/-! What a scan sends out. While the broker fails no worse than by not taking a message, there is
one attempt for each row that falls due, and none for any other. -/
namespace Renewals

/-- Whether a call is an attempt to send a message about a subscription. -/
def Call.isAbout (id : Int) : Call → Bool
  | .broker (.publish _ m) => m.subject? == some id
  | _ => false

/-- How often it is attempted to send a message about a subscription. -/
def attempts (id : Int) (calls : List Call) : Nat := calls.countP (·.isAbout id)

@[simp] theorem attempts_append (id : Int) (early late : List Call) :
    attempts id (early ++ late) = attempts id early + attempts id late := List.countP_append

/-- Publishing succeeds, or fails in a way that callers know about. -/
structure Broker.Obliging (connection : Connection) (b : Broker) : Prop where
  coming : ∀ x ∈ b.plan.coming, x.1 = "publish" → ∀ cause, some cause ∈ x.2 → cause.isBroker = true
  held : ∀ m, b.refusal? connection m ≠ some .released

namespace Broker

theorem refusal?_cases {connection : Connection} {m : Message} {b : Broker} {cause : BrokerCause}
    (h : b.refusal? connection m = some cause) : cause = .closed ∨ cause = .released := by
  unfold refusal? at h
  split at h
  · exact absurd h (by simp)
  · split at h
    · exact .inl (Option.some.inj h).symm
    · split at h
      · exact .inr (Option.some.inj h).symm
      · exact absurd h (by simp)

/-- Channels and connections decide what is refused, and a message changes neither. -/
theorem refusal?_deliver (connection c : Connection) (m n : Message) (b : Broker) :
    (b.deliver c m).refusal? connection n = b.refusal? connection n := by
  unfold deliver
  split <;> rfl

theorem plan_deliver (c : Connection) (m : Message) (b : Broker) :
    (b.deliver c m).plan = b.plan := by
  unfold deliver
  split <;> rfl

namespace Obliging
variable {connection : Connection} {b : Broker}

theorem take (h : b.Obliging connection) :
    (∀ cause, (b.plan.take "publish").1 = some cause → cause.isBroker = true) ∧
      ∀ x ∈ (b.plan.take "publish").2.coming, x.1 = "publish" →
        ∀ cause, some cause ∈ x.2 → cause.isBroker = true := by
  unfold BrokerPlan.take
  split
  next name o outcomes hfind =>
    have hmem := List.mem_of_find?_eq_some hfind
    have hname : name = "publish" := by simpa using List.find?_some hfind
    refine ⟨fun cause hc => h.coming _ hmem hname cause (hc ▸ List.mem_cons_self), ?_⟩
    intro x hx hxname cause hc
    obtain ⟨y, hy, rfl⟩ := List.mem_map.mp hx
    by_cases hn : y.1 = "publish"
    · rw [if_pos hn] at hc
      exact h.coming y hy hn cause (List.mem_of_mem_tail hc)
    · rw [if_neg hn] at hxname
      exact absurd hxname hn
  next => exact ⟨fun cause hc => absurd hc (by simp), h.coming⟩

/-- An attempt may use up an outcome to come, and leaves channels and connections as they are. -/
theorem publish (h : b.Obliging connection) (m : Message) :
    (∀ cause, (b.perform (.publish connection m)).1 = .error cause → cause.isBroker = true) ∧
      (b.perform (.publish connection m)).2.Obliging connection := by
  cases hr : b.refusal? connection m with
  | some cause =>
    simp only [perform, hr]
    refine ⟨fun c hc => ?_, h⟩
    obtain rfl := Except.error.inj hc
    rcases refusal?_cases hr with rfl | rfl
    · rfl
    · exact absurd hr (h.held m)
  | none =>
    obtain ⟨hcause, hcoming⟩ := h.take
    simp only [perform, hr, attempt, record, BrokerPlan.kind, misuse?]
    generalize b.plan.take "publish" = taken at hcause hcoming
    obtain ⟨o, plan⟩ := taken
    cases o with
    | some cause =>
      refine ⟨fun c hc => Except.error.inj hc ▸ hcause cause rfl, hcoming, h.held⟩
    | none =>
      simp only [effect]
      refine ⟨fun c hc => absurd hc (by simp), ?_, fun n => ?_⟩
      · rw [plan_deliver]
        exact hcoming
      · rw [refusal?_deliver]
        exact h.held n

end Obliging
end Broker

namespace Scan

/-- Sends one message. One that is not taken is logged. -/
def offer (p : Publisher) (h : Horizon) (r : Row) (n : Notice) : Task Nat :=
  tryCatch (do p.publish h.name (.ok n.toJson); pure 1) fun
    | .broker f =>
      if f.isUnpublished then do
        Task.log .error s!"failed to publish notification for id={r.id}: {f.message}"
        pure 0
      else throw (.broker f)
    | f => throw f

theorem publishAll_cons (p : Publisher) (h : Horizon) (r : Row) (rs : List Row) :
    publishAll p h (r :: rs) = Task.lift .notice (r.entry.notice h.name) >>= fun n =>
      offer p h r n >>= fun k => publishAll p h rs >>= fun ks => pure (k + ks) := rfl

section
variable {p : Publisher} {h : Horizon} {d : Deployment}

/-- What is behind the call of a message. -/
theorem publish_eq {key : String} (hkey : p.routingKey? h.name = some key) (v : Json) :
    ∃ next : Except BrokerCause Unit → Task Unit,
      p.publish h.name (.ok v) =
        Task.perform (.broker (.publish p.connection ⟨v.text, p.exchange, key⟩)) >>= next ∧
      next (.ok ()) = pure () ∧
      ∀ cause, next (.error cause) =
        throw (.broker (if cause.isBroker then .unpublished key (.broker cause) else .raw cause)) := by
  unfold Publisher.publish
  rw [hkey]
  exact ⟨_, rfl, rfl, fun _ => rfl⟩

/-- One call, which succeeds or leaves the message unpublished. -/
theorem publish_spec {key : String} (hkey : p.routingKey? h.name = some key) (v : Json)
    (hd : d.broker.Obliging p.connection) :
    let c : Call := .broker (.publish p.connection ⟨v.text, p.exchange, key⟩)
    d.calls (p.publish h.name (.ok v)) = [c] ∧
      ∃ result, d.run (p.publish h.name (.ok v)) = (result, (Deployment.answer c d).2) ∧
        (result = .ok () ∨ ∃ f, f.isUnpublished = true ∧ result = .error (.broker f)) := by
  intro c
  have hcause := (hd.publish ⟨v.text, p.exchange, key⟩).1
  obtain ⟨next, heq, hok, herror⟩ := publish_eq hkey v
  have hrun : d.run (Task.perform c >>= next) =
    (Deployment.answer c d).2.run (next (Deployment.answer c d).1) := rfl
  have hcalls : d.calls (Task.perform c >>= next) =
    c :: (Deployment.answer c d).2.calls (next (Deployment.answer c d).1) := rfl
  rw [heq, hrun, hcalls]
  cases ha : (Deployment.answer c d).1 with
  | ok u =>
    rw [hok]
    exact ⟨rfl, _, rfl, .inl rfl⟩
  | error cause =>
    rw [herror cause, if_pos (hcause cause ha)]
    exact ⟨rfl, _, rfl, .inr ⟨_, rfl, rfl⟩⟩

/-- There is one attempt, whether or not the message is taken. -/
theorem offer_spec {r : Row} {n : Notice} (hr : r.Storable) (hn : r.entry.notice h.name = .ok n)
    {key : String} (hkey : p.routingKey? h.name = some key)
    (hd : d.broker.Obliging p.connection) (id : Int) :
    attempts id (d.calls (offer p h r n)) = (if r.id = id then 1 else 0) ∧
      ∃ k, (d.run (offer p h r n)).1 = .ok k ∧
        (d.run (offer p h r n)).2.broker.Obliging p.connection := by
  obtain ⟨hcalls, result, hrun, hresult⟩ := publish_spec hkey n.toJson hd
  have habout : attempts id [.broker (.publish p.connection ⟨n.toJson.text, p.exchange, key⟩)] =
      if r.id = id then 1 else 0 := by
    simp only [attempts, List.countP_singleton, Call.isAbout, subject?_notice hr hn, beq_iff_eq,
      Option.some.injEq]
  have hafter := (hd.publish ⟨n.toJson.text, p.exchange, key⟩).2
  simp only [offer, Deployment.run_tryCatch, Deployment.calls_tryCatch, Deployment.run_bind,
    Deployment.calls_bind, hcalls, hrun]
  rcases hresult with rfl | ⟨f, hf, rfl⟩
  · simp only [Deployment.run_pure, Deployment.calls_pure, List.append_nil]
    exact ⟨habout, 1, rfl, hafter⟩
  · simp only [hf, if_true, List.append_nil, Deployment.run_bind, Deployment.calls_bind]
    rw [attempts_append, habout]
    exact ⟨rfl, 0, rfl, hafter⟩

/-- So there is one for each row, and all rows have their turn. -/
theorem publishAll_spec {key : String} (hkey : p.routingKey? h.name = some key) {rs : List Row}
    (hrs : ∀ r ∈ rs, r.Storable ∧ ∃ due, r.nextPayment = some due)
    (hd : d.broker.Obliging p.connection) (id : Int) :
    attempts id (d.calls (publishAll p h rs)) = rs.countP (·.id == id) ∧
      ∃ k, (d.run (publishAll p h rs)).1 = .ok k ∧
        (d.run (publishAll p h rs)).2.broker.Obliging p.connection := by
  induction rs generalizing d with
  | nil => exact ⟨rfl, 0, rfl, hd⟩
  | cons r rs ih =>
    obtain ⟨hr, due, hdue⟩ := hrs r List.mem_cons_self
    obtain ⟨n, hn⟩ := Row.exists_notice hdue h
    obtain ⟨hone, k, hk, hnext⟩ := offer_spec hr hn hkey hd id
    obtain ⟨hrest, ks, hks, hend⟩ := ih (fun q hq => hrs q (List.mem_cons_of_mem r hq)) hnext
    rw [publishAll_cons, hn]
    simp only [Task.lift, pure_bind, Deployment.run_bind, Deployment.calls_bind, hk, hks,
      Deployment.calls_pure, Deployment.run_pure, List.append_nil, attempts_append, hone, hrest,
      List.countP_cons, beq_iff_eq]
    exact ⟨Nat.add_comm _ _, _, rfl, hend⟩

/-- A call that reads the store, sends a message or logs. -/
def Looks : Call → Prop
  | .ask q => q.writes = false
  | .broker (.publish ..) | .log _ => True
  | _ => False

theorem only_offer (r : Row) (n : Notice) : Task.Only Looks (offer p h r n) := by
  have hpublish : Task.Only Looks (p.publish h.name (.ok n.toJson)) := by
    unfold Publisher.publish
    split
    · exact .throw _
    · refine .bind (.perform (c := .broker (.publish _ _)) trivial) fun a => ?_
      cases a with
      | ok u => exact .pure ()
      | error cause => exact .throw _
  refine .tryCatch (.bind hpublish fun _ => .pure 1) fun f => ?_
  split
  · split
    · exact .bind (.perform (c := .log _) trivial) fun _ => .pure 0
    · exact .throw _
  · exact .throw _

theorem only_run (p : Publisher) (today : Day) (h : Horizon) : Task.Only Looks (run p today h) := by
  refine .bind (.lift _ _) fun day => .bind (.perform (c := .ask (.dueOn day)) rfl) fun a => ?_
  cases a with
  | ok rs =>
    induction (rs : List Row) with
    | nil => exact .pure 0
    | cons r rs ih =>
      exact .bind (.lift _ _) fun n => .bind (only_offer r n) fun _ => .bind ih fun _ => .pure _
  | error f =>
    cases f with
    | unavailable => exact .bind (.perform (c := .log _) trivial) fun _ => .pure 0
    | _ => exact .throw _

theorem table_run (p : Publisher) (today : Day) (h : Horizon) (d : Deployment) :
    (d.run (run p today h)).2.store.table = d.store.table := by
  refine (only_run p today h).run (I := fun d' => d'.store.table = d.store.table)
    (fun c d' hc hd' => ?_) rfl
  rw [← hd']
  cases c with
  | ask q =>
    cases ha : (Deployment.answer (.ask q) d').1 with
    | ok a => exact Deployment.table_of_ask_ok hc ha
    | error f => exact Deployment.table_of_ask_error ha
  | _ => rw [Deployment.store_answer (by simp)]

end

/-- Active, with a payment on the day. -/
def FallsDue (day : Day) (s : Subscription) : Bool := s.isActive && s.nextPayment == some day

/-- A store that does not fail, with rows that can be written down, and a broker that does no worse
than leave a message. -/
structure Fit (p : Publisher) (d : Deployment) : Prop where
  schema : d.store.schema = .plain ∨ d.store.schema = .checked
  store : ∀ o ∈ d.storePlan, o = .sound
  rows : d.store.table.Storable
  broker : d.broker.Obliging p.connection

section
variable {p : Publisher} {h : Horizon} {today : Day} {d : Deployment}

theorem answer_dueOn (hs : d.store.schema = .plain ∨ d.store.schema = .checked)
    (hstore : ∀ o ∈ d.storePlan, o = .sound) (day : Day) :
    (Deployment.answer (.ask (.dueOn day)) d).1 = .ok (d.store.table.select (FallsDue day)) := by
  rw [(Deployment.answer_ask_sound hstore (.dueOn day)).1, Store.ask_dueOn hs]
  rfl

/-- A scan reads the rows of its day, and goes through them. -/
theorem run_eq (p : Publisher) {day : Day} (ht : h.target today = .ok day) :
    ∃ next : Except StoreFault (List Row) → Task Nat,
      run p today h = Task.ask? (.dueOn day) >>= next ∧
        ∀ rs, next (.ok rs) = publishAll p h rs := by
  unfold run
  rw [ht]
  exact ⟨_, rfl, fun _ => rfl⟩

theorem run_found {day : Day} (ht : h.target today = .ok day) {rs : List Row}
    (ha : (Deployment.answer (.ask (.dueOn day)) d).1 = .ok rs) :
    let d' := (Deployment.answer (.ask (.dueOn day)) d).2
    d.run (run p today h) = d'.run (publishAll p h rs) ∧
      d.calls (run p today h) = .ask (.dueOn day) :: d'.calls (publishAll p h rs) := by
  intro d'
  obtain ⟨next, heq, hnext⟩ := run_eq p ht
  have hanswer : next (Deployment.answer (.ask (.dueOn day)) d).1 = publishAll p h rs := by
    rw [ha]
    exact hnext rs
  rw [heq, ← hanswer]
  exact ⟨rfl, rfl⟩

/-- A scan makes one attempt for each active row with a payment on the day that it is about. -/
theorem run_spec (hd : Fit p d) (hroutes : ∀ h : Horizon, p.routingKey? h.name ≠ none) (id : Int) :
    attempts id (d.calls (run p today h)) = (match h.target today with
      | .ok day => (d.store.table.select (FallsDue day)).countP (·.id == id)
      | .error _ => 0) ∧
    (d.run (run p today h)).2.broker.Obliging p.connection := by
  obtain ⟨key, hkey⟩ := Option.ne_none_iff_exists'.mp (hroutes h)
  cases ht : h.target today with
  | error f =>
    unfold run
    rw [ht]
    exact ⟨rfl, hd.broker⟩
  | ok day =>
    have hrows : ∀ r ∈ d.store.table.select (FallsDue day),
        r.Storable ∧ ∃ due, r.nextPayment = some due := by
      intro r hr
      obtain ⟨hmem, hdue⟩ := List.mem_filter.mp hr
      exact ⟨hd.rows r hmem, day, by simpa using (Bool.and_eq_true_iff.mp hdue).2⟩
    obtain ⟨hrun, hcalls⟩ := run_found (p := p) ht (answer_dueOn hd.schema hd.store day)
    rw [hrun, hcalls]
    obtain ⟨hcount, k, -, hend⟩ := publishAll_spec hkey hrows
      (d := (Deployment.answer (.ask (.dueOn day)) d).2) hd.broker id
    exact ⟨hcount, hend⟩

end

end Scan
end Renewals
