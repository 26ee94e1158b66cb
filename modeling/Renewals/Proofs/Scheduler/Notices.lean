import Renewals.Proofs.Calendar.Month
import Renewals.Proofs.Scheduler.Scan
import Renewals.Proofs.Scheduler.Shift
import Renewals.Proofs.Task.History
/-! Which messages scans try to send, one scan after the other, whatever becomes of each message. A
scan goes through all rows that fall due, past every message that the broker does not take, and
ends early only where something else goes wrong. What it goes through is decided by the rows and
the day. -/
namespace Renewals

/-- A message that a scan has tried to send, with what has become of it. -/
structure Sending where
  message : Message
  answer : Except BrokerCause Unit

namespace Sending

/-- The message is taken, or the broker fails in a way that callers know about. -/
def isBorne (x : Sending) : Bool :=
  match x.answer with
  | .ok _ => true
  | .error cause => cause.isBroker

def isTaken (x : Sending) : Bool := x.answer.isOk

end Sending

def Answered.sending? : Answered → Option Sending
  | broker (.publish _ m) a => some ⟨m, a⟩
  | _ => none

/-- What a scan with such messages to send comes to. It tries all of them and tells how many have
been taken, or it breaks off at the first that fails in a way that nobody knows about. -/
inductive Tried (messages : List Message) : List Sending → Except Failure Nat → Prop
  | all (sendings : List Sending) (hall : sendings.map Sending.message = messages)
    (hborne : ∀ x ∈ sendings, x.isBorne = true) :
    Tried messages sendings (.ok (sendings.countP (·.isTaken)))
  | broken (sendings : List Sending) {m : Message} {left : List Message} {cause : BrokerCause}
    (hall : messages = sendings.map Sending.message ++ m :: left)
    (hborne : ∀ x ∈ sendings, x.isBorne = true) (hcause : cause.isBroker = false) :
    Tried messages (sendings ++ [⟨m, .error cause⟩]) (.error (.broker (.raw cause)))

namespace Deployment
variable {α β : Type}

/-- The messages that a task tries to send. -/
def sendings (t : Task α) (d : Deployment) : List Sending :=
  (t.history answer d).filterMap Answered.sending?

theorem sendings_bind (t : Task α) (f : α → Task β) (d : Deployment) :
    d.sendings (t >>= f) = d.sendings t ++
      match (d.run t).1 with
      | .ok a => (d.run t).2.sendings (f a)
      | .error _ => [] := by
  unfold sendings
  rw [Task.history_bind, List.filterMap_append, Task.result_answer]
  cases (d.run t).1 <;> rfl

theorem sendings_tryCatch (t : Task α) (handle : Failure → Task α) (d : Deployment) :
    d.sendings (tryCatch t handle) = d.sendings t ++
      match (d.run t).1 with
      | .ok _ => []
      | .error f => (d.run t).2.sendings (handle f) := by
  unfold sendings
  rw [Task.history_tryCatch, List.filterMap_append, Task.result_answer]
  cases (d.run t).1 <;> rfl

@[simp] theorem sendings_pure (a : α) (d : Deployment) : d.sendings (pure a : Task α) = [] := rfl

@[simp] theorem sendings_log (level : Level) (text : LooseText) (d : Deployment) :
    d.sendings (Task.log level text) = [] := rfl

theorem sendings_map (t : Task α) (g : α → β) (d : Deployment) :
    d.sendings (do return g (← t)) = d.sendings t := by
  rw [sendings_bind]
  cases (d.run t).1 <;> exact List.append_nil _

end Deployment

namespace Tried
variable {messages : List Message} {sendings : List Sending} {result : Except Failure Nat}
  {m : Message}

theorem nil : Tried [] [] (.ok 0) := .all [] rfl fun _ h => absurd h List.not_mem_nil

/-- The message before all others is taken or not, and the others have their turn. -/
theorem cons (h : Tried messages sendings result) {x : Sending} (hx : x.isBorne = true) :
    Tried (x.message :: messages) (x :: sendings)
      (result.map ((if x.isTaken then 1 else 0) + ·)) := by
  cases h with
  | all _ hall hborne =>
    have hcount : (if x.isTaken then 1 else 0) + sendings.countP (·.isTaken) =
        (x :: sendings).countP (·.isTaken) := by
      rw [List.countP_cons, Nat.add_comm]
    simp only [Except.map, hcount]
    exact .all (x :: sendings) (congrArg (x.message :: ·) hall)
      (List.forall_mem_cons.mpr ⟨hx, hborne⟩)
  | broken early hall hborne hcause =>
    exact .broken (x :: early) (congrArg (x.message :: ·) hall)
      (List.forall_mem_cons.mpr ⟨hx, hborne⟩) hcause

/-- The message before all others goes wrong, and the others have no turn. -/
theorem wrong (messages : List Message) (m : Message) {cause : BrokerCause}
    (hcause : cause.isBroker = false) :
    Tried (m :: messages) [⟨m, .error cause⟩] (.error (.broker (.raw cause))) :=
  .broken [] rfl (fun _ h => absurd h List.not_mem_nil) hcause

end Tried

namespace Scan
variable {p : Publisher} {h : Horizon} {d : Deployment} {key : String}

/-- What there is to say about a row whose payment falls due on the day. -/
def notice (h : Horizon) (day : Day) (r : Row) : Notice :=
  ⟨some r.id, r.username, r.serviceName, r.price, day, h.name, r.userUid⟩

/-- The same as a message under a routing key, the date as ISO has it. -/
def message (p : Publisher) (h : Horizon) (key : String) (day : Day) (r : Row) : Message where
  body := (Json.obj
    [("subscription_id", .int r.id), ("username", .str r.username),
      ("service_name", .str r.serviceName), ("price", .int r.price),
      ("next_payment_date", .str day.iso), ("horizon", .str h.name),
      ("user_uid", Json.optional .str r.userUid)]).text
  exchange := p.exchange
  routingKey := key

theorem message_eq (p : Publisher) (h : Horizon) (key : String) (day : Day) (r : Row) :
    message p h key day r = ⟨(notice h day r).toJson.text, p.exchange, key⟩ := rfl

theorem notice_of_due {r : Row} {day : Day} (hdue : r.nextPayment = some day) (h : Horizon) :
    r.entry.notice h.name = .ok (notice h day r) := by
  have hentry : r.entry.nextPayment = some day := hdue
  rw [Entry.notice, hentry]
  rfl

/-- What a scan makes of the answer to a message. -/
def counted : Except BrokerCause Unit → Except Failure Nat
  | .ok _ => .ok 1
  | .error cause => if cause.isBroker then .ok 0 else .error (.broker (.raw cause))

theorem sendings_offer (hkey : p.routingKey? h.name = some key) (r : Row) (n : Notice) :
    ∃ a, d.sendings (offer p h r n) = [⟨⟨n.toJson.text, p.exchange, key⟩, a⟩] ∧
      (d.run (offer p h r n)).1 = counted a := by
  obtain ⟨next, heq, hok, herror⟩ := publish_eq hkey n.toJson
  let c : Call := .broker (.publish p.connection ⟨n.toJson.text, p.exchange, key⟩)
  have hrun : d.run (Task.perform c >>= next) =
    (Deployment.answer c d).2.run (next (Deployment.answer c d).1) := rfl
  have hsend : d.sendings (Task.perform c >>= next) =
    ⟨⟨n.toJson.text, p.exchange, key⟩, (Deployment.answer c d).1⟩ ::
      (Deployment.answer c d).2.sendings (next (Deployment.answer c d).1) := rfl
  exists (Deployment.answer c d).1
  simp only [offer, Deployment.run_tryCatch, Deployment.sendings_tryCatch, Deployment.run_bind,
    Deployment.sendings_bind]
  rw [heq, hrun, hsend]
  cases ha : (Deployment.answer c d).1 with
  | ok u =>
    rw [hok]
    exact ⟨rfl, rfl⟩
  | error cause =>
    rw [herror cause]
    cases hcause : cause.isBroker with
    | true =>
      simp only [counted, hcause, if_true]
      exact ⟨rfl, rfl⟩
    | false =>
      simp only [counted, hcause]
      exact ⟨rfl, rfl⟩

/-- A scan goes through its rows until something goes wrong that nobody knows about. -/
theorem tried_publishAll (hkey : p.routingKey? h.name = some key) {day : Day} {rs : List Row}
    (hrs : ∀ r ∈ rs, r.nextPayment = some day) :
    Tried (rs.map (message p h key day)) (d.sendings (publishAll p h rs))
      (d.run (publishAll p h rs)).1 := by
  induction rs generalizing d with
  | nil => exact .nil
  | cons r rs ih =>
    obtain ⟨a, hsend, hcount⟩ := sendings_offer (d := d) hkey r (notice h day r)
    rw [← message_eq] at hsend
    have hrest := ih (d := (d.run (offer p h r (notice h day r))).2)
      fun q hq => hrs q (List.mem_cons_of_mem r hq)
    rw [publishAll_cons, notice_of_due (hrs r List.mem_cons_self)]
    simp only [Task.lift, pure_bind]
    rw [Deployment.run_bind, Deployment.sendings_bind, hsend, hcount]
    cases a with
    | ok u =>
      simp only [counted, Deployment.run_map, Deployment.sendings_map]
      exact hrest.cons (x := ⟨message p h key day r, .ok u⟩) rfl
    | error cause =>
      cases hcause : cause.isBroker with
      | true =>
        simp only [counted, hcause, if_true, Deployment.run_map, Deployment.sendings_map]
        exact hrest.cons (x := ⟨message p h key day r, .error cause⟩) hcause
      | false =>
        simp only [counted, hcause]
        exact .wrong _ _ hcause

section
variable {today : Day}

theorem tried_run (hkey : p.routingKey? h.name = some key)
    (hs : d.store.schema = .plain ∨ d.store.schema = .checked)
    (hstore : ∀ o ∈ d.storePlan, o = .sound) {day : Day} (ht : h.target today = .ok day) :
    Tried ((d.store.table.select (FallsDue day)).map (message p h key day))
      (d.sendings (run p today h)) (d.run (run p today h)).1 := by
  have ha := answer_dueOn hs hstore day
  obtain ⟨next, heq, hnext⟩ := run_eq p ht
  have hsend : d.sendings (Task.ask? (.dueOn day) >>= next) =
      (Deployment.answer (.ask (.dueOn day)) d).2.sendings
        (next (Deployment.answer (.ask (.dueOn day)) d).1) := rfl
  have hfound : next (Deployment.answer (.ask (.dueOn day)) d).1 =
      publishAll p h (d.store.table.select (FallsDue day)) := by
    rw [ha]
    exact hnext _
  rw [(run_found ht ha).1, heq, hsend, hfound]
  apply tried_publishAll hkey
  intro r hr
  simpa using (Bool.and_eq_true_iff.mp (List.mem_filter.mp hr).2).2

/-- A job is its scan, and no failure leaves it. -/
theorem job_spec (p : Publisher) (today : Day) (h : Horizon) (d : Deployment) :
    (d.run (job p today h)).1 = .ok () ∧
      d.sendings (job p today h) = d.sendings (run p today h) ∧
      (d.run (job p today h)).2.store.table = d.store.table := by
  have htable := table_run p today h d
  unfold job
  rw [Deployment.run_tryCatch, Deployment.sendings_tryCatch, Deployment.sendings_bind,
    Deployment.run_bind]
  cases (d.run (run p today h)).1 with
  | ok n => exact ⟨rfl, by simp, htable⟩
  | error f => exact ⟨rfl, by simp, htable⟩

end

end Scan

/-- A scan job on a day, with the rows that it finds. -/
structure Round where
  horizon : Horizon
  day : Day
  table : Table

namespace Round

def meet (r : Round) (d : Deployment) : Deployment :=
  { d with today := r.day, store := { d.store with table := r.table } }

def after (p : Publisher) (d : Deployment) (r : Round) : Deployment :=
  ((r.meet d).run (Scan.job p r.day r.horizon)).2

/-- What is left behind many scans, one after the other. -/
def afterAll (p : Publisher) (rounds : List Round) (d : Deployment) : Deployment :=
  rounds.foldl (after p) d

/-- The rows that a round is about: active, with a payment on its target day, by increasing number.
A message can be made from each of them. -/
structure Seeks (r : Round) (day : Day) (due : List Row) : Prop where
  target : r.horizon.target r.day = .ok day
  mem : ∀ q, q ∈ due ↔ q ∈ r.table.rows ∧ q.isActive = true ∧ q.nextPayment = some day
  ascending : due.Pairwise fun a b => a.id < b.id
  built : ∀ q ∈ due, q.entry.notice r.horizon.name = .ok
    ⟨some q.id, q.username, q.serviceName, q.price, day, r.horizon.name, q.userUid⟩

/-- The job of a round tries such messages. It ends without a failure, and the rows are as they
were. -/
structure Tries (p : Publisher) (r : Round) (messages : List Message) (d : Deployment) : Prop where
  scan : Tried messages ((r.meet d).sendings (Scan.job p r.day r.horizon))
    ((r.meet d).run (Scan.run p r.day r.horizon)).1
  ends : ((r.meet d).run (Scan.job p r.day r.horizon)).1 = .ok ()
  table : (r.after p d).store.table = r.table

theorem schema_afterAll (p : Publisher) (rounds : List Round) (d : Deployment) :
    (afterAll p rounds d).store.schema = d.store.schema := by
  induction rounds generalizing d with
  | nil => rfl
  | cons r rounds ih =>
    rw [afterAll, List.foldl_cons]
    apply (ih _).trans
    rw [after, Deployment.schema_run]
    rfl

theorem storePlan_afterAll (p : Publisher) (rounds : List Round) (d : Deployment) {o : Outcome}
    (h : o ∈ (afterAll p rounds d).storePlan) : o ∈ d.storePlan := by
  induction rounds generalizing d with
  | nil => exact h
  | cons r rounds ih => exact Deployment.storePlan_run _ (r.meet d) (ih _ h)

theorem exists_seeks {r : Round} (hlast : ∃ x, r.day < x) : ∃ day, r.Seeks day
    (r.table.select (Scan.FallsDue day)) := by
  obtain ⟨day, hday⟩ : ∃ day, r.horizon.target r.day = .ok day := by
    cases r.horizon with
    | dueTomorrow =>
      obtain ⟨x, hx⟩ := hlast
      exact Day.exists_next hx
    | dueToday => exact ⟨r.day, rfl⟩
  have hmem (q : Row) : q ∈ r.table.select (Scan.FallsDue day) ↔
      q ∈ r.table.rows ∧ q.isActive = true ∧ q.nextPayment = some day := by
    simp [Table.select, Scan.FallsDue]
  refine ⟨day, hday, hmem, r.table.ascending.filter _, ?_⟩
  intro q hq
  exact Scan.notice_of_due ((hmem q).mp hq).2.2 r.horizon

/-- What a scan tries to send is decided by its horizon, its day and the rows that it finds: one
message for each active row with a payment on the target day. No message of an earlier scan,
whatever has become of it, makes any difference. A scan gets past each message that the broker does
not take, and tells how many it has taken. It breaks off only where something else goes wrong, and
that does not leave the job. -/
theorem tries_due (s : Settings) (c : Connection) {r : Round} (hlast : ∃ x, r.day < x) :
    ∃ day due, r.Seeks day due ∧ ∀ (d : Deployment) (past : List Round),
      (d.store.schema = .plain ∨ d.store.schema = .checked) → (∀ o ∈ d.storePlan, o = .sound) →
        r.Tries (s.publisher c)
          (due.map (Scan.message (s.publisher c) r.horizon (s.queueOf r.horizon).routingKey day))
          (afterAll (s.publisher c) past d) := by
  obtain ⟨day, hseeks⟩ := exists_seeks hlast
  refine ⟨day, _, hseeks, ?_⟩
  intro d past hs hstore
  obtain ⟨hends, hsame, htable⟩ := Scan.job_spec (s.publisher c) r.day r.horizon
    (r.meet (afterAll (s.publisher c) past d))
  have hschema : (afterAll (s.publisher c) past d).store.schema = .plain ∨
      (afterAll (s.publisher c) past d).store.schema = .checked := by
    rw [schema_afterAll]
    exact hs
  refine ⟨?_, hends, htable⟩
  rw [hsame]
  exact Scan.tried_run (d := r.meet (afterAll (s.publisher c) past d))
    (s.routingKey?_publisher c r.horizon) hschema
    (fun o ho => hstore o (storePlan_afterAll _ _ _ ho)) hseeks.target

/-- Two payments that fall due tomorrow. -/
def eve : Round where
  horizon := .dueTomorrow
  day := Deployment.someDay 19 (by decide)
  table := (Table.empty.insert Deployment.someSubscription).insert Deployment.someSubscription

/-- A broker that does not take the first message, and crashes at the third. -/
def crashing : Deployment :=
  { Deployment.small (.remote .empty) with
    broker := { Broker.empty with plan := ⟨[("publish", [some .operation, none, some .crash])]⟩ } }

theorem tries_due_crashing : (∃ x, eve.day < x) ∧ ∃ day due, eve.Seeks day due ∧
    eve.Tries (Settings.standard.publisher 0)
      (due.map (Scan.message (Settings.standard.publisher 0) eve.horizon
        (Settings.standard.queueOf eve.horizon).routingKey day))
      (afterAll (Settings.standard.publisher 0) [eve] crashing) := by
  have hlast : ∃ x, eve.day < x := ⟨Deployment.someToday, by decide⟩
  obtain ⟨day, due, hseeks, htries⟩ := tries_due Settings.standard 0 hlast
  exact ⟨hlast, day, due, hseeks, htries crashing [eve] (.inl rfl) (by decide)⟩

end Round
end Renewals
