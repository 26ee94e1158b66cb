import Renewals.Proofs.Scheduler.Release
import Renewals.Proofs.Scheduler.Wiring
/-! Scans under way side by side, over the one channel that a start has set up. Whatever turns they
take, each message that the broker takes comes to the queue of its own horizon. -/
namespace Renewals

def Settings.queueOf (s : Settings) : Horizon → QueueConfig
  | .dueTomorrow => ⟨s.tomorrowQueue, s.tomorrowKey, .dueTomorrow⟩
  | .dueToday => ⟨s.todayQueue, s.todayKey, .dueToday⟩

theorem Settings.queues_eq (s : Settings) : s.queues = Horizon.all.map s.queueOf := rfl

theorem Settings.queueOf_mem (s : Settings) (h : Horizon) : s.queueOf h ∈ s.queues := by
  cases h <;> simp [queues_eq, Horizon.all]

theorem Settings.routingKey?_publisher (s : Settings) (c : Connection) (h : Horizon) :
    (s.publisher c).routingKey? h.name = some (s.queueOf h).routingKey := by
  cases h <;> rfl

/-- A message that the broker has taken. -/
def Answered.published? : Answered → Option Message
  | broker (.publish _ m) (.ok _) => some m
  | _ => none

namespace Scan
open Renewals.Task (Within)

/-- The calls of a scan: it reads the store, writes messages of its own horizon, and logs. -/
def Sends (s : Settings) (c : Connection) (h : Horizon) : Call → Prop
  | .ask _ | .log _ => True
  | .broker b => ∃ body, b = .publish c ⟨body, s.exchange, (s.queueOf h).routingKey⟩
  | _ => False

variable {s : Settings} {c : Connection} {h : Horizon}

theorem within_publish (message : Except EncodeFault Json) :
    Within (Sends s c h) ((s.publisher c).publish h.name message) := by
  unfold Publisher.publish
  rw [s.routingKey?_publisher]
  cases message with
  | error f => exact .throw _
  | ok v =>
    refine .bind (.perform ⟨v.text, rfl⟩) fun a => ?_
    cases a with
    | ok _ => exact .pure ()
    | error cause => exact .throw _

theorem within_publishAll (rows : List Row) :
    Within (Sends s c h) (publishAll (s.publisher c) h rows) := by
  induction rows with
  | nil => exact .pure 0
  | cons r rows ih =>
    refine .bind (.lift _ _) fun notice => .bind (.tryCatch ?_ fun f => ?_) fun n =>
      .bind ih fun _ => .pure _
    · exact .bind (within_publish _) fun _ => .pure 1
    · cases f with
      | broker f =>
        dsimp only
        split
        · exact .bind (.perform trivial) fun _ => .pure 0
        · exact .throw _
      | _ => exact .throw _

theorem within_job (today : Day) : Within (Sends s c h) (job (s.publisher c) today h) := by
  refine .tryCatch (.bind (.bind (.lift _ _) fun day => .bind (.perform trivial) fun a => ?_)
    fun _ => .pure ()) fun _ => .perform trivial
  cases a with
  | ok rows => exact within_publishAll rows
  | error f =>
    cases f with
    | unavailable => exact .bind (.perform trivial) fun _ => .pure 0
    | _ => exact .throw _

theorem routingKey_of_published {call : Call} (hs : Sends s c h call) {a : call.Answer}
    {m : Message} (hm : Answered.published? ⟨call, a⟩ = some m) :
    m.routingKey = (s.queueOf h).routingKey := by
  cases call with
  | broker b =>
    obtain ⟨body, rfl⟩ := hs
    cases a with
    | ok u =>
      obtain rfl := Option.some.inj hm
      rfl
    | error cause => cases hm
  | _ => cases hm

/-- A message that is taken comes to the end of the queue of its horizon. -/
theorem wired_answer (hkeys : s.tomorrowKey ≠ s.todayKey) {call : Call} (hs : Sends s c h call)
    {held : LooseText → List Message} {d : Deployment}
    (hd : d.broker.Wired c s.exchange s.queues held) :
    (Deployment.answer call d).2.broker.Wired c s.exchange s.queues fun name => held name ++
      if .whole (Broker.destination s.exchange (s.queueOf h)) = name then
        (Answered.published? ⟨call, (Deployment.answer call d).1⟩).toList else [] := by
  cases call with
  | broker b =>
    obtain ⟨body, rfl⟩ := hs
    rcases Broker.perform_publish_cases c ⟨body, s.exchange, (s.queueOf h).routingKey⟩ d.broker
      with ⟨hok, hw⟩ | ⟨cause, hfail, hw⟩
    · have hqueues : ∀ q ∈ s.queues, ∀ r ∈ s.queues, q.routingKey = r.routingKey → q = r := by
        simp [Settings.queues, hkeys, hkeys.symm]
      simp only [Deployment.answer, hok]
      exact (hd.deliver hqueues (s.queueOf_mem h) body).of_wires hw
    · simp only [Deployment.answer, hfail]
      simpa [Answered.published?] using hd.of_wires hw
  | ask | log =>
    simpa [Answered.published?] using hd.of_wires (Broker.wires_answer (by simp) d)
  | _ => exact hs.elim

end Scan

/-- Scans under way, each with its horizon, the deployment that they share, and the messages of
theirs that have been taken so far. -/
structure Shift where
  jobs : List (Horizon × Plan (Except Failure Unit))
  deployment : Deployment
  sent : List (Horizon × Message)

namespace Shift

/-- A scan begins or goes on, or anything else goes on that leaves the broker alone. -/
inductive Move
  | begins (h : Horizon) (today : Day)
  | turn (k : Nat)
  | elsewhere (d : Deployment)

/-- No scan has begun. -/
def fresh (d : Deployment) : Shift := ⟨[], d, []⟩

/-- One call of a scan. -/
def turn (x : Shift) (k : Nat) : Shift :=
  match x.jobs[k]? with
  | some (h, .call call next) =>
    let r := Deployment.answer call x.deployment
    { jobs := x.jobs.set k (h, next r.1)
      deployment := r.2
      sent := x.sent ++ (Answered.published? ⟨call, r.1⟩).toList.map (h, ·) }
  | _ => x

def move (p : Publisher) (x : Shift) : Move → Shift
  | .begins h today => { x with jobs := x.jobs ++ [(h, (Scan.job p today h).run)] }
  | .turn k => x.turn k
  | .elsewhere d => { x with deployment := { d with broker := x.deployment.broker } }

def play (p : Publisher) (x : Shift) (moves : List Move) : Shift := moves.foldl (move p) x

/-- What of all that was sent came to a queue. -/
def arrived (s : Settings) (sent : List (Horizon × Message)) (name : LooseText) : List Message :=
  (sent.filter fun y => .whole (Broker.destination s.exchange (s.queueOf y.1)) = name).map Prod.snd

theorem arrived_concat (s : Settings) (sent : List (Horizon × Message)) (h : Horizon)
    (o : Option Message) : arrived s (sent ++ o.toList.map (h, ·)) = fun name =>
      arrived s sent name ++
        if .whole (Broker.destination s.exchange (s.queueOf h)) = name then o.toList else [] := by
  funext name
  cases o with
  | none => simp [arrived]
  | some m =>
    by_cases hname : .whole (Broker.destination s.exchange (s.queueOf h)) = name <;>
      simp [arrived, hname]

/-- Scans that send what is their own, and queues that hold what was sent to them. -/
structure Routed (s : Settings) (c : Connection) (x : Shift) : Prop where
  jobs : ∀ j ∈ x.jobs, j.2.Within (Scan.Sends s c j.1)
  wired : x.deployment.broker.Wired c s.exchange s.queues (arrived s x.sent)
  keyed : ∀ y ∈ x.sent, y.2.routingKey = (s.queueOf y.1).routingKey

namespace Routed
variable {s : Settings} {c : Connection} {x : Shift}

theorem turn (hx : x.Routed s c) (hkeys : s.tomorrowKey ≠ s.todayKey) (k : Nat) :
    (x.turn k).Routed s c := by
  unfold Shift.turn
  split
  next h call next hk =>
    have hjob := hx.jobs _ (List.mem_of_getElem? hk)
    have hwired := Scan.wired_answer hkeys hjob.1 hx.wired
    refine ⟨fun j hj => ?_, ?_, fun y hy => ?_⟩
    · rcases List.mem_or_eq_of_mem_set hj with hj | rfl
      · exact hx.jobs j hj
      · exact hjob.2 _
    · dsimp only
      rw [arrived_concat]
      exact hwired
    · rcases List.mem_append.mp hy with hy | hy
      · exact hx.keyed y hy
      · obtain ⟨m, hm, rfl⟩ := List.mem_map.mp hy
        exact Scan.routingKey_of_published hjob.1 (Option.mem_toList.mp hm)
  next => exact hx

theorem move (hx : x.Routed s c) (hkeys : s.tomorrowKey ≠ s.todayKey) (m : Move) :
    (x.move (s.publisher c) m).Routed s c := by
  cases m with
  | begins h today =>
    refine ⟨fun j hj => ?_, hx.wired, hx.keyed⟩
    rcases List.mem_append.mp hj with hj | hj
    · exact hx.jobs j hj
    · obtain rfl := List.mem_singleton.mp hj
      exact Scan.within_job today
  | turn k => exact hx.turn hkeys k
  | elsewhere d => exact ⟨hx.jobs, hx.wired, hx.keyed⟩

theorem play (hx : x.Routed s c) (hkeys : s.tomorrowKey ≠ s.todayKey) (moves : List Move) :
    (x.play (s.publisher c) moves).Routed s c := by
  induction moves generalizing x with
  | nil => exact hx
  | cons m moves ih => exact ih (hx.move hkeys m)

end Routed

/-- On a broker that had no queue before a start, each of the two queues holds exactly the messages
of its own horizon that have been taken, in their order. Without an exchange it is the key of a
message that names its queue. -/
theorem messages_of_started {s : Settings} {d : Deployment} {p : ScanProcess}
    (hnames : s.tomorrowQueue ≠ s.todayQueue) (hkeys : s.tomorrowKey ≠ s.todayKey)
    (hbare : d.broker.Bare) (hstart : (d.run (ScanProcess.start s)).1 = .ok p)
    (moves : List Move) :
    let x := (fresh (d.run (ScanProcess.start s)).2).play p.publisher moves
    (s.exchange ≠ "" → ∀ h, x.deployment.broker.messages (.whole (s.queueOf h).name) =
        (x.sent.filter (·.1 = h)).map Prod.snd) ∧
      (s.exchange = "" → ∀ h, x.deployment.broker.messages (.whole (s.queueOf h).name) =
        (x.sent.map Prod.snd).filter (·.routingKey = (s.queueOf h).name)) := by
  intro x
  obtain ⟨c, hp, hwired⟩ := ScanProcess.wired_of_start hbare hstart
  have hfresh : (fresh (d.run (ScanProcess.start s)).2).Routed s c :=
    ⟨fun _ hj => absurd hj List.not_mem_nil, hwired, fun _ hy => absurd hy List.not_mem_nil⟩
  have hx : x.Routed s c := by
    have hplay := hfresh.play hkeys moves
    rwa [← hp] at hplay
  have hholds (h : Horizon) : x.deployment.broker.messages (.whole (s.queueOf h).name) =
      arrived s x.sent (.whole (s.queueOf h).name) := hx.wired.holds _
  have hname (h h' : Horizon) : (s.queueOf h').name = (s.queueOf h).name ↔ h' = h := by
    cases h <;> cases h' <;> simp [Settings.queueOf, hnames, hnames.symm]
  refine ⟨fun hnamed h => ?_, fun hnameless h => ?_⟩
  · rw [hholds]
    simp [arrived, Broker.destination, hnamed, hname]
  · -- what is sent for a horizon has the key of its queue
    rw [hholds, List.filter_map]
    simp only [arrived, Broker.destination, hnameless, if_true]
    congr 1
    refine List.filter_congr fun y hy => ?_
    simp [hx.keyed y hy]

/-- The broker does not take the second message. -/
def faltering : Deployment :=
  { Deployment.small (.remote .empty) with
    broker := { Broker.empty with plan := ⟨[("publish", [none, some .operation])]⟩ } }

/-- Three scans, of which the one that is first to begin is the last to publish. -/
def threeScans (yesterday today : Day) : List Move :=
  [.begins .dueTomorrow yesterday, .begins .dueToday today, .begins .dueTomorrow yesterday,
    .turn 0, .turn 1, .turn 2, .turn 1, .turn 2, .turn 0]

theorem messages_of_three_scans :
    let s := Settings.standard
    let x := (fresh (faltering.run (ScanProcess.start s)).2).play (s.publisher 0)
      (threeScans (Deployment.someDay 19 (by decide)) (Deployment.someDay 20 (by decide)))
    (s.tomorrowQueue ≠ s.todayQueue ∧ s.tomorrowKey ≠ s.todayKey ∧ faltering.broker.Bare ∧
      (faltering.run (ScanProcess.start s)).1 = .ok (ScanProcess.ready s 0)) ∧
      x.sent.map Prod.fst = [.dueToday, .dueTomorrow] ∧
      ∀ h, x.deployment.broker.messages (.whole (s.queueOf h).name) =
        (x.sent.filter (·.1 = h)).map Prod.snd := by
  have hbare : faltering.broker.Bare := ⟨rfl, rfl⟩
  have hstart : (faltering.run (ScanProcess.start Settings.standard)).1 =
      .ok (ScanProcess.ready Settings.standard 0) := rfl
  refine ⟨⟨by decide, by decide, hbare, hstart⟩, by decide, ?_⟩
  exact (messages_of_started (by decide) (by decide) hbare hstart _).1 (by decide)

/-- Without an exchange nothing comes to the queues, as the keys are not their names. -/
theorem lost_without_exchange :
    let s := ScanProcess.nameless
    let d := Deployment.small (.remote .empty)
    let x := (fresh (d.run (ScanProcess.start s)).2).play (s.publisher 0)
      [.begins .dueToday (Deployment.someDay 20 (by decide)), .turn 0, .turn 0]
    (s.tomorrowQueue ≠ s.todayQueue ∧ s.tomorrowKey ≠ s.todayKey ∧ d.broker.Bare ∧
      (d.run (ScanProcess.start s)).1 = .ok (ScanProcess.ready s 0)) ∧
      x.sent.map Prod.fst = [.dueToday] ∧
      x.deployment.broker.messages (.whole (s.queueOf .dueToday).name) = [] ∧
      ¬∀ h, x.deployment.broker.messages (.whole (s.queueOf h).name) =
        (x.sent.filter (·.1 = h)).map Prod.snd := by
  refine ⟨⟨by decide, by decide, ⟨rfl, rfl⟩, rfl⟩, by decide, by decide, fun hall => ?_⟩
  have htoday := hall .dueToday
  revert htoday
  decide

end Shift
end Renewals
