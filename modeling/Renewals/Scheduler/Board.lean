import Renewals.Subscription.Notice
/-! Jobs that a scheduler has on its board, and what became of it. -/
namespace Renewals

/-- When a job runs: at intervals, starting now, or every day at a full hour. -/
inductive Trigger
  | interval (seconds : Int)
  | daily (hour : Int)
  deriving DecidableEq, Repr

inductive JobTask
  | scan (h : Horizon)
  | rollover
  deriving DecidableEq, Repr

structure Job where
  task : JobTask
  trigger : Trigger
  deriving DecidableEq, Repr

def JobTask.id : JobTask → String
  | .scan h => "scan_" ++ h.name
  | .rollover => "payment_rollover"

inductive BoardEvent
  | started
  | stopped (wait : Bool)
  deriving DecidableEq, Repr

def BoardEvent.text : BoardEvent → String
  | .started => "start"
  | .stopped true => "shutdown wait=True"
  | .stopped false => "shutdown wait=False"

/-- The scheduler never keeps its process alive. -/
structure Board where
  running : Bool
  events : List BoardEvent
  jobs : List Job
  deriving DecidableEq, Repr

namespace Board

def empty : Board := ⟨false, [], []⟩

/-- A job replaces the job of the same id. -/
def addJob (j : Job) (b : Board) : Board :=
  { b with jobs := b.jobs.filter (·.task.id ≠ j.task.id) ++ [j] }

def start (b : Board) : Board := { b with running := true, events := b.events ++ [.started] }

def stop (wait : Bool) (b : Board) : Board :=
  if b.running then { b with running := false, events := b.events ++ [.stopped wait] } else b

/-- The hour of the first job that runs every day. -/
def dailyHour? (b : Board) : Option Nat :=
  b.jobs.findSome? fun j =>
    match j.trigger with
    | .daily hour => some hour.toNat
    | .interval _ => none

def job? (b : Board) (id : String) : Option Job := b.jobs.find? (·.task.id == id)

def describeJob (j : Job) : Json :=
  match j.task, j.trigger with
  | .scan h, .interval n =>
    .obj [("id", .str j.task.id), ("trigger", .str "interval"), ("has_next_run_time", .bool true),
      ("seconds", .int n), ("args", .arr [.str h.name]), ("max_instances", .int 1),
      ("coalesce", .bool true), ("replace_existing", .bool true)]
  | _, .daily hour =>
    .obj [("id", .str j.task.id), ("trigger", .str s!"cron[hour='{hour}', minute='0']"),
      ("has_next_run_time", .bool false), ("replace_existing", .bool true)]
  | .rollover, .interval n =>
    .obj [("id", .str j.task.id), ("trigger", .str "interval"), ("seconds", .int n)]

/-- The jobs by id, and the history. -/
def describe (b : Board) : Json :=
  let jobs := b.jobs.mergeSort fun a c => decide (a.task.id ≤ c.task.id)
  .obj [("running", .bool b.running), ("events", .arr (b.events.map fun e => .str e.text)),
    ("daemon", .bool true), ("jobs", .arr (jobs.map describeJob))]

end Board
end Renewals
