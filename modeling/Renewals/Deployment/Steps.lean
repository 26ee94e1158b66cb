import Renewals.Deployment.Basic
/-! What can be done with a deployment beside single calls: its parts started, used and stopped. -/
namespace Renewals.Deployment

/-- An own connection and publisher, without attempts and without a scan process. Whatever was
there before is given up. -/
def startPublisher (d : Deployment) : Except Failure Unit × Deployment :=
  let task : Task Publisher := do
    let c : Connection ← Task.perform (.openConnection d.settings.brokerUrl)
    Broker.setUpChannel c d.settings.exchange d.settings.queues
    pure (d.settings.publisher c)
  match d.run task with
  | (.ok p, d) => (.ok (), { d with publisher := some p })
  | (.error f, d) => (.error f, { d with publisher := none })

def startProcess (d : Deployment) : Except Failure ScanProcess × Deployment :=
  match d.run (ScanProcess.start d.settings) with
  | (.ok p, d) => (.ok p, { d with process := some p })
  | (.error f, d) => (.error f, { d with process := none })

def launchProcess (p : ScanProcess) (d : Deployment) : Deployment :=
  { d with process := some p.launch }

/-- The scheduler stops even if the publisher cannot be closed. -/
def shutDownProcess (p : ScanProcess) (d : Deployment) : Except Failure Unit × Deployment :=
  { d with process := some p.halt }.run p.publisher.close

/-- Launched and, as the end has been asked for already, shut down. -/
def runProcess (p : ScanProcess) (d : Deployment) : Except Failure Unit × Deployment :=
  shutDownProcess p.launch (d.launchProcess p)

def runJob (p : ScanProcess) (j : Job) (d : Deployment) : Except Failure Unit × Deployment :=
  match j.task with
  | .scan h => d.run (Scan.job p.publisher d.today h)
  | .rollover => d.run (Maintenance.job d.policy d.today)

/-- A new board takes the place of the one before, which nobody stops. -/
def startMaintenance (d : Deployment) : Except Daily.Fault Board × Deployment :=
  match Maintenance.board d.settings with
  | .ok b => (.ok b, { d with maintenance := some b, serving := d.serving.disown })
  | .error f => (.error f, d)

def stopMaintenance (b : Board) (d : Deployment) : Deployment :=
  { d with maintenance := some (b.stop false) }

/-- The service comes up with its own maintenance or with none. -/
def startService (d : Deployment) : Except Daily.Fault (Option Board) × Deployment :=
  let d := { d with maintenance := none }
  if d.settings.rolloverEnabled then
    match d.startMaintenance with
    | (.ok b, d) => (.ok (some b), { d with serving := .up true })
    | (.error f, d) => (.error f, d)
  else (.ok none, { d with serving := .up false })

/-- The maintenance of the service stops, then the cache is closed. The board that is left is the
last one that was started. -/
def stopService (d : Deployment) : Except Failure (Option Board) × Deployment :=
  let own := if d.serving = .up true then d.maintenance else none
  let d := { d with serving := .down }
  let d := match own with
    | some b => d.stopMaintenance b
    | none => d
  let r := d.run Task.closeCache
  (r.1.map fun _ => r.2.maintenance, r.2)

end Renewals.Deployment
