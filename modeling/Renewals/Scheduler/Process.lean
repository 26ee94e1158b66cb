import Renewals.Scheduler.Board
import Renewals.Scheduler.Daily
import Renewals.Scheduler.Scan
import Renewals.Settings.Basic
/-! The scan process: connect, provide the queues, wait for the store, scan, and drain. -/
namespace Renewals

structure ScanProcess where
  publisher : Publisher
  intervals : List (Horizon × Int)
  board : Board
  deriving DecidableEq, Repr

namespace ScanProcess

/-- The connection is given back if its channel cannot be set up. -/
def provide (s : Settings) (c : Connection) : Task Publisher := do
  tryCatch (Broker.setUpChannel c s.exchange s.queues) fun
    | .broker f => do
      if f.isUnavailable then
        Broker.attemptQuietly "failed to close connection" (.release c)
      throw (.broker f)
    | f => throw f
  pure (s.publisher c)

/-- Channel and connection are given back if the store does not answer. -/
def awaitStore (s : Settings) (p : Publisher) : Task Unit :=
  tryCatch (Store.await s.readyRetries (.real s.readyPause)) fun
    | .notReady n last => do
      p.close
      throw (.notReady n last)
    | f => throw f

def start (s : Settings) : Task ScanProcess := do
  let c ← Broker.connect s.brokerUrl s.brokerRetries (.real s.brokerPause)
  let p ← provide s c
  awaitStore s p
  pure ⟨p, [(.dueTomorrow, s.tomorrowInterval), (.dueToday, s.todayInterval)], .empty⟩

/-- One job per horizon. -/
def launch (p : ScanProcess) : ScanProcess :=
  { p with
    board := (p.intervals.foldl
      (fun b i => b.addJob ⟨.scan i.1, .interval i.2⟩) p.board).start }

/-- No scan begins any more; running ones end first. -/
def halt (p : ScanProcess) : ScanProcess := { p with board := p.board.stop true }

end ScanProcess

namespace Maintenance

/-- The daily move of payment dates inside the service. -/
def board (s : Settings) : Except Daily.Fault Board := do
  let _ ← Daily.checkHour s.rolloverHour
  pure (Board.empty.addJob ⟨.rollover, .daily s.rolloverHour⟩).start

/-- No failure leaves the job. -/
def job (p : Policy) (today : Day) : Task Unit :=
  tryCatch (do let _ ← Service.rollover p today) fun _ =>
    Task.log .error "Payment date rollover job failed"

end Maintenance
end Renewals
