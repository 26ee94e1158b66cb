import Renewals.Broker.Call
import Renewals.Store.Query
import Renewals.Subscription.Notice
/-! All ways in which a task can fail. -/
namespace Renewals

inductive Failure
  | term (f : TermFault)
  | date (f : Day.Fault)
  | store (f : StoreFault)
  | cache (f : CacheFault)
  | broker (f : BrokerFault)
  | horizon (f : Horizon.Fault)
  | notice (f : NoticeFault)
  | notReady (attempts : Int) (last : Option StoreFault)
  deriving DecidableEq, Repr

def Failure.message : Failure → LooseText
  | .term f => f.message
  | .date f => f.message
  | .store f => f.message
  | .cache f => f.message
  | .broker f => f.message
  | .horizon f => f.message
  | .notice f => f.message
  | .notReady n _ => s!"database not ready after {n} attempts"

end Renewals
