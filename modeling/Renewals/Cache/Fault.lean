import Renewals.Json.Reader
import Renewals.Subscription.Payload
/-! How a cache can fail, as opposed to holding nothing. -/
namespace Renewals

/-- Why a value has no written form. Whoever has the value says so: a number of more than 4300
digits and a value nested too deep have a written form here, unless such a fault is handed in for
them. -/
inductive EncodeFault
  | foreign
  | circular
  deriving DecidableEq, Repr

def EncodeFault.message : EncodeFault → String
  | .foreign => "Object of type set is not JSON serializable"
  | .circular => "Circular reference detected"

/-- Why a cached text gives no value. -/
inductive ReadFault
  | text (f : Json.Fault)
  | value (f : DecodeFault)
  deriving DecidableEq, Repr

def ReadFault.message : ReadFault → String
  | .text f => f.message
  | .value f => f.message

/-- Readers of a cache know about malformed texts, not about one that is nested too deep. -/
def ReadFault.isHandled : ReadFault → Bool
  | .text (.tooDeep _) => false
  | .text _ => true
  | .value f => f.isHandled

inductive CacheCause
  | connection
  | timeout
  | expiry
  | encode (f : EncodeFault)
  deriving DecidableEq, Repr

def CacheCause.message : CacheCause → String
  | .connection => "redis down"
  | .timeout => "redis timeout"
  | .expiry => "invalid expire time in 'set' command"
  | .encode f => f.message

inductive CacheFault
  | unavailable (call : String) (cause : CacheCause)
  | undecodable (key : LooseText) (cause : ReadFault)
  | unreadable (cause : ReadFault)
  | crash
  | tooLarge
  | tooLong
  deriving DecidableEq, Repr

def CacheFault.message : CacheFault → LooseText
  | .unavailable call c => s!"cache.{call}: {c.message}"
  | .undecodable key c =>
    (key.append "cache.get: undecodable value for ").followedBy s!": {c.message}"
  | .unreadable c => c.message
  | .crash => "redis crash"
  | .tooLarge => "value too large"
  | .tooLong => "int too large to convert to float"

/-- Failures that the callers of a cache know about. -/
def CacheFault.isUnavailable : CacheFault → Bool
  | .unavailable .. | .undecodable .. => true
  | _ => false

end Renewals
