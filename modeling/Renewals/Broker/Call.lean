import Renewals.Cache.Fault
/-! What is asked of the message broker, and how it can fail. -/
namespace Renewals

/-- A pause, written as it was given: whole seconds or with a fraction. -/
inductive Seconds
  | whole (n : Int)
  | real (x : Binary64)
  deriving DecidableEq, Repr

def Seconds.binary? : Seconds → Option Binary64
  | whole n => Binary64.ofInt? n
  | real x => some x

/-- Connections are numbered as they are opened; each has at most one channel. -/
abbrev Connection := Nat

/-- A structured value in its written form, on its way to the queues of a routing key. -/
structure Message where
  body : String
  exchange : String
  routingKey : String
  deriving DecidableEq, Repr

def Message.contentType : String := "application/json"
def Message.contentEncoding : String := "utf-8"

/-- A message outlives a restart of the broker. -/
def Message.deliveryMode : Nat := 2

/-- A message reaches the queues that are bound with its own key. -/
def exchangeKind : String := "direct"

/-- Exchanges and queues outlive a restart of the broker. -/
def durable : Bool := true

inductive BrokerCall
  | connect (c : Connection)
  | release (c : Connection)
  | channel (c : Connection)
  | declareExchange (c : Connection) (name : String)
  | declareQueue (c : Connection) (name : String)
  | bindQueue (c : Connection) (queue exchange routingKey : String)
  | publish (c : Connection) (m : Message)
  | closeChannel (c : Connection)
  deriving DecidableEq, Repr

def BrokerCall.connection : BrokerCall → Connection
  | .connect c | .release c | .channel c | .declareExchange c _ | .declareQueue c _
  | .bindQueue c .. | .publish c _ | .closeChannel c => c

/-- Failures of the broker, and of callers that use what they have closed or released, or bind a
queue to an exchange that nobody has declared. -/
inductive BrokerCause
  | io
  | operation
  | channel
  | crash
  | closed
  | released
  | undeclared (exchange : String)
  deriving DecidableEq, Repr

def BrokerCause.message : BrokerCause → String
  | .io => "broker io"
  | .operation => "broker op"
  | .channel => "broker channel"
  | .crash => "broker crash"
  | .closed => "channel disconnected"
  | .released => "'NoneType' object has no attribute 'declared_entities'"
  | .undeclared exchange => Text.quoted exchange

/-- Failures that callers know about. -/
def BrokerCause.isBroker : BrokerCause → Bool
  | .crash | .released | .undeclared _ => false
  | .io | .operation | .channel | .closed => true

inductive PublishCause
  | broker (c : BrokerCause)
  | encode (f : EncodeFault)
  deriving DecidableEq, Repr

def PublishCause.message : PublishCause → String
  | .broker c => c.message
  | .encode f => f.message

inductive BrokerFault
  | unreachable (attempts : Int) (last : Option BrokerCause)
  | noChannel (c : BrokerCause)
  | noTopology (c : BrokerCause)
  | unpublished (routingKey : String) (c : PublishCause)
  | noRoute (horizon : LooseText)
  | raw (c : BrokerCause)
  deriving DecidableEq, Repr

def BrokerFault.message : BrokerFault → String
  | .unreachable n _ => s!"broker unreachable after {n} attempts"
  | .noChannel c => s!"failed to open channel: {c.message}"
  | .noTopology c => s!"failed to declare queues: {c.message}"
  | .unpublished key c => s!"publish to {key} failed: {c.message}"
  | .noRoute h => s!"no queue configured for horizon {h.quoted}"
  | .raw c => c.message

/-- The broker could not be made ready. -/
def BrokerFault.isUnavailable : BrokerFault → Bool
  | .unreachable .. | .noChannel _ | .noTopology _ => true
  | _ => false

/-- One message was not published. -/
def BrokerFault.isUnpublished : BrokerFault → Bool
  | .unpublished .. | .noRoute _ => true
  | _ => false

end Renewals
