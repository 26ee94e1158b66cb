import Renewals.Broker.Basic
import Renewals.Json.Printer
import Renewals.Task.Basic
/-! Connecting to the broker, declaring its exchange and queues, and publishing notices. -/
namespace Renewals

/-- The queue of a horizon. -/
structure QueueConfig where
  name : String
  routingKey : String
  horizon : Horizon
  deriving DecidableEq, Repr

namespace Broker

/-- Attempts from number `attempt` on, `left` of them. -/
def connectFrom (url : String) (attempts : Int) (pause : Seconds) :
    Nat → Nat → Option BrokerCause → Task Connection
  | 0, _, last => throw (.broker (.unreachable attempts last))
  | left + 1, attempt, _ => do
    let c : Connection ← Task.perform (.openConnection url)
    match ← Task.call? (.connect c) with
    | .ok _ => pure c
    | .error cause =>
      if cause.isBroker then do
        Task.log .warning
          s!"broker connection attempt {attempt}/{attempts} failed: {cause.message}"
        Task.call (.release c)
        if left ≠ 0 then Task.sleep pause
        connectFrom url attempts pause left (attempt + 1) (some cause)
      else throw (.broker (.raw cause))

/-- So many attempts, with a pause between two of them. -/
def connect (url : String) (attempts : Int) (pause : Seconds) : Task Connection :=
  connectFrom url attempts pause attempts.toNat 1 none

def exchangeCalls (c : Connection) (exchange : String) : List BrokerCall :=
  if isDeclarable exchange then [.declareExchange c exchange] else []

/-- The exchange comes first, and again before each queue. -/
def topologyCalls (c : Connection) (exchange : String) (queues : List QueueConfig) :
    List BrokerCall :=
  exchangeCalls c exchange ++
    queues.flatMap fun q =>
      exchangeCalls c exchange ++ .declareQueue c q.name ::
        (if exchange = "" then [] else [.bindQueue c q.name exchange q.routingKey])

/-- Calls in turn up to the first that fails. -/
def callAll : List BrokerCall → Task (Except BrokerCause Unit)
  | [] => pure (.ok ())
  | b :: bs => do
    match ← Task.call? b with
    | .ok _ => callAll bs
    | .error cause => pure (.error cause)

/-- A failure of the broker while tidying up is logged and no more. -/
def attemptQuietly (what : String) (b : BrokerCall) : Task Unit := do
  match ← Task.call? b with
  | .ok _ => pure ()
  | .error cause =>
    if cause.isBroker then Task.log .error what else throw (.broker (.raw cause))

/-- A channel with the exchange and the bound queues declared on it. If declaring fails the channel
is closed again, while the connection stays with the caller. -/
def setUpChannel (c : Connection) (exchange : String) (queues : List QueueConfig) : Task Unit := do
  match ← Task.call? (.channel c) with
  | .error cause => throw (.broker (if cause.isBroker then .noChannel cause else .raw cause))
  | .ok _ =>
    match ← callAll (topologyCalls c exchange queues) with
    | .ok _ => pure ()
    | .error cause =>
      if cause.isBroker then do
        attemptQuietly "failed to close channel" (.closeChannel c)
        throw (.broker (.noTopology cause))
      else throw (.broker (.raw cause))

end Broker

/-- Publishes over the channel of one connection, and owns both. -/
structure Publisher where
  connection : Connection
  exchange : String
  queues : List QueueConfig
  deriving DecidableEq, Repr

namespace Publisher

def routingKey? (p : Publisher) (horizon : LooseText) : Option String :=
  (p.queues.find? fun q => .whole q.horizon.name == horizon).map (·.routingKey)

/-- One message under the routing key of its horizon. -/
def publish (p : Publisher) (horizon : LooseText) (message : Except EncodeFault Json) : Task Unit :=
  match p.routingKey? horizon with
  | none => throw (.broker (.noRoute horizon))
  | some key =>
    match message with
    | .error f => throw (.broker (.unpublished key (.encode f)))
    | .ok v => do
      match ← Task.call? (.publish p.connection ⟨v.text, p.exchange, key⟩) with
      | .ok _ => pure ()
      | .error cause =>
        throw (.broker (if cause.isBroker then .unpublished key (.broker cause) else .raw cause))

/-- The channel, then the connection. -/
def close (p : Publisher) : Task Unit := do
  Broker.attemptQuietly "failed to close channel" (.closeChannel p.connection)
  Broker.attemptQuietly "failed to close connection" (.release p.connection)

end Publisher
end Renewals
