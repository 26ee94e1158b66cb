import Renewals.Broker.Call
/-! A broker with direct exchanges: a message goes to the queues bound with its own routing key. -/
namespace Renewals

structure Binding where
  exchange : String
  routingKey : String
  queue : String
  deriving DecidableEq, Repr

structure Queue where
  name : String
  messages : List Message
  deriving DecidableEq, Repr

/-- What happens to connections, in order, seen from outside. -/
inductive BrokerEvent
  | opened (c : Connection) (url : String)
  | called (call : BrokerCall)
  | slept (pause : Seconds)
  deriving DecidableEq, Repr

/-- How the coming calls of each kind go; a call without a plan succeeds. -/
structure BrokerPlan where
  coming : List (String × List (Option BrokerCause))
  deriving Repr

namespace BrokerPlan

def kind : BrokerCall → String
  | .connect _ => "connect"
  | .release _ => "release"
  | .channel _ => "channel"
  | .declareExchange .. => "exchange_declare"
  | .declareQueue .. => "queue_declare"
  | .bindQueue .. => "queue_bind"
  | .publish .. => "publish"
  | .closeChannel _ => "channel_close"

/-- The outcome of the next call of a kind, and the plan behind it. -/
def take (name : String) (p : BrokerPlan) : Option BrokerCause × BrokerPlan :=
  match p.coming.find? (·.1 == name) with
  | some (_, o :: _) =>
    (o, ⟨p.coming.map fun x => if x.1 = name then (x.1, x.2.tail) else x⟩)
  | _ => (none, p)

end BrokerPlan

/-- A channel that could not be closed with its connection is open still, but the connection does
not know it any more. -/
inductive ChannelState
  | known
  | stray
  | closed
  deriving DecidableEq, Repr

structure Broker where
  connections : Nat
  channels : List (Connection × ChannelState)
  released : List Connection
  bindings : List Binding
  queues : List Queue
  plan : BrokerPlan
  trace : List BrokerEvent

namespace Broker

def empty : Broker := ⟨0, [], [], [], [], ⟨[]⟩, []⟩

def record (e : BrokerEvent) (b : Broker) : Broker := { b with trace := b.trace ++ [e] }

def addQueue (name : String) (qs : List Queue) : List Queue :=
  if qs.any (·.name == name) then qs else qs ++ [⟨name, []⟩]

def push (m : Message) (name : String) (qs : List Queue) : List Queue :=
  (addQueue name qs).map fun q =>
    if q.name = name then { q with messages := q.messages ++ [m] } else q

/-- Exchanges without a name or with a reserved one are never declared. Reserved names begin with
"amq." and are passed over, as a virtual transport does it, which has no exchanges of its own under
them. A broker that has some is not what is assumed of a broker here. -/
def isDeclarable (exchange : String) : Bool :=
  exchange ≠ "" && !"amq.".toList.isPrefixOf exchange.toList

/-- The queues that a message reaches. Without an exchange the routing key names the queue, and an
exchange that is not declared reaches none. -/
def targets (b : Broker) (m : Message) : List String :=
  if m.exchange = "" then [m.routingKey]
  else if !isDeclarable m.exchange then []
  else ((b.bindings.filter fun x =>
    x.exchange == m.exchange && x.routingKey == m.routingKey).map (·.queue)).eraseDups

def bind (x : Binding) (b : Broker) : Broker :=
  if x ∈ b.bindings then b else { b with bindings := b.bindings ++ [x] }

def channel? (c : Connection) (b : Broker) : Option ChannelState := b.channels.lookup c

def setChannel (c : Connection) (s : ChannelState) (b : Broker) : Broker :=
  { b with channels := (c, s) :: b.channels.filter (·.1 != c) }

/-- What is published on a closed channel is lost. -/
def deliver (c : Connection) (m : Message) (b : Broker) : Broker :=
  if b.channel? c = some .closed then b
  else { b with queues := (b.targets m).foldl (fun qs n => push m n qs) b.queues }

/-- The effect of a call that the broker takes. -/
def effect : BrokerCall → Broker → Broker
  | .channel c, b => b.setChannel c .known
  | .declareQueue _ name, b => { b with queues := addQueue name b.queues }
  | .bindQueue _ queue exchange key, b => b.bind ⟨exchange, key, queue⟩
  | .publish c m, b => b.deliver c m
  | .closeChannel c, b => b.setChannel c .closed
  | .connect _, b | .release _, b | .declareExchange .., b => b

/-- A new binding to an exchange that is not declared is kept, and an error all the same. For
reserved names this again is the rule of a virtual transport. -/
def misuse? : BrokerCall → Broker → Option BrokerCause
  | .bindQueue _ queue exchange key, b =>
    if isDeclarable exchange ∨ (⟨exchange, key, queue⟩ : Binding) ∈ b.bindings then none
    else some (.undeclared exchange)
  | _, _ => none

/-- A call is on record before it fails, and a call that is to fail has no effect. -/
def attempt (call : BrokerCall) (b : Broker) : Except BrokerCause Unit × Broker :=
  let b := b.record (.called call)
  let (o, plan) := b.plan.take (BrokerPlan.kind call)
  let b := { b with plan }
  match o with
  | some cause => (.error cause, b)
  | none =>
    match misuse? call b with
    | some cause => (.error cause, effect call b)
    | none => (.ok (), effect call b)

def release (c : Connection) (b : Broker) : Broker := { b with released := c :: b.released }

/-- A released connection closes the channel that it knows. An input or output error on the way
does not count; any other leaves the connection as it is. -/
def closeKnown (c : Connection) (b : Broker) : Except BrokerCause Unit × Broker :=
  if b.channel? c = some .known then
    match attempt (.closeChannel c) (b.setChannel c .stray) with
    | (.ok _, b) => (.ok (), b.release c)
    | (.error cause, b) => if cause = .io then (.ok (), b.release c) else (.error cause, b)
  else (.ok (), b.release c)

/-- Publishing to an exchange needs a channel that is open and a connection that is held. -/
def refusal? (c : Connection) (m : Message) (b : Broker) : Option BrokerCause :=
  if m.exchange = "" then none
  else if b.channel? c = some .closed then some .closed
  else if c ∈ b.released then some .released
  else none

def perform (call : BrokerCall) (b : Broker) : Except BrokerCause Unit × Broker :=
  match call with
  | .release c =>
    match attempt call b with
    | (.ok _, b) => b.closeKnown c
    | r => r
  | .publish c m =>
    match b.refusal? c m with
    | some cause => (.error cause, b)
    | none => attempt call b
  | call => attempt call b

/-- A new connection object, not connected yet. -/
def openConnection (url : String) (b : Broker) : Connection × Broker :=
  (b.connections, { b.record (.opened b.connections url) with connections := b.connections + 1 })

def messages (b : Broker) (name : LooseText) : List Message :=
  (b.queues.filter (.whole ·.name == name)).flatMap (·.messages)

/-- The messages of a queue, the oldest first, and the broker without them. -/
def drain (name : LooseText) (b : Broker) : List Message × Broker :=
  let emptied (q : Queue) : Queue := if .whole q.name = name then { q with messages := [] } else q
  (b.messages name, { b with queues := b.queues.map emptied })

end Broker

end Renewals
