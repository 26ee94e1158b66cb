import Renewals.Proofs.Broker.Queues
/-! Queues that have been set up. Each is bound with its own key, so that a message under the key
comes to the end of that queue, and to no other. -/
namespace Renewals
namespace Broker
variable {b b' : Broker}

/-! Without a queue -/

/-- No binding and no queue. -/
structure Bare (b : Broker) : Prop where
  bindings : b.bindings = []
  queues : b.queues = []

theorem Bare.of_wires (h : b.Bare) (hw : b'.wires = b.wires) : b'.Bare :=
  ⟨(bindings_of_wires hw).trans h.bindings, (queues_of_wires hw).trans h.queues⟩

theorem Bare.attempt (h : b.Bare) {call : BrokerCall} (he : (effect call b).Bare) :
    (attempt call b).2.Bare := by
  rcases attempt_cases call b with ⟨-, -, hw⟩ | ⟨-, -, hw | ⟨-, hw⟩⟩
  · exact he.of_wires hw
  · exact h.of_wires hw
  · exact he.of_wires hw

/-- Connections come and go without a trace in bindings and queues. -/
theorem Bare.connect (h : b.Bare) (c : Connection) : (b.perform (.connect c)).2.Bare :=
  h.attempt h

theorem Bare.release (h : b.Bare) (c : Connection) : (b.perform (.release c)).2.Bare := by
  have hattempt : (Broker.attempt (.release c) b).2.Bare := h.attempt h
  have hclose {b : Broker} (h : b.Bare) : (b.closeKnown c).2.Bare := by
    have hclosed : (Broker.attempt (.closeChannel c) (b.setChannel c .stray)).2.Bare :=
      Bare.attempt (b := b.setChannel c .stray) ⟨h.bindings, h.queues⟩ ⟨h.bindings, h.queues⟩
    unfold closeKnown
    split
    · generalize Broker.attempt (.closeChannel c) (b.setChannel c .stray) = r at hclosed ⊢
      obtain ⟨cause | u, b'⟩ := r
      · dsimp only
        split <;> exact ⟨hclosed.bindings, hclosed.queues⟩
      · exact ⟨hclosed.bindings, hclosed.queues⟩
    · exact ⟨h.bindings, h.queues⟩
  unfold perform
  generalize Broker.attempt (.release c) b = r at hattempt ⊢
  obtain ⟨cause | u, b'⟩ := r
  · exact hattempt
  · exact hclose hattempt

/-! With queues -/

/-- The queue that a message of a horizon comes to. Without an exchange its key names the queue. -/
def destination (exchange : String) (q : QueueConfig) : String :=
  if exchange = "" then q.routingKey else q.name

/-- Queues as they have been set up over the channel of a connection, and what lies in them. -/
structure Wired (c : Connection) (exchange : String) (queues : List QueueConfig)
    (held : LooseText → List Message) (b : Broker) : Prop where
  channel : b.channel? c ≠ some .closed
  bound : exchange ≠ "" → ∀ q ∈ queues, ⟨exchange, q.routingKey, q.name⟩ ∈ b.bindings
  only : ∀ x ∈ b.bindings, isDeclarable x.exchange = true ∧
    ∃ q ∈ queues, x = ⟨exchange, q.routingKey, q.name⟩
  distinct : Distinct b.queues
  holds : ∀ name, contents b.queues name = held name

namespace Wired
variable {c : Connection} {exchange : String} {queues : List QueueConfig}
  {held : LooseText → List Message}

theorem of_wires (h : b.Wired c exchange queues held) (hw : b'.wires = b.wires) :
    b'.Wired c exchange queues held := by
  obtain ⟨hchannel, hbound, honly, hdistinct, hholds⟩ := h
  rw [← channel?_of_wires hw] at hchannel
  rw [← bindings_of_wires hw] at hbound honly
  rw [← queues_of_wires hw] at hdistinct hholds
  exact ⟨hchannel, hbound, honly, hdistinct, hholds⟩

theorem targets_eq (h : b.Wired c exchange queues held)
    (hkeys : ∀ q ∈ queues, ∀ r ∈ queues, q.routingKey = r.routingKey → q = r) {q : QueueConfig}
    (hq : q ∈ queues) (body : String) :
    b.targets ⟨body, exchange, q.routingKey⟩ = [destination exchange q] := by
  unfold targets destination
  by_cases hx : exchange = ""
  · simp only [hx, if_true]
  · -- every binding under this key is that of the queue itself
    have hbound := h.bound hx q hq
    simp only [hx, (h.only _ hbound).1, if_false, Bool.not_true, Bool.false_eq_true]
    refine eraseDups_eq_singleton ?_ fun name hname => ?_
    · exact List.mem_map.mpr ⟨_, List.mem_filter.mpr ⟨hbound, by simp⟩, rfl⟩
    · obtain ⟨x, hmem, rfl⟩ := List.mem_map.mp hname
      obtain ⟨hmem, hkey⟩ := List.mem_filter.mp hmem
      obtain ⟨r, hr, rfl⟩ := (h.only x hmem).2
      have hsame : r.routingKey = q.routingKey := by simpa using hkey
      rw [hkeys r hr q hq hsame]

theorem deliver (h : b.Wired c exchange queues held)
    (hkeys : ∀ q ∈ queues, ∀ r ∈ queues, q.routingKey = r.routingKey → q = r) {q : QueueConfig}
    (hq : q ∈ queues) (body : String) :
    (b.deliver c ⟨body, exchange, q.routingKey⟩).Wired c exchange queues fun name =>
      held name ++ if .whole (destination exchange q) = name then
        [⟨body, exchange, q.routingKey⟩] else [] := by
  have hdeliver : b.deliver c ⟨body, exchange, q.routingKey⟩ =
      { b with
        queues := push ⟨body, exchange, q.routingKey⟩ (destination exchange q) b.queues } := by
    rw [Broker.deliver, if_neg h.channel, h.targets_eq hkeys hq]
    rfl
  rw [hdeliver]
  refine ⟨h.channel, h.bound, h.only, h.distinct.push _ _, fun name => ?_⟩
  rw [h.distinct.contents_push, h.holds]

end Wired

/-! Setting up -/

/-- What is asked of the broker for one queue. -/
def queueCalls (c : Connection) (exchange : String) (q : QueueConfig) : List BrokerCall :=
  exchangeCalls c exchange ++ .declareQueue c q.name ::
    (if exchange = "" then [] else [.bindQueue c q.name exchange q.routingKey])

theorem topologyCalls_eq (c : Connection) (exchange : String) (queues : List QueueConfig) :
    topologyCalls c exchange queues =
      exchangeCalls c exchange ++ queues.flatMap (queueCalls c exchange) := rfl

/-- The calls go through in turn, and lead from one broker to the other. -/
inductive Takes : Broker → List BrokerCall → Broker → Prop
  | nil (b : Broker) : Takes b [] b
  | cons {b b' : Broker} {call : BrokerCall} {calls : List BrokerCall}
    (h : (b.perform call).1 = .ok ()) (rest : Takes (b.perform call).2 calls b') :
    Takes b (call :: calls) b'

theorem Takes.append {early late : List BrokerCall} (h : b.Takes (early ++ late) b') :
    ∃ middle, b.Takes early middle ∧ middle.Takes late b' := by
  induction early generalizing b with
  | nil => exact ⟨b, .nil b, h⟩
  | cons call early ih =>
    cases h with
    | cons hok rest =>
      obtain ⟨middle, hearly, hlate⟩ := ih rest
      exact ⟨middle, .cons hok hearly, hlate⟩

/-- An exchange takes no part in where messages go before a queue is bound to it. -/
theorem Takes.wires_eq {c : Connection} {exchange : String}
    (h : b.Takes (exchangeCalls c exchange) b') : b'.wires = b.wires := by
  unfold exchangeCalls at h
  split at h
  · cases h with
    | cons hok rest =>
      cases rest
      exact (attempt_ok hok).2
  · cases h
    rfl

/-- A binding that is taken is to an exchange that was declared, or was there before. -/
theorem declarable_or_bound {c : Connection} {queue exchange key : String}
    (h : misuse? (.bindQueue c queue exchange key) b = none) :
    isDeclarable exchange = true ∨ ⟨exchange, key, queue⟩ ∈ b.bindings := by
  by_contra hneither
  rw [misuse?, if_neg hneither] at h
  cases h

namespace Wired
variable {c : Connection} {exchange : String} {done : List QueueConfig} {q : QueueConfig}
  {held : LooseText → List Message}

theorem declareQueue (h : b.Wired c exchange done held) (n : String) :
    Wired c exchange done held { b with queues := addQueue n b.queues } :=
  ⟨h.channel, h.bound, h.only, h.distinct.addQueue n, fun name =>
    (contents_addQueue n b.queues name).trans (h.holds name)⟩

theorem bindQueue (h : b.Wired c exchange done held)
    (hdeclared : isDeclarable exchange = true ∨ ⟨exchange, q.routingKey, q.name⟩ ∈ b.bindings) :
    (b.bind ⟨exchange, q.routingKey, q.name⟩).Wired c exchange (done ++ [q]) held := by
  have hname : isDeclarable exchange = true := hdeclared.elim id fun hmem => (h.only _ hmem).1
  have hbindings (x : Binding) : x ∈ (b.bind ⟨exchange, q.routingKey, q.name⟩).bindings ↔
      x ∈ b.bindings ∨ x = ⟨exchange, q.routingKey, q.name⟩ := by
    unfold bind
    split
    next hmem => exact ⟨.inl, fun hx => hx.elim id fun hx => hx ▸ hmem⟩
    next => simp
  have hchannels : (b.bind ⟨exchange, q.routingKey, q.name⟩).channels = b.channels := by
    unfold bind
    split <;> rfl
  have hqueues : (b.bind ⟨exchange, q.routingKey, q.name⟩).queues = b.queues := by
    unfold bind
    split <;> rfl
  refine ⟨?_, fun hx r hr => ?_, fun x hx => ?_, ?_, ?_⟩
  · rw [channel?, hchannels]
    exact h.channel
  · rw [hbindings]
    rcases List.mem_append.mp hr with hr | hr
    · exact .inl (h.bound hx r hr)
    · exact .inr (List.mem_singleton.mp hr ▸ rfl)
  · rcases (hbindings x).mp hx with hx | rfl
    · obtain ⟨hx, r, hr, he⟩ := h.only x hx
      exact ⟨hx, r, List.mem_append_left _ hr, he⟩
    · exact ⟨hname, q, List.mem_append_right _ (List.mem_singleton_self q), rfl⟩
  · rw [hqueues]
    exact h.distinct
  · rw [hqueues]
    exact h.holds

/-- Every queue is bound already to an exchange without a name. -/
theorem nameless (h : b.Wired c "" done held) (q : QueueConfig) :
    b.Wired c "" (done ++ [q]) held := by
  refine ⟨h.channel, fun hx => absurd rfl hx, fun x hx => ?_, h.distinct, h.holds⟩
  obtain ⟨hx, r, hr, he⟩ := h.only x hx
  exact ⟨hx, r, List.mem_append_left _ hr, he⟩

theorem takes_queue (h : b.Wired c exchange done held) (ht : b.Takes (queueCalls c exchange q) b') :
    b'.Wired c exchange (done ++ [q]) held := by
  obtain ⟨declared, hexchange, ht⟩ := ht.append
  have hdeclared := h.of_wires hexchange.wires_eq
  cases ht with
  | cons hok rest =>
    have hqueue := (hdeclared.declareQueue q.name).of_wires (attempt_ok hok).2
    split at rest
    next hx =>
      subst hx
      cases rest
      exact hqueue.nameless q
    next =>
      cases rest with
      | cons hok rest =>
        cases rest
        obtain ⟨hmisuse, hw⟩ := attempt_ok hok
        exact (hqueue.bindQueue (declarable_or_bound hmisuse)).of_wires hw

theorem takes_queues (h : b.Wired c exchange done held) {queues : List QueueConfig}
    (ht : b.Takes (queues.flatMap (queueCalls c exchange)) b') :
    b'.Wired c exchange (done ++ queues) held := by
  induction queues generalizing b done with
  | nil =>
    cases ht
    rwa [List.append_nil]
  | cons q queues ih =>
    -- the queue that comes first joins those that are done
    rw [List.flatMap_cons] at ht
    obtain ⟨middle, hq, hqueues⟩ := ht.append
    have hrest := ih (h.takes_queue hq) hqueues
    rwa [List.append_assoc] at hrest

end Wired

/-- A broker without a queue that takes all the calls has the queues that are asked for, and no
message in them. -/
theorem Bare.wired (h : b.Bare) {c : Connection} {exchange : String} {queues : List QueueConfig}
    (ht : b.Takes (.channel c :: topologyCalls c exchange queues) b') :
    b'.Wired c exchange queues fun _ => [] := by
  cases ht with
  | cons hok rest =>
    have hopen : Wired c exchange [] (fun _ => []) (b.setChannel c .known) := by
      refine ⟨?_, fun _ _ hq => absurd hq List.not_mem_nil, fun x hx => ?_, ?_, fun name => ?_⟩
      · rw [channel?, setChannel, List.lookup_cons_self]
        decide
      · exact absurd (h.bindings ▸ hx) List.not_mem_nil
      · exact h.queues.symm ▸ List.Pairwise.nil
      · exact congrArg (contents · name) h.queues
    have hwired := hopen.of_wires (attempt_ok hok).2
    rw [topologyCalls_eq] at rest
    obtain ⟨declared, hexchange, hqueues⟩ := rest.append
    exact (hwired.of_wires hexchange.wires_eq).takes_queues hqueues

end Broker
end Renewals
