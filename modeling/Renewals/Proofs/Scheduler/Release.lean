import Renewals.Proofs.Deployment.Connections
import Renewals.Proofs.Scheduler.CleanUp
/-! What a start leaves behind. Where it fails in a way that it expects, every connection is given
back, with its channel if it has one; where it fails in a way that it does not expect, what has been
acquired by then is kept. -/
namespace Renewals.ScanProcess
open Renewals.Broker (calls opened closings withChannel granted GivenBack Connecting)
open Renewals.Broker (mem_withChannel closings_eq_nil calls_append calls_granted topologyCalls)

variable {s : Settings} {c : Connection} {h : List Answered} {f : Failure}

/-- Everything goes as a start expects it, and failed attempts to connect can be given back. -/
structure Expected (h : List Answered) : Prop where
  new : (opened h).Nodup
  broker : ∀ b cause, (b, .error cause) ∈ calls h → cause.isBroker = true
  store : ∀ f, .error f ∈ Store.outcomes h → f.isUnavailable = true
  released : ∀ c cause, (.release c, .error cause) ∈ calls h → (.connect c, .ok ()) ∈ calls h

theorem Expected.not_unexpected (he : Expected h) : ¬Unexpected h := by
  rintro (⟨b, cause, -, hmem, hc⟩ | ⟨g, hg, hu⟩)
  · simp [he.broker b cause hmem] at hc
  · simp [he.store g hg] at hu

/-- There is no connection, or no channel, or something cannot be declared on it. -/
def Unready (h : List Answered) : Prop :=
  (∀ c, (.connect c, .ok ()) ∉ calls h) ∨
    ∃ b cause, b.isSetup = true ∧ (b, .error cause) ∈ calls h

/-- The failure of a start that only expected failures lead to. -/
def Told (s : Settings) (h : List Answered) (f : Failure) : Prop :=
  (Unready h → ∃ g, f = .broker g ∧ g.isUnavailable = true) ∧
    (¬Unready h → .ok () ∉ Store.outcomes h ∧ ∃ last, f = .notReady s.readyRetries last)

/-- The queues are there, and bound. Without a name an exchange is there anyway and has every queue
under its name, and a reserved name is that of an exchange that the broker declares itself. -/
structure Provided (s : Settings) (c : Connection) (h : List Answered) : Prop where
  channel : (.channel c, .ok ()) ∈ calls h
  exchange : Broker.isDeclarable s.exchange = true →
    (.declareExchange c s.exchange, .ok ()) ∈ calls h
  queues : ∀ q ∈ s.queues, (.declareQueue c q.name, .ok ()) ∈ calls h
  bindings : s.exchange ≠ "" →
    ∀ q ∈ s.queues, (.bindQueue c q.name s.exchange q.routingKey, .ok ()) ∈ calls h

theorem Provided.mono {early late : List Answered} (hall : Provided s c early)
    (hcalls : calls early ⊆ calls late) : Provided s c late :=
  ⟨hcalls hall.channel, fun hname => hcalls (hall.exchange hname),
    fun q hq => hcalls (hall.queues q hq), fun hname q hq => hcalls (hall.bindings hname q hq)⟩

theorem provided_of_granted : Provided s c (granted (setupCalls s c)) := by
  have hcall {b : BrokerCall} (hb : b ∈ setupCalls s c) :
      (b, .ok ()) ∈ calls (granted (setupCalls s c)) := by
    rw [calls_granted]
    exact List.mem_map_of_mem hb
  have hqueue {b : BrokerCall} {q : QueueConfig} (hq : q ∈ s.queues)
      (hb : b ∈ .declareQueue c q.name ::
        (if s.exchange = "" then [] else [.bindQueue c q.name s.exchange q.routingKey])) :
      b ∈ setupCalls s c :=
    List.mem_cons_of_mem _ (List.mem_append_right _
      (List.mem_flatMap.mpr ⟨q, hq, List.mem_append_right _ hb⟩))
  refine ⟨hcall List.mem_cons_self, fun hname => hcall ?_,
    fun q hq => hcall (hqueue hq List.mem_cons_self),
    fun hname q hq => hcall (hqueue hq ?_)⟩
  · refine List.mem_cons_of_mem _ (List.mem_append_left _ ?_)
    rw [Broker.exchangeCalls, if_pos hname]
    exact List.mem_singleton_self _
  · rw [if_neg hname]
    exact List.mem_cons_of_mem _ (List.mem_singleton_self _)

theorem Leading.started_eq {p : ScanProcess} (hl : Leading s c h (.ok p)) :
    p = ready s c ∧ closings c h = [] ∧ Provided s c h ∧ .ok () ∈ Store.outcomes h := by
  cases hl with
  | started hw =>
    refine ⟨rfl, closings_eq_nil fun x hx hclosing => ?_,
      provided_of_granted.mono fun x => Broker.mem_calls_left, ?_⟩
    · have hsetup := ((front_awaiting hw).2 x hx).1
      simp [BrokerCall.isSetup_of_isClosing hclosing] at hsetup
    · rw [Store.outcomes_append]
      exact List.mem_append_right _ (hw.answered_iff.mpr rfl)

/-- No clean-up masks the failure that led to it. -/
theorem Leading.told (hl : Leading s c h (.error f)) (hexp : ¬Unexpected h)
    (hmild : ∀ b cause, (b, .error cause) ∈ calls h → cause.isBroker = true) :
    ((∃ b cause, b.isSetup = true ∧ (b, .error cause) ∈ calls h) ∧
        ∃ g, f = .broker g ∧ g.isUnavailable = true) ∨
      ((∀ b cause, b.isSetup = true → (b, .error cause) ∉ calls h) ∧
        .ok () ∉ Store.outcomes h ∧ ∃ last, f = .notReady s.readyRetries last) := by
  cases hl with
  | @noChannel cause hc tail x ht =>
    obtain rfl := ht.ok fun cause' hmem => hmild _ cause' (List.mem_cons_of_mem _ hmem)
    exact .inl ⟨⟨.channel c, cause, rfl, List.mem_cons_self⟩, _, rfl, rfl⟩
  | @noTopology early late b cause hbs hc tail x ht =>
    have hb : b ∈ topologyCalls c s.exchange s.queues := by rw [hbs]; simp
    obtain ⟨-, rfl⟩ := ht.closings_eq fun b' cause' _ hmem =>
      hmild b' cause' (Broker.mem_calls_right (List.mem_cons_of_mem _ hmem))
    exact .inl ⟨⟨b, cause, (Broker.setup_of_mem_topologyCalls hb).1,
      Broker.mem_calls_right List.mem_cons_self⟩, _, rfl, rfl⟩
  | @crashed early late b cause hbs hc =>
    have hbroker := hmild b cause (Broker.mem_calls_right (List.mem_singleton_self _))
    simp [hc] at hbroker
  | @notReady middle last hw tail x ht =>
    have hcalls : calls (granted (setupCalls s c) ++ (middle ++ tail)) =
        (setupCalls s c).map (fun b => (b, .ok ())) ++ calls tail := by
      rw [calls_append, calls_append, calls_awaiting hw, calls_granted, List.nil_append]
    obtain ⟨-, rfl⟩ := ht.closings_eq fun b' cause' _ hmem =>
      hmild b' cause' (Broker.mem_calls_right (Broker.mem_calls_right hmem))
    refine .inr ⟨fun b cause hb hmem => ?_, ?_, last, rfl⟩
    · rw [hcalls] at hmem
      rcases List.mem_append.mp hmem with hmem | hmem
      · obtain ⟨_, -, heq⟩ := List.mem_map.mp hmem
        cases heq
      · simp [BrokerCall.isSetup_of_isClosing (ht.closes _ hmem).1] at hb
    · rw [Store.outcomes_append, Store.outcomes_append, outcomes_granted, outcomes_disposing ht,
        List.nil_append, List.append_nil, hw.answered_iff]
      exact nofun
  | broken hw => exact absurd (escaped_of_awaiting hw _).unexpected hexp

section
variable {early late : List Answered}
  (hc : Connecting s.brokerUrl s.brokerRetries (.real s.brokerPause) early (.ok c))
  (hexp : Expected (early ++ late))
include hc hexp

/-- A failure behind a connection leaves none that has not been given back. -/
theorem Leading.givenBack (hl : Leading s c late (.error f)) :
    ∀ c' ∈ opened (early ++ late), GivenBack (early ++ late) c' := by
  obtain ⟨hopened, habout⟩ := hl.about
  obtain ⟨hothers, hclosings, hchannel⟩ :=
    hc.opened_connected hexp.new hopened fun x hx => (habout x hx).2
  intro c' hc'
  by_cases hne : c' = c
  · subst hne
    have hback := hl.settled.2 (fun h => hexp.not_unexpected (unexpected_append.mpr (.inr h)))
      fun b cause _ hx => hexp.broker b cause (Broker.mem_calls_right hx)
    rwa [GivenBack, hclosings, if_congr hchannel rfl rfl]
  · exact hothers c' hc' hne

theorem Leading.told_connected (hl : Leading s c late (.error f)) : Told s (early ++ late) f := by
  have hlate : ¬Unexpected late := fun h => hexp.not_unexpected (unexpected_append.mpr (.inr h))
  rcases hl.told hlate fun b cause hx => hexp.broker b cause (Broker.mem_calls_right hx) with
    ⟨⟨b, cause, hb, hx⟩, hg⟩ | ⟨hnone, hanswer, hlast⟩
  · refine ⟨fun _ => hg, fun hready => absurd ?_ hready⟩
    exact .inr ⟨b, cause, hb, Broker.mem_calls_right hx⟩
  · have hready : ¬Unready (early ++ late) := by
      rintro (hunconnected | ⟨b, cause, hb, hx⟩)
      · exact hunconnected c (Broker.mem_calls_left (hc.connected_iff.mpr rfl))
      · rw [calls_append, List.mem_append] at hx
        rcases hx with hx | hx
        · simp [hc.not_setup _ hx] at hb
        · exact hnone b cause hb hx
    rw [Told, Store.outcomes_append, hc.outcomes_eq, List.nil_append]
    exact ⟨fun h => absurd h hready, fun _ => ⟨hanswer, hlast⟩⟩

end

/-- However the broker and the store fail, as long as a start expects it: if it fails, every
connection has been given back, the failure is told as what it is, and if it succeeds, its own
connection is kept, and the queues are there. -/
theorem start_gives_back {σ : Type} (w : World σ) (d : σ) (s : Settings)
    (hexp : Expected ((start s).history w d)) :
    (∀ f, (start s).result w d = .error f →
      (∀ c ∈ opened ((start s).history w d), GivenBack ((start s).history w d) c) ∧
        Told s ((start s).history w d) f) ∧
    ∀ p, (start s).result w d = .ok p → ∃ c, p = ready s c ∧
      (∀ c' ∈ opened ((start s).history w d), c' ≠ c → GivenBack ((start s).history w d) c') ∧
      closings c ((start s).history w d) = [] ∧ Provided s c ((start s).history w d) ∧
      .ok () ∈ Store.outcomes ((start s).history w d) := by
  have hstart := starting_of_ends (Task.ends_history w (start s) d)
  generalize (start s).history w d = h at hexp hstart
  generalize (start s).result w d = r at hstart
  cases hstart with
  | unconnected hc =>
    obtain ⟨hback, last, rfl⟩ := hc.givenBack hexp.new hexp.broker hexp.released
    refine ⟨fun f hf => ?_, nofun⟩
    cases hf
    have hunready : Unready h := .inl fun c => by
      rw [hc.connected_iff]
      simp
    exact ⟨hback, fun _ => ⟨_, rfl, rfl⟩, fun hready => absurd hunready hready⟩
  | connected hc hl =>
    constructor
    · rintro f rfl
      exact ⟨hl.givenBack hc hexp, hl.told_connected hc hexp⟩
    · rintro p rfl
      obtain ⟨hopened, habout⟩ := hl.about
      obtain ⟨hothers, hclosings, -⟩ :=
        hc.opened_connected hexp.new hopened fun x hx => (habout x hx).2
      obtain ⟨rfl, hkept, hall, hanswer⟩ := hl.started_eq
      refine ⟨_, rfl, hothers, hclosings.trans hkept,
        hall.mono fun x => Broker.mem_calls_right, ?_⟩
      rw [Store.outcomes_append]
      exact List.mem_append_right _ hanswer

/-- The second connection can be used, but the second queue is refused, and so is closing the
channel behind it. -/
def refusing : Deployment :=
  { Deployment.small (.remote .empty) with
    broker := { Broker.empty with plan := ⟨[("connect", [some .io]),
      ("queue_declare", [none, some .operation]), ("channel_close", [some .channel])]⟩ } }

theorem expected_refusing :
    Expected ((start Settings.standard).history Deployment.answer refusing) := by
  have hcalls : calls ((start Settings.standard).history Deployment.answer refusing) =
      [(.connect 0, .error .io), (.release 0, .ok ()), (.connect 1, .ok ()), (.channel 1, .ok ()),
        (.declareExchange 1 "notifications", .ok ()), (.declareExchange 1 "notifications", .ok ()),
        (.declareQueue 1 "subscription_expiring_queue", .ok ()),
        (.bindQueue 1 "subscription_expiring_queue" "notifications"
          "subscription.expiring.tomorrow", .ok ()),
        (.declareExchange 1 "notifications", .ok ()),
        (.declareQueue 1 "trial_expiring_queue", .error .operation),
        (.closeChannel 1, .error .channel), (.release 1, .ok ())] := rfl
  refine ⟨Deployment.nodup_opened _ _, fun b cause hmem => ?_, nofun, fun c cause hmem => ?_⟩
  · rw [hcalls] at hmem
    simp only [List.mem_cons, Prod.mk.injEq, Except.error.injEq, reduceCtorEq, and_false,
      List.not_mem_nil, or_false, false_or] at hmem
    rcases hmem with ⟨-, rfl⟩ | ⟨-, rfl⟩ | ⟨-, rfl⟩ <;> rfl
  · rw [hcalls] at hmem
    simp at hmem

theorem start_gives_back_refusing :
    Expected ((start Settings.standard).history Deployment.answer refusing) ∧
    (start Settings.standard).result Deployment.answer refusing =
      .error (.broker (.noTopology .operation)) ∧
    (∀ c ∈ opened ((start Settings.standard).history Deployment.answer refusing),
      GivenBack ((start Settings.standard).history Deployment.answer refusing) c) ∧
    Told Settings.standard ((start Settings.standard).history Deployment.answer refusing)
      (.broker (.noTopology .operation)) :=
  ⟨expected_refusing, rfl,
    (start_gives_back Deployment.answer refusing Settings.standard expected_refusing).1 _ rfl⟩

/-- The exchange that is there without a name. -/
def nameless : Settings := { Settings.standard with exchange := "" }

theorem expected_nameless :
    Expected ((start nameless).history Deployment.answer (.small (.remote .empty))) := by
  have hcalls : calls ((start nameless).history Deployment.answer (.small (.remote .empty))) =
      [(.connect 0, .ok ()), (.channel 0, .ok ()),
        (.declareQueue 0 "subscription_expiring_queue", .ok ()),
        (.declareQueue 0 "trial_expiring_queue", .ok ())] := rfl
  have houtcomes :
      Store.outcomes ((start nameless).history Deployment.answer (.small (.remote .empty))) =
        [.ok ()] := rfl
  refine ⟨Deployment.nodup_opened _ _, ?_, ?_, ?_⟩
  · simp [hcalls]
  · simp [houtcomes]
  · simp [hcalls]

/-- An exchange that the broker declares itself. -/
def reserved : Settings := { Settings.standard with exchange := "amq.direct" }

/-- The queues are bound to that exchange already. -/
def rebound : Deployment :=
  { Deployment.small (.remote .empty) with
    broker := { Broker.empty with bindings := reserved.queues.map fun q =>
      ⟨reserved.exchange, q.routingKey, q.name⟩ } }

theorem expected_rebound : Expected ((start reserved).history Deployment.answer rebound) := by
  have hcalls : calls ((start reserved).history Deployment.answer rebound) =
      [(.connect 0, .ok ()), (.channel 0, .ok ()),
        (.declareQueue 0 "subscription_expiring_queue", .ok ()),
        (.bindQueue 0 "subscription_expiring_queue" "amq.direct"
          "subscription.expiring.tomorrow", .ok ()),
        (.declareQueue 0 "trial_expiring_queue", .ok ()),
        (.bindQueue 0 "trial_expiring_queue" "amq.direct"
          "subscription.trial.expiring", .ok ())] := rfl
  have houtcomes :
      Store.outcomes ((start reserved).history Deployment.answer rebound) = [.ok ()] := rfl
  refine ⟨Deployment.nodup_opened _ _, ?_, ?_, ?_⟩
  · simp [hcalls]
  · simp [houtcomes]
  · simp [hcalls]

/-- A start succeeds that has declared no exchange and bound no queue, and another that has declared
no exchange; and a channel that cannot be closed is closed once more by the client, in the course
of giving back its connection. -/
theorem start_falls_short :
    (Expected ((start nameless).history Deployment.answer (.small (.remote .empty))) ∧
      (start nameless).result Deployment.answer (.small (.remote .empty)) =
        .ok (ready nameless 0) ∧
      .declareExchange 0 nameless.exchange ∉ (calls ((start nameless).history Deployment.answer
        (.small (.remote .empty)))).map Prod.fst ∧
      ∀ q ∈ nameless.queues, .bindQueue 0 q.name nameless.exchange q.routingKey ∉
        (calls ((start nameless).history Deployment.answer
          (.small (.remote .empty)))).map Prod.fst) ∧
    (Expected ((start reserved).history Deployment.answer rebound) ∧
      (start reserved).result Deployment.answer rebound = .ok (ready reserved 0) ∧
      .declareExchange 0 reserved.exchange ∉
        (calls ((start reserved).history Deployment.answer rebound)).map Prod.fst) ∧
    Expected ((start Settings.standard).history Deployment.answer refusing) ∧
      (start Settings.standard).result Deployment.answer refusing =
        .error (.broker (.noTopology .operation)) ∧
      (refusing.run (start Settings.standard)).2.broker.trace.filter
        (fun e => e = .called (.closeChannel 1) ∨ e = .called (.release 1)) =
        [.called (.closeChannel 1), .called (.release 1), .called (.closeChannel 1)] := by
  exact ⟨⟨expected_nameless, rfl, by decide, by decide⟩, ⟨expected_rebound, rfl, by decide⟩,
    expected_refusing, rfl, by decide⟩

theorem Escaped.append {late : List Answered} (hf : Escaped late f) (early : List Answered) :
    Escaped (early ++ late) f := by
  cases hf with
  | broker hb hc =>
    rw [← List.append_assoc]
    exact .broker hb hc
  | store hu =>
    rw [← List.append_assoc]
    exact .store hu

/-- Behind the connection an unexpected failure leaves a start at once, and nothing is given back.
Behind every other failure the connection is given back, as long as closing goes as expected. -/
theorem start_keeps_if_unexpected {σ : Type} (w : World σ) (d : σ) (s : Settings) {c : Connection}
    {f : Failure} (hnew : (opened ((start s).history w d)).Nodup)
    (hconnected : (.connect c, .ok ()) ∈ calls ((start s).history w d))
    (hfailed : (start s).result w d = .error f) :
    (Unexpected ((start s).history w d) →
      closings c ((start s).history w d) = [] ∧ Escaped ((start s).history w d) f) ∧
    (¬Unexpected ((start s).history w d) →
      (∀ b cause, b.isClosing = true → (b, .error cause) ∈ calls ((start s).history w d) →
        cause.isBroker = true) → GivenBack ((start s).history w d) c) := by
  have hstart := starting_of_ends (Task.ends_history w (start s) d)
  rw [hfailed] at hstart
  generalize (start s).history w d = h at hnew hconnected hstart
  cases hstart with
  | unconnected hc => exact nomatch hc.connected_iff.mp hconnected
  | @connected c' early late _ hc hl =>
    obtain ⟨hopened, habout⟩ := hl.about
    rw [calls_append, List.mem_append] at hconnected
    obtain rfl : c' = c := by
      rcases hconnected with hmem | hmem
      · exact Except.ok.inj (hc.connected_iff.mp hmem)
      · simpa [BrokerCall.isSetup, BrokerCall.isClosing] using (habout _ hmem).1
    obtain ⟨-, hclosings, hchannel⟩ :=
      hc.opened_connected hnew hopened fun x hx => (habout x hx).2
    have hearly : ¬Unexpected early := by
      rintro (⟨b, cause, hb, hmem, -⟩ | ⟨g, hg, -⟩)
      · simp [hc.not_setup _ hmem] at hb
      · simp [hc.outcomes_eq] at hg
    rw [unexpected_append, or_iff_right hearly, GivenBack, hclosings, if_congr hchannel rfl rfl]
    refine ⟨fun hu => ?_, fun hu hmild => hl.settled.2 hu fun b cause hb hx => hmild b cause hb ?_⟩
    · exact ⟨(hl.settled.1 hu).1, (hl.settled.1 hu).2.append early⟩
    · exact Broker.mem_calls_right hx

/-- The queues are there, but no session of the store can be opened. -/
def bewildering : Deployment :=
  { Deployment.small (.remote .empty) with storePlan := [.cannotOpen] }

theorem calls_bewildering :
    calls ((start Settings.standard).history Deployment.answer bewildering) =
      (.connect 0, .ok ()) :: (setupCalls Settings.standard 0).map fun b => (b, .ok ()) := rfl

theorem unexpected_bewildering :
    Unexpected ((start Settings.standard).history Deployment.answer bewildering) :=
  .inr ⟨.unopened, List.mem_cons_self, rfl⟩

theorem start_keeps_if_unexpected_bewildering :
    (opened ((start Settings.standard).history Deployment.answer bewildering)).Nodup ∧
    (.connect 0, .ok ()) ∈
      calls ((start Settings.standard).history Deployment.answer bewildering) ∧
    (start Settings.standard).result Deployment.answer bewildering = .error (.store .unopened) ∧
    Unexpected ((start Settings.standard).history Deployment.answer bewildering) ∧
    closings 0 ((start Settings.standard).history Deployment.answer bewildering) = [] ∧
    Escaped ((start Settings.standard).history Deployment.answer bewildering)
      (.store .unopened) := by
  have hnew := Deployment.nodup_opened (start Settings.standard) bewildering
  have hconnected : (.connect 0, .ok ()) ∈
      calls ((start Settings.standard).history Deployment.answer bewildering) := by
    rw [calls_bewildering]
    exact List.mem_cons_self
  exact ⟨hnew, hconnected, rfl, unexpected_bewildering,
    (start_keeps_if_unexpected Deployment.answer bewildering Settings.standard hnew hconnected
      rfl).1 unexpected_bewildering⟩

/-- The connection is there, with a channel, and the start fails without giving either back. -/
theorem start_bewildering :
    Unexpected ((start Settings.standard).history Deployment.answer bewildering) ∧
    (start Settings.standard).result Deployment.answer bewildering = .error (.store .unopened) ∧
    0 ∈ withChannel ((start Settings.standard).history Deployment.answer bewildering) ∧
    .closeChannel 0 ∉
      (calls ((start Settings.standard).history Deployment.answer bewildering)).map Prod.fst ∧
    .release 0 ∉
      (calls ((start Settings.standard).history Deployment.answer bewildering)).map Prod.fst :=
  ⟨unexpected_bewildering, rfl, by decide, by decide, by decide⟩

end Renewals.ScanProcess
