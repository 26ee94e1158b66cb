import Renewals.Proofs.Service.Refusals
import Renewals.Proofs.Service.Traces
import Renewals.Proofs.Subscription.Acceptance
/-! Which orders come as far as the store. An order to create a subscription or to replace one is
decided on by its fields and the day alone, before anything is called. What passes is then done if
its names have a written form; what does not is refused. -/
namespace Renewals.Service

/-- The requests with an order: one for a new subscription, and one for the subscription under a
number. -/
inductive Request.Orders (today : Day) (username : LooseText) (o : Order)
    (userUid : Option LooseText) : Request → Prop
  | create : Orders today username o userUid (.create today username o userUid)
  | update {id : Int} (hid : fitsWord id = true) :
    Orders today username o userUid (.update today id username o userUid)

/-- A store that does not fail and has a number left. -/
structure Dependable (d : Deployment) : Prop where
  schema : d.store.schema = .plain ∨ d.store.schema = .checked
  store : ∀ o ∈ d.storePlan, o = .sound
  next : fitsWord d.store.table.nextId = true

/-- What becomes of a request with an order: it gets to the store if the order is as it should be,
and is refused before any call otherwise. -/
structure Decided (p : Policy) (today : Day) (username : LooseText) (o : Order)
    (userUid : Option LooseText) (q : Request) (d : Deployment) : Prop where
  reaches : (∃ query, Call.ask query ∈ d.calls (serve p q)) ↔ o.Meets today
  refused : ¬ o.Meets today →
    (∃ r, (d.run (serve p q)).1 = .error (.term (.refused r))) ∧ d.calls (serve p q) = []
  done : o.Meets today → (∃ t : String, o.serviceName = t) → Signed username userUid →
    (serve p q).Along Borne d → ∃ reply, (d.run (serve p q)).1 = .ok reply

variable {p : Policy} {d : Deployment} {today : Day} {username : LooseText} {o : Order}
  {userUid : Option LooseText} {q : Request} {s : Subscription} {isActive : Bool}

theorem run_store_of_borne (hd : Dependable d) (hs : s.Storable) (hv : s.violation? = none)
    (h : (store p s).Along Borne d) : ∃ id, (d.run (store p s)).1 = .ok id := by
  have ha := (Deployment.answer_ask_sound hd.store (.create s)).1.trans
    (Store.ask_create hd.schema hs hv hd.next)
  have hkeep := (Task.along_bind.mp (Task.along_behind_ask h ha)).1
  exists d.store.table.nextId
  rw [store, Deployment.run_ask_bind_ok ha]
  exact Deployment.run_then_pure (run_keep_of_borne hkeep) _

theorem run_replace_of_borne (hd : Dependable d) {id : Int} (hid : fitsWord id = true)
    (hs : s.Storable) (hv : s.violation? = none)
    (h : (Task.ask (.update (some id) s) >>= keepHit p ⟨s, id⟩).Along Borne d) :
    ∃ n, (d.run (Task.ask (.update (some id) s) >>= keepHit p ⟨s, id⟩)).1 = .ok n := by
  have ha := (Deployment.answer_ask_sound hd.store (.update (some id) s)).1.trans
    (Store.ask_update_eq_hits hd.schema hs hv hid)
  have hbehind := Task.along_behind_ask h ha
  exists d.store.table.hits id
  have hrun := Deployment.run_ask_bind_ok ha (keepHit p ⟨s, id⟩)
  apply (congrArg Prod.fst hrun).trans
  apply run_keepHit
  intro hn
  unfold keepHit at hbehind
  rw [if_pos hn] at hbehind
  exact run_keep_of_borne (Task.along_bind.mp hbehind).1

/-- The decision comes first, and whatever follows it begins with the store. -/
theorem decided_of_accept {rest : Subscription → Task Reply} (hends : o.Ends)
    (hprice : fitsWord o.price = true)
    (hserve : serve p q = Task.lift .term (o.accept username userUid today isActive) >>= rest)
    (hask : ∀ s, ∃ query, Call.ask query ∈ d.calls (rest s))
    (hdone : ∀ s, s.Storable → s.violation? = none → (rest s).Along Borne d →
      ∃ reply, (d.run (rest s)).1 = .ok reply) :
    Decided p today username o userUid q d := by
  cases haccept : o.accept username userUid today isActive with
  | error f =>
    have hnot : ¬ o.Meets today := by
      intro h
      obtain ⟨s, hs⟩ := Order.exists_accept_iff.mpr h
      exact absurd (haccept.symm.trans hs) (by simp)
    rw [haccept] at hserve
    have hrun : d.run (serve p q) = (.error (.term f), d) := by
      rw [hserve]
      rfl
    have hcalls : d.calls (serve p q) = [] := by
      rw [hserve]
      rfl
    refine ⟨⟨?_, fun h => absurd h hnot⟩, fun _ => ⟨?_, hcalls⟩, fun h => absurd h hnot⟩
    · rintro ⟨query, hmem⟩
      rw [hcalls] at hmem
      exact absurd hmem List.not_mem_nil
    · obtain ⟨r, hr⟩ := Order.exists_refusal hends hnot
      obtain rfl := Except.error.inj (haccept.symm.trans hr)
      exists r
      rw [hrun]
  | ok s =>
    have hmeets : o.Meets today := Order.exists_accept_iff.mp ⟨s, haccept⟩
    rw [haccept] at hserve
    have hrest : serve p q = rest s := hserve
    refine ⟨⟨fun _ => hmeets, fun _ => ?_⟩, fun h => absurd hmeets h, fun _ hname hsigned h => ?_⟩
    · rw [hrest]
      exact hask s
    · have hvalid : o.Valid := ⟨hname, hmeets.price, hprice, hmeets.months⟩
      rw [hrest] at h ⊢
      exact hdone s (hvalid.storable hsigned.username hsigned.userUid haccept)
        (violation?_of_accept haccept) h

theorem decided {o : Order} (hd : Dependable d) (hends : o.Ends) (hprice : fitsWord o.price = true)
    (hq : q.Orders today username o userUid) : Decided p today username o userUid q d := by
  cases hq with
  | create =>
    have hserve : serve p (.create today username o userUid) =
        Task.lift .term (o.accept username userUid today true) >>= fun s =>
          (do return .id (← store p s)) := by
      simp only [serve, create, bind_assoc]
    apply decided_of_accept hends hprice hserve
    · intro s
      exists .create s
      rw [Deployment.calls_bind]
      exact List.mem_append_left _ (Deployment.mem_calls_ask (.create s) _ d)
    · intro s hs hv h
      obtain ⟨id, hid⟩ := run_store_of_borne hd hs hv (Task.along_bind.mp h).1
      exists .id id
      rw [Deployment.run_map, hid]
      rfl
  | @update id hid =>
    have hserve : serve p (.update today id username o userUid) =
        Task.lift .term (o.accept username userUid today o.isActive) >>= fun s =>
          (do return .rows (← Task.ask (.update (some id) s) >>= keepHit p ⟨s, id⟩)) := by
      rw [serve, update, bind_assoc]
      rfl
    apply decided_of_accept hends hprice hserve
    · intro s
      exists .update (some id) s
      rw [Deployment.calls_bind]
      exact List.mem_append_left _ (Deployment.mem_calls_ask (.update (some id) s) _ d)
    · intro s hs hv h
      obtain ⟨n, hn⟩ := run_replace_of_borne hd hid hs hv (Task.along_bind.mp h).1
      exists .rows n
      rw [Deployment.run_map, hn]
      rfl

/-- An order gets to the store if and only if it has a visible name, a price that is not negative
and a term that begins on a day and does not end before today. Otherwise it is refused without any
call. What gets there has a payment a month after its start, and is done if its names have a written
form and the cache fails in no other way than that it cannot be reached. More months do no harm. -/
theorem order_decided (p : Policy) (hd : Dependable d) (hends : o.Ends)
    (hprice : fitsWord o.price = true) (hq : q.Orders today username o userUid) :
    Decided p today username o userUid q d ∧
      (o.Meets today → ∃ start first, Term.readStart o.startDate = .ok start ∧
        start.addMonths 1 = .ok first) ∧
      ∀ months, o.Meets today → o.counterMonths ≤ months →
        { o with counterMonths := months }.Ends → ∀ longer : Request,
          longer.Orders today username { o with counterMonths := months } userUid →
            ∃ query, Call.ask query ∈ d.calls (serve p longer) := by
  refine ⟨decided hd hends hprice hq, Order.Meets.exists_first, ?_⟩
  intro months hmeets hle hlongerEnds longer hlonger
  exact (decided hd hlongerEnds hprice hlonger).reaches.mpr (hmeets.longer hle hlongerEnds)

/-- A year from today on. -/
def yearOf (name : LooseText) : Order := ⟨name, 300, "10-03-2026", 12, true⟩

theorem readStart_today : Term.readStart "10-03-2026" = .ok blank.today := by decide +kernel

theorem exists_yearLater : ∃ last, blank.today.addMonths (12 : Nat) = .ok last :=
  blank.today.exists_addMonths (by decide)

theorem ends_yearOf (name : LooseText) : (yearOf name).Ends := by
  intro start hstart _
  obtain rfl := Except.ok.inj (readStart_today.symm.trans hstart)
  exact exists_yearLater

theorem meets_yearOf {name : LooseText} (h : ∃ c ∈ name.points, c.isBlank = false) :
    (yearOf name).Meets blank.today where
  named := h
  price := (by decide : (0 : Int) ≤ 300)
  months := (by decide : (0 : Int) < 12)
  term := by
    obtain ⟨last, hlast⟩ := exists_yearLater
    have htoday : blank.today ≤ last :=
      (Term.le_billingDate_iff hlast).mpr (by decide)
    exact ⟨blank.today, last, readStart_today, hlast, htoday⟩

theorem dependable_blank : Dependable blank := ⟨.inl rfl, by decide, by decide⟩

theorem order_decided_year :
    Decided blank.policy blank.today "alice" (yearOf " Cinema") none
        (.create blank.today "alice" (yearOf " Cinema") none) blank ∧
      ((yearOf " Cinema").Meets blank.today → ∃ start first,
        Term.readStart (yearOf " Cinema").startDate = .ok start ∧
          start.addMonths 1 = .ok first) ∧
      ∀ months, (yearOf " Cinema").Meets blank.today → (yearOf " Cinema").counterMonths ≤ months →
        { yearOf " Cinema" with counterMonths := months }.Ends → ∀ longer : Request,
          longer.Orders blank.today "alice" { yearOf " Cinema" with counterMonths := months } none →
            ∃ query, Call.ask query ∈ blank.calls (serve blank.policy longer) :=
  order_decided blank.policy dependable_blank (ends_yearOf " Cinema") (by decide) .create

/-- Orders that are as they should be and that get to the store, which then takes no torn name or is
followed by a cache that cannot count so far. -/
theorem create_of_torn_name :
    Dependable blank ∧ fitsWord 300 = true ∧ (yearOf tornName).Ends ∧
      (yearOf tornName).Meets blank.today ∧ (yearOf "Cinema").Ends ∧
      (yearOf "Cinema").Meets blank.today ∧
      (∀ id, (blank.run (create blank.policy blank.today "alice" (yearOf tornName) none)).1 ≠
        .ok id) ∧
      ∀ id, (blank.run (create { blank.policy with ttl := 2 ^ 1024 } blank.today "alice"
        (yearOf "Cinema") none)).1 ≠ .ok id := by
  have htorn : (blank.run (create blank.policy blank.today "alice" (yearOf tornName) none)).1.isOk =
      false := by
    decide +kernel
  have hcache : (blank.run (create { blank.policy with ttl := 2 ^ 1024 } blank.today "alice"
      (yearOf "Cinema") none)).1.isOk = false := by
    decide +kernel
  refine ⟨dependable_blank, by decide, ends_yearOf _, meets_yearOf ⟨.half 0x3D, by decide, rfl⟩,
    ends_yearOf _, meets_yearOf ⟨.char 'C', by decide, by decide⟩, ?_, ?_⟩
  · intro id h
    rw [h] at htorn
    exact Bool.noConfusion htorn
  · intro id h
    rw [h] at hcache
    exact Bool.noConfusion hcache

end Renewals.Service
