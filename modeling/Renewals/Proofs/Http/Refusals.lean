import Renewals.Proofs.Http.Requests
import Renewals.Proofs.Service.Refusals
/-! Requests about a term as they come from outside. Input that passes for what it should be is what
the service expects, so the response tells a client what is wrong with it, unless a failure escapes
that nobody has thought of. -/
namespace Renewals.Http

/-! Input that is read -/

section
variable {α β : Type}

theorem both_eq_ok_iff {x : Checked α} {y : Checked β} {a : α} {b : β} :
    both x y = .ok (a, b) ↔ x = .ok a ∧ y = .ok b := by
  cases x <;> cases y <;> simp [both]

/-- A member has been read, or there is none and what stands in for it is taken. -/
theorem read_of_member {ms : Json.Members} {name : String} {read : Json → Except Field.Complaint α}
    {absent : Option α} {a : α} (h : member ms name read absent = .ok a) :
    (∃ v, read v = .ok a) ∨ absent = some a := by
  unfold member at h
  split at h
  next v _ => exact .inl ⟨v, eq_ok_of_mapError h⟩
  next b _ => exact .inr (congrArg some (Except.ok.inj h))
  next => exact absurd h (by simp)

end

theorem atLeast_ok {low n a : Int} (h : Field.atLeast low n = .ok a) : low ≤ a := by
  unfold Field.atLeast at h
  split at h
  next hle => exact Except.ok.inj h ▸ hle
  next => exact absurd h (by simp)

theorem positive_ok {n a : Int} (h : Field.positive n = .ok a) : 0 < a := by
  unfold Field.positive at h
  split at h
  next hlt => exact Except.ok.inj h ▸ hlt
  next => exact absurd h (by simp)

theorem months_of_member {ms : Json.Members} {name : String} {months : Int}
    (h : member ms name (fun v => do Field.positive (← Field.whole v)) none = .ok months) :
    0 < months := by
  rcases read_of_member h with ⟨v, hv⟩ | hnone
  · obtain ⟨n, -, hn⟩ := exists_of_bind_eq_ok hv
    exact positive_ok hn
  · exact absurd hnone (by simp)

/-- An order that is read can be stored, if its price is not too large. -/
theorem valid_of_readOrder {body : Received} {o : Order} (h : readOrder body = .ok o)
    (hprice : fitsWord o.price = true) : o.Valid := by
  obtain ⟨ms, -, h⟩ := exists_of_bind_eq_ok h
  obtain ⟨⟨name, price, start, months, active⟩, hall, h⟩ := exists_of_bind_eq_ok h
  obtain rfl := Except.ok.inj h
  obtain ⟨-, hall⟩ := both_eq_ok_iff.mp hall
  obtain ⟨hleast, hall⟩ := both_eq_ok_iff.mp hall
  obtain ⟨-, hall⟩ := both_eq_ok_iff.mp hall
  obtain ⟨hmonths, -⟩ := both_eq_ok_iff.mp hall
  refine ⟨⟨name, rfl⟩, ?_, hprice, months_of_member hmonths⟩
  rcases read_of_member hleast with ⟨v, hv⟩ | hnone
  · obtain ⟨n, -, hn⟩ := exists_of_bind_eq_ok hv
    exact atLeast_ok hn
  · exact absurd hnone (by simp)

theorem months_of_readSumOrder {body : Received} {o : SumOrder} (h : readSumOrder body = .ok o) :
    0 < o.counterMonths := by
  obtain ⟨ms, -, h⟩ := exists_of_bind_eq_ok h
  obtain ⟨⟨start, months, name⟩, hall, h⟩ := exists_of_bind_eq_ok h
  obtain rfl := Except.ok.inj h
  obtain ⟨-, hall⟩ := both_eq_ok_iff.mp hall
  exact months_of_member (both_eq_ok_iff.mp hall).1

/-! Requests about a term -/

/-- A request about a term, whose other numbers fit a word. -/
def AboutTerm : Service.Request → Prop
  | .create _ _ o _ => fitsWord o.price = true
  | .update _ id _ o _ => fitsWord id = true ∧ fitsWord o.price = true
  | .sum .. => True
  | _ => False

/-- The statuses of the responses that such a request is to have. -/
def statuses : Service.Request → List Nat
  | .create .. => [201, 400]
  | .update .. => [200, 400, 404]
  | .sum .. => [200, 400]
  | _ => []

variable {ctx : Context} {c : Caller} {e : Endpoint} {part : String}
  {query : List (String × String)} {body : Received} {q : Service.Request} {r : Request}
  {d : Deployment} {p : Policy}

theorem signed_of_caller (c : Caller) : Service.Signed c.username c.userUid where
  username := ⟨c.username, rfl⟩
  userUid t ht := by
    obtain ⟨u, -, hu⟩ := Option.bind_eq_some_iff.mp ht
    exact ⟨u, (Option.some.inj hu).symm⟩

theorem valid_of_asks (h : e.asks? ctx c part query body = some q) (hq : AboutTerm q) :
    q.Valid := by
  cases e with
  | create =>
    obtain ⟨o, ho, rfl⟩ := Option.map_eq_some_iff.mp h
    exact ⟨valid_of_readOrder (eq_ok_of_toOption ho) hq, signed_of_caller c⟩
  | update =>
    obtain ⟨⟨id, o⟩, hinput, rfl⟩ := Option.map_eq_some_iff.mp h
    obtain ⟨-, ho⟩ := both_eq_ok_iff.mp (eq_ok_of_toOption hinput)
    exact ⟨hq.1, valid_of_readOrder ho hq.2, signed_of_caller c⟩
  | sum =>
    obtain ⟨o, ho, rfl⟩ := Option.map_eq_some_iff.mp h
    exact ⟨months_of_readSumOrder (eq_ok_of_toOption ho), c.username, rfl⟩
  | health => exact absurd h (by simp [Endpoint.asks?])
  | ready => exact absurd h (by simp [Endpoint.asks?])
  | _ =>
    obtain ⟨_, -, rfl⟩ := Option.map_eq_some_iff.mp h
    exact hq.elim

theorem status_excuse_of_refusal {f : Failure} (h : f.isRefusal = true) :
    (excuse f).status = 400 := by
  cases f with
  | term f =>
    cases f with
    | refused r => rfl
    | date f => exact Bool.noConfusion h
  | _ => exact Bool.noConfusion h

theorem status_excuse_of_overlooked {f : Failure} (h : f.isOverlooked = true) :
    (excuse f).status = 500 := by
  cases f with
  | term f =>
    cases f with
    | refused r => exact Bool.noConfusion h
    | date f => rfl
  | store f => cases f <;> first | rfl | exact Bool.noConfusion h
  | _ => exact Bool.noConfusion h

/-- What is done is told by one of the statuses that the request is to have. -/
theorem status_respond {reply : Service.Reply} (hq : q.Valid) (h : q.Gets reply) :
    (respond reply).status ∈ statuses q := by
  cases q with
  | create today username o userUid =>
    cases reply with
    | id n => simp [respond, statuses, Response.json]
    | _ => exact h.elim
  | update today id username o userUid =>
    cases reply with
    | rows n =>
      by_cases h0 : n = 0 <;>
        simp [respond, statuses, counted, h0, Response.json, Response.detail]
    | _ => exact h.elim
  | sum username o =>
    cases reply with
    | total n => simp [respond, statuses, Response.json]
    | _ => exact h.elim
  | _ => exact hq.elim

theorem status_conclude (hq : q.Valid)
    (h : FailsOnly (·.isRefusal = true) (d.run (Service.serve p q)).1) :
    (conclude (d.run (Service.serve p q)).1).status ∈ statuses q := by
  cases hrun : (d.run (Service.serve p q)).1 with
  | ok reply => exact status_respond hq (Service.gets_of_serve hrun)
  | error f =>
    rw [conclude, status_excuse_of_refusal (h f hrun)]
    cases q <;> first | exact hq.elim | simp [statuses]

/-- Where nothing behind the service fails, a request about a term is done or refused, and a client
is told so by the status, unless the request escapes to a day beyond the calendar or to a name
without a written form: it always ends in an internal error then. -/
theorem terms_refused_unless_escaping (hd : Service.Reliable ctx.policy d)
    (hnext : fitsWord d.store.table.nextId = true) :
    (∀ q : Service.Request, q.Valid →
      (FailsOnly (·.isRefusal = true) (d.run (Service.serve ctx.policy q)).1 ↔
        ¬ q.Escapes d.store.table)) ∧
    ∀ r q, Request.asks? ctx r = some q → AboutTerm q →
      ∃ response, (d.run (handle ctx r)).1 = .ok response ∧
        (response.status ∈ statuses q ↔ ¬ q.Escapes d.store.table) ∧
        (q.Escapes d.store.table → response.status = 500) := by
  constructor
  · intro q hq
    exact (Service.serve_refusedUnless hd hnext hq).refused_iff
  · intro r q hasks hterm
    obtain ⟨e, c, part, query, body, he⟩ := Request.exists_asks hasks
    have hq := valid_of_asks he hterm
    have hserve := Service.serve_refusedUnless hd hnext hq
    have hescaped (h : q.Escapes d.store.table) :
        (conclude (d.run (Service.serve ctx.policy q)).1).status = 500 := by
      obtain ⟨f, hf, hover⟩ := hserve.overlooked h
      rw [hf]
      exact status_excuse_of_overlooked hover
    refine ⟨_, (run_handle_of_asks hasks).1, ?_, ?_⟩
    · rw [status_headOnly]
      constructor
      · intro hmem hesc
        rw [hescaped hesc] at hmem
        cases q <;> simp [statuses] at hmem
      · intro hesc
        exact status_conclude hq (hserve.refused hesc)
    · intro hesc
      rw [status_headOnly]
      exact hescaped hesc

/-- A request that brings a body, from a caller without a role. -/
def posted (path body : String) : Request where
  method := "POST"
  target := ⟨.http, .standard, path.toList, []⟩
  headers := [("X-User-Name", "alice"), ("Content-Type", "application/json")]
  body

def blankContext : Context := ⟨Service.blank.policy, Service.blank.today⟩

theorem reliable_blank : Service.Reliable blankContext.policy Service.blank where
  schema := .inl rfl
  store o ho := absurd ho List.not_mem_nil
  cache o ho := absurd ho List.not_mem_nil
  room := by
    unfold Cache.HasRoom
    decide
  finite := by decide +kernel

def sumFromMay : Request := posted "/api/v1/subscriptions/sum"
  "\x7b\"start_date\":\"01-05-2026\",\"counter_months\":2\x7d"

theorem terms_refused_unless_escaping_may : Service.Reliable blankContext.policy Service.blank ∧
    fitsWord Service.blank.store.table.nextId = true ∧
    sumFromMay.asks? blankContext = some (.sum "alice" ⟨"01-05-2026", 2, none⟩) ∧
    ∃ response, (Service.blank.run (handle blankContext sumFromMay)).1 = .ok response ∧
      response.status ∈ [200, 400] := by
  have hasks : sumFromMay.asks? blankContext = some (.sum "alice" ⟨"01-05-2026", 2, none⟩) := by
    decide +kernel
  have hstart : Term.readStart "01-05-2026" = .ok Service.firstOfMay := by decide +kernel
  have hlast : Service.firstOfMay.addMonths 2 = .ok Service.firstOfJuly := by decide +kernel
  have hesc : ¬ Service.Request.Escapes Service.blank.store.table
      (.sum "alice" ⟨"01-05-2026", 2, none⟩) := by
    intro h
    cases h with
    | endless hother h =>
      obtain rfl := Except.ok.inj (hstart.symm.trans hother)
      exact absurd (hlast.symm.trans h) (by simp)
    | torn _ hmem => exact absurd hmem (by simp)
    | row _ _ hmem => exact absurd hmem List.not_mem_nil
  obtain ⟨-, hhttp⟩ := terms_refused_unless_escaping reliable_blank (by decide)
  obtain ⟨response, hresponse, hstatus, -⟩ := hhttp sumFromMay _ hasks trivial
  exact ⟨reliable_blank, by decide, hasks, response, hresponse, hstatus.mpr hesc⟩

def fromLastDay : Request := posted "/api/v1/subscriptions/"
  ("\x7b\"service_name\":\"Cinema\",\"price\":300," ++
    "\"start_date\":\"31-12-9999\",\"counter_months\":1\x7d")

def orderFromLastDay : Order := ⟨"Cinema", 300, "31-12-9999", 1, true⟩

/-- A month from the last day of the calendar on. The request is as it should be and nothing behind
the service fails, and yet it is neither done nor refused. -/
theorem create_from_last_day : Service.Reliable blankContext.policy Service.blank ∧
    fitsWord Service.blank.store.table.nextId = true ∧
    fromLastDay.asks? blankContext =
      some (.create Service.blank.today "alice" orderFromLastDay none) ∧
    Service.Request.Valid (.create Service.blank.today "alice" orderFromLastDay none) ∧
    (Service.blank.run (Service.serve blankContext.policy
      (.create Service.blank.today "alice" orderFromLastDay none))).1 =
        .error (.term (.date (.year 10000))) ∧
    (Failure.term (.date (.year 10000))).isRefusal = false ∧
    (Service.blank.run (handle blankContext fromLastDay)).1 = .ok .internal := by
  have hasks : fromLastDay.asks? blankContext =
      some (.create Service.blank.today "alice" orderFromLastDay none) := by decide +kernel
  have hvalid : Service.Request.Valid
      (.create Service.blank.today "alice" orderFromLastDay none) := by
    refine ⟨⟨⟨"Cinema", rfl⟩, by decide, by decide, by decide⟩, ⟨"alice", rfl⟩, ?_⟩
    intro t ht
    exact absurd ht (by simp)
  have hcreate : (Service.blank.run (Service.create blankContext.policy Service.blank.today "alice"
      orderFromLastDay none)).1 = .error (.term (.date (.year 10000))) := by decide +kernel
  have hserve : (Service.blank.run (Service.serve blankContext.policy
      (.create Service.blank.today "alice" orderFromLastDay none))).1 =
        .error (.term (.date (.year 10000))) := by
    rw [Service.serve, Deployment.run_bind, hcreate]
  have hhandle := (run_handle_of_asks (d := Service.blank) hasks).1
  rw [hserve] at hhandle
  exact ⟨reliable_blank, by decide, hasks, hvalid, hserve, rfl, hhandle⟩

end Renewals.Http
