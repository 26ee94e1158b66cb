import Renewals.Proofs.Http.Requests
import Renewals.Proofs.Service.Traces
/-! Requests from outside that fail. Whatever the client is told, unless it is told of a success all
rows are as they were. -/
namespace Renewals

namespace Task
variable {α : Type} {C : Call → Deployment → Prop} {t : Task α} {d : Deployment}

theorem along_of_tryCatch {handler : Failure → Task α} (h : (tryCatch t handler).Along C d) :
    t.Along C d :=
  ((Plan.along_bind t.run _ d).mp h).1

end Task

namespace Http

/-- The request has been understood and done. -/
def Response.isSuccess (r : Response) : Bool := 200 ≤ r.status && r.status < 300

variable {ctx : Context} {r : Request} {q : Service.Request} {d : Deployment} {p : Policy}

theorem along_of_handle {C : Call → Deployment → Prop} (hasks : r.asks? ctx = some q)
    (h : (handle ctx r).Along C d) : (Service.serve ctx.policy q).Along C d := by
  rw [handle_of_asks hasks] at h
  exact (Task.along_bind.mp (Task.along_of_tryCatch (Task.along_bind.mp h).1)).1

/-- Behind a client that does not crash, and with room in the cache, a request from outside meets no
failure of a write but that the cache cannot be reached. -/
theorem along_handle_of_bearable (hd : d.Bearable ctx.policy.ttl) (r : Request) :
    (handle ctx r).Along Service.Borne d := by
  cases hasks : r.asks? ctx with
  | none => exact Service.along_of_bearable (only_handle (Q := fun _ => True) trivial hasks) hd
  | some q =>
    rw [handle_of_asks hasks]
    have hserve : Task.Only (Service.Asks ctx.policy.ttl fun _ => True)
        (do return respond (← Service.serve ctx.policy q)) :=
      .bind (Service.only_asks ctx.policy q) fun _ => .pure _
    exact Service.along_of_bearable
      (.bind (.tryCatch hserve fun f => only_recover _ _ f) fun _ => .pure _) hd

theorem isSuccess_headOnly (method : String) (response : Response) :
    (headOnly method response).isSuccess = response.isSuccess := by
  simp only [Response.isSuccess, status_headOnly]

/-- Rollovers are not asked for from outside. -/
theorem isQuery_or_isCommand (hasks : r.asks? ctx = some q) :
    q.isQuery = true ∨ q.isCommand = true := by
  obtain ⟨e, c, part, query, body, he⟩ := Request.exists_asks hasks
  cases e with
  | health => exact absurd he (by simp [Endpoint.asks?])
  | ready => exact absurd he (by simp [Endpoint.asks?])
  | _ =>
    obtain ⟨_, -, rfl⟩ := Option.map_eq_some_iff.mp he
    first | exact .inl rfl | exact .inr rfl

/-- A command that is done is a success unless it has come to no row. -/
theorem rows_of_not_success {reply : Service.Reply} (hq : q.isCommand = true)
    (hgets : q.Gets reply) (hfail : (respond reply).isSuccess = false) : reply = .rows 0 := by
  cases reply with
  | id n => exact absurd hfail (by simp [respond, Response.isSuccess, Response.json])
  | rows n =>
    by_cases h0 : n = 0
    · rw [h0]
    · exact absurd hfail (by simp [respond, counted, h0, Response.isSuccess, Response.json])
  | _ => cases q <;> first | exact hgets.elim | exact Bool.noConfusion hq

theorem table_of_not_success {response : Response} (h : (handle ctx r).Along Service.Borne d)
    (hresponse : (d.run (handle ctx r)).1 = .ok response) (hfail : response.isSuccess = false) :
    (d.run (handle ctx r)).2.store.table = d.store.table := by
  cases hasks : r.asks? ctx with
  | none => exact Service.table_of_only (only_handle rfl hasks) d
  | some q =>
    obtain ⟨hr, hs⟩ := run_handle_of_asks (d := d) hasks
    obtain rfl := Except.ok.inj (hr.symm.trans hresponse)
    rw [hs]
    rcases isQuery_or_isCommand hasks with hq | hq
    · exact Service.table_of_isQuery hq d
    · cases hrun : (d.run (Service.serve ctx.policy q)).1 with
      | error f => exact (Service.untouched_of_error hq (along_of_handle hasks h) hrun).table
      | ok reply =>
        rw [hrun, isSuccess_headOnly] at hfail
        rw [rows_of_not_success hq (Service.gets_of_serve hrun) hfail] at hrun
        exact Service.table_of_no_rows hq hrun

/-- Failures leave no trace, as long as no write to the cache fails but for a cache that cannot be
reached. A command of the service that fails leaves all rows as they were and no new value in the
cache, where only a removal may have dropped its own key. A request from outside always has a
response, and leaves all rows as they were unless the response is a success. -/
theorem failures_leave_no_trace (ctx : Context) (d : Deployment) :
    (∀ q : Service.Request, q.isCommand = true →
      (Service.serve ctx.policy q).Along Service.Borne d →
      ∀ f, (d.run (Service.serve ctx.policy q)).1 = .error f →
        d.Untouched q.forgotten (d.run (Service.serve ctx.policy q)).2) ∧
    ∀ r, (handle ctx r).Along Service.Borne d →
      ∃ response, (d.run (handle ctx r)).1 = .ok response ∧
        (response.isSuccess = false →
          (d.run (handle ctx r)).2.store.table = d.store.table) := by
  constructor
  · intro q hq halong f hf
    exact Service.untouched_of_error hq halong hf
  · intro r halong
    obtain ⟨response, hresponse⟩ := exists_response ctx r d
    exact ⟨response, hresponse, table_of_not_success halong hresponse⟩

/-- A row with a cached value, in a store that fails at the end of its next session. -/
def stuck : Deployment :=
  { Deployment.small (.remote ⟨.put ⟨cacheKey 1, "[]", .ofInt 60⟩ .empty, .unlimited⟩) with
    storePlan := [.commitFails]
    cachePlan := [.sound, .timedOut] }

def stuckContext : Context := ⟨stuck.policy, stuck.today⟩

theorem bearable_stuck : stuck.Bearable stuckContext.policy.ttl where
  plan := by simp [stuck]
  room := by simp [stuck, Deployment.small, Deployment.fresh, Cache.HasRoom, Cache.size?]
  finite := by decide +kernel

/-- A removal that nobody vouches for. -/
def anonymousRemoval : Request where
  method := "DELETE"
  target := ⟨.http, .standard, "/api/v1/subscriptions/1".toList, []⟩
  headers := []
  body := ""

theorem failures_leave_no_trace_stuck :
    (Service.serve stuckContext.policy (.remove 1)).Along Service.Borne stuck ∧
    (stuck.run (Service.serve stuckContext.policy (.remove 1))).1 =
      .error (.store (.unavailable "remove" .commit)) ∧
    stuck.Untouched [cacheKey 1] (stuck.run (Service.serve stuckContext.policy (.remove 1))).2 ∧
    (handle stuckContext anonymousRemoval).Along Service.Borne stuck ∧
    ∃ response, (stuck.run (handle stuckContext anonymousRemoval)).1 = .ok response ∧
      response.status = 401 ∧
      (stuck.run (handle stuckContext anonymousRemoval)).2.store.table = stuck.store.table := by
  obtain ⟨hserve, hhandle⟩ := failures_leave_no_trace stuckContext stuck
  have hborne : (Service.serve stuckContext.policy (.remove 1)).Along Service.Borne stuck :=
    Service.along_serve_of_bearable bearable_stuck _
  have hremove : (stuck.run (Service.remove 1)).1 =
      .error (.store (.unavailable "remove" .commit)) := by decide +kernel
  have hfails : (stuck.run (Service.serve stuckContext.policy (.remove 1))).1 =
      .error (.store (.unavailable "remove" .commit)) := by
    rw [Service.serve, Deployment.run_map, hremove]
    rfl
  have hwithout : (handle stuckContext anonymousRemoval).Along Service.Borne stuck :=
    along_handle_of_bearable bearable_stuck _
  have hstatus : (stuck.run (handle stuckContext anonymousRemoval)).1.toOption.map (·.status) =
      some 401 := by decide +kernel
  obtain ⟨response, hresponse, htable⟩ := hhandle anonymousRemoval hwithout
  rw [hresponse] at hstatus
  have hstatus : response.status = 401 := Option.some.inj hstatus
  refine ⟨hborne, hfails, hserve (.remove 1) rfl hborne _ hfails, hwithout, response, hresponse,
    hstatus, htable ?_⟩
  simp [Response.isSuccess, hstatus]

end Http
end Renewals
