import Renewals.Http.Service
import Renewals.Proofs.Deployment.Calls
import Renewals.Proofs.Service.Footprint
import Renewals.Proofs.Service.Requests
/-! What requests from outside ask of the service. Such a request either comes to one request of the
service and answers what becomes of that, or it is answered without the service. -/
namespace Renewals.Http

/-- The response to a reply of the service. -/
def respond : Service.Reply → Response
  | .id n => .json 201 (.obj [("id", .int n)])
  | .rows n => counted n
  | .entry s => presented 200 (present s)
  | .entries rs => presented 200 (Json.arr <$> rs.mapM fun r => present r.snapshot)
  | .total n => .json 200 (.obj [("total", .int n)])

/-- The response to a failure of the service. -/
def excuse : Failure → Response
  | .term (.refused r) => .detail 400 r.message
  | .store (.notFound id) => .detail 404 (StoreFault.notFound id).message
  | .store (.unavailable ..) => .unavailable
  | .cache f => if f.isUnavailable then .unavailable else .internal
  | _ => .internal

def conclude : Except Failure Service.Reply → Response
  | .ok reply => respond reply
  | .error f => excuse f

/-- What an endpoint asks of the service if its input is right. -/
def Endpoint.asks? (ctx : Context) (c : Caller) (part : String) (query : List (String × String))
    (body : Received) : Endpoint → Option Service.Request
  | .create => (readOrder body).toOption.map fun o => .create ctx.today c.username o c.userUid
  | .list => (readPage query).toOption.map fun page => .list c.username c.role page.1 page.2
  | .sum => (readSumOrder body).toOption.map fun o => .sum c.username o
  | .read => (readId part).toOption.map fun id => .read id
  | .update => (both (readId part) (readOrder body)).toOption.map fun input =>
    .update ctx.today input.1 c.username input.2 c.userUid
  | .remove => (readId part).toOption.map fun id => .remove id
  | .health | .ready => none

/-- What a request asks of the service: nothing if it is not for one of its endpoints, comes from
nobody, or brings input that is wrong. -/
def Request.asks? (ctx : Context) (r : Request) : Option Service.Request :=
  match route r.method r.target.decodedPath with
  | .found e part =>
    match receive r e, identify r e with
    | .ok body, .ok c => e.asks? ctx c part (Text.readQuery r.target.query) body
    | _, _ => none
  | _ => none

variable {ctx : Context} {c : Caller} {e : Endpoint} {part : String}
  {query : List (String × String)} {body : Received} {q : Service.Request}

/-- An endpoint whose input is right passes it on. -/
theorem checked_of_map {α : Type} {p : Policy} {input : Checked α} {f : α → Service.Request}
    {next : α → Task Response} (hnext : ∀ a, next a = do return respond (← Service.serve p (f a)))
    (h : input.toOption.map f = some q) :
    checked input next = do return respond (← Service.serve p q) := by
  cases input with
  | error fs => exact absurd h (by simp [Except.toOption])
  | ok a =>
    obtain rfl := Option.some.inj h
    exact hnext a

theorem perform_of_asks (h : e.asks? ctx c part query body = some q) :
    perform ctx c e part query body = do return respond (← Service.serve ctx.policy q) := by
  cases e with
  | health => exact absurd h (by simp [Endpoint.asks?])
  | ready => exact absurd h (by simp [Endpoint.asks?])
  | _ =>
    apply checked_of_map _ h
    intro a
    simp only [Service.serve, bind_assoc, pure_bind]
    rfl

/-- What every failure is answered with, the rows being left as they are. -/
theorem run_recover (method path : String) (f : Failure) (d : Deployment) :
    (d.run (recover method path f)).1 = .ok (excuse f) ∧
      (d.run (recover method path f)).2.store = d.store := by
  cases f with
  | term t => cases t <;> exact ⟨rfl, rfl⟩
  | store f => cases f <;> exact ⟨rfl, rfl⟩
  | cache f =>
    simp only [recover, excuse]
    split <;> exact ⟨rfl, rfl⟩
  | _ => exact ⟨rfl, rfl⟩

variable {r : Request} {d : Deployment}

theorem Request.exists_asks (h : r.asks? ctx = some q) :
    ∃ e c part query body, Endpoint.asks? ctx c part query body e = some q := by
  unfold Request.asks? at h
  split at h
  next =>
    split at h
    next => exact ⟨_, _, _, _, _, h⟩
    next => exact absurd h (by simp)
  next => exact absurd h (by simp)

theorem status_headOnly (method : String) (response : Response) :
    (headOnly method response).status = response.status := by
  unfold headOnly
  split <;> rfl

/-- A request is served by its endpoint, or answered at once if it has none. -/
theorem handle_eq (ctx : Context) (r : Request) :
    (∃ e part, route r.method r.target.decodedPath = .found e part ∧ handle ctx r = do
      let response ← serve ctx r r.target.decodedPath (Text.readQuery r.target.query) e part
      return headOnly r.method response) ∨
    (r.asks? ctx = none ∧ ∃ response, handle ctx r = pure response) := by
  cases hroute : route r.method r.target.decodedPath with
  | found e part => exact .inl ⟨e, part, rfl, by simp only [handle, hroute]⟩
  | _ =>
    right
    constructor
    · simp only [Request.asks?, hroute]
    · simp only [handle, hroute, pure_bind]
      exact ⟨_, rfl⟩

/-- Whatever is asked and whatever fails, there is a response. -/
theorem exists_response (ctx : Context) (r : Request) (d : Deployment) :
    ∃ response, (d.run (handle ctx r)).1 = .ok response := by
  have hserve (path : List Char) (query : List (String × String)) (e : Endpoint) (part : String) :
      ∃ response, (d.run (serve ctx r path query e part)).1 = .ok response := by
    unfold serve
    split
    next response _ => exact ⟨response, rfl⟩
    next body _ =>
      split
      next response _ => exact ⟨response, rfl⟩
      next c _ =>
        rw [Deployment.run_tryCatch]
        split
        next response _ => exact ⟨response, rfl⟩
        next f _ => exact ⟨_, (run_recover r.method (shownPath path) f _).1⟩
  rcases handle_eq ctx r with ⟨e, part, -, he⟩ | ⟨-, response, he⟩
  · obtain ⟨response, hr⟩ :=
      hserve r.target.decodedPath (Text.readQuery r.target.query) e part
    rw [he, Deployment.run_bind, hr]
    exact ⟨headOnly r.method response, rfl⟩
  · rw [he]
    exact ⟨response, rfl⟩

/-- A request that asks for something hands it on. -/
theorem handle_of_asks (h : r.asks? ctx = some q) : handle ctx r = do
    let response ← tryCatch (do return respond (← Service.serve ctx.policy q))
      (recover r.method (shownPath r.target.decodedPath))
    return headOnly r.method response := by
  unfold Request.asks? at h
  split at h
  next e part hroute =>
    split at h
    next body c hbody hcaller =>
      simp only [handle, hroute, serve, hbody, hcaller, perform_of_asks h]
    next => exact absurd h (by simp)
  next => exact absurd h (by simp)

/-- It is answered by what becomes of that. -/
theorem run_handle_of_asks (h : r.asks? ctx = some q) :
    (d.run (handle ctx r)).1 =
        .ok (headOnly r.method (conclude (d.run (Service.serve ctx.policy q)).1)) ∧
      (d.run (handle ctx r)).2.store = (d.run (Service.serve ctx.policy q)).2.store := by
  rw [handle_of_asks h]
  simp only [Deployment.run_bind, Deployment.run_tryCatch]
  cases hrun : (d.run (Service.serve ctx.policy q)).1 with
  | ok reply => exact ⟨rfl, rfl⟩
  | error f =>
    obtain ⟨hr, hs⟩ := run_recover r.method (shownPath r.target.decodedPath) f
      (d.run (Service.serve ctx.policy q)).2
    simp only [hr]
    exact ⟨rfl, hs⟩

/-! Requests that ask for nothing -/

section
variable {Q : Query → Prop} {ttl : Int}

theorem only_recover (method path : String) (f : Failure) :
    Task.Only (Service.Asks ttl Q) (recover method path f) := by
  unfold recover
  split
  · exact .pure _
  · exact .pure _
  · exact .bind (.perform (c := .log _) trivial) fun _ => .pure _
  · split
    · exact .bind (.perform (c := .log _) trivial) fun _ => .pure _
    · exact .pure _
  · exact .pure _

/-- An endpoint whose input is wrong does nothing. -/
theorem only_checked {α : Type} {P : Call → Prop} {input : Checked α} {f : α → Service.Request}
    {next : α → Task Response} (h : input.toOption.map f = none) :
    Task.Only P (checked input next) := by
  cases input with
  | error fs => exact .pure _
  | ok a => exact absurd h (by simp [Except.toOption])

theorem only_perform (hready : Q .ready) (h : e.asks? ctx c part query body = none) :
    Task.Only (Service.Asks ctx.policy.ttl Q) (perform ctx c e part query body) := by
  cases e with
  | health => exact .pure _
  | ready => exact .bind (.ask .ready hready) fun _ => .pure _
  | _ => exact only_checked h

theorem only_handle (hready : Q .ready) (h : r.asks? ctx = none) :
    Task.Only (Service.Asks ctx.policy.ttl Q) (handle ctx r) := by
  rcases handle_eq ctx r with ⟨e, part, hroute, he⟩ | ⟨-, response, he⟩
  · rw [he]
    refine .bind ?_ fun _ => .pure _
    unfold serve
    split
    next => exact .pure _
    next body hbody =>
      split
      next => exact .pure _
      next c hcaller =>
        simp only [Request.asks?, hroute, hbody, hcaller] at h
        exact .tryCatch (only_perform hready h) fun f => only_recover _ _ f
  · rw [he]
    exact .pure response

end

end Renewals.Http
