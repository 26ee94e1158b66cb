import Renewals.Http.Response
import Renewals.Service.Basic
/-! The service over requests. Faults of the client and of the service behind it are told apart by
the status of the response. -/
namespace Renewals.Http

/-- What a request needs from outside: the rules of the service and the day. -/
structure Context where
  policy : Policy
  today : Day

def presented (status : Nat) (r : Except Field.Complaint Json) : Response :=
  match r with
  | .ok v => .json status v
  | .error _ => .internal

def counted (rows : Nat) : Response :=
  if rows = 0 then .detail 404 "Subscription not found" else .json 200 (.obj [("rows", .int rows)])

/-- A response to input that is right, the list of faults to input that is not. -/
def checked {α : Type} (input : Checked α) (next : α → Task Response) : Task Response :=
  match input with
  | .ok a => next a
  | .error fs => pure (.faulty fs)

/-- An endpoint for a caller. -/
def perform (ctx : Context) (c : Caller) (e : Endpoint) (part : String)
    (query : List (String × String)) (body : Received) : Task Response :=
  match e with
  | .create =>
    checked (readOrder body) fun o => do
      let id ← Service.create ctx.policy ctx.today c.username o c.userUid
      pure (.json 201 (.obj [("id", .int id)]))
  | .list =>
    checked (readPage query) fun page => do
      let rows ← Service.list ctx.policy c.username c.role page.1 page.2
      pure (presented 200 (Json.arr <$> rows.mapM fun r => present r.snapshot))
  | .sum =>
    checked (readSumOrder body) fun o => do
      let total ← Service.sum c.username o
      pure (.json 200 (.obj [("total", .int total)]))
  | .read =>
    checked (readId part) fun id => do
      pure (presented 200 (present (← Service.read ctx.policy id)))
  | .update =>
    checked (both (readId part) (readOrder body)) fun input => do
      pure (counted (← Service.update ctx.policy ctx.today input.1 c.username input.2 c.userUid))
  | .remove =>
    checked (readId part) fun id => do
      pure (counted (← Service.remove id))
  | .health => pure (.text 200 "ok")
  | .ready => do
    let _ ← Task.ask .ready
    pure (.text 200 "ok")

def takesBody : Endpoint → Bool
  | .create | .sum | .update => true
  | _ => false

def needsCaller : Endpoint → Bool
  | .health | .ready => false
  | _ => true

/-- A body is read before the caller is asked for. -/
def receive (r : Request) (e : Endpoint) : Except Response Received :=
  if takesBody e then
    r.received.mapError fun
      | .syntaxAt offset => .faulty [⟨.invalidJson, [.name "body", .offset offset], .null⟩]
      | .unreadable => .detail 400 "There was an error parsing the body"
  else .ok .nothing

def identify (r : Request) (e : Endpoint) : Except Response Caller :=
  match r.caller? with
  | some c => .ok c
  | none =>
    if needsCaller e then .error (.detail 401 "Not authenticated") else .ok ⟨"", "", none⟩

/-- Tabs and line breaks of a path do not show. -/
def shownPath (path : List Char) : String :=
  String.ofList (path.filter fun c => c ≠ '\t' ∧ c ≠ '\n' ∧ c ≠ '\r')

/-- What a failure is answered with; a service that is unavailable is logged. -/
def recover (method path : String) : Failure → Task Response
  | .term (.refused r) => pure (.detail 400 r.message)
  | .store (.notFound id) => pure (.detail 404 (StoreFault.notFound id).message)
  | .store (.unavailable q cause) => do
    Task.log .error s!"{method} {path} failed: {(StoreFault.unavailable q cause).message}"
    pure .unavailable
  | .cache f =>
    if f.isUnavailable then do
      Task.log .error (f.message.append s!"{method} {path} failed: ")
      pure .unavailable
    else pure .internal
  | _ => pure .internal

def serve (ctx : Context) (r : Request) (path : List Char) (query : List (String × String))
    (e : Endpoint) (part : String) : Task Response :=
  match receive r e with
  | .error response => pure response
  | .ok body =>
    match identify r e with
    | .error response => pure response
    | .ok c => tryCatch (perform ctx c e part query body) (recover r.method (shownPath path))

/-- Nothing but the status and the headers answers a request for the head of a response. -/
def headOnly (method : String) (r : Response) : Response :=
  if method = "HEAD" then { r with content := .text "" } else r

def handle (ctx : Context) (r : Request) : Task Response := do
  let path := r.target.decodedPath
  let response ← match route r.method path with
    | .found e part => serve ctx r path (Text.readQuery r.target.query) e part
    | .wrongMethod allow =>
      pure { Response.detail 405 "Method Not Allowed" with allow := some allow }
    | .moved other =>
      pure { Response.text 307 "" with location := some (location r.target.scheme r.host other r.target.query) }
    | .missing => pure (.detail 404 "Not Found")
  pure (headOnly r.method response)

end Renewals.Http
