import Renewals.Http.Request
import Renewals.Json.Compact
/-! Requests as a client is asked to send them, and what makes that impossible. -/
namespace Renewals.Http

inductive Payload
  | none
  | value (v : Json)
  | text (t : LooseText)

structure Draft where
  method : String
  path : LooseText
  headers : List (LooseText × LooseText)
  payload : Payload

namespace Draft

inductive Fault
  | target (f : Target.Fault)
  | gap (g : Gap)
  | infinite
  deriving DecidableEq, Repr

def Fault.message : Fault → String
  | .target f => f.message
  | .gap g => g.message
  | .infinite => "Out of range float values are not JSON compliant"

/-- Text whose characters all have bytes. -/
def encodable (c : Charset) (t : LooseText) : Except Fault String :=
  match c.gap? t.points with
  | .some g => .error (.gap g)
  | .none => .ok t.mended

def Payload.text? : Payload → Except Fault (Option String)
  | .none => .ok .none
  | .text t => (encodable .unicode t).map some
  | .value v =>
    match v.compact? with
    | .none => .error .infinite
    | .some ps => (encodable .unicode (.ofPoints ps)).map some

/-- What is sent as a value or as text is declared to be structured, unless the headers say
otherwise. -/
def contentType (payload : Option String) (headers : List (String × String)) :
    List (String × String) :=
  if payload.isSome && !headers.any (sameName "Content-Type" ·.1) then
    headers ++ [("Content-Type", "application/json")]
  else headers

/-- The request, whose method is in capitals. -/
def request (d : Draft) : Except Fault Request := do
  let values ← d.headers.mapM fun h => encodable .unicode h.2
  let target ← (Target.read d.path).mapError .target
  let names ← d.headers.mapM fun h => encodable .ascii h.1
  let payload ← Payload.text? d.payload
  let headers := contentType payload (names.zip values)
  pure ⟨d.method.toUpper, target, headers, payload.getD ""⟩

def textOf (v : Json) (name standard : String) : LooseText :=
  match v.get? name with
  | some (.str s) => s
  | _ => standard

/-- A draft without a method is one to read, and one without a path is for the root. -/
def ofJson (v : Json) : Draft where
  method := (textOf v "method" "GET").mended
  path := textOf v "path" "/"
  headers := match v.get? "headers" with
    | some (.obj ms) => ms.filterMap fun m =>
      match m.2 with
      | .str s => some (m.1, s)
      | _ => none
    | _ => []
  payload := match v.get? "json", v.get? "body" with
    | some .null, _ | none, none => .none
    | some w, _ => .value w
    | none, some (.str t) => .text t
    | none, some _ => .none

end Draft
end Renewals.Http
