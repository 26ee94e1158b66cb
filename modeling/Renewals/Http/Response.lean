import Renewals.Http.Validation
import Renewals.Json.Compact
import Renewals.Subscription.Payload
/-! What is answered to a request. -/
namespace Renewals.Http

inductive Content
  | json (v : Json)
  | text (s : String)
  | faults (fs : List (Field.Complaint × List Field.Place))

structure Response where
  status : Nat
  content : Content
  allow : Option String
  location : Option String

namespace Response

def json (status : Nat) (v : Json) : Response := ⟨status, .json v, none, none⟩

def text (status : Nat) (s : String) : Response := ⟨status, .text s, none, none⟩

def detail (status : Nat) (s : String) : Response := json status (.obj [("detail", .str s)])

def internal : Response := text 500 "Internal Server Error"

def unavailable : Response := detail 503 "Service unavailable"

end Response

/-- Faults are reported with the faulty values, which must have a strict written form. -/
def Response.faulty (fs : List Field.Fault) : Response :=
  if fs.all fun f => f.input.isStrict then
    ⟨422, .faults (fs.map fun f => (f.complaint, f.place)), none, none⟩
  else .internal

def placeJson : Field.Place → Json
  | .name s => .str s
  | .offset n => .int n

def faultJson (complaint : Field.Complaint) (place : List Field.Place) : Json :=
  .obj [("type", .str complaint.code), ("loc", .arr (place.map placeJson))]

def Content.toJson : Content → Json
  | .json v => v
  | .text s => .str s
  | .faults fs => .arr (fs.map fun f => faultJson f.1 f.2)

def header (name : String) : Option String → Json.Members
  | some s => [(name, .str s)]
  | none => []

/-- Status and body, and the headers that are there. -/
def Response.toJson (r : Response) : Json :=
  .obj (("status", .int r.status) :: ("body", r.content.toJson) ::
    (header "allow" r.allow ++ header "location" r.location))

/-- The public form of an entry; nothing if a field has the wrong type. -/
def present (s : Snapshot) : Except Field.Complaint Json := do
  let id ← match s.id with
    | .null => pure Json.null
    | v => Json.int <$> Field.whole v
  let serviceName ← Field.wholeText s.serviceName
  let username ← Field.wholeText s.username
  pure (.obj
    [("id", id), ("service_name", .str serviceName), ("price", .int s.price),
      ("username", .str username), ("start_date", s.startDate.toJson),
      ("counter_months", .int s.counterMonths),
      ("next_payment_date", Json.optional Day.toJson s.nextPayment),
      ("is_active", .bool s.isActive)])

end Renewals.Http
