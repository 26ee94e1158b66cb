import Renewals.Calendar.Iso
import Renewals.Number.Numeral
import Renewals.Subscription.Entry
/-! Entries as structured values. What is read back has checked dates and numbers; the other fields
pass through as they are. -/
namespace Renewals

structure Snapshot where
  serviceName : Json
  price : Int
  username : Json
  startDate : Day
  counterMonths : Int
  nextPayment : Option Day
  isActive : Bool
  userUid : Json
  id : Json

def Entry.snapshot (e : Entry) : Snapshot where
  serviceName := .str e.serviceName
  price := e.price
  username := .str e.username
  startDate := e.startDate
  counterMonths := e.counterMonths
  nextPayment := e.nextPayment
  isActive := e.isActive
  userUid := Json.optional .str e.userUid
  id := Json.optional .int e.id

def Row.snapshot (r : Row) : Snapshot := r.entry.snapshot

def Day.toJson (d : Day) : Json := .str d.iso

def Snapshot.toJson (s : Snapshot) : Json :=
  .obj
    [("service_name", s.serviceName), ("price", .int s.price), ("username", s.username),
      ("start_date", s.startDate.toJson), ("counter_months", .int s.counterMonths),
      ("next_payment_date", Json.optional Day.toJson s.nextPayment),
      ("is_active", .bool s.isActive), ("user_uid", s.userUid), ("id", s.id)]

def Entry.toJson (e : Entry) : Json := e.snapshot.toJson

def Row.toJson (r : Row) : Json := r.entry.toJson

inductive DecodeFault
  | notRecord (kind : String)
  | missing (name : String)
  | notNumber (kind : String)
  | numeral (f : Numeral.Fault)
  | infinite
  | undefined
  | dateNotText
  | date (f : Day.IsoFault)
  deriving DecidableEq, Repr

def DecodeFault.message : DecodeFault → String
  | .notRecord kind => s!"'{kind}' object has no attribute 'get'"
  | .missing name => Text.quoted name
  | .notNumber kind =>
    s!"int() argument must be a string, a bytes-like object or a real number, not '{kind}'"
  | .numeral f => f.message
  | .infinite => "cannot convert float infinity to integer"
  | .undefined => "cannot convert float NaN to integer"
  | .dateNotText => "fromisoformat: argument must be str"
  | .date f => f.message

/-- Readers of a cache know about wrong kinds and values, not about a missing record or an infinite
number. -/
def DecodeFault.isHandled : DecodeFault → Bool
  | .notRecord _ | .infinite => false
  | _ => true

namespace Snapshot

def readWhole : Json → Except DecodeFault Int
  | .int n => .ok n
  | .bool b => .ok (if b then 1 else 0)
  | .float (.infinite _) => .error .infinite
  | .float .undefined => .error .undefined
  | .float x => .ok (x.truncate?.getD 0)
  | .str s => (Numeral.read s).mapError .numeral
  | v => .error (.notNumber v.kind)

def readDate : Json → Except DecodeFault Day
  | .str s => (Day.readIsoText s).mapError .date
  | _ => .error .dateNotText

def member (v : Json) (name : String) : Except DecodeFault Json :=
  match v.get? name with
  | some w => .ok w
  | none => .error (.missing name)

def orNull (v : Json) (name : String) : Json := (v.get? name).getD .null

/-- The first faulty field in the order of reading decides. An absent activity counts as active, a
payment date that is absent or empty as none. -/
def ofJson (v : Json) : Except DecodeFault Snapshot := do
  let .obj _ := v | throw (.notRecord v.kind)
  let serviceName ← member v "service_name"
  let price ← readWhole (← member v "price")
  let username ← member v "username"
  let startDate ← readDate (← member v "start_date")
  let counterMonths ← readWhole (← member v "counter_months")
  let next := orNull v "next_payment_date"
  let nextPayment ← if next.truthy then some <$> readDate next else pure none
  pure {
    serviceName, price, username, startDate, counterMonths, nextPayment
    isActive := ((v.get? "is_active").map Json.truthy).getD true
    userUid := orNull v "user_uid"
    id := orNull v "id" }

end Snapshot
end Renewals
