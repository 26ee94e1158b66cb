import Renewals.Subscription.Payload
/-! Messages about payments that fall due. -/
namespace Renewals

/-- Which day, seen from today, a scan is about. -/
inductive Horizon
  | dueTomorrow
  | dueToday
  deriving DecidableEq, Repr

namespace Horizon

def name : Horizon → String
  | dueTomorrow => "due_tomorrow"
  | dueToday => "due_today"

def all : List Horizon := [dueTomorrow, dueToday]

def ofName? (s : String) : Option Horizon := all.find? (·.name == s)

inductive Fault
  | unknown (shown : LooseText)
  | date (f : Day.Fault)
  deriving DecidableEq, Repr

def Fault.message : Fault → LooseText
  | .unknown shown => shown.append "unknown horizon: "
  | .date f => f.message

def target (h : Horizon) (today : Day) : Except Day.Fault Day :=
  match h with
  | dueToday => .ok today
  | dueTomorrow => today.next

/-- The horizon that a value of any kind names. -/
def read : Json → Except Fault Horizon
  | .str s =>
    match s.whole?.bind ofName? with
    | some h => .ok h
    | none => .error (.unknown s)
  | v => .error (.unknown v.shown)

def targetOf (v : Json) (today : Day) : Except Fault Day := do
  ((← read v).target today).mapError .date

end Horizon

/-- A payment of an entry that falls due. -/
structure Notice where
  subscriptionId : Option Int
  username : LooseText
  serviceName : LooseText
  price : Int
  nextPayment : Day
  horizon : LooseText
  userUid : Option LooseText
  deriving DecidableEq

inductive NoticeFault
  | noPaymentDate
  deriving DecidableEq, Repr

def NoticeFault.message : NoticeFault → String
  | .noPaymentDate => "'NoneType' object has no attribute 'isoformat'"

def Entry.notice (e : Entry) (horizon : LooseText) : Except NoticeFault Notice :=
  match e.nextPayment with
  | none => .error .noPaymentDate
  | some day => .ok ⟨e.id, e.username, e.serviceName, e.price, day, horizon, e.userUid⟩

def Notice.toJson (n : Notice) : Json :=
  .obj
    [("subscription_id", Json.optional .int n.subscriptionId), ("username", .str n.username),
      ("service_name", .str n.serviceName), ("price", .int n.price),
      ("next_payment_date", n.nextPayment.toJson), ("horizon", .str n.horizon),
      ("user_uid", Json.optional .str n.userUid)]

end Renewals
