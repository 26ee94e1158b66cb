import Renewals.Calendar.Month
import Renewals.Calendar.Written
import Renewals.Json.Shown
/-! Terms of subscriptions: a start, a number of months, and the billing dates in between. -/
namespace Renewals

/-- What a client can put right. -/
inductive Refusal
  | unreadableStart (shown : String)
  | noMonths
  | lapsed
  | nameless
  | negativePrice
  deriving DecidableEq, Repr

def Refusal.message : Refusal → String
  | .unreadableStart shown => "invalid start date: " ++ shown
  | .noMonths => "counter_months must be a positive number of months"
  | .lapsed => "subscription end date must not be earlier than today"
  | .nameless => "service_name must not be empty"
  | .negativePrice => "price must not be negative"

inductive TermFault
  | refused (r : Refusal)
  | date (f : Day.Fault)
  deriving DecidableEq, Repr

def TermFault.message : TermFault → String
  | .refused r => r.message
  | .date f => f.message

namespace Term

/-- The start date of a request. -/
def readStart (s : LooseText) : Except Refusal Day :=
  match Day.readWrittenText? s with
  | some d => .ok d
  | none => .error (.unreadableStart (s.quoted))

inductive StartFault
  | refused (r : Refusal)
  | notText (kind : String)
  deriving DecidableEq, Repr

def StartFault.message : StartFault → String
  | .refused r => r.message
  | .notText kind => s!"'{kind}' object has no attribute 'strip'"

/-- The start date in a value of any kind; an absent one counts as empty text. -/
def readStartValue : Json → Except StartFault Day
  | .str s => (readStart s).mapError .refused
  | v => .error (if v.truthy then .notText v.kind else .refused (.unreadableStart v.shown))

def endDate (start : Day) (months : Int) : Except Day.Fault Day := start.addMonths months

/-- A term has months and does not end before today. -/
def validate (start : Day) (months : Int) (today : Day) : Except TermFault Day :=
  if months ≤ 0 then .error (.refused .noMonths)
  else
    match endDate start months with
    | .error f => .error (.date f)
    | .ok last => if last < today then .error (.refused .lapsed) else .ok last

/-- Months from the start that have begun on a day: whole months, and one more once the day of the
month has passed. -/
def monthsBegun (start day : Day) : Int :=
  (day.year - start.year) * 12 + day.month - start.month + (if start.day < day.day then 1 else 0)

/-- Months of a term still to be billed on a day. -/
def monthsLeft (start : Day) (months : Int) (day : Day) : Except Day.Fault Int :=
  match endDate start months with
  | .error f => .error f
  | .ok last =>
    if last ≤ day then .ok 0
    else if day ≤ start then .ok months
    else .ok (max (months - monthsBegun start day) 0)

end Term
end Renewals
