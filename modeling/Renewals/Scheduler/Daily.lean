import Renewals.Calendar.Stamp
/-! Jobs that run every day at a full hour of universal time. -/
namespace Renewals.Daily

inductive Fault
  | hourAbove (hour : Int)
  | hourUnread (hour : Int)
  deriving DecidableEq, Repr

def Fault.message : Fault → String
  | .hourAbove h =>
    s!"Error validating expression '{h}': the last value ({h}) is higher than the maximum value (23)"
  | .hourUnread h => s!"Unrecognized expression \"{h}\" for field \"hour\""

def checkHour (hour : Int) : Except Fault Nat :=
  if hour < 0 then .error (.hourUnread hour)
  else if 23 < hour then .error (.hourAbove hour)
  else .ok hour.toNat

/-- Why there is no next moment. The search runs beyond its fields only from the last second of
all. -/
inductive NextFault
  | unread (f : Stamp.Fault)
  | never
  | beyondFields
  deriving DecidableEq, Repr

def NextFault.message : NextFault → String
  | .unread f => f.message
  | .never => "'NoneType' object has no attribute 'isoformat'"
  | .beyondFields => "list index out of range"

/-- No job runs before the first day of the calendar of schedules. -/
def firstDay : Day := ⟨1970, 1, 1, by decide, by decide, by decide⟩

/-- The first moment at a full hour that is not before `m`; what is within the second of the hour
is at the hour. -/
def nextAt (hour : Nat) (m : Moment) : Except NextFault Moment :=
  if m.day < firstDay then .ok ⟨firstDay, hour * Moment.hour⟩
  else if m.micro / Moment.second = hour * 3600 then .ok m
  else if m.micro < hour * Moment.hour then .ok ⟨m.day, hour * Moment.hour⟩
  else
    match m.day.next with
    | .ok d => .ok ⟨d, hour * Moment.hour⟩
    | .error _ => .error (if m.micro / Moment.second = 86399 then .beyondFields else .never)

/-- The next moment from a moment that a text tells. -/
def next (hour : Nat) (now : LooseText) : Except NextFault Moment := do
  nextAt hour (← (Moment.read now).mapError .unread)

end Renewals.Daily
