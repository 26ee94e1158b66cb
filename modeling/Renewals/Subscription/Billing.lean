import Renewals.Calendar.Month
/-! Payment dates that have passed are moved forward by whole months. -/
namespace Renewals.Billing

/-- The first day of the chain of monthly steps that is not before `today`, within `steps` steps. -/
def rollWithin (today : Day) : Nat → Day → Except Day.Fault Day
  | 0, d => .ok d
  | steps + 1, d =>
    if d < today then
      match d.addMonths 1 with
      | .ok e => rollWithin today steps e
      | .error f => .error f
    else .ok d

/-- Each step moves to the next month, so one step more than there are months in between is
enough. -/
def rollForward (today d : Day) : Except Day.Fault Day :=
  rollWithin today (today.monthIndex + 1 - d.monthIndex) d

end Renewals.Billing
