import Renewals.Calendar.Day
/-! Steps of whole months: the day of the month is kept, or the last of a shorter month taken. -/
namespace Renewals.Day

/-- The day in the month of an index since January of year 0, cut to the month's length. -/
def inMonth (index : Int) (day : Nat) : Except Fault Day :=
  let year := index / 12
  let month := (index % 12).toNat + 1
  make year month (min day (monthLength year.toNat month))

def addMonths (d : Day) (n : Int) : Except Fault Day := inMonth (d.monthIndex + n) d.day

end Renewals.Day
