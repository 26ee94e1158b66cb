import Renewals.Calendar.Day
/-! Moments of universal time, to the microsecond. -/
namespace Renewals

/-- A day and the microseconds since its start. -/
structure Moment where
  day : Day
  micro : Nat
  deriving DecidableEq

namespace Moment

def second : Nat := 1000000
def minute : Nat := 60 * second
def hour : Nat := 60 * minute
def dayLength : Nat := 24 * hour

/-- The day before. -/
def previous (d : Day) : Except Day.Fault Day :=
  if d.day > 1 then Day.make d.year d.month (d.day - 1)
  else if d.month > 1 then Day.make d.year (d.month - 1) (monthLength d.year (d.month - 1))
  else if d.year > 1 then Day.make (d.year - 1 : Int) 12 31
  else .error .outOfRange

/-- The moment that is so many microseconds from the start of a day, on the day itself or on one of
its neighbours. -/
def ofOffset (d : Day) (offset : Int) : Except Day.Fault Moment :=
  if offset < 0 then (previous d).map fun p => ⟨p, (offset + dayLength).toNat⟩
  else if offset < dayLength then .ok ⟨d, offset.toNat⟩
  else d.next.map fun n => ⟨n, (offset - dayLength).toNat⟩

/-- The first full second that is not before. -/
def roundUp (m : Moment) : Except Day.Fault Moment :=
  ofOffset m.day ((m.micro + (second - 1)) / second * second : Nat)

def clockChars (micro : Nat) : List Char :=
  let fraction := micro % second
  Text.padded 2 (micro / hour) ++ ':' :: Text.padded 2 (micro / minute % 60) ++
    ':' :: Text.padded 2 (micro / second % 60) ++
    if fraction = 0 then [] else '.' :: Text.padded 6 fraction

def text (m : Moment) : String :=
  String.ofList (m.day.isoChars ++ 'T' :: clockChars m.micro ++ "+00:00".toList)

end Moment
end Renewals
