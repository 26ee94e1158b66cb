import Renewals.Text.Digit
/-! Days of the Gregorian calendar in the years 1 to 9999. -/
namespace Renewals

def isLeap (year : Nat) : Bool := year % 4 == 0 && (year % 100 != 0 || year % 400 == 0)

def monthLength (year month : Nat) : Nat :=
  if month = 2 then if isLeap year then 29 else 28
  else if month = 4 ∨ month = 6 ∨ month = 9 ∨ month = 11 then 30
  else 31

def yearLength (year : Nat) : Nat := if isLeap year then 366 else 365

theorem monthLength_ge (year month : Nat) : 28 ≤ monthLength year month := by
  unfold monthLength
  repeat' split
  all_goals omega

theorem monthLength_le (year month : Nat) : monthLength year month ≤ 31 := by
  unfold monthLength
  repeat' split
  all_goals omega

structure Day where
  year : Nat
  month : Nat
  day : Nat
  year_range : 1 ≤ year ∧ year ≤ 9999
  month_range : 1 ≤ month ∧ month ≤ 12
  day_range : 1 ≤ day ∧ day ≤ monthLength year month
  deriving DecidableEq

namespace Day

/-- Why numbers name no day. A year is first brought into a machine word. -/
inductive Fault
  | year (year : Int)
  | yearAboveWord
  | yearBelowWord
  | yearBeyondWide
  | month
  | day
  | outOfRange
  deriving DecidableEq, Repr

def Fault.ofYear (year : Int) : Fault :=
  if year < -0x8000000000000000 ∨ 0x8000000000000000 ≤ year then .yearBeyondWide
  else if year < -0x80000000 then .yearBelowWord
  else if 0x80000000 ≤ year then .yearAboveWord
  else .year year

def Fault.message : Fault → String
  | .year y => s!"year {y} is out of range"
  | .yearAboveWord => "signed integer is greater than maximum"
  | .yearBelowWord => "signed integer is less than minimum"
  | .yearBeyondWide => "Python int too large to convert to C long"
  | .month => "month must be in 1..12"
  | .day => "day is out of range for month"
  | .outOfRange => "date value out of range"

/-- The year is checked first, then the month, then the day. -/
def make (year : Int) (month day : Nat) : Except Fault Day :=
  if hy : 1 ≤ year ∧ year ≤ 9999 then
    if hm : 1 ≤ month ∧ month ≤ 12 then
      if hd : 1 ≤ day ∧ day ≤ monthLength year.toNat month then
        .ok ⟨year.toNat, month, day, by omega, hm, hd⟩
      else .error .day
    else .error .month
  else .error (.ofYear year)

theorem make_self (d : Day) : make d.year d.month d.day = .ok d := by
  have hy := d.year_range
  simp only [make, Int.toNat_natCast, d.month_range, d.day_range, and_self, ↓reduceDIte]
  rw [dif_pos (by omega)]

/-- Months since January of year 0. -/
def monthIndex (d : Day) : Nat := d.year * 12 + (d.month - 1)

/-- Days in calendar order have increasing keys. -/
def key (d : Day) : Nat := d.monthIndex * 32 + d.day

instance : LT Day := ⟨fun a b => a.key < b.key⟩
instance : LE Day := ⟨fun a b => a.key ≤ b.key⟩
instance (a b : Day) : Decidable (a < b) := inferInstanceAs (Decidable (a.key < b.key))
instance (a b : Day) : Decidable (a ≤ b) := inferInstanceAs (Decidable (a.key ≤ b.key))

theorem lt_iff {a b : Day} : a < b ↔ a.key < b.key := Iff.rfl
theorem le_iff {a b : Day} : a ≤ b ↔ a.key ≤ b.key := Iff.rfl

/-- The day after. -/
def next (d : Day) : Except Fault Day :=
  if d.day < monthLength d.year d.month then make d.year d.month (d.day + 1)
  else if d.month < 12 then make d.year (d.month + 1) 1
  else if d.year < 9999 then make (d.year + 1) 1 1
  else .error .outOfRange

/-- Year, month and day with hyphens. -/
def isoChars (d : Day) : List Char :=
  Text.padded 4 d.year ++ '-' :: Text.padded 2 d.month ++ '-' :: Text.padded 2 d.day

def iso (d : Day) : String := String.ofList d.isoChars

instance : ToString Day := ⟨iso⟩

end Day
end Renewals
