import Renewals.Calendar.Day
import Renewals.Text.Loose
/-! Standard date texts: year, month and day, or year, week and weekday, with hyphens or without. -/
namespace Renewals.Day

/-- Weekday of the first of January, Monday being zero. -/
def firstWeekday (year : Nat) : Nat :=
  let y := year - 1
  (y * 365 + y / 4 - y / 100 + y / 400) % 7

/-- A year has a week 53 if it starts on a Thursday, or on a Wednesday in a leap year. -/
def weeksIn (year : Nat) : Nat :=
  let w := firstWeekday year
  if w = 3 ∨ (w = 2 ∧ isLeap year) then 53 else 52

/-- Month and day at an offset of days from the start of a month. -/
def walkMonths (year : Nat) : Nat → Nat → Nat → Nat × Nat
  | 0, month, offset => (month, offset + 1)
  | fuel + 1, month, offset =>
    if offset < monthLength year month then (month, offset + 1)
    else walkMonths year fuel (month + 1) (offset - monthLength year month)

def ofYearOffset (year : Nat) (offset : Int) : Except Fault Day :=
  let (y, n) : Int × Int :=
    if offset < 0 then (year - 1, offset + yearLength (year - 1))
    else if offset < yearLength year then (year, offset)
    else (year + 1, offset - yearLength year)
  let (month, day) := walkMonths y.toNat 12 1 n.toNat
  make y month day

/-- Week 1 is the week of the first Thursday. The weeks of year 0 hold no month. -/
def ofWeek (year week weekday : Nat) : Except Fault Day :=
  if year = 0 then .error .month
  else
    let w : Int := firstWeekday year
    let monday : Int := if w > 3 then 7 - w else -w
    ofYearOffset year (monday + (week - 1 : Nat) * 7 + (weekday - 1 : Nat))

inductive IsoFault
  | form (text : LooseText)
  | day (fault : Fault)
  deriving DecidableEq, Repr

def IsoFault.message : IsoFault → String
  | .form s => "Invalid isoformat string: " ++ s.quoted
  | .day f => f.message

def digit? : List Char → Option (Nat × List Char)
  | c :: cs => (Text.asciiDigitValue? c).map (·, cs)
  | [] => none

/-- A number of exactly so many digits. -/
def digitsOf? : Nat → Nat → List Char → Option (Nat × List Char)
  | 0, n, cs => some (n, cs)
  | k + 1, n, cs => (digit? cs).bind fun r => digitsOf? k (10 * n + r.1) r.2

def hyphen? (expected : Bool) : List Char → Option (List Char)
  | '-' :: cs => if expected then some cs else none
  | cs => if expected then none else some cs

/-- Behind the year: month and day. -/
def readMonthDay? (hyphens : Bool) (cs : List Char) : Option (Nat × Nat) := do
  let (month, cs) ← digitsOf? 2 0 cs
  let cs ← hyphen? hyphens cs
  let (day, _) ← digitsOf? 2 0 cs
  pure (month, day)

/-- Behind the week mark: the week and a weekday, Monday if the text ends. -/
def readWeek? (hyphens : Bool) (cs : List Char) : Option (Nat × Nat) := do
  let (week, cs) ← digitsOf? 2 0 cs
  if cs.isEmpty then pure (week, 1)
  else do
    let cs ← hyphen? hyphens cs
    let (weekday, _) ← digitsOf? 1 0 cs
    pure (week, weekday)

inductive IsoParts
  | monthDay (year month day : Nat)
  | weekDay (year week weekday : Nat)

def readParts? (cs : List Char) : Option IsoParts := do
  let (year, cs) ← digitsOf? 4 0 cs
  let hyphens := cs.head? == some '-'
  let cs := if hyphens then cs.tail else cs
  match cs with
  | 'W' :: cs => do
    let (week, weekday) ← readWeek? hyphens cs
    if 1 ≤ week ∧ week ≤ weeksIn year ∧ 1 ≤ weekday ∧ weekday ≤ 7 then
      pure (.weekDay year week weekday)
    else none
  | cs => do
    let (month, day) ← readMonthDay? hyphens cs
    pure (.monthDay year month day)

def encodedLength (cs : List Char) : Nat := cs.foldr (fun c n => c.utf8Size + n) 0

/-- Only the length, in encoded bytes, limits what may stand behind a complete date. -/
def readIso (s : String) : Except IsoFault Day :=
  let cs := s.toList
  if [7, 8, 10].contains (encodedLength cs) then
    match readParts? cs with
    | none => .error (.form s)
    | some (.monthDay y m d) => (make y m d).mapError .day
    | some (.weekDay y w d) => (ofWeek y w d).mapError .day
  else .error (.form s)

/-- Torn text has no encoded form, and so no length. -/
def readIsoText : LooseText → Except IsoFault Day
  | .whole s => readIso s
  | .torn ps h => .error (.form (.torn ps h))

end Renewals.Day
