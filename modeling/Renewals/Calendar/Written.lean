import Renewals.Calendar.Day
import Renewals.Text.Loose
/-! Dates as people write them in requests: day, month and year, or year, month and day, joined by
hyphens. -/
namespace Renewals.Day

def nonzeroValue? (c : Char) : Option Nat :=
  if '1' ≤ c ∧ c ≤ '9' then some (c.toNat - '0'.toNat) else none

/-- One digit or two; a zero or a space may stand in front of one digit, and behind a one or a two
a digit of any script. -/
def dayField? : List Char → Option Nat
  | [c] => nonzeroValue? c
  | [t, c] =>
    if t = '0' ∨ t = ' ' then nonzeroValue? c
    else if t = '1' then (Text.digitValue? c).map (10 + ·)
    else if t = '2' then (Text.digitValue? c).map (20 + ·)
    else if t = '3' ∧ c = '0' then some 30
    else if t = '3' ∧ c = '1' then some 31
    else none
  | _ => none

def monthField? : List Char → Option Nat
  | [c] => nonzeroValue? c
  | [t, c] =>
    if t = '0' then nonzeroValue? c
    else if t = '1' ∧ c = '0' then some 10
    else if t = '1' ∧ c = '1' then some 11
    else if t = '1' ∧ c = '2' then some 12
    else none
  | _ => none

/-- Four digits of any script. -/
def yearField? : List Char → Option Nat
  | [a, b, c, d] => do
    let a ← Text.digitValue? a
    let b ← Text.digitValue? b
    let c ← Text.digitValue? c
    let d ← Text.digitValue? d
    pure (Text.ofDigits [a, b, c, d])
  | _ => none

/-- The texts before, between and behind the first two hyphens. -/
def threeFields? (cs : List Char) : Option (List Char × List Char × List Char) :=
  match cs.span (· ≠ '-') with
  | (a, _ :: rest) =>
    match rest.span (· ≠ '-') with
    | (b, _ :: c) => some (a, b, c)
    | _ => none
  | _ => none

def ofFields? (year month day : Option Nat) : Option Day := do
  (make (← year) (← month) (← day)).toOption

def readDayMonthYear? (cs : List Char) : Option Day :=
  (threeFields? cs).bind fun f => ofFields? (yearField? f.2.2) (monthField? f.2.1) (dayField? f.1)

def readYearMonthDay? (cs : List Char) : Option Day :=
  (threeFields? cs).bind fun f => ofFields? (yearField? f.1) (monthField? f.2.1) (dayField? f.2.2)

/-- The reading of a request date, blanks around it aside. -/
def readWritten? (s : String) : Option Day :=
  let cs := Text.trim s.toList
  (readDayMonthYear? cs).orElse fun _ => readYearMonthDay? cs

def readWrittenText? (t : LooseText) : Option Day := t.whole?.bind readWritten?

end Renewals.Day
