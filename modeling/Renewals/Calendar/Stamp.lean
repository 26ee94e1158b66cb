import Renewals.Calendar.Iso
import Renewals.Calendar.Moment
/-! Standard texts of a moment: a date, any character, a time of day, and maybe the distance from
universal time. -/
namespace Renewals

/-- Hours, minutes, seconds and microseconds as they are written, in range or not. -/
structure Clock where
  hour : Nat
  minute : Nat
  second : Nat
  micro : Nat
  deriving DecidableEq, Repr

def Clock.micros (c : Clock) : Nat :=
  c.hour * Moment.hour + c.minute * Moment.minute + c.second * Moment.second + c.micro

/-- What a text says, before it is known to be a moment. -/
structure Stamp where
  date : Day.IsoParts
  clock : Clock
  zone : Option Int

namespace Stamp

inductive Fault
  | form (text : LooseText)
  | zone (micros : Int)
  | date (f : Day.Fault)
  | hour
  | minute
  | second
  deriving DecidableEq, Repr

/-- A length of time as days, seconds and microseconds of which only the days can be negative. -/
def shownLength (micros : Int) : String :=
  let second : Int := Moment.second
  let days := micros.fdiv Moment.dayLength
  let rest := micros.fmod Moment.dayLength
  let part (name : String) (n : Int) : List String := if n = 0 then [] else [s!"{name}={n}"]
  let parts := part "days" days ++ part "seconds" (rest / second) ++
    part "microseconds" (rest % second)
  let shown := if parts.isEmpty then "0" else ", ".intercalate parts
  s!"datetime.timedelta({shown})"

def Fault.message : Fault → String
  | .form s => "Invalid isoformat string: " ++ s.quoted
  | .zone n =>
    "offset must be a timedelta strictly between -timedelta(hours=24) and " ++
      s!"timedelta(hours=24), not {shownLength n}."
  | .date f => f.message
  | .hour => "hour must be in 0..23"
  | .minute => "minute must be in 0..59"
  | .second => "second must be in 0..59"

def isEnd (cs : List Char) : Bool := cs.isEmpty || cs.head? == some '\x00'

/-- Up to six digits of a fraction and whether nothing follows. Further digits are dropped. -/
def readFraction? (cs : List Char) : Option (Nat × Bool) := do
  let places := min 6 cs.length
  let (n, rest) ← Day.digitsOf? places 0 cs
  pure (n * Nat.pow 10 (6 - places), isEnd (rest.dropWhile Text.isAsciiDigit))

/-- The fields of a clock are pairs of digits, all with colons in between or all without. The
first `missing` fields are still to be read. -/
def readFields? (colons : Option Bool) : Nat → List Char → Option (List Nat × Nat × Bool)
  | 0, cs => do
    let (n, whole) ← readFraction? cs
    pure ([], n, whole)
  | missing + 1, cs => do
    let (n, rest) ← Day.digitsOf? 2 0 cs
    let done (micro : Nat) (whole : Bool) : Option (List Nat × Nat × Bool) :=
      some ([n], micro, whole)
    match rest with
    | [] => done 0 true
    | c :: more =>
      let colons := colons.getD (c == ':')
      if more.isEmpty && c.utf8Size == 1 then done 0 (c == '\x00')
      else if colons && c == ':' then do
        let (ns, micro, whole) ← readFields? (some colons) missing more
        pure (n :: ns, micro, whole)
      else if c == '.' || c == ',' then do
        let (micro, whole) ← readFraction? more
        done micro whole
      else if !colons then do
        let (ns, micro, whole) ← readFields? (some colons) missing (c :: more)
        pure (n :: ns, micro, whole)
      else none

/-- A clock of one field to three, and whether nothing follows it. -/
def readClock? (cs : List Char) : Option (Clock × Bool) := do
  let (fields, micro, whole) ← readFields? none 3 cs
  pure (⟨fields.getD 0 0, fields.getD 1 0, fields.getD 2 0, micro⟩, whole)

def isZoneMark (c : Char) : Bool := c == '+' || c == '-' || c == 'Z'

/-- The distance from universal time behind its mark. -/
def readZone? (mark : Char) (cs : List Char) : Option Int :=
  if mark = 'Z' then if isEnd cs then some 0 else none
  else do
    let (c, whole) ← readClock? cs
    if !whole then none
    else
      -- a distance below a second counts as none
      let n : Int := if c.micros < Moment.second then 0 else c.micros
      pure (if mark = '-' then -n else n)

/-- A clock must fill the text unless a zone follows. -/
def readTime? (cs : List Char) : Option (Clock × Option Int) :=
  match cs.span (!isZoneMark ·) with
  | (clock, mark :: zone) => do
    let (c, _) ← readClock? clock
    pure (c, some (← readZone? mark zone))
  | (clock, []) => do
    let (c, whole) ← readClock? clock
    if whole then pure (c, none) else none

/-- How long the date in front of a text is. Behind a compact week an odd number of digits means
that a weekday belongs to it; behind a week with hyphens a hyphen and digits are the time. -/
def dateLength? (cs : List Char) : Option Nat :=
  let n := Day.encodedLength cs
  let digitAt (i : Nat) : Bool := (cs[i]?).any Text.isAsciiDigit
  if n = 7 then some 7
  else if cs[4]? = some '-' then
    if cs[5]? = some 'W' then
      if n > 8 ∧ cs[8]? = some '-' then
        if n = 9 then none else if n > 10 ∧ digitAt 10 then some 8 else some 10
      else some 8
    else some 10
  else if cs[4]? = some 'W' then
    let stop := 7 + ((cs.drop 7).takeWhile Text.isAsciiDigit).length
    if stop < 9 then some stop else if stop % 2 = 0 then some 7 else some 8
  else some 8

/-- Whatever stands behind the date must be a character and a time. -/
def read? (cs : List Char) : Option Stamp := do
  let n ← dateLength? cs
  let date ← Day.readParts? (cs.take n)
  match cs.drop n with
  | [] => pure ⟨date, ⟨0, 0, 0, 0⟩, none⟩
  | _ :: rest => do
    let (clock, zone) ← readTime? rest
    pure ⟨date, clock, zone⟩

def checkZone (zone : Option Int) : Except Fault Unit :=
  match zone with
  | some n => if n.natAbs < Moment.dayLength then .ok () else .error (.zone n)
  | none => .ok ()

def day (s : Stamp) : Except Fault Day :=
  match s.date with
  | .monthDay y m d => (Day.make y m d).mapError .date
  | .weekDay y w d => (Day.ofWeek y w d).mapError .date

def checkClock (c : Clock) : Except Fault Unit :=
  if 24 ≤ c.hour then .error .hour
  else if 60 ≤ c.minute then .error .minute
  else if 60 ≤ c.second then .error .second
  else .ok ()

/-- The time without a zone is universal, but then the first day has no day before it that time
could be measured against. -/
def toMoment (s : Stamp) : Except Fault Moment := do
  checkZone s.zone
  let d ← s.day
  checkClock s.clock
  let m ← (Moment.roundUp ⟨d, s.clock.micros⟩).mapError .date
  match s.zone with
  | some n => (Moment.ofOffset m.day (m.micro - n)).mapError .date
  | none =>
    let _ ← (Moment.previous m.day).mapError fun _ => .date (.year 0)
    pure m

end Stamp

/-- Where the character between a date and a time may be. -/
def Stamp.joints : List Nat := [7, 8, 10]

/-- A half of a surrogate pair may join a date and a time like any character, but only the first
that stands where one may be counts as such. -/
def Stamp.joined (s : LooseText) : LooseText :=
  match joints.find? fun i => (s.points[i]?).any (·.char?.isNone) with
  | some i => .ofPoints (s.points.set i (.char 'T'))
  | none => s

/-- The first full second that is not before the moment a text tells, moved to universal time. -/
def Moment.read (s : LooseText) : Except Stamp.Fault Moment :=
  match ((Stamp.joined s).whole?.map String.toList).bind Stamp.read? with
  | none => .error (.form s)
  | some stamp => stamp.toMoment

end Renewals
