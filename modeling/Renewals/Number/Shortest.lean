import Renewals.Number.Binary64
import Renewals.Text.Digit
/-! The shortest decimal that reads back as the same binary number, and its writing. -/
namespace Renewals.Binary64

/-- The numbers that round to `m · 2 ^ e` lie between `low` and `high` over `den`, ends included
for an even significand. -/
structure Interval where
  low : Nat
  value : Nat
  high : Nat
  den : Nat
  closed : Bool

def interval (m : Nat) (e : Int) : Interval :=
  let narrow := m == leastFull && e > leastExponent
  let scaled (k : Nat) : Nat := k * power 2 e
  let den := 4 * power 2 (-e)
  ⟨scaled (if narrow then 4 * m - 1 else 4 * m - 2), scaled (4 * m), scaled (4 * m + 2), den,
    m % 2 == 0⟩

/-- A decimal `digits · 10 ^ scale`. -/
structure Decimal where
  digits : Nat
  scale : Int
  deriving DecidableEq, Repr

/-- The number in units of a decimal grid. -/
def onGrid (num den : Nat) (scale : Int) : Nat × Nat :=
  (num * power 10 (-scale), den * power 10 scale)

def Interval.holds (i : Interval) (scale : Int) (digits : Nat) : Bool :=
  let (low, den) := onGrid i.low i.den scale
  let (high, _) := onGrid i.high i.den scale
  if i.closed then low ≤ digits * den && digits * den ≤ high
  else low < digits * den && digits * den < high

/-- The point of a grid nearest to the value among its two neighbours that read back. -/
def Interval.nearestOn? (i : Interval) (scale : Int) : Option Decimal :=
  let (v, den) := onGrid i.value i.den scale
  let below := v / den
  match i.holds scale below, i.holds scale (below + 1) with
  | true, true => some ⟨roundHalfEven v den, scale⟩
  | true, false => some ⟨below, scale⟩
  | false, true => some ⟨below + 1, scale⟩
  | false, false => none

/-- Places before the point: the value is below ten to this power and not below a tenth of it. -/
def placesBelowOne (num den : Nat) : Nat → Int → Int
  | 0, p => p
  | fuel + 1, p => if num * 10 ≥ den then p else placesBelowOne (num * 10) den fuel (p - 1)

def places (num den : Nat) : Int :=
  if num ≥ den then (Nat.toDigits 10 (num / den)).length
  else placesBelowOne num den 400 0

/-- Grids of one digit, two digits and so on, until a point reads back. -/
def Interval.shortest (i : Interval) : Decimal :=
  let p := places i.value i.den
  ((List.range 17).findSome? fun k : Nat => i.nearestOn? (p - (k + 1))).getD ⟨0, 0⟩

def decimalOf (m : Nat) (e : Int) : Decimal :=
  if m = 0 then ⟨0, 0⟩ else (interval m e).shortest

/-- How decimals are set: positional between two powers of ten, else with an exponent of at least
two digits. -/
structure Layout where
  leastPositional : Int
  firstScientific : Int

def plain : Layout := ⟨-4, 16⟩

def significantDigits (n : Nat) : List Char :=
  match ((Text.digits n).reverse.dropWhile (· == '0')).reverse with
  | [] => ['0']
  | ds => ds

def Layout.exponent (x : Int) : List Char :=
  'e' :: (if x < 0 then '-' else '+') :: Text.padded 2 x.natAbs

def Layout.positional (ds : List Char) (point : Int) : List Char :=
  if point ≤ 0 then '0' :: '.' :: List.replicate (-point).toNat '0' ++ ds
  else
    let whole := ds.take point.toNat
    let pad := List.replicate (point.toNat - whole.length) '0'
    let rest := ds.drop point.toNat
    whole ++ pad ++ '.' :: (if rest.isEmpty then ['0'] else rest)

def Layout.write (l : Layout) (d : Decimal) : List Char :=
  let ds := significantDigits d.digits
  let point : Int := if d.digits = 0 then 1 else (Text.digits d.digits).length + d.scale
  let x := point - 1
  if l.leastPositional ≤ x && x < l.firstScientific then Layout.positional ds point
  else
    match ds with
    | [] => []
    | [c] => c :: Layout.exponent x
    | c :: cs => c :: '.' :: cs ++ Layout.exponent x

def write (infinity undefinedText : List Char) : Binary64 → List Char
  | .finite s m e => (if s then ['-'] else []) ++ plain.write (decimalOf m e)
  | .infinite s => (if s then ['-'] else []) ++ infinity
  | .undefined => undefinedText

/-- The writing in running text. -/
def text (x : Binary64) : List Char := write "inf".toList "nan".toList x

end Renewals.Binary64
