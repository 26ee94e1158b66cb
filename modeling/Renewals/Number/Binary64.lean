/-! Binary numbers with 53 significant bits, and the nearest one to a ratio. -/
namespace Renewals

/-- A finite number is `±significand · 2 ^ exponent`, with the exponent as small as the
53 bits and the least exponent allow. -/
inductive Binary64
  | finite (negative : Bool) (significand : Nat) (exponent : Int)
  | infinite (negative : Bool)
  | undefined
  deriving DecidableEq, Repr, Inhabited

namespace Binary64

def leastExponent : Int := -1074
def greatestExponent : Int := 971

/-- Division to the nearest whole number, a half to the even neighbour. -/
def roundHalfEven (num den : Nat) : Nat :=
  let q := num / den
  let r := num % den
  if 2 * r > den || (2 * r == den && q % 2 == 1) then q + 1 else q

/-- The power of a base, one for a negative exponent. -/
def power (base : Nat) (exponent : Int) : Nat := Nat.pow base exponent.toNat

/-- The least significand of 53 bits. -/
def leastFull : Nat := 0x10000000000000

/-- The ratio after division by a power of two. -/
def scaleDown (num den : Nat) (exponent : Int) : Nat × Nat :=
  (num * power 2 (-exponent), den * power 2 exponent)

/-- The exponent that leaves 53 bits before the point, as far as the least exponent allows. -/
def exponentOf (num den : Nat) : Int :=
  let guess : Int := (Nat.log2 num : Int) - Nat.log2 den - 52
  let s := scaleDown num den guess
  max leastExponent (if s.1 < s.2 * leastFull then guess - 1 else guess)

/-- The nearest number to `num / den`, a tie to the even significand. -/
def nearest (negative : Bool) (num den : Nat) : Binary64 :=
  if num = 0 then .finite negative 0 leastExponent
  else
    let e := exponentOf num den
    let s := scaleDown num den e
    let m := roundHalfEven s.1 s.2
    let (m, e) := if m = 2 * leastFull then (leastFull, e + 1) else (m, e)
    if e > greatestExponent then .infinite negative else .finite negative m e

def zero : Binary64 := .finite false 0 leastExponent

/-- The nearest number to `digits · 10 ^ scale`. Beyond a thousand places the answer is known
without the power. -/
def ofDecimal (negative : Bool) (digits : Nat) (scale : Int) : Binary64 :=
  let size : Int := (Nat.toDigits 10 digits).length + scale
  if digits = 0 || size < -1000 then .finite negative 0 leastExponent
  else if size > 1000 then .infinite negative
  else nearest negative (digits * power 10 scale) (power 10 (-scale))

def ofInt (n : Int) : Binary64 := nearest (n < 0) n.natAbs 1

def isFinite : Binary64 → Bool
  | .finite .. => true
  | _ => false

/-- The nearest number, if it is not beyond the greatest. -/
def ofInt? (n : Int) : Option Binary64 := some (ofInt n) |>.filter isFinite

def isZero : Binary64 → Bool
  | .finite _ 0 _ => true
  | _ => false

/-- A finite number as a ratio of whole numbers, sign aside. -/
def ratio (m : Nat) (e : Int) : Nat × Nat :=
  (m * power 2 e, power 2 (-e))

def signed (negative : Bool) (n : Nat) : Int := if negative then -n else n

/-- The whole part of a finite number, the fraction cut off. -/
def truncate? : Binary64 → Option Int
  | .finite s m e => some (signed s ((ratio m e).1 / (ratio m e).2))
  | _ => none

/-- The value of a finite number without a fraction. -/
def toInt? : Binary64 → Option Int
  | .finite s m e =>
    let r := ratio m e
    if r.1 % r.2 = 0 then some (signed s (r.1 / r.2)) else none
  | _ => none

/-- A finite number in units of `2 ^ unit`, an exponent not above its own. -/
def inUnits (unit : Int) (s : Bool) (m : Nat) (e : Int) : Int := signed s (m * power 2 (e - unit))

/-- The number nearest to the sum. Opposite numbers add up to a zero without a sign. -/
def add : Binary64 → Binary64 → Binary64
  | .finite s m e, .finite t n f =>
    let unit := min e f
    let sum := inUnits unit s m e + inUnits unit t n f
    if sum = 0 then .finite (s && t) 0 leastExponent
    else nearest (sum < 0) (sum.natAbs * power 2 unit) (power 2 (-unit))
  | .infinite s, .infinite t => if s = t then .infinite s else .undefined
  | .infinite s, .finite .. => .infinite s
  | .finite .., .infinite t => .infinite t
  | _, _ => .undefined

/-- The order of the numbers; what is undefined is neither below nor above. -/
def below : Binary64 → Binary64 → Bool
  | .finite s m e, .finite t n f =>
    let unit := min e f
    inUnits unit s m e < inUnits unit t n f
  | .infinite s, .infinite t => s && !t
  | .infinite s, .finite .. => s
  | .finite .., .infinite t => !t
  | _, _ => false

end Binary64
end Renewals
