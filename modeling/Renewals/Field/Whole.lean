import Renewals.Field.Complaint
import Renewals.Number.Numeral
/-! Whole numbers of typed input. As text they may be set with blanks around, a sign, leading
zeros, low lines between digits, and a fraction of zeros. -/
namespace Renewals.Field

def trim (s : String) : List Char :=
  ((s.toList.dropWhile Numeral.isBlank).reverse.dropWhile Numeral.isBlank).reverse

def isNonzeroDigit (c : Char) : Bool := '1' ≤ c && c ≤ '9'

def minus : List Char → Bool × List Char
  | '-' :: cs => (true, cs)
  | cs => (false, cs)

/-- The digits in front that make up a number: a lone zero, or digits of which the first is not
zero. -/
def plainDigits : List Char → List Char
  | [] => []
  | c :: cs =>
    if c = '0' then ['0']
    else if isNonzeroDigit c then c :: cs.takeWhile Text.isAsciiDigit
    else []

/-- More characters than are read, the sign included. -/
def isTooLong (cs : List Char) : Bool :=
  let (negative, body) := minus cs
  (plainDigits body).length + negative.toNat > Numeral.longest

/-- A number without anything around it. -/
def plain? (cs : List Char) : Option Int :=
  let (negative, body) := minus cs
  let ds := plainDigits body
  if ds.isEmpty || ds.length ≠ body.length || isTooLong cs then none
  else
    let n := Text.ofDigits (ds.filterMap Text.asciiDigitValue?)
    some (if negative then -n else n)

/-- Behind a zero more zeros and low lines are skipped. The last character stays if nothing else
follows, and so does the one before a point. -/
def dropZerosBehind (previous : Char) : List Char → Option (List Char)
  | [] => some [previous]
  | c :: cs =>
    if c = '0' ∨ c = '_' then dropZerosBehind c cs
    else if c = '-' ∨ isNonzeroDigit c then some (c :: cs)
    else if c = '.' then some (previous :: c :: cs)
    else none

def dropZeros? : List Char → Option (List Char)
  | [] => none
  | c :: cs =>
    if c = '0' then dropZerosBehind c cs
    else if isNonzeroDigit c then some (c :: cs)
    else none

/-- A point and zeros at the end are dropped, a point at the end is not. -/
def dropZeroFraction (cs : List Char) : List Char :=
  match cs.reverse.span (· == '0') with
  | (_ :: _, '.' :: front) => front.reverse
  | _ => cs

def hasDoubledLowLine : List Char → Bool
  | '_' :: '_' :: _ => true
  | _ :: cs => hasDoubledLowLine cs
  | [] => false

/-- The text without low lines, of which none may stand at an end or beside another. -/
def dropLowLines? (cs : List Char) : Option (List Char) :=
  if cs.head? = some '_' ∨ cs.getLast? = some '_' ∨ hasDoubledLowLine cs then none
  else some (cs.filter (· ≠ '_'))

/-- The sign in front, if it is one only. -/
def signed? : List Char → Option (Bool × List Char)
  | '+' :: '-' :: _ => none
  | '+' :: cs => some (false, cs)
  | cs => some (minus cs)

/-- The plain form of a number in looser form. -/
def tidied? (cs : List Char) : Option (List Char) := do
  let (negative, body) ← signed? cs
  let ds ← dropLowLines? (dropZeroFraction (← dropZeros? body))
  pure (if negative then '-' :: ds else ds)

/-- Only text that starts as a plain number can be too long, whatever follows. -/
def wholeOfText (s : String) : Except Complaint Int :=
  if isTooLong s.toList then .error .wholeSize
  else
    match (plain? s.toList).orElse fun _ => (tidied? (trim s)).bind plain? with
    | some n => .ok n
    | none => .error .wholeText

/-- A number without a fraction that is less than `2 ^ 63` in size. -/
def wholeOfBinary (x : Binary64) : Except Complaint Int :=
  if !x.isFinite then .error .notFinite
  else
    match x.toInt? with
    | none => .error .fraction
    | some n => if n.natAbs < 0x8000000000000000 then .ok n else .error .wholeSize

def whole : Json → Except Complaint Int
  | .int n => .ok n
  | .bool b => .ok (if b then 1 else 0)
  | .float x => wholeOfBinary x
  | .str s => wholeOnly wholeOfText s
  | _ => .error .notWhole

end Renewals.Field
