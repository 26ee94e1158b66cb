import Renewals.Text.Blank
import Renewals.Text.Digit
import Renewals.Text.Loose
/-! Whole numbers in running text: blanks around, a sign, digits of any script, and single low
lines between digits. -/
namespace Renewals.Numeral

inductive Fault
  | notWhole (text : LooseText)
  | tooLong (digits : Nat)
  deriving DecidableEq, Repr

/-- Longer numerals are refused unread. -/
def longest : Nat := 4300

/-- The information separators are no blanks around a numeral. -/
def isBlank (c : Char) : Bool := Text.isBlank c && !(28 ≤ c.toNat && c.toNat ≤ 31)

/-- Digit values up to the first character that is neither a digit nor a low line between two
digits; nothing if a low line stands elsewhere. -/
def scan (value? : Char → Option Nat) : List Char → Option (List Nat × List Char)
  | [] => some ([], [])
  | c :: cs =>
    match value? c with
    | none => if c = '_' then none else some ([], c :: cs)
    | some d =>
      match cs with
      | '_' :: e :: rest =>
        if (value? e).isSome then (scan value? (e :: rest)).map fun r => (d :: r.1, r.2) else none
      | cs => (scan value? cs).map fun r => (d :: r.1, r.2)

def sign : List Char → Bool × List Char
  | '-' :: cs => (true, cs)
  | '+' :: cs => (false, cs)
  | cs => (false, cs)

/-- Too many digits are reported before anything behind them. A half of a pair is no digit, and no
more is the replacement character. -/
def read (s : LooseText) : Except Fault Int :=
  let (negative, body) := sign (s.mended.toList.dropWhile isBlank)
  match scan Text.digitValue? body with
  | none => .error (.notWhole s)
  | some (ds, rest) =>
    if ds.length > longest then .error (.tooLong ds.length)
    else if ds.isEmpty || !rest.all isBlank then .error (.notWhole s)
    else .ok (if negative then -Text.ofDigits ds else Text.ofDigits ds)

/-- At most two hundred characters of the quoted text are shown. -/
def Fault.message : Fault → String
  | .notWhole s =>
    "invalid literal for int() with base 10: " ++ String.ofList (s.quotedChars.take 200)
  | .tooLong n =>
    s!"Exceeds the limit (4300 digits) for integer string conversion: value has {n} digits; " ++
      "use sys.set_int_max_str_digits() to increase the limit"

end Renewals.Numeral
