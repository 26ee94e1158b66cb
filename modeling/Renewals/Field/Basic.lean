import Renewals.Field.Whole
import Renewals.Number.Word
/-! Typed fields from values of any kind. Numbers and truth values may also come as text. -/
namespace Renewals.Field

def lower (c : Char) : Char := if 'A' ≤ c ∧ c ≤ 'Z' then Char.ofNat (c.toNat + 32) else c

def boolWords : List (String × Bool) :=
  [("0", false), ("off", false), ("f", false), ("false", false), ("n", false), ("no", false),
    ("1", true), ("on", true), ("t", true), ("true", true), ("y", true), ("yes", true)]

def boolOfText (s : String) : Except Complaint Bool :=
  match boolWords.lookup (String.ofList (s.toList.map lower)) with
  | some b => .ok b
  | none => .error .boolText

/-- Other numbers that fit a word are misread truth values; beyond that they are none at all. -/
def boolOfWhole (n : Int) : Except Complaint Bool :=
  if n = 0 then .ok false
  else if n = 1 then .ok true
  else .error (if fitsWord n then .boolText else .notBool)

def bool : Json → Except Complaint Bool
  | .bool b => .ok b
  | .int n => boolOfWhole n
  | .float x =>
    match wholeOfBinary x with
    | .ok n => boolOfWhole n
    | .error _ => .error .notBool
  | .str s => wholeOnly boolOfText s
  | _ => .error .notBool

def text : Json → Except Complaint LooseText
  | .str s => .ok s
  | _ => .error .notText

def wholeText (v : Json) : Except Complaint String := do wholeOnly .ok (← text v)

/-- Text that is missing or null stays absent. -/
def optionalText : Json → Except Complaint (Option LooseText)
  | .null => .ok none
  | v => (text v).map some

/-- The values of the digits in front, and the rest. -/
def leadingDigits (cs : List Char) : List Nat × List Char :=
  ((cs.takeWhile Text.isAsciiDigit).filterMap Text.asciiDigitValue?,
    cs.dropWhile Text.isAsciiDigit)

/-- The digits behind a point, if there is one. -/
def fractionDigits : List Char → List Nat × List Char
  | '.' :: cs => leadingDigits cs
  | cs => ([], cs)

/-- An exponent up to the end, zero if the text is at its end already. -/
def exponent? : List Char → Option Int
  | [] => some 0
  | c :: cs =>
    if c = 'e' ∨ c = 'E' then
      let (negative, body) := Numeral.sign cs
      match leadingDigits body with
      | (d :: ds, []) =>
        some (if negative then -(Text.ofDigits (d :: ds) : Int) else Text.ofDigits (d :: ds))
      | _ => none
    else none

def namedNumber? (negative : Bool) (cs : List Char) : Option Binary64 :=
  let word := String.ofList (cs.map lower)
  if word = "inf" ∨ word = "infinity" then some (.infinite negative)
  else if word = "nan" then some .undefined
  else none

def decimal? (negative : Bool) (cs : List Char) : Option Binary64 := do
  let (w, rest) := leadingDigits cs
  let (f, rest) := fractionDigits rest
  let x ← exponent? rest
  if w.isEmpty && f.isEmpty then none
  else pure (.ofDecimal negative (Text.ofDigits (w ++ f)) (x - f.length))

def signedNumber? (cs : List Char) : Option Binary64 :=
  let (negative, body) := Numeral.sign cs
  (namedNumber? negative body).orElse fun _ => decimal? negative body

/-- Either blanks may stand around a number or low lines inside it. -/
def numberOfText (s : String) : Except Complaint Binary64 :=
  match (signedNumber? (trim s)).orElse fun _ => (dropLowLines? s.toList).bind signedNumber? with
  | some x => .ok x
  | none => .error .numberText

def number : Json → Except Complaint Binary64
  | .float x => .ok x
  | .int n =>
    match Binary64.ofInt? n with
    | some x => .ok x
    | none => .error .notNumber
  | .bool b => .ok (.ofInt (if b then 1 else 0))
  | .str s => wholeOnly numberOfText s
  | _ => .error .notNumber

def positive (n : Int) : Except Complaint Int := if 0 < n then .ok n else .error .notAbove

def atLeast (low n : Int) : Except Complaint Int := if low ≤ n then .ok n else .error .below

def between (low high n : Int) : Except Complaint Int :=
  if n < low then .error .below else if high < n then .error .above else .ok n

def nonempty (s : String) : Except Complaint String := if s = "" then .error .tooShort else .ok s

end Renewals.Field
