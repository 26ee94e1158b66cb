import Renewals.Json.Fault
import Renewals.Json.Value
import Renewals.Number.Numeral
/-! Reading structured values. Besides the strict grammar three words stand for infinite and
undefined numbers, and a repeated name takes its last value. -/
namespace Renewals.Json

/-- What is read in front of a text, and the rest. -/
abbrev Read (α : Type) : Type := Except Stop (α × List CodePoint)

def isSpace (p : CodePoint) : Bool :=
  p.passes fun c => c == ' ' || c == '\t' || c == '\n' || c == '\r'

def skipSpace (cs : List CodePoint) : List CodePoint := cs.dropWhile isSpace

def hexValue? (p : CodePoint) : Option Nat := p.char?.bind Text.hexValue?

/-- Four hexadecimal digits that are not the end of the text. -/
def readUnit? : List CodePoint → Option (Nat × List CodePoint)
  | a :: b :: c :: d :: e :: rest => do
    let a ← hexValue? a
    let b ← hexValue? b
    let c ← hexValue? c
    let d ← hexValue? d
    pure (((a * 16 + b) * 16 + c) * 16 + d, e :: rest)
  | _ => none

/-- A low surrogate written directly behind a high one. -/
def readLow? : List CodePoint → Option (Nat × List CodePoint)
  | .char '\\' :: .char 'u' :: cs =>
    match readUnit? cs with
    | some (v, rest) => if CodePoint.isLow v then some (v, rest) else none
    | none => none
  | _ => none

def plainEscape? (c : Char) : Option Char :=
  if c = '"' ∨ c = '\\' ∨ c = '/' then some c
  else if c = 'b' then some '\x08'
  else if c = 'f' then some '\x0c'
  else if c = 'n' then some '\n'
  else if c = 'r' then some '\r'
  else if c = 't' then some '\t'
  else none

/-- What an escape stands for, behind its backslash. -/
def readEscape (start : Nat) : List CodePoint → Read CodePoint
  | [] => .error (.unmet .closingQuote start)
  | c :: cs =>
    if c = .char 'u' then
      match readUnit? cs with
      | none => .error (.unmet .unicodeEscape (cs.length + 1))
      | some (v, rest) =>
        if CodePoint.isHigh v then
          match readLow? rest with
          | some (w, rest) => .ok (.ofPair v w, rest)
          | none => .ok (.ofUnit v, rest)
        else .ok (.ofUnit v, rest)
    else
      match c.char?.bind plainEscape? with
      | some d => .ok (.char d, cs)
      | none => .error (.unmet .escape (cs.length + 2))

theorem readUnit?_length {cs rest : List CodePoint} {v : Nat} (h : readUnit? cs = some (v, rest)) :
    rest.length < cs.length := by
  unfold readUnit? at h
  split at h
  · simp only [bind, Option.bind_eq_some_iff, pure, Option.some.injEq, Prod.mk.injEq] at h
    obtain ⟨_, _, _, _, _, _, _, _, _, rfl⟩ := h
    simp only [List.length_cons]
    omega
  · simp at h

theorem readLow?_length {cs rest : List CodePoint} {v : Nat} (h : readLow? cs = some (v, rest)) :
    rest.length < cs.length := by
  unfold readLow? at h
  split at h
  · split at h
    · rename_i h'
      split at h
      · have := readUnit?_length h'
        simp_all
        omega
      · simp at h
    · simp at h
  · simp at h

theorem readEscape_length {start : Nat} {cs rest : List CodePoint} {c : CodePoint}
    (h : readEscape start cs = .ok (c, rest)) : rest.length < cs.length := by
  unfold readEscape at h
  split at h
  · simp at h
  · split at h
    · split at h
      · simp at h
      · rename_i hu
        have := readUnit?_length hu
        split at h
        · split at h
          · rename_i hl
            have := readLow?_length hl
            simp_all
            omega
          · simp_all
            omega
        · simp_all
          omega
    · split at h <;> simp_all

/-- Text up to its closing quote. `start` is what was left at the opening one. -/
def readText (start : Nat) (cs : List CodePoint) : Read (List CodePoint) :=
  match cs with
  | [] => .error (.unmet .closingQuote start)
  | c :: cs =>
    if c = .char '"' then .ok ([], cs)
    else if c = .char '\\' then
      match h : readEscape start cs with
      | .error e => .error e
      | .ok (d, rest) =>
        have := readEscape_length h
        match readText start rest with
        | .error e => .error e
        | .ok (ds, rest) => .ok (d :: ds, rest)
    else if c.code < 0x20 then .error (.unmet .plainCharacter (cs.length + 1))
    else
      match readText start cs with
      | .error e => .error e
      | .ok (ds, rest) => .ok (c :: ds, rest)
termination_by cs.length
decreasing_by all_goals simp_all; try omega

def isDigit (p : CodePoint) : Bool := p.passes Text.isAsciiDigit

/-- The values of the digits in front, and the rest. -/
def readDigits (cs : List CodePoint) : List Nat × List CodePoint :=
  ((cs.takeWhile isDigit).filterMap fun p => p.char?.bind Text.asciiDigitValue?,
    cs.dropWhile isDigit)

/-- The fraction behind the whole part, if a digit follows the point. -/
def readFraction : List CodePoint → List Nat × List CodePoint
  | .char '.' :: cs =>
    match readDigits cs with
    | ([], _) => ([], .char '.' :: cs)
    | r => r
  | cs => ([], cs)

def exponentSign : List CodePoint → Bool × List CodePoint
  | .char '-' :: cs => (true, cs)
  | .char '+' :: cs => (false, cs)
  | cs => (false, cs)

/-- The exponent, if digits follow its mark and sign. -/
def readExponent? : List CodePoint → Option (Int × List CodePoint)
  | c :: cs =>
    if c = .char 'e' ∨ c = .char 'E' then
      let (negative, body) := exponentSign cs
      match readDigits body with
      | ([], _) => none
      | (ds, rest) =>
        some (if negative then -(Text.ofDigits ds : Int) else Text.ofDigits ds, rest)
    else none
  | [] => none

/-- Digits of the whole part: a lone zero or no leading zero. -/
def readWhole? (cs : List CodePoint) : Option (List Nat × List CodePoint) :=
  match cs with
  | .char '0' :: cs => some ([0], cs)
  | cs =>
    match readDigits cs with
    | ([], _) => none
    | r => some r

/-- A number without a fraction and an exponent is whole. -/
def readNumber (negative : Bool) (start : Nat) (cs : List CodePoint) : Read Json :=
  match readWhole? cs with
  | none => .error (.unmet .value start)
  | some (whole, rest) =>
    let (fraction, rest) := readFraction rest
    match fraction, readExponent? rest with
    | [], none =>
      if whole.length > Numeral.longest then .error (.tooLong whole.length)
      else
        let n := Text.ofDigits whole
        .ok (.int (if negative then -n else n), rest)
    | f, x =>
      let (exponent, rest) := x.getD (0, rest)
      .ok (.float (.ofDecimal negative (Text.ofDigits (whole ++ f)) (exponent - f.length)), rest)

/-- A fixed word in front of the text. -/
def dropWord? (word : String) (cs : List CodePoint) : Option (List CodePoint) :=
  if (word.toList.map .char).isPrefixOf cs then some (cs.drop word.length) else none

def words : List (String × Json) :=
  [("null", .null), ("true", .bool true), ("false", .bool false), ("NaN", .float .undefined),
    ("Infinity", .float (.infinite false)), ("-Infinity", .float (.infinite true))]

def readWord? (cs : List CodePoint) : Option (Json × List CodePoint) :=
  words.findSome? fun w => (dropWord? w.1 cs).map fun rest => (w.2, rest)

def readScalar (cs : List CodePoint) : Read Json :=
  match readWord? cs with
  | some r => .ok r
  | none =>
    match cs with
    | .char '-' :: rest => readNumber true cs.length rest
    | cs => readNumber false cs.length cs

/-- Values are read this many levels deep. -/
def deepest : Nat := 980

/-- The levels below a container. -/
def descend (c : Container) : Nat → Except Stop Nat
  | 0 => .error (.tooDeep c)
  | depth + 1 => .ok depth

mutual

/-- A level of nesting uses up two units of `fuel`, an item or a member one; `depth` levels may
be nested in the value. -/
def readValue : Nat → Nat → List CodePoint → Except Stop (Json × List CodePoint)
  | 0, _, cs => .error (.unmet .value cs.length)
  | fuel + 1, depth, cs =>
    match cs with
    | .char '"' :: rest => do
      let (t, rest) ← readText cs.length rest
      pure (.str (.ofPoints t), rest)
    | .char '[' :: rest => do
      let depth ← descend .array depth
      match skipSpace rest with
      | .char ']' :: rest => pure (.arr [], rest)
      | rest => do
        let (items, rest) ← readItems fuel depth rest
        pure (.arr items, rest)
    | .char '\x7b' :: rest => do
      let depth ← descend .object depth
      match skipSpace rest with
      | .char '\x7d' :: rest => pure (.obj [], rest)
      | rest => do
        let (ms, rest) ← readMembers fuel depth [] rest
        pure (.obj ms, rest)
    | cs => readScalar cs

/-- One item or more up to the closing bracket. -/
def readItems : Nat → Nat → List CodePoint → Except Stop (List Json × List CodePoint)
  | 0, _, cs => .error (.unmet .value cs.length)
  | fuel + 1, depth, cs => do
    let (v, rest) ← readValue fuel depth cs
    match skipSpace rest with
    | .char ']' :: rest => pure ([v], rest)
    | .char ',' :: rest => do
      let (vs, rest) ← readItems fuel depth (skipSpace rest)
      pure (v :: vs, rest)
    | rest => .error (.unmet .comma rest.length)

def readMembers : Nat → Nat → Members → List CodePoint → Except Stop (Members × List CodePoint)
  | 0, _, _, cs => .error (.unmet .value cs.length)
  | fuel + 1, depth, ms, cs =>
    match cs with
    | .char '"' :: rest => do
      let (name, rest) ← readText cs.length rest
      match skipSpace rest with
      | .char ':' :: rest => do
        let (v, rest) ← readValue fuel depth (skipSpace rest)
        let ms := ms.put (.ofPoints name) v
        match skipSpace rest with
        | .char '\x7d' :: rest => pure (ms, rest)
        | .char ',' :: rest => readMembers fuel depth ms (skipSpace rest)
        | rest => .error (.unmet .comma rest.length)
      | rest => .error (.unmet .colon rest.length)
    | cs => .error (.unmet .name cs.length)

end

/-- A whole text, with blanks around. Two units of fuel for every character are enough. -/
def readAll (cs : List CodePoint) : Except Stop Json := do
  let (v, rest) ← readValue (2 * cs.length + 2) deepest (skipSpace cs)
  match skipSpace rest with
  | [] => pure v
  | rest => .error (.unmet .nothingMore rest.length)

/-- A byte order mark is refused. -/
def read (s : LooseText) : Except Fault Json :=
  let cs := s.points
  match cs with
  | .char '\uFEFF' :: _ => .error (Stop.within cs (.unmet .textWithoutMark cs.length))
  | _ => (readAll cs).mapError (Stop.within cs)

def Fault.message : Fault → String
  | .unmet e line column offset =>
    s!"{e.message}: line {line} column {column} (char {offset})"
  | .tooLong n => (Numeral.Fault.tooLong n).message
  | .tooDeep c =>
    s!"maximum recursion depth exceeded while decoding a JSON {c.name} from a unicode string"

end Renewals.Json
