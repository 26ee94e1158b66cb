/-! Text as bytes of the eight-bit encoding, and back with a replacement for what is malformed. -/
namespace Renewals.Text

def utf8Bytes (c : Char) : List Nat :=
  let n := c.toNat
  if n < 0x80 then [n]
  else if n < 0x800 then [0xC0 + n / 0x40, 0x80 + n % 0x40]
  else if n < 0x10000 then [0xE0 + n / 0x1000, 0x80 + n / 0x40 % 0x40, 0x80 + n % 0x40]
  else
    [0xF0 + n / 0x40000, 0x80 + n / 0x1000 % 0x40, 0x80 + n / 0x40 % 0x40, 0x80 + n % 0x40]

def encode (cs : List Char) : List Nat := cs.flatMap utf8Bytes

/-- A character under way: its bits so far, the bytes still to come, and the range of the next. -/
structure Partial where
  bits : Nat
  owed : Nat
  low : Nat
  high : Nat

/-- The state after a first byte, or nothing where no character starts with it. -/
def startOf? (b : Nat) : Option Partial :=
  if 0xC2 ≤ b ∧ b ≤ 0xDF then some ⟨b - 0xC0, 1, 0x80, 0xBF⟩
  else if b = 0xE0 then some ⟨0, 2, 0xA0, 0xBF⟩
  else if b = 0xED then some ⟨0xD, 2, 0x80, 0x9F⟩
  else if 0xE1 ≤ b ∧ b ≤ 0xEF then some ⟨b - 0xE0, 2, 0x80, 0xBF⟩
  else if b = 0xF0 then some ⟨0, 3, 0x90, 0xBF⟩
  else if 0xF1 ≤ b ∧ b ≤ 0xF3 then some ⟨b - 0xF0, 3, 0x80, 0xBF⟩
  else if b = 0xF4 then some ⟨4, 3, 0x80, 0x8F⟩
  else none

/-- The characters that a byte completes, and the state behind it. -/
def stepByte (b : Nat) : Option Partial → List Char × Option Partial
  | none =>
    if b < 0x80 then ([Char.ofNat b], none)
    else
      match startOf? b with
      | some p => ([], some p)
      | none => (['\uFFFD'], none)
  | some p =>
    if p.low ≤ b ∧ b ≤ p.high then
      let bits := p.bits * 0x40 + (b - 0x80)
      if p.owed = 1 then ([Char.ofNat bits], none)
      else ([], some ⟨bits, p.owed - 1, 0x80, 0xBF⟩)
    else if b < 0x80 then (['\uFFFD', Char.ofNat b], none)
    else
      match startOf? b with
      | some q => (['\uFFFD'], some q)
      | none => (['\uFFFD', '\uFFFD'], none)

/-- Every longest malformed stretch is one replacement character. -/
def decodeFrom : Option Partial → List Nat → List Char
  | none, [] => []
  | some _, [] => ['\uFFFD']
  | st, b :: bs => let r := stepByte b st; r.1 ++ decodeFrom r.2 bs

def decode (bs : List Nat) : List Char := decodeFrom none bs

/-- Each byte as a character of its own. -/
def bytewise (s : String) : String := String.ofList ((encode s.toList).map Char.ofNat)

end Renewals.Text
