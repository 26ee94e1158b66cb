import Renewals.Text.Loose
/-! Sets of characters that have bytes, and the stretches of a text that have none. -/
namespace Renewals

inductive Charset
  | ascii
  | unicode
  deriving DecidableEq, Repr

/-- Characters beside each other that have no bytes, and where they start. -/
structure Gap where
  charset : Charset
  start : Nat
  points : List CodePoint
  deriving DecidableEq, Repr

namespace Charset

def name : Charset → String
  | ascii => "ascii"
  | unicode => "utf-8"

def reason : Charset → String
  | ascii => "ordinal not in range(128)"
  | unicode => "surrogates not allowed"

def holds : Charset → CodePoint → Bool
  | ascii, p => p.code < 0x80
  | unicode, p => p.char?.isSome

/-- The first stretch without bytes. -/
def gap? (c : Charset) (ps : List CodePoint) : Option Gap :=
  match ps.dropWhile c.holds with
  | [] => none
  | rest => some ⟨c, ps.length - rest.length, rest.takeWhile (!c.holds ·)⟩

end Charset

/-- A code point by its number. -/
def CodePoint.numbered (p : CodePoint) : List Char :=
  if p.code ≤ 0xFF then '\\' :: 'x' :: Text.hex 2 p.code
  else if p.code ≤ 0xFFFF then '\\' :: 'u' :: Text.hex 4 p.code
  else '\\' :: 'U' :: Text.hex 8 p.code

/-- One character is shown, of more only the places. -/
def Gap.message (g : Gap) : String :=
  let what := match g.points with
    | [p] => "character '" ++ String.ofList p.numbered ++ s!"' in position {g.start}"
    | ps => s!"characters in position {g.start}-{g.start + ps.length - 1}"
  s!"'{g.charset.name}' codec can't encode {what}: {g.charset.reason}"

end Renewals
