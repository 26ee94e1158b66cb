import Renewals.Text.Loose
import Renewals.Text.Utf8
/-! Bytes of structured text in an encoding of eight, sixteen or thirty-two bits. The zeros among
the first bytes tell which, because the first characters are ASCII. -/
namespace Renewals.Text

inductive Width
  | eight
  | sixteen
  | thirtyTwo
  deriving DecidableEq, Repr

/-- How many bits a unit has, and whether its first byte is the highest. -/
structure Encoding where
  width : Width
  highFirst : Bool
  deriving DecidableEq, Repr

/-- Fewer than four bytes tell only if they are two. -/
def encodingOf : List Nat → Encoding
  | a :: b :: c :: d :: _ =>
    if a = 0 then ⟨if b = 0 then .thirtyTwo else .sixteen, true⟩
    else if b = 0 then ⟨if c = 0 ∧ d = 0 then .thirtyTwo else .sixteen, false⟩
    else ⟨.eight, true⟩
  | [a, b] =>
    if a = 0 then ⟨.sixteen, true⟩
    else if b = 0 then ⟨.sixteen, false⟩
    else ⟨.eight, true⟩
  | _ => ⟨.eight, true⟩

/-- Units of two bytes, if none is left over. -/
def pairs? (highFirst : Bool) : List Nat → Option (List Nat)
  | [] => some []
  | [_] => none
  | a :: b :: bs =>
    (pairs? highFirst bs).map ((if highFirst then a * 0x100 + b else b * 0x100 + a) :: ·)

/-- Code points of units of sixteen bits. Half of a pair may stand alone. -/
def ofUnits : List Nat → List CodePoint
  | [] => []
  | [v] => [.ofUnit v]
  | v :: w :: vs =>
    if CodePoint.isHigh v && CodePoint.isLow w then .ofPair v w :: ofUnits vs
    else .ofUnit v :: ofUnits (w :: vs)

/-- Two units of sixteen bits make one of thirty-two, which must not be too great. -/
def ofQuads? (highFirst : Bool) : List Nat → Option (List CodePoint)
  | [] => some []
  | [_] => none
  | v :: w :: vs =>
    let n := if highFirst then v * 0x10000 + w else w * 0x10000 + v
    if 0x110000 ≤ n then none else (ofQuads? highFirst vs).map (.ofUnit n :: ·)

/-- The code points of encoded text, nothing if a unit is incomplete or too great. -/
def decodeAs? (e : Encoding) (bs : List Nat) : Option (List CodePoint) :=
  match e.width with
  | .eight => some ((decode bs).map .char)
  | .sixteen => (pairs? e.highFirst bs).map ofUnits
  | .thirtyTwo => (pairs? e.highFirst bs).bind (ofQuads? e.highFirst)

/-- Text whose bytes are read again in the encoding that their zeros tell. -/
def reread? (cs : List Char) : Option (List CodePoint) :=
  let bs := encode cs
  let e := encodingOf bs
  if e.width = .eight then some (cs.map .char) else decodeAs? e bs

end Renewals.Text
