import Renewals.Json.Printer
/-! The written form of structured values between programs: no spaces, and characters as they are.
Infinite and undefined numbers have none. -/
namespace Renewals.Json

/-- Only quotes, backslashes and control characters are escaped. -/
def plainPoint : CodePoint → List CodePoint
  | .char c => if c.toNat < 0x7F then (escaped c).map .char else [.char c]
  | p => [p]

def compactText (t : LooseText) : List CodePoint :=
  .char '"' :: t.points.flatMap plainPoint ++ [.char '"']

mutual

def compact? : Json → Option (List CodePoint)
  | .float x => if x.isFinite then some ((renderFloat x).map .char) else none
  | .str t => some (compactText t)
  | .arr [] => some [.char '[', .char ']']
  | .arr (v :: vs) => do pure (.char '[' :: (← compact? v) ++ (← compactItems? vs))
  | .obj [] => some [.char '\x7b', .char '\x7d']
  | .obj (m :: ms) => do
    pure (.char '\x7b' :: compactText m.1 ++ .char ':' :: (← compact? m.2) ++ (← compactMembers? ms))
  | v => some ((render v).map .char)

/-- The items behind the first, and the closing bracket. -/
def compactItems? : List Json → Option (List CodePoint)
  | [] => some [.char ']']
  | v :: vs => do pure (.char ',' :: (← compact? v) ++ (← compactItems? vs))

def compactMembers? : List (LooseText × Json) → Option (List CodePoint)
  | [] => some [.char '\x7d']
  | m :: ms => do
    pure (.char ',' :: compactText m.1 ++ .char ':' :: (← compact? m.2) ++ (← compactMembers? ms))

end

/-- Whether a value can be sent. -/
def isStrict (v : Json) : Bool := ((compact? v).bind wholeChars?).isSome

end Renewals.Json
