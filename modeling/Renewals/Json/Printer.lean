import Renewals.Json.Value
import Renewals.Number.Shortest
/-! The written form of structured values: ASCII only, a space after every comma and colon. -/
namespace Renewals.Json

def escapedUnit (n : Nat) : List Char := '\\' :: 'u' :: Text.hex 4 n

/-- A character beyond the basic plane is written as two surrogates. -/
def escaped (c : Char) : List Char :=
  if c = '"' then ['\\', '"']
  else if c = '\\' then ['\\', '\\']
  else if c = '\n' then ['\\', 'n']
  else if c = '\r' then ['\\', 'r']
  else if c = '\t' then ['\\', 't']
  else if c.toNat = 8 then ['\\', 'b']
  else if c.toNat = 12 then ['\\', 'f']
  else if 0x20 ≤ c.toNat ∧ c.toNat ≤ 0x7E then [c]
  else if c.toNat ≤ 0xFFFF then escapedUnit c.toNat
  else
    let v := c.toNat - 0x10000
    escapedUnit (0xD800 + v / 0x400) ++ escapedUnit (0xDC00 + v % 0x400)

/-- A half of a pair is written as an escape of its own. -/
def escapedPoint : CodePoint → List Char
  | .char c => escaped c
  | .half n => escapedUnit (0xD800 + n)

def renderText (t : LooseText) : List Char := '"' :: t.points.flatMap escapedPoint ++ ['"']

def renderFloat (x : Binary64) : List Char := x.write "Infinity".toList "NaN".toList

mutual

def render : Json → List Char
  | .null => "null".toList
  | .bool true => "true".toList
  | .bool false => "false".toList
  | .int n => Text.integer n
  | .float x => renderFloat x
  | .str s => renderText s
  | .arr [] => "[]".toList
  | .arr (v :: vs) => '[' :: render v ++ renderItems vs
  | .obj [] => ['\x7b', '\x7d']
  | .obj (m :: ms) => '\x7b' :: renderText m.1 ++ ':' :: ' ' :: render m.2 ++ renderMembers ms

/-- The items behind the first, and the closing bracket. -/
def renderItems : List Json → List Char
  | [] => [']']
  | v :: vs => ',' :: ' ' :: render v ++ renderItems vs

def renderMembers : List (LooseText × Json) → List Char
  | [] => ['\x7d']
  | m :: ms =>
    ',' :: ' ' :: renderText m.1 ++ ':' :: ' ' :: render m.2 ++ renderMembers ms

end

def text (v : Json) : String := String.ofList (render v)

end Renewals.Json
