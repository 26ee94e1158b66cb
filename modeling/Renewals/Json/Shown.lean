import Renewals.Json.Value
import Renewals.Number.Shortest
/-! Values as they stand in messages, with words for the constants and quoted text inside. -/
namespace Renewals.Json

mutual

def shownChars : Json → List Char
  | .null => "None".toList
  | .bool true => "True".toList
  | .bool false => "False".toList
  | .int n => Text.integer n
  | .float x => x.text
  | .str s => s.quotedChars
  | .arr [] => ['[', ']']
  | .arr (v :: vs) => '[' :: shownChars v ++ shownItems vs
  | .obj [] => ['\x7b', '\x7d']
  | .obj (m :: ms) =>
    '\x7b' :: m.1.quotedChars ++ ':' :: ' ' :: shownChars m.2 ++ shownMembers ms

def shownItems : List Json → List Char
  | [] => [']']
  | v :: vs => ',' :: ' ' :: shownChars v ++ shownItems vs

def shownMembers : List (LooseText × Json) → List Char
  | [] => ['\x7d']
  | m :: ms =>
    ',' :: ' ' :: m.1.quotedChars ++ ':' :: ' ' :: shownChars m.2 ++ shownMembers ms

end

/-- With quotes around text. -/
def shown (v : Json) : String := String.ofList (shownChars v)

/-- As part of a longer text: a text stands as it is. -/
def display : Json → LooseText
  | .str s => s
  | v => v.shown

end Renewals.Json
