import Renewals.Text.Loose
/-! Why a text is no structured value, and where. -/
namespace Renewals.Json

inductive Expectation
  | value
  | name
  | colon
  | comma
  | nothingMore
  | closingQuote
  | plainCharacter
  | escape
  | unicodeEscape
  | textWithoutMark
  deriving DecidableEq, Repr

def Expectation.message : Expectation → String
  | value => "Expecting value"
  | name => "Expecting property name enclosed in double quotes"
  | colon => "Expecting ':' delimiter"
  | comma => "Expecting ',' delimiter"
  | nothingMore => "Extra data"
  | closingQuote => "Unterminated string starting at"
  | plainCharacter => "Invalid control character at"
  | escape => "Invalid \\escape"
  | unicodeEscape => "Invalid \\uXXXX escape"
  | textWithoutMark => "Unexpected UTF-8 BOM (decode using utf-8-sig)"

/-- A value that holds other values. -/
inductive Container
  | array
  | object
  deriving DecidableEq, Repr

def Container.name : Container → String
  | array => "array"
  | object => "object"

/-- What a reader stops at, with the characters that were left. -/
inductive Stop
  | unmet (e : Expectation) (left : Nat)
  | tooLong (digits : Nat)
  | tooDeep (c : Container)
  deriving DecidableEq, Repr

inductive Fault
  | unmet (e : Expectation) (line column offset : Nat)
  | tooLong (digits : Nat)
  | tooDeep (c : Container)
  deriving DecidableEq, Repr

/-- Lines and columns count from one, offsets from zero. -/
def Stop.within (cs : List CodePoint) : Stop → Fault
  | .tooLong n => .tooLong n
  | .tooDeep c => .tooDeep c
  | .unmet e left =>
    let before := cs.take (cs.length - left)
    let column := (before.reverse.takeWhile (· ≠ .char '\n')).length + 1
    .unmet e (before.count (.char '\n') + 1) column before.length

end Renewals.Json
