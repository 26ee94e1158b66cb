import Renewals.Json.Value
/-! What can be wrong with a field of typed input, and where. -/
namespace Renewals.Field

inductive Complaint
  | missing
  | notText
  | tornText
  | tooShort
  | notWhole
  | wholeText
  | wholeSize
  | fraction
  | notFinite
  | notBool
  | boolText
  | notNumber
  | numberText
  | notAbove
  | below
  | above
  | notObject
  | invalidJson
  deriving DecidableEq, Repr

def Complaint.code : Complaint → String
  | missing => "missing"
  | notText => "string_type"
  | tornText => "string_unicode"
  | tooShort => "string_too_short"
  | notWhole => "int_type"
  | wholeText => "int_parsing"
  | wholeSize => "int_parsing_size"
  | fraction => "int_from_float"
  | notFinite => "finite_number"
  | notBool => "bool_type"
  | boolText => "bool_parsing"
  | notNumber => "float_type"
  | numberText => "float_parsing"
  | notAbove => "greater_than"
  | below => "greater_than_equal"
  | above => "less_than_equal"
  | notObject => "model_attributes_type"
  | invalidJson => "json_invalid"

/-- A step on the way to a faulty value. -/
inductive Place
  | name (s : String)
  | offset (n : Nat)
  deriving DecidableEq, Repr

/-- What is wrong, where, and with which value. -/
structure Fault where
  complaint : Complaint
  place : List Place
  input : Json

/-- Text without halves of surrogate pairs. -/
def wholeOnly {α : Type} (read : String → Except Complaint α) : LooseText → Except Complaint α
  | .whole s => read s
  | .torn .. => .error .tornText

end Renewals.Field
