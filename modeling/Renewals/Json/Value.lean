import Renewals.Number.Binary64
import Renewals.Text.Loose
/-! Structured values of the interchange format. Members of an object keep the order in which their
names first came. -/
namespace Renewals

inductive Json
  | null
  | bool (b : Bool)
  | int (n : Int)
  | float (x : Binary64)
  | str (s : LooseText)
  | arr (items : List Json)
  | obj (members : List (LooseText × Json))
  deriving Inhabited

namespace Json

abbrev Members := List (LooseText × Json)

/-- A repeated name keeps its first place and takes the last value. -/
def Members.put (name : LooseText) (v : Json) : Members → Members
  | [] => [(name, v)]
  | (n, w) :: ms => if n = name then (n, v) :: ms else (n, w) :: Members.put name v ms

def Members.get? (name : LooseText) : Members → Option Json
  | [] => none
  | (n, v) :: ms => if n = name then some v else Members.get? name ms

@[simp] theorem Members.get?_put_self (name : LooseText) (v : Json) (ms : Members) :
    (ms.put name v).get? name = some v := by
  induction ms with
  | nil => simp [put, get?]
  | cons m ms ih =>
    by_cases h : m.1 = name
    · simp [put, get?, h]
    · simp [put, get?, h, ih]

theorem Members.get?_put_of_ne {name other : LooseText} (h : name ≠ other) (v : Json)
    (ms : Members) : (ms.put name v).get? other = ms.get? other := by
  induction ms with
  | nil => simp [put, get?, h]
  | cons m ms ih =>
    by_cases hm : m.1 = name
    · simp [put, get?, hm, h]
    · simp [put, get?, hm, ih]

def get? (name : LooseText) : Json → Option Json
  | .obj ms => Members.get? name ms
  | _ => none

/-- Empty, zero, false and null do not count as present. -/
def truthy : Json → Bool
  | .null => false
  | .bool b => b
  | .int n => n != 0
  | .float x => !x.isZero
  | .str s => !s.isEmpty
  | .arr items => !items.isEmpty
  | .obj ms => !ms.isEmpty

/-- The name of a kind of value in messages. -/
def kind : Json → String
  | .null => "NoneType"
  | .bool _ => "bool"
  | .int _ => "int"
  | .float _ => "float"
  | .str _ => "str"
  | .arr _ => "list"
  | .obj _ => "dict"

def optional {α : Type} (f : α → Json) : Option α → Json
  | none => .null
  | some a => f a

end Json
end Renewals
