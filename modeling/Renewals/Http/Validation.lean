import Renewals.Http.Request
import Renewals.Subscription.Order
/-! Typed input of the endpoints. All faults are reported together: path, query, then body. -/
namespace Renewals.Http

open Renewals.Field (Fault Complaint Place)

abbrev Checked (α : Type) := Except (List Fault) α

/-- Both values, or the faults of both. -/
def both {α β : Type} : Checked α → Checked β → Checked (α × β)
  | .ok a, .ok b => .ok (a, b)
  | .error fs, .ok _ => .error fs
  | .ok _, .error gs => .error gs
  | .error fs, .error gs => .error (fs ++ gs)

def placed {α : Type} (place : List Place) (input : Json) (r : Except Complaint α) : Checked α :=
  r.mapError fun c => [⟨c, place, input⟩]

/-- A member of a body; a fault of an absent one shows the whole body. -/
def member {α : Type} (ms : Json.Members) (name : String) (read : Json → Except Complaint α)
    (absent : Option α) : Checked α :=
  match ms.get? name, absent with
  | some v, _ => placed [.name "body", .name name] v (read v)
  | none, some a => .ok a
  | none, none => .error [⟨.missing, [.name "body", .name name], .obj ms⟩]

def record : Received → Checked Json.Members
  | .nothing => .error [⟨.missing, [.name "body"], .null⟩]
  | .value (.obj ms) => .ok ms
  | .value v => .error [⟨.notObject, [.name "body"], v⟩]
  | .opaqueText => .error [⟨.notObject, [.name "body"], .null⟩]

def readOrder (r : Received) : Checked Order := do
  let ms ← record r
  let serviceName := member ms "service_name" (fun v => do Field.nonempty (← Field.wholeText v)) none
  let price := member ms "price" (fun v => do Field.atLeast 0 (← Field.whole v)) none
  let startDate := member ms "start_date" Field.text none
  let months := member ms "counter_months" (fun v => do Field.positive (← Field.whole v)) none
  let isActive := member ms "is_active" Field.bool (some true)
  let (serviceName, price, startDate, counterMonths, isActive) ←
    both serviceName (both price (both startDate (both months isActive)))
  pure { serviceName, price, startDate, counterMonths, isActive }

def readSumOrder (r : Received) : Checked SumOrder := do
  let ms ← record r
  let startDate := member ms "start_date" Field.text none
  let months := member ms "counter_months" (fun v => do Field.positive (← Field.whole v)) none
  let serviceName := member ms "service_name" Field.optionalText (some none)
  let (startDate, counterMonths, serviceName) ← both startDate (both months serviceName)
  pure { startDate, counterMonths, serviceName }

def readId (part : String) : Checked Int :=
  placed [.name "path", .name "subscription_id"] (.str part) (Field.wholeOfText part)

def queryNumber (query : List (String × String)) (name : String) (standard : Int)
    (check : Int → Except Complaint Int) : Checked Int :=
  match Text.lastValue? name query with
  | none => .ok standard
  | some s =>
    placed [.name "query", .name name] (.str s) (do check (← Field.wholeOfText s))

/-- Ten entries a page unless asked otherwise, a hundred at most. -/
def readPage (query : List (String × String)) : Checked (Int × Int) :=
  both (queryNumber query "limit" 10 (Field.between 1 100))
    (queryNumber query "offset" 0 (Field.atLeast 0))

end Renewals.Http
