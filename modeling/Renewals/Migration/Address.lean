import Renewals.Store.Address
import Renewals.Text.Lower
/-! The address of the database on its way through the migration's configuration, where percent
signs refer to other options. -/
namespace Renewals.Migration
open Store (Dialect)

inductive AddressFault
  | syntaxAt (value : String) (position : Nat)
  | badReference (rest : String)
  | missing (key value : String)
  | tooDeep (value : String)
  | absent
  | unusable (f : Store.Address.Fault)
  | undefined (scheme : String)
  deriving DecidableEq, Repr

def optionName : String := "sqlalchemy.url"
def sectionName : String := "alembic"

def place : String := s!"option '{optionName}' in section '{sectionName}' contains an interpolation key"

def AddressFault.message : AddressFault → String
  | .syntaxAt v p => s!"invalid interpolation syntax in {Text.quoted v} at position {p}"
  | .badReference rest => s!"bad interpolation variable reference {Text.quoted rest}"
  | .missing key v =>
    s!"Bad value substitution: {place} {Text.quoted key} which is not a valid option name. " ++
      s!"Raw value: {Text.quoted v}"
  | .tooDeep v =>
    s!"Recursion limit exceeded in value substitution: {place} which cannot be substituted " ++
      s!"in 10 steps. Raw value: {Text.quoted v}"
  | .absent => "Connection, url, or dialect_name is required."
  | .unusable f => f.message
  | .undefined scheme => s!"no definition for {scheme}"

/-- A reference at the start of a text: its key and what follows it. -/
def reference? : List Char → Option (List Char × List Char)
  | '%' :: '(' :: cs =>
    match cs.span (· ≠ ')') with
    | (key, ')' :: 's' :: rest) => if key.isEmpty then none else some (key, rest)
    | _ => none
  | _ => none

/-- The text without doubled percent signs. -/
def dropDoubled : List Char → List Char
  | '%' :: '%' :: cs => dropDoubled cs
  | c :: cs => c :: dropDoubled cs
  | [] => []

/-- The text without references; each character or reference uses up one unit of `fuel`. -/
def dropReferences : Nat → List Char → List Char
  | 0, cs => cs
  | _, [] => []
  | fuel + 1, c :: cs =>
    match reference? (c :: cs) with
    | some (_, rest) => dropReferences fuel rest
    | none => c :: dropReferences fuel cs

/-- A value is accepted if every percent sign is doubled or starts a reference. -/
def accept (value : String) : Except AddressFault Unit :=
  let rest := dropReferences value.length (dropDoubled value.toList)
  if rest.contains '%' then
    .error (.syntaxAt value (rest.takeWhile (· ≠ '%')).length)
  else .ok ()

/-- The value with doubled signs made single and references replaced, at most ten levels deep. -/
def expand (options : List (String × String)) (value : String) :
    Nat → Nat → List Char → Except AddressFault (List Char)
  | 0, _, _ => .error (.tooDeep value)
  | _ + 1, 0, _ => .ok []
  | _ + 1, _ + 1, [] => .ok []
  | depth + 1, fuel + 1, '%' :: '%' :: cs => do
    pure ('%' :: (← expand options value (depth + 1) fuel cs))
  | depth + 1, fuel + 1, '%' :: cs =>
    match reference? ('%' :: cs) with
    | none => .error (.badReference (String.ofList ('%' :: cs)))
    | some (key, rest) =>
      let key := String.ofList (Text.lower key)
      match options.lookup key with
      | none => .error (.missing key value)
      | some v => do
        let inner ← expand options value depth (v.length + 1) v.toList
        pure (inner ++ (← expand options value (depth + 1) fuel rest))
  | depth + 1, fuel + 1, c :: cs => do
    pure (c :: (← expand options value (depth + 1) fuel cs))

/-- The options that an address can refer to, itself included. -/
def options (value : String) : List (String × String) :=
  [("here", "."), ("script_location", "migrations"), (optionName, value)]

/-- The address that the migration works with. -/
def configured (value : String) : Except AddressFault String := do
  accept value
  let cs ← expand (options value) value 10 (value.length + 1) value.toList
  pure (String.ofList cs)

/-- The dialect of a script, by the address alone: no driver is loaded for it. -/
def dialectFor (value : String) : Except AddressFault Dialect := do
  let address ← configured value
  if address.isEmpty then .error .absent
  else
    let a ← (Store.Address.read address).mapError .unusable
    let d ← a.driver.mapError .unusable
    match d.dialect with
    | some dialect => .ok dialect
    | none => .error (.undefined a.scheme)

end Renewals.Migration
