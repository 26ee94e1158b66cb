import Renewals.Text.Digit
import Renewals.Text.Quoted
import Renewals.Text.Utf8
/-! Percent signs in addresses, and the queries that addresses end with. -/
namespace Renewals.Text

/-- Bytes of an address: a percent sign with two hexadecimal digits stands for one byte. -/
def bytesOf : List Char → List Nat
  | '%' :: a :: b :: cs =>
    match hexValue? a, hexValue? b with
    | some x, some y => (x * 16 + y) :: bytesOf cs
    | _, _ => 0x25 :: bytesOf (a :: b :: cs)
  | c :: cs => utf8Bytes c ++ bytesOf cs
  | [] => []

def percentDecode (cs : List Char) : List Char := decode (bytesOf cs)

/-- Characters that mean themselves everywhere in an address. -/
def isUnreserved (c : Char) : Bool :=
  isAsciiDigit c || ('a' ≤ c && c ≤ 'z') || ('A' ≤ c && c ≤ 'Z') || "_.-~".toList.contains c

def upperHex (n : Nat) : List Char := (hex 2 n).map Char.toUpper

/-- The characters of `safe` stay as they are too. -/
def percentEncode (safe cs : List Char) : List Char :=
  cs.flatMap fun c =>
    if isUnreserved c || safe.contains c then [c]
    else (utf8Bytes c).flatMap fun b => '%' :: upperHex b

def splitOnChar (sep : Char) : List Char → List (List Char)
  | [] => [[]]
  | c :: cs =>
    match splitOnChar sep cs with
    | [] => [[c]]
    | p :: ps => if c = sep then [] :: p :: ps else (c :: p) :: ps

def formDecode (cs : List Char) : String :=
  String.ofList (percentDecode (cs.map fun c => if c = '+' then ' ' else c))

def formEncode (s : String) : String :=
  String.ofList ((percentEncode [' '] s.toList).map fun c => if c = ' ' then '+' else c)

/-- Names and values of a query in order. -/
def readQuery (query : List Char) : List (String × String) :=
  ((splitOnChar '&' query).filter (!·.isEmpty)).map fun part =>
    match part.span (· ≠ '=') with
    | (name, _ :: value) => (formDecode name, formDecode value)
    | (name, []) => (formDecode name, "")

/-- The last value under a name. -/
def lastValue? (name : String) (query : List (String × String)) : Option String :=
  (query.reverse.find? (·.1 == name)).map (·.2)

end Renewals.Text
