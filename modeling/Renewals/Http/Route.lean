import Renewals.Http.Target
/-! Which endpoint a request is for. -/
namespace Renewals.Http

inductive Endpoint
  | create
  | list
  | sum
  | read
  | update
  | remove
  | health
  | ready
  deriving DecidableEq, Repr

namespace Endpoint

/-- In the order in which they are tried. -/
def all : List Endpoint := [create, list, sum, read, update, remove, health, ready]

def method : Endpoint → String
  | create | sum => "POST"
  | list | read | health | ready => "GET"
  | update => "PUT"
  | remove => "DELETE"

def collection : List Char := "/api/v1/subscriptions/".toList

/-- A fixed path; one line break behind it does not count. -/
def fixed (pattern path : List Char) : Option (List Char) :=
  if path = pattern ∨ path = pattern ++ ['\n'] then some [] else none

/-- One part of a path below the collection. -/
def item (path : List Char) : Option (List Char) :=
  if collection.isPrefixOf path then
    let rest := path.drop collection.length
    if rest.isEmpty || rest.contains '/' then none else some rest
  else none

/-- The variable part of a path that an endpoint has, empty if it has none. -/
def match? (e : Endpoint) (path : List Char) : Option (List Char) :=
  match e with
  | create | list => fixed collection path
  | sum => fixed (collection ++ "sum".toList) path
  | read | update | remove => item path
  | health => fixed "/health".toList path
  | ready => fixed "/ready".toList path

end Endpoint

inductive Routing
  | found (e : Endpoint) (part : String)
  | wrongMethod (allow : String)
  | moved (path : List Char)
  | missing
  deriving DecidableEq, Repr

/-- Digits of a port that there can be. -/
def isPort (cs : List Char) : Bool :=
  cs.all Text.isAsciiDigit && Text.ofDigits (cs.filterMap Text.asciiDigitValue?) ≤ 65535

def isNameChar (c : Char) : Bool :=
  Text.isAsciiDigit c || Text.isAsciiLetter c || "-._~!$&'()*+,;=%".toList.contains c

def isAddressChar (c : Char) : Bool := (Text.hexValue? c).isSome || c == ':' || c == '.'

/-- A name, or a numeric address in brackets, and maybe a port. -/
def isHost (s : String) : Bool :=
  let port : List Char → Bool
    | [] => true
    | ':' :: cs => isPort cs
    | _ => false
  match s.toList with
  | '[' :: cs =>
    match cs.span isAddressChar with
    | (_ :: _, ']' :: rest) => port rest
    | _ => false
  | cs =>
    let (name, rest) := cs.span isNameChar
    !name.isEmpty && port rest

/-- The path with its closing slash taken away or added. -/
def otherPath (path : List Char) : List Char :=
  if path.getLast? = some '/' then (path.reverse.dropWhile (· == '/')).reverse else path ++ ['/']

/-- The first endpoint with path and method, else the first with the path, else one whose path
differs in the closing slash only. -/
def route (method : String) (path : List Char) : Routing :=
  let here := Endpoint.all.filterMap fun e => (e.match? path).map (e, ·)
  match here.find? (·.1.method == method), here with
  | some (e, part), _ => .found e (String.ofList part)
  | none, (e, _) :: _ => .wrongMethod e.method
  | none, [] =>
    if path ≠ ['/'] ∧ Endpoint.all.any fun e => (e.match? (otherPath path)).isSome then
      .moved (otherPath path)
    else .missing

/-- Marks of a query and of a fragment cannot stand in a path. -/
def locationPath (path : List Char) : List Char :=
  path.flatMap fun c =>
    if c = '?' then "%3F".toList else if c = '#' then "%23".toList else [c]

/-- Marks with a meaning of their own in an address. -/
def addressMarks : List Char := ":/%#?=@[]!$&'()*+,;".toList

def location (scheme : Scheme) (host : String) (path query : List Char) : String :=
  let tail := if query.isEmpty then [] else '?' :: query
  let start := scheme.name ++ "://" ++ host
  String.ofList (Text.percentEncode addressMarks (start.toList ++ locationPath path ++ tail))

end Renewals.Http
