import Renewals.Field.Basic
import Renewals.Http.Route
import Renewals.Json.Reader
import Renewals.Text.Encoded
/-! What a request brings: who calls, and a body. -/
namespace Renewals.Http

structure Request where
  method : String
  target : Target
  headers : List (String × String)
  body : String
  deriving DecidableEq, Repr

def sameName (a b : String) : Bool := a.toList.map Field.lower == b.toList.map Field.lower

/-- Names of headers have no case, and values are read byte by byte. -/
def Request.header? (r : Request) (name : String) : Option String :=
  (r.headers.find? (sameName name ·.1)).map fun h => Text.bytewise h.2

/-- The host that the header tells, if it can be one. -/
def Request.host (r : Request) : String :=
  ((r.header? "Host").filter isHost).getD r.target.server.text

structure Caller where
  username : String
  role : String
  userUid : Option String
  deriving DecidableEq, Repr

/-- The caller that the gateway vouches for. -/
def Request.caller? (r : Request) : Option Caller :=
  match r.header? "X-User-Name" with
  | none | some "" => none
  | some name => some ⟨name, (r.header? "X-User-Role").getD "user", r.header? "X-User-Uid"⟩

inductive Received
  | nothing
  | opaqueText
  | value (v : Json)

inductive BodyFault
  | syntaxAt (offset : Nat)
  | unreadable
  deriving DecidableEq, Repr

/-- The kind of content before any parameters. -/
def contentKind (s : String) : List Char :=
  (Text.trim (s.toList.takeWhile (· ≠ ';'))).map Field.lower

def isJsonKind (cs : List Char) : Bool :=
  match Text.splitOnChar '/' cs with
  | [main, sub] =>
    main == "application".toList &&
      (sub == "json".toList || "+json".toList.isSuffixOf sub)
  | _ => false

def carriesJson (contentType : Option String) : Bool :=
  contentType.any fun s => isJsonKind (contentKind s)

/-- The code points of a body. Behind a byte order mark, which is skipped, the encoding is known. -/
def bodyPoints? : List Char → Option (List CodePoint)
  | '\uFEFF' :: cs => some (cs.map .char)
  | cs => Text.reread? cs

def Request.received (r : Request) : Except BodyFault Received :=
  if r.body = "" then .ok .nothing
  else if !carriesJson (r.header? "Content-Type") then .ok .opaqueText
  else
    match bodyPoints? r.body.toList with
    | none => .error .unreadable
    | some cs =>
      match (Json.readAll cs).mapError (Json.Stop.within cs) with
      | .ok v => .ok (.value v)
      | .error (.unmet _ _ _ offset) => .error (.syntaxAt offset)
      | .error _ => .error .unreadable

end Renewals.Http
