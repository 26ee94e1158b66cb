import Renewals.Number.Numeral
import Renewals.Store.Dialect
import Renewals.Text.Percent
import Renewals.Text.Word
/-! Where a database is: the driver that reaches it, a user, a host, a name and options. -/
namespace Renewals.Store

structure Address where
  scheme : String
  user : Option String
  password : Option String
  host : Option String
  port : Option Int
  database : Option String
  options : List (String × String)
  deriving DecidableEq, Repr

namespace Address

/-- A password does not show. -/
def userText (a : Address) : String :=
  match a.user with
  | none => ""
  | some user =>
    String.ofList (Text.percentEncode [' ', '+'] user.toList) ++
      (if a.password.isSome then ":***" else "") ++ "@"

def hostText (a : Address) : String :=
  match a.host with
  | none => ""
  | some host => if host.toList.contains ':' then "[" ++ host ++ "]" else host

/-- Options are shown by their names. -/
def optionsText (a : Address) : String :=
  let sorted := a.options.mergeSort fun x y => x.1 ≤ y.1
  if sorted.isEmpty then ""
  else "?" ++ "&".intercalate
    (sorted.map fun o => Text.formEncode o.1 ++ "=" ++ Text.formEncode o.2)

def text (a : Address) : String :=
  a.scheme ++ "://" ++ a.userText ++ a.hostText ++
    (a.port.elim "" fun n => s!":{n}") ++ (a.database.elim "" ("/" ++ ·)) ++ a.optionsText

/-- Why an address is none, or none that can be worked with. -/
inductive Fault
  | unreadable
  | noPort
  | port (f : Numeral.Fault)
  | manyParts
  | unknownDriver (name : String)
  | unknownOption (name : String)
  | missing (library : String)
  | misplaced (a : Address)
  deriving DecidableEq, Repr

def Fault.message : Fault → String
  | .unreadable => "Could not parse SQLAlchemy URL from given URL string"
  | .noPort => "Port argument must be an integer or None"
  | .port f => f.message
  | .manyParts => "too many values to unpack (expected 2)"
  | .unknownDriver name => s!"Can't load plugin: sqlalchemy.dialects:{name}"
  | .unknownOption name => s!"Can't load plugin: sqlalchemy.plugins:{name}"
  | .missing library => s!"No module named '{library}'"
  | .misplaced a =>
    s!"Invalid SQLite URL: {a.text}\nValid SQLite URL forms are " ++
      "sqlite:///:memory: or sqlite:////absolute/path/to/file.db"

/-- The text in front of the last mark and the text behind it. -/
def splitLast? (mark : Char) (cs : List Char) : Option (List Char × List Char) :=
  match cs.reverse.span (· ≠ mark) with
  | (behind, _ :: front) => some (front.reverse, behind.reverse)
  | (_, []) => none

/-- A scheme and what follows its two slashes. -/
def splitScheme? (cs : List Char) : Option (List Char × List Char) :=
  match cs.span fun c => Text.isWord c || c == '+' with
  | ([], _) => none
  | (scheme, ':' :: '/' :: '/' :: rest) => some (scheme, rest)
  | _ => none

/-- A user with a password ends at the first at sign, one without at the last. -/
def splitUser (cs : List Char) : Option (List Char × Option (List Char)) × List Char :=
  let (front, rest) := cs.span fun c => c ≠ ':' ∧ c ≠ '/'
  let unprotected :=
    match splitLast? '@' front with
    | some (user, host) => (some (user, none), host ++ rest)
    | none => (none, cs)
  match rest with
  | ':' :: more =>
    match more.span (· ≠ '@') with
    | (password, _ :: rest) => (some (front, some password), rest)
    | (_, []) => unprotected
  | _ => unprotected

/-- A host may stand in brackets, where colons belong to it. -/
def splitHost (cs : List Char) : Option (List Char) × List Char :=
  let plain :=
    match cs.span fun c => c ≠ '/' ∧ c ≠ ':' ∧ c ≠ '?' with
    | ([], rest) => (none, rest)
    | (host, rest) => (some host, rest)
  match cs with
  | '[' :: more =>
    let (inner, rest) := more.span fun c => c ≠ '/' ∧ c ≠ '?'
    match splitLast? ']' inner with
    | none | some ([], _) => plain
    | some (host, behind) => (some host, behind ++ rest)
  | _ => plain

def splitPort : List Char → Option (List Char) × List Char
  | ':' :: cs => let (port, rest) := cs.span fun c => c ≠ '/' ∧ c ≠ '?'; (some port, rest)
  | cs => (none, cs)

def splitDatabase : List Char → Option (List Char) × List Char
  | '/' :: cs => let (name, rest) := cs.span (· ≠ '?'); (some name, rest)
  | cs => (none, cs)

/-- Options on one line; one without a value is none. -/
def readOptions : List Char → List (String × String)
  | '?' :: cs => (Text.readQuery (cs.takeWhile (· ≠ '\n'))).filter (·.2 ≠ "")
  | _ => []

def readPort : Option (List Char) → Except Fault (Option Int)
  | none => .ok none
  | some [] => .error .noPort
  | some cs => ((Numeral.read (String.ofList cs)).mapError .port).map some

def unescape (cs : List Char) : String := String.ofList (Text.percentDecode cs)

/-- What follows the last part that can be read is left out. -/
def read (s : String) : Except Fault Address :=
  match splitScheme? s.toList with
  | none => .error .unreadable
  | some (scheme, rest) => do
    let (user, rest) := splitUser rest
    let (host, rest) := splitHost rest
    let (port, rest) := splitPort rest
    let (database, rest) := splitDatabase rest
    pure
      { scheme := String.ofList scheme
        user := user.map fun u => unescape u.1
        password := (user.bind (·.2)).map unescape
        host := host.map String.ofList
        port := ← readPort port
        database := database.map String.ofList
        options := readOptions rest }

/-- A plus sign in a scheme divides the kind of a database from the way to reach it. -/
def driverName (a : Address) : String :=
  String.ofList (a.scheme.toList.map fun c => if c = '+' then '.' else c)

def driver (a : Address) : Except Fault Driver :=
  if 1 < a.scheme.toList.count '+' then .error .manyParts
  else match driver? a.driverName with
    | some d => .ok d
    | none => .error (.unknownDriver a.driverName)

/-- A database in a file has neither a user nor a host. -/
def isMisplaced (a : Address) : Bool :=
  a.user.any (· ≠ "") || a.password.any (· ≠ "") || a.host.isSome || a.port.any (· ≠ 0)

/-- The address of a database that can be worked with. It need not be reached yet. -/
def usable (s : String) : Except Fault Address := do
  let a ← read s
  match a.options.lookup "plugin" with
  | some name => .error (.unknownOption name)
  | none =>
    let d ← a.driver
    match d.missing with
    | some library => .error (.missing library)
    | none => if d.dialect = some .sqlite && a.isMisplaced then .error (.misplaced a) else .ok a

/-- The file of a database that is kept in one. -/
def file? (a : Address) : Option String :=
  match a.driver with
  | .ok d =>
    if d.dialect = some .sqlite then a.database.filter fun f => f ≠ "" ∧ f ≠ ":memory:" else none
  | .error _ => none

end Address
end Renewals.Store
