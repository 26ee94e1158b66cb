import Renewals.Number.Numeral
import Renewals.Text.Charset
import Renewals.Text.Percent
import Renewals.Text.Word
/-! What a request is for: an address as a client resolves it against the root of the service. -/
namespace Renewals.Http

/-- A host with its port. The usual port of a scheme is left out. -/
structure Server where
  name : String
  port : Option Int
  deriving DecidableEq, Repr

def Server.standard : Server := ⟨"testserver", none⟩

def Server.text (s : Server) : String := s.name ++ (s.port.elim "" fun n => s!":{n}")

inductive Scheme
  | http
  | https
  deriving DecidableEq, Repr

def Scheme.name : Scheme → String
  | http => "http"
  | https => "https"

def Scheme.ofName? (s : String) : Option Scheme := [http, https].find? (·.name == s)

/-- A path without dot segments and a query, both still with percent signs. An absolute address
names its scheme and its server itself. -/
structure Target where
  scheme : Scheme
  server : Server
  path : List Char
  query : List Char
  deriving DecidableEq, Repr

namespace Target

inductive Part
  | path
  | query
  deriving DecidableEq, Repr

def Part.name : Part → String
  | path => "path"
  | query => "query"

/-- Addresses that no client sends. -/
inductive Fault
  | tooLong
  | control (c : Char) (position : Nat)
  | torn (gap : Gap)
  | port (text : String)
  | doubledSlash
  | leadingColon
  | longPart (p : Part)
  | scheme (name : String)
  deriving DecidableEq, Repr

def Fault.message : Fault → String
  | .tooLong => "URL too long"
  | .control c p =>
    s!"Invalid non-printable ASCII character in URL, {Text.quoted c.toString} at position {p}."
  | .torn gap => gap.message
  | .port s => s!"Invalid port: {Text.quoted s}"
  | .doubledSlash => "Relative URLs cannot have a path starting with '//'"
  | .leadingColon => "Relative URLs cannot have a path starting with ':'"
  | .longPart p => s!"URL component '{p.name}' too long"
  | .scheme s => Text.quoted s

/-- Of a whole address as it is given, and of each part with its escapes. -/
def longest : Nat := 65536

def isControl (c : Char) : Bool := c.toNat < 0x20 || c.toNat == 0x7F

def isSchemeChar (c : Char) : Bool :=
  Text.isAsciiLetter c || Text.isAsciiDigit c || c == '+' || c == '.' || c == '-'

def asciiLower (c : Char) : Char :=
  if 'A' ≤ c ∧ c ≤ 'Z' then Char.ofNat (c.toNat + 32) else c

/-- A scheme up to its colon, which may be empty, and the rest. -/
def splitScheme (cs : List Char) : List Char × List Char :=
  match cs.span isSchemeChar with
  | ([], ':' :: rest) => ([], rest)
  | (c :: s, ':' :: rest) =>
    if Text.isAsciiLetter c then ((c :: s).map asciiLower, rest) else ([], cs)
  | _ => ([], cs)

/-- An authority behind two slashes, and the rest. -/
def splitAuthority : List Char → List Char × List Char
  | '/' :: '/' :: cs => cs.span fun c => c ≠ '/' ∧ c ≠ '?' ∧ c ≠ '#'
  | cs => ([], cs)

/-- The path and the query, without the fragment. -/
def splitQuery (cs : List Char) : List Char × List Char :=
  let cs := cs.takeWhile (· ≠ '#')
  (cs.takeWhile (· ≠ '?'), (cs.dropWhile (· ≠ '?')).tail)

/-- A dot is the same place, two dots are the place above. `out` is the path so far, reversed. -/
def resolveDots : List (List Char) → List (List Char) → List (List Char)
  | out, [] => out.reverse
  | out, s :: ss =>
    if s = ['.'] then resolveDots out ss
    else if s = ['.', '.'] then resolveDots (if out = [[]] then out else out.tail) ss
    else resolveDots (s :: out) ss

/-- The path without dot segments. -/
def resolve (path : List Char) : List Char :=
  ['/'].intercalate (resolveDots [] (Text.splitOnChar '/' path))

/-- Nothing is the root. -/
def orRoot (path : List Char) : List Char := if path.isEmpty then ['/'] else path

/-- The port that a scheme implies. -/
def usualPort? (scheme : List Char) : Option Int :=
  [("http", (80 : Int)), ("https", 443), ("ftp", 21), ("ws", 80), ("wss", 443)].lookup
    (String.ofList scheme)

/-- Behind a user, the name of a server and a port. -/
def readServer (scheme authority : List Char) : Except Fault Server :=
  let place := (authority.reverse.takeWhile (· ≠ '@')).reverse
  let (name, rest) := place.span (· ≠ ':')
  let server (port : Option Int) : Server := ⟨String.ofList (name.map asciiLower), port⟩
  match rest.tail with
  | [] => .ok (server none)
  | digits =>
    match Numeral.read (String.ofList digits) with
    | .error _ => .error (.port (String.ofList digits))
    | .ok n => .ok (server (if usualPort? scheme = some n then none else some n))

/-- The length of a part in which blanks, some marks and all beyond ASCII are escaped. -/
def escapedLength (marks cs : List Char) : Nat :=
  cs.foldr (fun c n => n +
    if c.toNat < 0x80 then if marks.contains c then 3 else 1 else 3 * (Text.utf8Bytes c).length) 0

def queryMarks : List Char := [' ', '"', '<', '>']
def pathMarks : List Char := queryMarks ++ [Char.ofNat 0x60, '\x7b', '\x7d']

/-- A path on its own counts from the root, however many slashes it starts with. -/
def ofRelative (path query : List Char) : Except Fault Target :=
  let path := '/' :: path.dropWhile (· == '/')
  if escapedLength pathMarks path > longest then .error (.longPart .path)
  else if escapedLength queryMarks query > longest then .error (.longPart .query)
  else .ok ⟨.http, .standard, resolve path, query⟩

/-- Without a scheme and an authority some paths could be taken for either. -/
def checkPath (path : List Char) : Except Fault Unit :=
  match path with
  | '/' :: '/' :: _ => .error .doubledSlash
  | ':' :: _ => .error .leadingColon
  | _ => .ok ()

def readWhole (cs : List Char) : Except Fault Target := do
  let (scheme, rest) := splitScheme cs
  let (authority, rest) := splitAuthority rest
  let (path, query) := splitQuery rest
  let server ← readServer scheme authority
  if scheme.isEmpty && authority.isEmpty then
    checkPath path
    ofRelative path query
  else if scheme.isEmpty || server.name.isEmpty then ofRelative (resolve path) query
  else
    match Scheme.ofName? (String.ofList scheme) with
    | some s => pure ⟨s, server, resolve (orRoot path), query⟩
    | none => .error (.scheme (String.ofList scheme))

/-- Every character without bytes is met on its own. -/
def readChars (s : LooseText) : Except Fault (List Char) :=
  match s.points.mapM CodePoint.char? with
  | some cs => .ok cs
  | none =>
    .error (.torn ⟨.unicode, 0, (s.points.filter (·.char?.isNone)).take 1⟩)

def read (s : LooseText) : Except Fault Target := do
  if s.points.length > longest then throw .tooLong
  match s.points.findIdx? (·.passes isControl) with
  | some p => .error (.control (((s.points[p]?).bind CodePoint.char?).getD '\x00') p)
  | none => readWhole (← readChars s)

/-- The path that requests are routed by. Both the client and the service take percent signs for
escapes. -/
def decodedPath (t : Target) : List Char := Text.percentDecode (Text.percentDecode (orRoot t.path))

end Target
end Renewals.Http
