import Renewals.Deployment.Steps
import Renewals.Http.Service
import Renewals.Store.Address
/-! The programs: the service over requests, and the scan process, from their settings. -/
namespace Renewals

/-- A program that a web server is asked to run, and where. -/
structure Launch where
  application : String
  factory : Bool
  host : String
  port : Nat
  deriving DecidableEq, Repr

def Launch.standard : Launch := ⟨"subaggregator.main:create_app", true, "0.0.0.0", 8000⟩

def serviceTitle : String := "Subscription Aggregator"

namespace Settings

/-- Only one word selects the cache in memory. -/
def usesMemory (s : Settings) : Bool := s.cacheBackend == "memory"

def cache (s : Settings) (limit : LifeLimit := .countable) : Cache :=
  if s.usesMemory then .memory (.empty 1024) else .remote (.empty limit)

/-- The clients that are made: the address of each. -/
def clients (s : Settings) : List String := if s.usesMemory then [] else [s.redisUrl]

/-- Clients are asked for text, not for bytes. -/
def clientOptions : List (String × Bool) := [("decode_responses", true)]

def storeAddress (s : Settings) : Except Store.Address.Fault Store.Address :=
  Store.Address.usable s.storeUrl

end Settings

/-- A database in a file can be opened where the directory of the file exists. -/
def Store.Address.isReached (directories : List String) (a : Store.Address) : Bool :=
  match a.file? with
  | some file => directories.contains
    (String.ofList (file.toList.reverse.dropWhile (· ≠ '/')).reverse)
  | none => true

namespace Deployment

def ofSettings (s : Settings) (today : Day) (schema : Schema) (limit : LifeLimit := .countable) :
    Deployment :=
  fresh s s.policy today schema (s.cache limit)

/-- The cache is greeted before anything else. -/
def greet (d : Deployment) : Except Failure Unit × Deployment := d.run Task.greetCache

def handle (r : Http.Request) (d : Deployment) : Except Failure Http.Response × Deployment :=
  d.run (Http.handle ⟨d.policy, d.today⟩ r)

def handleAll : List Http.Request → Deployment → Except Failure (List Http.Response) × Deployment
  | [], d => (.ok [], d)
  | r :: rs, d =>
    match d.handle r with
    | (.error f, d) => (.error f, d)
    | (.ok a, d) =>
      let t := handleAll rs d
      (t.1.map (a :: ·), t.2)

/-- Why the service or the scan process ends early. -/
inductive Stop
  | failure (f : Failure)
  | hour (f : Daily.Fault)

/-- What is left of a run of the service. -/
structure ServiceRun where
  responses : List Http.Response
  board : Option Board

/-- Start, requests in turn, stop. -/
def runService (requests : List Http.Request) (d : Deployment) :
    Except Stop ServiceRun × Deployment :=
  match d.greet with
  | (.error f, d) => (.error (.failure f), d)
  | (.ok _, d) =>
    match d.startService with
    | (.error f, d) => (.error (.hour f), d)
    | (.ok _, d) =>
      match d.handleAll requests with
      | (.error f, d) => (.error (.failure f), d)
      | (.ok responses, d) =>
        match d.stopService with
        | (.error f, d) => (.error (.failure f), d)
        | (.ok board, d) => (.ok ⟨responses, board⟩, d)

def runJobs (p : ScanProcess) : List Job → Deployment → Except Failure Unit × Deployment
  | [], d => (.ok (), d)
  | j :: js, d =>
    match d.runJob p j with
    | (.error f, d) => (.error f, d)
    | (.ok _, d) => runJobs p js d

/-- The exit code of the scan process, and its board if it came up. -/
structure Exit where
  code : Nat
  board : Option Board

/-- A startup that failed in an expected way is logged and gives exit code 1. -/
def giveUp (d : Deployment) : Except Failure Exit × Deployment :=
  let r := d.run (Task.log .error "scheduler startup failed")
  (.ok ⟨1, none⟩, r.2)

/-- Each job runs once before the end. -/
def runScanProgram (d : Deployment) : Except Failure Exit × Deployment :=
  match d.startProcess with
  | (.error f, d) =>
    match f with
    | .broker b => if b.isUnavailable then giveUp d else (.error f, d)
    | .notReady .. => giveUp d
    | f => (.error f, d)
  | (.ok p, d) =>
    let p := p.launch
    match runJobs p p.board.jobs d with
    | (.error f, d) => (.error f, d)
    | (.ok _, d) =>
      match d.shutDownProcess p with
      | (.error f, d) => (.error f, d)
      | (.ok _, d) => (.ok ⟨0, some p.halt.board⟩, d)

end Deployment
end Renewals
