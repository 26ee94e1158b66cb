import Renewals.Deployment.Startup
import Renewals.Http.Draft
import Renewals.Migration.Address
import Renewals.Migration.Script
/-! The command line. Settings come from the environment, the day from the arguments. -/
namespace Renewals

inductive Command
  | settings
  | script (direction : Migration.Direction)
  | scan (today : Day)
  | serve (today : Day)

namespace Command

def read? : List String → Option Command
  | ["settings"] => some settings
  | ["script", "upgrade"] => some (script .upgrade)
  | ["script", "downgrade"] => some (script .downgrade)
  | ["scan", today] => (Day.readIso today).toOption.map scan
  | ["serve", today] => (Day.readIso today).toOption.map serve
  | _ => none

def usage : String := "usage: renewals settings | script upgrade|downgrade | scan DAY | serve DAY"

/-- The script for the address in the settings, or why there is none. -/
def scriptText (s : Settings) (direction : Migration.Direction) : Except String String :=
  match Migration.dialectFor s.storeUrl with
  | .error f => .error f.message
  | .ok dialect => .ok (Migration.script dialect direction)

def shownLog (l : LogLine) : String :=
  match l.level with
  | .warning => "WARNING " ++ l.text.mended
  | .error => "ERROR " ++ l.text.mended

def stopMessage : Deployment.Stop → String
  | .failure f => f.message.mended
  | .hour f => f.message

def environment : IO Json.Members := do
  let found ← Settings.slots.mapM fun slot => do
    let value ← IO.getEnv slot.name
    pure (value.map fun s : String => ((slot.name, .str s) : LooseText × Json))
  pure (found.filterMap id)

def complain (text : String) : IO UInt32 := do
  IO.eprintln text
  pure 1

def showLogs (d : Deployment) : IO Unit := d.logs.forM fun l => IO.eprintln (shownLog l)

def scanOnce (d : Deployment) : IO UInt32 := do
  let (r, d) := d.runScanProgram
  showLogs d
  match r with
  | .error f => complain f.message.mended
  | .ok exit => do
    IO.println (Json.optional Board.describe exit.board).text
    pure exit.code.toUInt32

def readRequest (line : String) : Except String Http.Request := do
  let v ← (Json.read line).mapError (·.message)
  (Http.Draft.ofJson v).request.mapError (·.message)

partial def requestsFrom (input : IO.FS.Stream) (soFar : List Http.Request) :
    IO (List Http.Request) := do
  let line ← input.getLine
  if line.isEmpty then pure soFar.reverse
  else
    match readRequest line with
    | .ok r => requestsFrom input (r :: soFar)
    | .error message => do
      IO.eprintln message
      requestsFrom input soFar

def serveAll (d : Deployment) : IO UInt32 := do
  let (r, d) := d.runService (← requestsFrom (← IO.getStdin) [])
  showLogs d
  match r with
  | .error f => complain (stopMessage f)
  | .ok run => do
    run.responses.forM fun a => IO.println a.toJson.text
    pure 0

/-- Nothing runs where the database has no address to work with. -/
def onStore (s : Settings) (f : Store.Address → IO UInt32) : IO UInt32 :=
  match s.storeAddress with
  | .ok a => f a
  | .error fault => complain fault.message

def perform (s : Settings) : Command → IO UInt32
  | .settings => do
    IO.println s.toJson.text
    pure 0
  | .script direction =>
    match scriptText s direction with
    | .ok text => do
      IO.print text
      pure 0
    | .error text => complain text
  | .scan today => onStore s fun _ => scanOnce (.ofSettings s today .checked)
  | .serve today => onStore s fun _ => serveAll (.ofSettings s today .checked)

def run (args : List String) : IO UInt32 := do
  match read? args with
  | none => complain usage
  | some command =>
    match Settings.read (← environment) with
    | .error fs => complain (Json.arr (fs.map fun f => Http.faultJson f.complaint f.place)).text
    | .ok s => perform s command

end Command
end Renewals

def main (args : List String) : IO UInt32 := Renewals.Command.run args
