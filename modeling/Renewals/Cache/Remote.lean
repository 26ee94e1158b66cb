import Renewals.Cache.Fault
import Renewals.Cache.Holdings
/-! A cache behind a client that can fail. It holds any number of values. -/
namespace Renewals

/-- What reaches the client. -/
inductive ClientCall
  | get (key : LooseText)
  | set (key payload : LooseText) (expiry : Int)
  | delete (key : LooseText)
  | ping
  | close
  deriving DecidableEq, Repr

/-- How a call of the client goes. -/
inductive ClientOutcome
  | sound
  | refused
  | timedOut
  | crashes
  deriving DecidableEq, Repr

/-- A client that keeps the values itself counts how long they live, and fails over a life too long
for that. A client of a server has no such limit: what the server refuses is an outcome of the
call. -/
structure RemoteCache where
  held : Holdings
  limit : LifeLimit

namespace RemoteCache

/-- Unless it is said otherwise, the client keeps the values itself. -/
def empty (limit : LifeLimit := .countable) : RemoteCache := ⟨.empty, limit⟩

def live? (c : RemoteCache) (now : Binary64) (key : LooseText) : Option Held := c.held.live? now key

/-- A failure under the name of what the caller wanted. -/
def outcome (name : String) : ClientOutcome → Except CacheFault Unit
  | .sound => .ok ()
  | .refused => .error (.unavailable name .connection)
  | .timedOut => .error (.unavailable name .timeout)
  | .crashes => .error .crash

def get (o : ClientOutcome) (c : RemoteCache) (now : Binary64) (key : LooseText) :
    Except CacheFault (Option LooseText) :=
  (outcome "get" o).map fun _ => (c.live? now key).map (·.payload)

/-- A value must live for some time. -/
def set (o : ClientOutcome) (c : RemoteCache) (now : Binary64) (key payload : LooseText) (ttl : Int) :
    Except CacheFault Unit × RemoteCache :=
  match outcome "set" o with
  | .error f => (.error f, c)
  | .ok _ =>
    if ttl ≤ 0 then (.error (.unavailable "set" .expiry), c)
    else
      match c.limit.expiry? now ttl with
      | none => (.error .tooLong, c)
      | some expires => (.ok (), { c with held := c.held.put ⟨key, payload, expires⟩ })

def invalidate (o : ClientOutcome) (c : RemoteCache) (key : LooseText) :
    Except CacheFault Unit × RemoteCache :=
  match outcome "invalidate" o with
  | .error f => (.error f, c)
  | .ok _ => (.ok (), { c with held := c.held.drop key })

end RemoteCache
end Renewals
