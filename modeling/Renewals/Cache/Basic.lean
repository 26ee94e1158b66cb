import Renewals.Cache.Memory
import Renewals.Cache.Remote
import Renewals.Json.Printer
/-! The cache in front of the store, in memory or behind a client. -/
namespace Renewals

inductive Cache
  | memory (c : MemoryCache)
  | remote (c : RemoteCache)

namespace Cache

/-- The text that a reader would find under a key. -/
def live? (now : Binary64) (key : LooseText) : Cache → Option LooseText
  | .memory c => (c.live? now key).map (·.payload)
  | .remote c => (c.live? now key).map (·.payload)

/-- Only calls that go through a client can fail. -/
def fetch (o : ClientOutcome) (now : Binary64) (key : LooseText) :
    Cache → Except CacheFault (Option LooseText) × Cache
  | .memory c => let r := c.get now key; (.ok r.1, .memory r.2)
  | .remote c => (c.get o now key, .remote c)

def put (o : ClientOutcome) (now : Binary64) (key payload : LooseText) (ttl : Int) :
    Cache → Except CacheFault Unit × Cache
  | .memory c => let r := c.set now key payload ttl; (r.1, .memory r.2)
  | .remote c => let r := c.set o now key payload ttl; (r.1, .remote r.2)

def drop (o : ClientOutcome) (now : Binary64) (key : LooseText) :
    Cache → Except CacheFault Unit × Cache
  | .memory c => (.ok (), .memory (c.invalidate now key))
  | .remote c => let r := c.invalidate o key; (r.1, .remote r.2)

def ping (o : ClientOutcome) : Cache → Except CacheFault Unit
  | .memory _ => .ok ()
  | .remote _ => RemoteCache.outcome "ping" o

def close (o : ClientOutcome) : Cache → Except CacheFault Unit
  | .memory _ => .ok ()
  | .remote _ => RemoteCache.outcome "close" o

def clear : Cache → Cache
  | .memory c => .memory c.clear
  | .remote c => .remote c

/-- A fault of the value behind a key, or of reading it. -/
def undecodable (key : LooseText) (f : ReadFault) : CacheFault :=
  if f.isHandled then .undecodable key f else .unreadable f

/-- The value that a cached text stands for. -/
def decode {α : Type} (read : Json → Except DecodeFault α) (key payload : LooseText) :
    Except CacheFault α :=
  match Json.read payload with
  | .error f => .error (undecodable key (.text f))
  | .ok v => (read v).mapError fun f => undecodable key (.value f)

end Cache

/-- Where the value of a subscription is cached. -/
def cacheKeyOf (id : Json) : LooseText := id.display.append "subscription:"

def cacheKey (id : Int) : String := "subscription:" ++ (Json.int id).shown

theorem cacheKeyOf_int (id : Int) : cacheKeyOf (.int id) = cacheKey id := rfl

end Renewals
