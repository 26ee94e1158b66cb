import Renewals.Cache.Fault
import Renewals.Cache.Holdings
/-! A cache of limited size in memory. What was used least recently gives way. -/
namespace Renewals

structure MemoryCache where
  maxsize : Nat
  held : Holdings
  room : held.items.length ≤ maxsize

namespace MemoryCache

def empty (maxsize : Nat) : MemoryCache := ⟨maxsize, .empty, Nat.zero_le _⟩

def live? (c : MemoryCache) (now : Binary64) (key : LooseText) : Option Held := c.held.live? now key

/-- Reading makes a live value the most recently used one. -/
def get (c : MemoryCache) (now : Binary64) (key : LooseText) : Option LooseText × MemoryCache :=
  match hl : c.live? now key with
  | none => (none, c)
  | some h =>
    (some h.payload, {
      c with
      held := c.held.put h
      room := by
        have hf := (Option.filter_eq_some_iff.1 hl).1
        have hk : h.key = key := by simpa using List.find?_some hf
        rw [← hk] at hf
        exact Nat.le_trans (Holdings.length_put_of_find? hf) c.room })

def keep (p : Held → Bool) (c : MemoryCache) : MemoryCache :=
  { c with
    held := c.held.keep p
    room := Nat.le_trans (Holdings.length_keep_le p c.held) c.room }

/-- A value on top of the most recently used others that it leaves room for. -/
def put (h : Held) (c : MemoryCache) (hm : c.maxsize ≠ 0) : MemoryCache :=
  let others := c.keep (·.key != h.key)
  { c with
    held := (others.held.latest (c.maxsize - 1)).put h
    room := by
      have hp := Holdings.length_put_le h (others.held.latest (c.maxsize - 1))
      have hl := Holdings.length_latest_le (c.maxsize - 1) others.held
      omega }

/-- What has expired goes first. A value that lives no time at all is not kept, and nothing fits
into a cache of size zero. -/
def set (c : MemoryCache) (now : Binary64) (key payload : LooseText) (ttl : Int) :
    Except CacheFault Unit × MemoryCache :=
  let fresh := c.keep (·.isLive now)
  match expiry? now ttl with
  | none => (.error .tooLong, fresh)
  | some expires =>
    let h : Held := ⟨key, payload, expires⟩
    if !h.isLive now then (.ok (), fresh.keep (·.key != key))
    else if hm : c.maxsize = 0 then (.error .tooLarge, fresh)
    else (.ok (), fresh.put h hm)

/-- What has expired counts as absent and stays where it is. -/
def invalidate (c : MemoryCache) (now : Binary64) (key : LooseText) : MemoryCache :=
  c.keep fun h => h.key != key || !h.isLive now

def clear (c : MemoryCache) : MemoryCache := empty c.maxsize

end MemoryCache
end Renewals
