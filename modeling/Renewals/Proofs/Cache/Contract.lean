import Mathlib.Data.Finset.Card
import Mathlib.Data.List.Forall2
import Renewals.Proofs.Deployment.Calls
import Renewals.Proofs.Number.Binary64
/-! One contract for both caches. Whatever is done with them in turn, a cache in memory tells what
the one behind a client tells, but for what it has let go; and it lets nothing go as long as there
is room for all keys. Lives are to be such as can be counted: the cache in memory refuses all
others, and a client may take them. -/
namespace Renewals

namespace Cache
variable {now : Binary64} {key payload : LooseText} {ttl : Int} {c r : Cache}

/-- What lives in one cache is in the other one too. -/
def Within (now : Binary64) (c r : Cache) : Prop :=
  ∀ h ∈ c.items, h.isLive now = true → h ∈ r.items

theorem Within.live? (h : Within now c r) (hl : c.live? now key = some payload) :
    r.live? now key = some payload := by
  obtain ⟨g, hg, hk, hlive, hp⟩ := live?_eq_some_iff.mp hl
  exact live?_eq_some_iff.mpr ⟨g, h g hg hlive, hk, hlive, hp⟩

/-- What lives later on lives now. -/
theorem Within.wait (h : Within now c r) {later : Binary64} (hl : now.below later = true) :
    Within later c r := by
  intro g hg hlive
  exact h g hg (Binary64.below_trans hl hlive)

/-- A value comes into both, and the one with room for all keys keeps the others. -/
theorem Within.put (h : Within now c r) {keys : List LooseText} (hr : r.RoomFor keys)
    (hk : key ∈ keys) (hp : 0 < ttl) (hb : (Binary64.ofInt? ttl).isSome = true) (hcr : c.HasRoom)
    (hrr : r.HasRoom) :
    Within now (put .sound now key payload ttl c).2 (put .sound now key payload ttl r).2 := by
  intro g hg hl
  rcases mem_items_put hg with ⟨hg, hne⟩ | ⟨rfl, rfl, he⟩
  · exact hr.mem_items_put hk (h g hg hl) hl (hne (put_sound (fun _ => hp) hb hcr _ _ _))
  · rw [LifeLimit.expiry?_of_isSome hb] at he
    exact mem_put (put_sound (fun _ => hp) hb hrr _ _ _)
      ((LifeLimit.expiry?_of_isSome hb).trans he) hl

theorem Within.drop (h : Within now c r) :
    Within now (drop .sound now key c).2 (drop .sound now key r).2 := by
  intro g hg hl
  obtain ⟨hg, hdead⟩ := mem_items_drop hg
  have hne : g.key ≠ key := by
    intro he
    have := hdead (drop_sound now key c) he
    simp [hl] at this
  have hg := h g hg hl
  cases r with
  | memory r => exact List.mem_filter.mpr ⟨hg, by simpa using Or.inl hne⟩
  | remote r => exact List.mem_filter.mpr ⟨hg, by simpa using hne⟩

/-- A cache takes every value that is to live, unless the end of the life is out of its reach. -/
theorem put_of_pos (hp : 0 < ttl) (hr : c.HasRoom) (now : Binary64) (key payload : LooseText) :
    (put .sound now key payload ttl c).1 =
      if (c.limit.expiry? now ttl).isSome then .ok () else .error .tooLong := by
  cases c with
  | memory c =>
    have hz : c.maxsize ≠ 0 := fun h => hr (congrArg some h)
    cases he : expiry? now ttl with
    | none => simp [put, MemoryCache.set, limit, LifeLimit.expiry?, he]
    | some e =>
      simp only [put, MemoryCache.set, limit, LifeLimit.expiry?, he, hz]
      split <;> rfl
  | remote c =>
    have ht : ¬ ttl ≤ 0 := by omega
    cases he : c.limit.expiry? now ttl <;>
      simp [put, RemoteCache.set, RemoteCache.outcome, limit, he, ht]

end Cache

/-- What can be done with a cache, and time that passes. What is set is to live for some time. -/
inductive CacheUse
  | set (key : LooseText) (v : Except EncodeFault Json) (ttl : Int) (pos : 0 < ttl)
  | get (key : LooseText)
  | invalidate (key : LooseText)
  | wait (later : Binary64)

inductive CacheReply
  | found (r : Except Failure (Option Snapshot))
  | done (r : Except Failure Unit)

/-- The same reply, or that nothing was found. -/
inductive CacheReply.Follows : CacheReply → CacheReply → Prop
  | same (r : CacheReply) : Follows r r
  | miss (r : Except Failure (Option Snapshot)) : Follows (.found (.ok none)) (.found r)

namespace CacheUse

/-- A clock does not go back. -/
def run (d : Deployment) : CacheUse → CacheReply × Deployment
  | set key v ttl _ => let r := d.run (Task.putCached key v ttl); (.done r.1, r.2)
  | get key => let r := d.run (Task.getCached Snapshot.ofJson key); (.found r.1, r.2)
  | invalidate key => let r := d.run (Task.dropCached key); (.done r.1, r.2)
  | wait later => (.done (.ok ()), if d.clock.below later then { d with clock := later } else d)

/-- Whatever comes into a cache is to live no longer than can be counted. -/
def Counted : CacheUse → Prop
  | set _ (.ok _) ttl _ => (Binary64.ofInt? ttl).isSome = true
  | _ => True

instance : (u : CacheUse) → Decidable u.Counted
  | set _ (.ok _) ttl _ => inferInstanceAs (Decidable ((Binary64.ofInt? ttl).isSome = true))
  | set _ (.error _) _ _ | get _ | invalidate _ | wait _ => isTrue trivial

/-- The key that something is set under. -/
def setKey? : CacheUse → Option LooseText
  | set key .. => some key
  | _ => none

def replies : List CacheUse → Deployment → List CacheReply
  | [], _ => []
  | u :: us, d => (u.run d).1 :: replies us (u.run d).2

end CacheUse

namespace Deployment

/-- At the same time, all that lives in one cache is in the other one, which has room for it. -/
structure CachedWithin (keys : List LooseText) (d e : Deployment) : Prop where
  left : d.SoundCache
  right : e.SoundCache
  clock : d.clock = e.clock
  room : e.cache.RoomFor keys
  within : Cache.Within d.clock d.cache e.cache

namespace CachedWithin
variable {keys : List LooseText} {d e : Deployment} (h : CachedWithin keys d e)
include h

/-- The same call of both caches. -/
protected theorem answer (c : Call)
    (hroom : (answer c e).2.cache.RoomFor keys)
    (hwithin : Cache.Within d.clock (answer c d).2.cache (answer c e).2.cache) :
    CachedWithin keys (answer c d).2 (answer c e).2 where
  left := h.left.answer c
  right := h.right.answer c
  clock := by
    rw [clock_answer, clock_answer]
    exact h.clock
  room := hroom
  within := by
    rw [clock_answer]
    exact hwithin

theorem get (key : LooseText) :
    (CacheUse.run d (.get key)).1.Follows (CacheUse.run e (.get key)).1 ∧
      CachedWithin keys (CacheUse.run d (.get key)).2 (CacheUse.run e (.get key)).2 := by
  simp only [CacheUse.run, run_getCached_snd]
  constructor
  · have hd := h.left.fetch key
    cases hfound : d.cache.live? d.clock key with
    | none =>
      rw [hfound] at hd
      rw [run_getCached_none hd]
      exact .miss _
    | some payload =>
      have he := h.right.fetch key
      rw [hfound] at hd
      rw [← h.clock, h.within.live? hfound] at he
      rw [run_getCached_congr hd he]
      exact .same _
  · refine h.answer _ (h.room.of_items (size?_answer _ _) ?_) ?_
    · intro g hg _
      exact mem_items_fetch.mp hg
    · intro g hg hl
      exact mem_items_fetch.mpr (h.within g (mem_items_fetch.mp hg) hl)

theorem set {key : LooseText} (hk : key ∈ keys) (v : Except EncodeFault Json) {ttl : Int}
    (hp : 0 < ttl) (hcounted : (CacheUse.set key v ttl hp).Counted) :
    (CacheUse.run d (.set key v ttl hp)).1.Follows (CacheUse.run e (.set key v ttl hp)).1 ∧
      CachedWithin keys (CacheUse.run d (.set key v ttl hp)).2
        (CacheUse.run e (.set key v ttl hp)).2 := by
  cases v with
  | error f => exact ⟨.same _, h⟩
  | ok v =>
    obtain ⟨hd, hdc⟩ := h.left.put key v.text ttl
    obtain ⟨he, hec⟩ := h.right.put key v.text ttl
    have hb : (Binary64.ofInt? ttl).isSome = true := hcounted
    simp only [CacheUse.run, run_putCached]
    constructor
    · rw [hd, he, Cache.put_sound (fun _ => hp) hb h.left.room,
        Cache.put_sound (fun _ => hp) hb h.right.room]
      exact .same _
    · refine h.answer _ (roomFor_put h.room hk) ?_
      rw [hdc, hec, ← h.clock]
      exact h.within.put h.room hk hp hb h.left.room h.right.room

theorem invalidate (key : LooseText) :
    (CacheUse.run d (.invalidate key)).1.Follows (CacheUse.run e (.invalidate key)).1 ∧
      CachedWithin keys (CacheUse.run d (.invalidate key)).2
        (CacheUse.run e (.invalidate key)).2 := by
  obtain ⟨hd, hdc⟩ := h.left.drop key
  obtain ⟨he, hec⟩ := h.right.drop key
  simp only [CacheUse.run, run_dropCached]
  constructor
  · rw [hd, he]
    exact .same _
  · refine h.answer _ (roomFor_drop h.room) ?_
    rw [hdc, hec, ← h.clock]
    exact h.within.drop

theorem wait (later : Binary64) :
    CachedWithin keys (CacheUse.run d (.wait later)).2 (CacheUse.run e (.wait later)).2 := by
  simp only [CacheUse.run, ← h.clock]
  split
  next hl =>
    exact ⟨⟨h.left.plan, h.left.room⟩, ⟨h.right.plan, h.right.room⟩, rfl, h.room, h.within.wait hl⟩
  next => exact h

/-- Whatever is done with both caches, the one tells what the other tells, or nothing. -/
theorem step {u : CacheUse} (hu : ∀ key, u.setKey? = some key → key ∈ keys) (hcounted : u.Counted) :
    (u.run d).1.Follows (u.run e).1 ∧ CachedWithin keys (u.run d).2 (u.run e).2 := by
  cases u with
  | set key v ttl hp => exact h.set (hu key rfl) v hp hcounted
  | get key => exact h.get key
  | invalidate key => exact h.invalidate key
  | wait later => exact ⟨.same _, h.wait later⟩

omit h in
theorem replies {uses : List CacheUse} (hu : ∀ key ∈ uses.filterMap CacheUse.setKey?, key ∈ keys)
    (hcounted : ∀ u ∈ uses, u.Counted) {d e : Deployment} (h : CachedWithin keys d e) :
    List.Forall₂ CacheReply.Follows (CacheUse.replies uses d) (CacheUse.replies uses e) := by
  induction uses generalizing d e with
  | nil => exact .nil
  | cons u us ih =>
    obtain ⟨hfirst, hrest⟩ := List.forall_mem_cons.mp hcounted
    obtain ⟨hfollows, hnext⟩ := h.step (u := u) (fun key hkey =>
      hu key (List.mem_filterMap.mpr ⟨u, List.mem_cons_self, hkey⟩)) hfirst
    refine .cons hfollows (ih (fun key hkey => hu key ?_) hrest hnext)
    obtain ⟨w, hw, hkey⟩ := List.mem_filterMap.mp hkey
    exact List.mem_filterMap.mpr ⟨w, List.mem_cons_of_mem u hw, hkey⟩

end CachedWithin
end Deployment

/-! One value after the other under the same key -/

namespace CacheUse
open Deployment

variable {d : Deployment} {key : LooseText} {r q : Row} {ttl : Int}

theorem run_set (d : Deployment) (key : LooseText) (v : Json) (pos : 0 < ttl) :
    run d (.set key (.ok v) ttl pos) =
      (.done ((answer (.put key v.text ttl) d).1.mapError .cache),
        (answer (.put key v.text ttl) d).2) := by
  simp only [run, run_putCached]

/-- Neither the time nor the reach of the cache depends on what is set. -/
theorem keeps_set (hd : d.SoundCache) (key : LooseText) (v : Json) (pos : 0 < ttl) :
    (run d (.set key (.ok v) ttl pos)).2.SoundCache ∧
      (run d (.set key (.ok v) ttl pos)).2.clock = d.clock ∧
      (run d (.set key (.ok v) ttl pos)).2.cache.limit = d.cache.limit := by
  rw [run_set]
  exact ⟨hd.answer _, clock_answer _ d, limit_answer _ d⟩

/-- A value is taken and then found as long as it lives. -/
theorem run_set_some (hd : d.SoundCache) (key : LooseText) (v : Json) (pos : 0 < ttl) {e : Binary64}
    (he : d.cache.limit.expiry? d.clock ttl = some e) (hl : d.clock.below e = true) :
    (run d (.set key (.ok v) ttl pos)).1 = .done (.ok ()) ∧
      (run d (.set key (.ok v) ttl pos)).2.cache.live? d.clock key = some v.text := by
  have hput := (hd.put key v.text ttl).1.trans (Cache.put_of_pos pos hd.room _ _ _)
  rw [he] at hput
  rw [run_set]
  exact ⟨by rw [hput]; rfl, live?_put hput he hl⟩

/-- A value whose life is out of reach is refused, and what was found before is found again. -/
theorem run_set_none (hd : d.SoundCache) (key : LooseText) (v : Json) (pos : 0 < ttl)
    (he : d.cache.limit.expiry? d.clock ttl = none) :
    (run d (.set key (.ok v) ttl pos)).1 = .done (.error (.cache .tooLong)) ∧
      (run d (.set key (.ok v) ttl pos)).2.cache.live? d.clock key =
        d.cache.live? d.clock key := by
  have hput := (hd.put key v.text ttl).1.trans (Cache.put_of_pos pos hd.room _ _ _)
  rw [he] at hput
  rw [run_set]
  exact ⟨by rw [hput]; rfl, live?_put_of_error hput key⟩

theorem run_get_of_live (hd : d.SoundCache) (hr : r.Storable)
    (hlive : d.cache.live? d.clock key = some r.toJson.text) :
    (run d (.get key)).1 = .found (.ok (some r.snapshot)) := by
  have hfetch := hd.fetch key
  rw [hlive] at hfetch
  simp only [run, run_getCached_some hfetch (r.decode_toJson hr key)]

/-- A row in the place of another one, and a reader behind it. -/
def replacing (key : LooseText) (r q : Row) (ttl : Int) (pos : 0 < ttl) : List CacheUse :=
  [.set key (.ok r.toJson) 60 (by decide), .set key (.ok q.toJson) ttl pos, .get key]

/-- A cache that can keep the second row for so long hands it out, and any other one the first. -/
theorem replies_replacing (hd : d.SoundCache) (hr : r.Storable) (hq : q.Storable) (pos : 0 < ttl)
    (hfirst : d.clock.below (d.clock.add (.ofInt 60)) = true)
    (hsecond : d.clock.below (d.clock.add (.ofInt ttl)) = true) :
    replies (replacing key r q ttl pos) d =
      if (d.cache.limit.expiry? d.clock ttl).isSome then
        [.done (.ok ()), .done (.ok ()), .found (.ok (some q.snapshot))]
      else [.done (.ok ()), .done (.error (.cache .tooLong)), .found (.ok (some r.snapshot))] := by
  let d₁ := (run d (.set key (.ok r.toJson) 60 (by decide))).2
  let d₂ := (run d₁ (.set key (.ok q.toJson) ttl pos)).2
  obtain ⟨hd₁, hclock₁, hlimit₁⟩ : d₁.SoundCache ∧ d₁.clock = d.clock ∧
    d₁.cache.limit = d.cache.limit := keeps_set hd key r.toJson _
  obtain ⟨hd₂, hclock₂, -⟩ : d₂.SoundCache ∧ d₂.clock = d₁.clock ∧ _ :=
    keeps_set hd₁ key q.toJson pos
  have hshort : d.cache.limit.expiry? d.clock 60 = some (d.clock.add (.ofInt 60)) :=
    LifeLimit.expiry?_of_isSome (by decide +kernel)
  obtain ⟨hset, hlive⟩ := run_set_some hd key r.toJson (by decide) hshort hfirst
  have hreplies : replies (replacing key r q ttl pos) d = [.done (.ok ()),
      (run d₁ (.set key (.ok q.toJson) ttl pos)).1, (run d₂ (.get key)).1] := by
    rw [← hset]
    rfl
  rw [hreplies, ← hclock₁, ← hlimit₁]
  rw [← hclock₁] at hlive hsecond
  cases he : d₁.cache.limit.expiry? d₁.clock ttl with
  | none =>
    obtain ⟨hagain, hkept⟩ := run_set_none hd₁ key q.toJson pos he
    rw [hagain, run_get_of_live hd₂ hr (by rw [hclock₂]; exact hkept.trans hlive)]
    rfl
  | some e =>
    obtain ⟨rfl, -⟩ := LifeLimit.expiry?_eq_some_iff.mp he
    obtain ⟨hagain, hnew⟩ := run_set_some hd₁ key q.toJson pos he hsecond
    rw [hagain, run_get_of_live hd₂ hq (by rw [hclock₂]; exact hnew)]
    rfl

end CacheUse

/-- Replies that follow each other are the same. -/
theorem CacheReply.Follows.antisymm {a b : CacheReply} (hab : a.Follows b) (hba : b.Follows a) :
    a = b := by
  cases hab with
  | same => rfl
  | miss r => cases hba <;> rfl

theorem eq_of_forall₂_follows {xs ys : List CacheReply} (h : List.Forall₂ CacheReply.Follows xs ys)
    (h' : List.Forall₂ CacheReply.Follows ys xs) : xs = ys := by
  induction h with
  | nil => rfl
  | cons hab _ ih =>
    obtain ⟨hba, htail⟩ := List.forall₂_cons.mp h'
    rw [hab.antisymm hba, ih htail]

/-- A new cache in memory beside a new one behind a client that does not fail, as long as all lives
can be counted. What the one in memory finds is what the other one finds, and every failure is the
same, but it may find nothing where the other one does; and it never does so unless things are set
under more keys than it has places. -/
theorem memory_follows_remote {size : Nat} (hsize : 1 ≤ size) {d : Deployment}
    (hplan : ∀ o ∈ d.cachePlan, o = .sound) (limit : LifeLimit) {uses : List CacheUse}
    (hcounted : ∀ u ∈ uses, u.Counted) :
    List.Forall₂ CacheReply.Follows
        (CacheUse.replies uses { d with cache := .memory (.empty size) })
        (CacheUse.replies uses { d with cache := .remote (.empty limit) }) ∧
      ((uses.filterMap CacheUse.setKey?).toFinset.card ≤ size →
        CacheUse.replies uses { d with cache := .memory (.empty size) } =
          CacheUse.replies uses { d with cache := .remote (.empty limit) }) := by
  let keys := (uses.filterMap CacheUse.setKey?).dedup
  have hkeys : ∀ key ∈ uses.filterMap CacheUse.setKey?, key ∈ keys := by
    intro key hkey
    exact List.mem_dedup.mpr hkey
  have hmemory : Deployment.SoundCache { d with cache := .memory (.empty size) } := by
    refine ⟨hplan, ?_⟩
    intro hz
    have : size = 0 := Option.some.inj hz
    omega
  have hremote : Deployment.SoundCache { d with cache := .remote (.empty limit) } :=
    ⟨hplan, by simp [Cache.HasRoom, Cache.size?]⟩
  have hfollows := Deployment.CachedWithin.replies hkeys hcounted {
    left := hmemory
    right := hremote
    clock := rfl
    room := fun n hn => absurd hn (by simp [Cache.size?])
    within := fun g hg => absurd hg List.not_mem_nil }
  refine ⟨hfollows, fun hcard => eq_of_forall₂_follows hfollows ?_⟩
  -- with room for all keys neither cache is ahead of the other
  refine Deployment.CachedWithin.replies hkeys hcounted {
    left := hremote
    right := hmemory
    clock := rfl
    room := ?_
    within := fun g hg => absurd hg List.not_mem_nil }
  intro n hn
  obtain rfl : size = n := Option.some.inj hn
  rw [List.card_toFinset] at hcard
  simpa [Cache.items, MemoryCache.empty, Holdings.empty] using hcard

/-- Three keys, of which one is used again before the third comes, and the third has a short life.
None of the values is a subscription, so a reader is told so or finds nothing. -/
def inTurns : List CacheUse :=
  [.set "a" (.ok .null) 60 (by decide), .set "b" (.ok (.arr [])) 60 (by decide), .get "a",
    .set "c" (.ok (.bool true)) 5 (by decide), .get "a", .get "b", .get "c", .wait (.ofInt 10),
    .get "c", .set "a" (.error .circular) 60 (by decide), .invalidate "a", .get "a", .get "b"]

theorem memory_follows_remote_inTurns : 1 ≤ 2 ∧ 1 ≤ 3 ∧
    (∀ o ∈ (Deployment.small (.remote .empty)).cachePlan, o = .sound) ∧
    (∀ u ∈ inTurns, u.Counted) ∧
    List.Forall₂ CacheReply.Follows
      (CacheUse.replies inTurns (.small (.memory (.empty 2))))
      (CacheUse.replies inTurns (.small (.remote (.empty .unlimited)))) ∧
    (inTurns.filterMap CacheUse.setKey?).toFinset.card ≤ 3 ∧
    CacheUse.replies inTurns (.small (.memory (.empty 3))) =
      CacheUse.replies inTurns (.small (.remote (.empty .unlimited))) := by
  have hplan : ∀ o ∈ (Deployment.small (.remote .empty)).cachePlan, o = .sound := by
    intro o ho
    exact absurd ho List.not_mem_nil
  have hcounted : ∀ u ∈ inTurns, u.Counted := by decide +kernel
  have hcard : (inTurns.filterMap CacheUse.setKey?).toFinset.card ≤ 3 := by decide +kernel
  exact ⟨by decide, by decide, hplan, hcounted,
    (@memory_follows_remote 2 (by decide) _ hplan .unlimited _ hcounted).1, hcard,
    (@memory_follows_remote 3 (by decide) _ hplan .unlimited _ hcounted).2 hcard⟩

def CacheReply.isMiss : CacheReply → Bool
  | .found (.ok none) => true
  | _ => false

-- two places are not enough: "b" gives way to "c"
example :
    (CacheUse.replies inTurns (.small (.memory (.empty 2)))).map CacheReply.isMiss =
      [false, false, false, false, false, true, false, false, true, false, false, true, true] ∧
    (CacheUse.replies inTurns (.small (.remote (.empty .unlimited)))).map CacheReply.isMiss =
      [false, false, false, false, false, false, false, false, true, false, false, true,
        false] := by
  decide +kernel

namespace CacheUse
open Deployment

/-- No binary number counts a life of so many seconds. -/
def overlong : Int := (Nat.pow 16 256 : Nat)

theorem overlong_pos : 0 < overlong := by decide +kernel

/-- Two entries under one key, the second one for longer than the cache in memory can count. -/
def overlongInPlace : List CacheUse :=
  replacing "a" ⟨someSubscription, 1⟩ ⟨someSubscription, 2⟩ overlong overlong_pos

/-- A cache in memory refuses a life too long to be counted and goes on to tell what it held before,
which a server that keeps values for any time does not hold any more. -/
theorem replies_overlongInPlace :
    (∀ o ∈ (small (.remote (.empty .unlimited))).cachePlan, o = .sound) ∧
    (overlongInPlace.filterMap setKey?).toFinset.card ≤ 1 ∧
    replies overlongInPlace (small (.memory (.empty 1))) =
      [.done (.ok ()), .done (.error (.cache .tooLong)),
        .found (.ok (some (Row.snapshot ⟨someSubscription, 1⟩)))] ∧
    replies overlongInPlace (small (.remote (.empty .unlimited))) =
      [.done (.ok ()), .done (.ok ()), .found (.ok (some (Row.snapshot ⟨someSubscription, 2⟩)))] ∧
    ¬ CacheReply.Follows (.found (.ok (some (Row.snapshot ⟨someSubscription, 1⟩))))
      (.found (.ok (some (Row.snapshot ⟨someSubscription, 2⟩)))) := by
  have hfirst : Row.Storable ⟨someSubscription, 1⟩ :=
    storable_small (.remote .empty) _ List.mem_cons_self
  have hsecond : Row.Storable ⟨someSubscription, 2⟩ := { hfirst with id := by decide }
  have hplan : ∀ o ∈ (small (.remote (.empty .unlimited))).cachePlan, o = .sound := by
    intro o ho
    exact absurd ho List.not_mem_nil
  have hshort : Binary64.zero.below (Binary64.zero.add (.ofInt 60)) = true := by decide +kernel
  have hlong : Binary64.zero.below (Binary64.zero.add (.ofInt overlong)) = true := by
    decide +kernel
  have hmemory : (small (.memory (.empty 1))).SoundCache :=
    ⟨hplan, fun h => absurd (Option.some.inj h) (by decide)⟩
  have hremote : (small (.remote (.empty .unlimited))).SoundCache :=
    ⟨hplan, nofun⟩
  have hnone : ¬ (expiry? Binary64.zero overlong).isSome = true := by decide +kernel
  refine ⟨hplan, by decide +kernel, ?_, ?_, ?_⟩
  · rw [overlongInPlace, replies_replacing hmemory hfirst hsecond overlong_pos hshort hlong]
    exact if_neg hnone
  · rw [overlongInPlace, replies_replacing hremote hfirst hsecond overlong_pos hshort hlong]
    exact if_pos rfl
  · intro hfollows
    cases hfollows

end CacheUse
end Renewals
