import Renewals.Cache.Basic
import Renewals.Proofs.Basic
/-! What a cache holds after a call, item by item. Nothing appears that was not put there, and a
call that succeeds leaves nothing else alive under its key. -/
namespace Renewals

namespace Holdings

theorem mem_put {s : Holdings} {g h : Held} :
    g ∈ (s.put h).items ↔ (g ∈ s.items ∧ g.key ≠ h.key) ∨ g = h := by
  simp [put, drop, keep]

theorem mem_of_mem_latest {n : Nat} {s : Holdings} {h : Held} (hm : h ∈ (s.latest n).items) :
    h ∈ s.items := List.mem_of_mem_drop hm

theorem live?_eq_some_iff {s : Holdings} {now : Binary64} {key : LooseText} {h : Held} :
    s.live? now key = some h ↔ h ∈ s.items ∧ h.key = key ∧ h.isLive now = true := by
  constructor
  · intro hl
    obtain ⟨hf, hnow⟩ := Option.filter_eq_some_iff.mp hl
    exact ⟨List.mem_of_find?_eq_some hf, by simpa using List.find?_some hf, hnow⟩
  · rintro ⟨hm, rfl, hnow⟩
    exact Option.filter_eq_some_iff.mpr ⟨find?_of_mem s.distinct hm, hnow⟩

/-- Putting back what is there changes only how recently it was used. -/
theorem mem_put_self {s : Holdings} {g h : Held} (hm : h ∈ s.items) :
    g ∈ (s.put h).items ↔ g ∈ s.items := by
  rw [mem_put]
  constructor
  · rintro (⟨hg, -⟩ | rfl)
    · exact hg
    · exact hm
  · intro hg
    by_cases hk : g.key = h.key
    · exact .inr (eq_of_key_eq s.distinct hg hm hk)
    · exact .inl ⟨hg, hk⟩

end Holdings

namespace Cache

def items : Cache → List Held
  | .memory c => c.held.items
  | .remote c => c.held.items

/-- How many values fit in, if that is limited. -/
def size? : Cache → Option Nat
  | .memory c => some c.maxsize
  | .remote _ => none

/-- How long a value can be kept. -/
def limit : Cache → LifeLimit
  | .memory _ => .countable
  | .remote c => c.limit

/-- A cache of size zero takes nothing. -/
def HasRoom (c : Cache) : Prop := c.size? ≠ some 0

theorem live?_eq_some_iff {c : Cache} {now : Binary64} {key payload : LooseText} :
    c.live? now key = some payload ↔
      ∃ h ∈ c.items, h.key = key ∧ h.isLive now = true ∧ h.payload = payload := by
  cases c <;>
    simp only [live?, MemoryCache.live?, RemoteCache.live?, Option.map_eq_some_iff, items,
      Holdings.live?_eq_some_iff, and_assoc]

theorem live?_eq_none_iff {c : Cache} {now : Binary64} {key : LooseText} :
    c.live? now key = none ↔ ∀ h ∈ c.items, h.key = key → h.isLive now = false := by
  rw [← Option.not_isSome_iff_eq_none, Option.isSome_iff_exists]
  constructor
  · intro hn h hm hk
    rw [← Bool.not_eq_true]
    exact fun hl => hn ⟨_, live?_eq_some_iff.mpr ⟨h, hm, hk, hl, rfl⟩⟩
  · rintro hn ⟨payload, hp⟩
    obtain ⟨h, hm, hk, hl, -⟩ := live?_eq_some_iff.mp hp
    exact Bool.noConfusion (hl.symm.trans (hn h hm hk))

theorem live?_congr {c c' : Cache} {now : Binary64} {key : LooseText}
    (h : ∀ g : Held, g.key = key → g.isLive now = true → (g ∈ c'.items ↔ g ∈ c.items)) :
    c'.live? now key = c.live? now key := by
  ext payload
  simp only [live?_eq_some_iff]
  exact exists_congr fun g => and_congr_left fun ⟨hk, hl, _⟩ => h g hk hl

/-! Fetching -/

theorem mem_items_fetch {o : ClientOutcome} {now : Binary64} {key : LooseText} {c : Cache}
    {h : Held} : h ∈ (fetch o now key c).2.items ↔ h ∈ c.items := by
  cases c with
  | remote c => rfl
  | memory c =>
    simp only [fetch, MemoryCache.get, items]
    split
    next => rfl
    next g hg => exact Holdings.mem_put_self (Holdings.live?_eq_some_iff.mp hg).1

@[simp] theorem size?_fetch (o : ClientOutcome) (now : Binary64) (key : LooseText) (c : Cache) :
    (fetch o now key c).2.size? = c.size? := by
  cases c with
  | remote c => rfl
  | memory c =>
    simp only [fetch, MemoryCache.get, size?]
    split <;> rfl

@[simp] theorem limit_fetch (o : ClientOutcome) (now : Binary64) (key : LooseText) (c : Cache) :
    (fetch o now key c).2.limit = c.limit := by
  cases c <;> rfl

/-- A call that goes well finds what is alive under its key. -/
theorem fetch_sound (now : Binary64) (key : LooseText) (c : Cache) :
    (fetch .sound now key c).1 = .ok (c.live? now key) := by
  cases c with
  | remote c => rfl
  | memory c =>
    simp only [fetch, MemoryCache.get, live?]
    split
    next h => simp only [h, Option.map_none]
    next h hl => simp only [hl, Option.map_some]

theorem live?_of_fetch {o : ClientOutcome} {now : Binary64} {key : LooseText} {c : Cache}
    {found : Option LooseText} (h : (fetch o now key c).1 = .ok found) :
    found = c.live? now key := by
  cases c with
  | memory c => exact (Except.ok.inj ((fetch_sound now key (.memory c)).symm.trans h)).symm
  | remote c =>
    cases o with
    | sound => exact (Except.ok.inj h).symm
    | _ => exact absurd h (by simp [fetch, RemoteCache.get, RemoteCache.outcome, Except.map])

/-- A call that does not crash goes well, or fails in a way that callers know about. -/
theorem fetch_tolerated {o : ClientOutcome} (ho : o ≠ .crashes) (now : Binary64) (key : LooseText)
    (c : Cache) : FailsOnly (·.isUnavailable = true) (fetch o now key c).1 := by
  cases c with
  | memory c => exact .ok _
  | remote c =>
    cases o with
    | sound => exact .ok _
    | crashes => exact absurd rfl ho
    | _ => exact FailsOnly.error_iff.mpr rfl

/-! Putting -/

theorem isSome_of_expiry? {now e : Binary64} {ttl : Int} (h : expiry? now ttl = some e) :
    (Binary64.ofInt? ttl).isSome = true := by
  obtain ⟨x, hx, -⟩ := Option.map_eq_some_iff.mp h
  rw [hx]
  rfl

theorem mem_put_memory {c : MemoryCache} (hz : c.maxsize ≠ 0) {g h : Held}
    (hg : g ∈ (c.put h hz).held.items) : (g ∈ c.held.items ∧ g.key ≠ h.key) ∨ g = h := by
  rcases Holdings.mem_put.mp hg with ⟨hg, hk⟩ | rfl
  · exact .inl ⟨(List.mem_filter.mp (Holdings.mem_of_mem_latest hg)).1, hk⟩
  · exact .inr rfl

/-- Whatever a call leaves was there before, or is the value put. If the call goes well, nothing
from before is left under the key. -/
theorem mem_items_put {o : ClientOutcome} {now : Binary64} {key payload : LooseText} {ttl : Int}
    {c : Cache} {h : Held} (hm : h ∈ (put o now key payload ttl c).2.items) :
    (h ∈ c.items ∧ ((put o now key payload ttl c).1 = .ok () → h.key ≠ key)) ∨
      (h.key = key ∧ h.payload = payload ∧ c.limit.expiry? now ttl = some h.expires) := by
  cases c with
  | memory c =>
    simp only [put, MemoryCache.set, items] at hm ⊢
    split at hm
    next he => exact .inl ⟨(List.mem_filter.mp hm).1, by simp⟩
    next expires he =>
      split at hm
      next hl =>
        obtain ⟨hm, hk⟩ := List.mem_filter.mp hm
        exact .inl ⟨(List.mem_filter.mp hm).1, fun _ => by simpa using hk⟩
      next hl =>
        split at hm
        next hz => exact .inl ⟨(List.mem_filter.mp hm).1, by simp [hl, hz]⟩
        next hz =>
          rcases mem_put_memory (c := c.keep (·.isLive now)) hz hm with ⟨hm, hk⟩ | rfl
          · exact .inl ⟨(List.mem_filter.mp hm).1, fun _ => hk⟩
          · exact .inr ⟨rfl, rfl, he⟩
  | remote c =>
    simp only [put, RemoteCache.set, items] at hm ⊢
    cases o with
    | sound =>
      simp only [RemoteCache.outcome] at hm ⊢
      split at hm
      next ht => exact .inl ⟨hm, by simp [ht]⟩
      next ht =>
        split at hm
        next he => exact .inl ⟨hm, by simp [ht]⟩
        next expires he =>
          rcases Holdings.mem_put.mp hm with ⟨hm, hk⟩ | rfl
          · exact .inl ⟨hm, fun _ => hk⟩
          · exact .inr ⟨rfl, rfl, he⟩
    | _ => exact .inl ⟨hm, by simp [RemoteCache.outcome]⟩

/-- A value that was taken and lives is there. -/
theorem mem_put {o : ClientOutcome} {now e : Binary64} {key payload : LooseText} {ttl : Int}
    {c : Cache} (hok : (put o now key payload ttl c).1 = .ok ())
    (he : c.limit.expiry? now ttl = some e) (hl : now.below e = true) :
    ⟨key, payload, e⟩ ∈ (put o now key payload ttl c).2.items := by
  have hlive : (!Held.isLive ⟨key, payload, e⟩ now) = false := by simp [Held.isLive, hl]
  cases c with
  | memory c =>
    have he : expiry? now ttl = some e := he
    simp only [put, MemoryCache.set, he, hlive, items] at hok ⊢
    by_cases hz : c.maxsize = 0
    · simp [hz] at hok
    · simp only [hz, Bool.false_eq_true, ↓reduceIte, ↓reduceDIte]
      exact Holdings.mem_put.mpr (.inr rfl)
  | remote c =>
    have he : c.limit.expiry? now ttl = some e := he
    simp only [put, RemoteCache.set, he, items] at hok ⊢
    cases o with
    | sound =>
      simp only [RemoteCache.outcome] at hok ⊢
      split at hok
      next => exact absurd hok (by simp)
      next ht =>
        rw [if_neg ht]
        exact Holdings.mem_put.mpr (.inr rfl)
    | _ => exact absurd hok (by simp [RemoteCache.outcome])

/-- A value that was not taken drives nothing out that lives. -/
theorem mem_items_put_of_error {o : ClientOutcome} {now : Binary64} {key payload : LooseText}
    {ttl : Int} {c : Cache} {f : CacheFault} (he : (put o now key payload ttl c).1 = .error f)
    {h : Held} (hl : h.isLive now = true) :
    h ∈ (put o now key payload ttl c).2.items ↔ h ∈ c.items := by
  cases c with
  | memory c =>
    have hfresh : h ∈ (c.keep (·.isLive now)).held.items ↔ h ∈ c.held.items := by
      simp [MemoryCache.keep, Holdings.keep, hl]
    simp only [put, MemoryCache.set, items] at he ⊢
    split
    next => exact hfresh
    next e hexp =>
      simp only [hexp] at he
      split
      next hdead => exact absurd he (by simp [hdead])
      next hlive =>
        split
        next => exact hfresh
        next hz => exact absurd he (by simp [hlive, hz])
  | remote c =>
    simp only [put, RemoteCache.set, items] at he ⊢
    cases o with
    | sound =>
      simp only [RemoteCache.outcome] at he ⊢
      split
      next => rfl
      next ht =>
        rw [if_neg ht] at he
        split
        next => rfl
        next e hexp =>
          rw [hexp] at he
          exact absurd he (by simp)
    | _ => rfl

/-- Under the key of a value that was taken, nothing else is. -/
theorem mem_items_put_of_ok {o : ClientOutcome} {now : Binary64} {key payload : LooseText}
    {ttl : Int} {c : Cache} (hok : (put o now key payload ttl c).1 = .ok ()) {h : Held}
    (hk : h.key = key) (hl : h.isLive now = true) :
    h ∈ (put o now key payload ttl c).2.items ↔
      h.payload = payload ∧ c.limit.expiry? now ttl = some h.expires := by
  constructor
  · intro hm
    rcases mem_items_put hm with ⟨-, hne⟩ | ⟨-, hnew⟩
    · exact absurd hk (hne hok)
    · exact hnew
  · rintro ⟨rfl, he⟩
    obtain ⟨key', payload, e⟩ := h
    obtain rfl : key' = key := hk
    exact mem_put hok he hl

@[simp] theorem size?_put (o : ClientOutcome) (now : Binary64) (key payload : LooseText) (ttl : Int)
    (c : Cache) : (put o now key payload ttl c).2.size? = c.size? := by
  cases c with
  | memory c =>
    simp only [put, MemoryCache.set, size?]
    repeat' split
    all_goals rfl
  | remote c => rfl

@[simp] theorem limit_put (o : ClientOutcome) (now : Binary64) (key payload : LooseText) (ttl : Int)
    (c : Cache) : (put o now key payload ttl c).2.limit = c.limit := by
  cases c with
  | memory c => rfl
  | remote c =>
    simp only [put, RemoteCache.set, limit]
    repeat' split
    all_goals rfl

/-- A cache of limited size takes a value that does not live on, and drops what was there. -/
theorem put_sound {ttl : Int} {c : Cache} (hp : c.size? = none → 0 < ttl)
    (hb : (Binary64.ofInt? ttl).isSome = true) (hr : c.HasRoom) (now : Binary64)
    (key payload : LooseText) : (put .sound now key payload ttl c).1 = .ok () := by
  obtain ⟨x, hx⟩ := Option.isSome_iff_exists.mp hb
  have he : expiry? now ttl = some (now.add x) := by rw [expiry?, hx, Option.map_some]
  cases c with
  | memory c =>
    have hz : c.maxsize ≠ 0 := fun h => hr (congrArg some h)
    simp only [put, MemoryCache.set, he]
    split
    next => rfl
    next => rfl
  | remote c =>
    simp only [put, RemoteCache.set, RemoteCache.outcome, if_neg (Int.not_le.mpr (hp rfl)),
      LifeLimit.expiry?_of_some he]

theorem put_tolerated {o : ClientOutcome} (ho : o ≠ .crashes) {ttl : Int} {c : Cache}
    (hb : (Binary64.ofInt? ttl).isSome = true) (hr : c.HasRoom) (now : Binary64)
    (key payload : LooseText) :
    FailsOnly (·.isUnavailable = true) (put o now key payload ttl c).1 := by
  cases c with
  | memory c =>
    have hok := put_sound (fun h => absurd h (by simp [size?])) hb hr now key payload
    exact fun e he => absurd (hok.symm.trans he) (by simp)
  | remote c =>
    simp only [put, RemoteCache.set]
    cases o with
    | sound =>
      simp only [RemoteCache.outcome]
      split
      next => exact FailsOnly.error_iff.mpr rfl
      next ht =>
        rw [LifeLimit.expiry?_of_isSome hb]
        exact .ok ()
    | crashes => exact absurd rfl ho
    | _ => exact FailsOnly.error_iff.mpr rfl

/-! Dropping -/

/-- Nothing alive is left under a key that was dropped. -/
theorem mem_items_drop {o : ClientOutcome} {now : Binary64} {key : LooseText} {c : Cache}
    {h : Held} (hm : h ∈ (drop o now key c).2.items) :
    h ∈ c.items ∧ ((drop o now key c).1 = .ok () → h.key = key → h.isLive now = false) := by
  cases c with
  | memory c =>
    obtain ⟨hm, hk⟩ := List.mem_filter.mp hm
    refine ⟨hm, fun _ he => ?_⟩
    simpa [he] using hk
  | remote c =>
    simp only [drop, RemoteCache.invalidate] at hm ⊢
    cases o with
    | sound =>
      obtain ⟨hm, hk⟩ := List.mem_filter.mp hm
      exact ⟨hm, fun _ he => absurd he (by simpa using hk)⟩
    | _ => exact ⟨hm, by simp [RemoteCache.outcome]⟩

theorem mem_drop_of_ne {o : ClientOutcome} {now : Binary64} {key : LooseText} {c : Cache} {h : Held}
    (hm : h ∈ c.items) (hne : h.key ≠ key) : h ∈ (drop o now key c).2.items := by
  cases c with
  | memory c => exact List.mem_filter.mpr ⟨hm, by simpa using Or.inl hne⟩
  | remote c =>
    cases o with
    | sound => exact List.mem_filter.mpr ⟨hm, by simpa using hne⟩
    | _ => exact hm

theorem live?_drop_of_ne {o : ClientOutcome} {now : Binary64} {key other : LooseText} {c : Cache}
    (hne : other ≠ key) : (drop o now key c).2.live? now other = c.live? now other :=
  live?_congr fun g hg _ => by
    subst hg
    exact ⟨fun hm => (mem_items_drop hm).1, fun hm => mem_drop_of_ne hm hne⟩

@[simp] theorem size?_drop (o : ClientOutcome) (now : Binary64) (key : LooseText) (c : Cache) :
    (drop o now key c).2.size? = c.size? := by
  cases c <;> rfl

@[simp] theorem limit_drop (o : ClientOutcome) (now : Binary64) (key : LooseText) (c : Cache) :
    (drop o now key c).2.limit = c.limit := by
  cases c with
  | memory c => rfl
  | remote c => cases o <;> rfl

theorem drop_sound (now : Binary64) (key : LooseText) (c : Cache) :
    (drop .sound now key c).1 = .ok () := by
  cases c <;> rfl

theorem drop_tolerated {o : ClientOutcome} (ho : o ≠ .crashes) (now : Binary64) (key : LooseText)
    (c : Cache) : FailsOnly (·.isUnavailable = true) (drop o now key c).1 := by
  cases c with
  | memory c => exact .ok ()
  | remote c =>
    cases o with
    | sound => exact .ok ()
    | crashes => exact absurd rfl ho
    | _ => exact FailsOnly.error_iff.mpr rfl

/-! Room for all -/

/-- A cache that never lets a value go to make room for one under these keys. -/
def RoomFor (keys : List LooseText) (c : Cache) : Prop :=
  ∀ n, c.size? = some n → c.items.countP (·.key ∉ keys) + keys.length ≤ n

theorem distinct (c : Cache) : c.items.Pairwise fun a b => a.key ≠ b.key := by
  cases c with
  | memory c => exact c.held.distinct
  | remote c => exact c.held.distinct

variable {keys : List LooseText}

theorem RoomFor.of_items {c c' : Cache} (h : RoomFor keys c) (hs : c'.size? = c.size?)
    (hi : ∀ g ∈ c'.items, g.key ∉ keys → g ∈ c.items) : RoomFor keys c' := by
  intro n hn
  have hnodup : c'.items.Nodup := c'.distinct.imp fun hk he => hk (congrArg Held.key he)
  have hle : c'.items.countP (·.key ∉ keys) ≤ c.items.countP (·.key ∉ keys) := by
    rw [List.countP_eq_length_filter, List.countP_eq_length_filter]
    refine List.Nodup.length_le_of_subset (hnodup.filter _) fun g hg => ?_
    obtain ⟨hg, hk⟩ := List.mem_filter.mp hg
    exact List.mem_filter.mpr ⟨hi g hg (by simpa using hk), hk⟩
  exact Nat.le_trans (Nat.add_le_add_right hle _) (h n (hs ▸ hn))

/-- All but the value under one of the keys leave a place for it. -/
theorem RoomFor.length_drop_lt {c : MemoryCache} (h : RoomFor keys (.memory c)) {key : LooseText}
    (hk : key ∈ keys) : (c.held.drop key).items.length < c.maxsize := by
  let s := c.held.drop key
  have hout : s.items.countP (·.key ∉ keys) ≤ c.held.items.countP (·.key ∉ keys) :=
    (List.filter_sublist).countP_le
  have hin : s.items.countP (·.key ∈ keys) ≤ keys.length - 1 := by
    rw [← List.length_erase_of_mem hk, List.countP_eq_length_filter, ← List.length_map Held.key]
    refine List.Nodup.length_le_of_subset ?_ fun k hkey => ?_
    · exact List.pairwise_map.mpr (s.distinct.filter _)
    · obtain ⟨g, hg, rfl⟩ := List.mem_map.mp hkey
      obtain ⟨hg, hgk⟩ := List.mem_filter.mp hg
      have hne : g.key ≠ key := by simpa using (List.mem_filter.mp hg).2
      exact (List.mem_erase_of_ne hne).mpr (by simpa using hgk)
  have hsplit := List.length_eq_countP_add_countP (fun g : Held => decide (g.key ∈ keys))
    (l := s.items)
  have hpos : 0 < keys.length := List.length_pos_of_mem hk
  have hall := h c.maxsize rfl
  simp only [decide_eq_true_eq] at hsplit
  simp only [items] at hall
  change s.items.length < c.maxsize
  omega

theorem mem_latest {n : Nat} {s : Holdings} (hn : s.items.length ≤ n) {h : Held}
    (hm : h ∈ s.items) : h ∈ (s.latest n).items := by
  simp only [Holdings.latest, Nat.sub_eq_zero_of_le hn, List.drop_zero]
  exact hm

/-- What lives under another key stays. -/
theorem RoomFor.mem_items_put {c : Cache} (h : RoomFor keys c) {o : ClientOutcome} {now : Binary64}
    {key payload : LooseText} (hk : key ∈ keys) {ttl : Int} {g : Held} (hg : g ∈ c.items)
    (hl : g.isLive now = true) (hne : g.key ≠ key) :
    g ∈ (Cache.put o now key payload ttl c).2.items := by
  cases c with
  | memory c =>
    have hfresh : g ∈ (c.keep (·.isLive now)).held.items := List.mem_filter.mpr ⟨hg, hl⟩
    have hothers : g ∈ ((c.keep (·.isLive now)).keep (·.key != key)).held.items :=
      List.mem_filter.mpr ⟨hfresh, by simpa using hne⟩
    simp only [Cache.put, MemoryCache.set, items]
    split
    next => exact hfresh
    next e he =>
      split
      next => exact hothers
      next =>
        split
        next => exact hfresh
        next =>
          refine Holdings.mem_put.mpr (.inl ⟨mem_latest ?_ hothers, hne⟩)
          have hroom : RoomFor keys (.memory (c.keep (·.isLive now))) :=
            h.of_items rfl fun _ hm _ => (List.mem_filter.mp hm).1
          exact Nat.le_sub_one_of_lt (hroom.length_drop_lt hk)
  | remote c =>
    simp only [Cache.put, RemoteCache.set, items]
    cases o with
    | sound =>
      simp only [RemoteCache.outcome]
      split
      next => exact hg
      next =>
        split
        next => exact hg
        next => exact Holdings.mem_put.mpr (.inl ⟨hg, hne⟩)
    | _ => exact hg

theorem RoomFor.put {c : Cache} (h : RoomFor keys c) {o : ClientOutcome} {now : Binary64}
    {key payload : LooseText} (hk : key ∈ keys) {ttl : Int} :
    RoomFor keys (Cache.put o now key payload ttl c).2 :=
  h.of_items (size?_put ..) fun g hg hn => by
    rcases Cache.mem_items_put hg with ⟨hg, -⟩ | ⟨hgk, -⟩
    · exact hg
    · exact absurd (hgk ▸ hk) hn

theorem RoomFor.mem_items_put_iff {c : Cache} (h : RoomFor keys c) {o : ClientOutcome}
    {now : Binary64} {key payload : LooseText} (hk : key ∈ keys) {ttl : Int} {g : Held}
    (hl : g.isLive now = true) (hne : g.key ≠ key) :
    g ∈ (Cache.put o now key payload ttl c).2.items ↔ g ∈ c.items := by
  refine ⟨fun hm => ?_, fun hm => h.mem_items_put hk hm hl hne⟩
  rcases Cache.mem_items_put hm with ⟨hm, -⟩ | ⟨hgk, -⟩
  · exact hm
  · exact absurd hgk hne

theorem RoomFor.live?_put {c : Cache} (h : RoomFor keys c) {o : ClientOutcome} {now : Binary64}
    {key other payload : LooseText} (hk : key ∈ keys) {ttl : Int} (hne : other ≠ key) :
    (Cache.put o now key payload ttl c).2.live? now other = c.live? now other :=
  live?_congr fun _ hg hl => h.mem_items_put_iff hk hl (hg ▸ hne)

end Cache
end Renewals
