import Renewals.Number.Binary64
import Renewals.Text.Loose
/-! Values under distinct keys, each with the moment at which it expires. -/
namespace Renewals

structure Held where
  key : LooseText
  payload : LooseText
  expires : Binary64
  deriving DecidableEq

def Held.isLive (h : Held) (now : Binary64) : Bool := now.below h.expires

/-- The end of a life of so many seconds, if they can be counted. -/
def expiry? (now : Binary64) (ttl : Int) : Option Binary64 := (Binary64.ofInt? ttl).map now.add

/-- How long a life can be: as long as can be counted, or of any length. -/
inductive LifeLimit
  | countable
  | unlimited
  deriving DecidableEq, Repr

namespace LifeLimit

/-- Without a limit, a life too long to be counted has no end. -/
def expiry? (limit : LifeLimit) (now : Binary64) (ttl : Int) : Option Binary64 :=
  match limit with
  | .countable => Renewals.expiry? now ttl
  | .unlimited => some (now.add (.ofInt ttl))

variable {limit : LifeLimit} {now e : Binary64} {ttl : Int}

theorem expiry?_eq_some_iff : limit.expiry? now ttl = some e ↔
    now.add (.ofInt ttl) = e ∧ (limit = .countable → (Binary64.ofInt? ttl).isSome = true) := by
  cases limit with
  | countable =>
    cases hf : (Binary64.ofInt ttl).isFinite <;>
      simp [expiry?, Renewals.expiry?, Binary64.ofInt?, Option.filter, hf]
  | unlimited => simp [expiry?]

/-- A life that can be counted has the same end under every limit. -/
theorem expiry?_of_isSome (h : (Binary64.ofInt? ttl).isSome = true) :
    limit.expiry? now ttl = some (now.add (.ofInt ttl)) :=
  expiry?_eq_some_iff.2 ⟨rfl, fun _ => h⟩

theorem expiry?_of_some (h : Renewals.expiry? now ttl = some e) :
    limit.expiry? now ttl = some e := by
  have h : LifeLimit.countable.expiry? now ttl = some e := h
  obtain ⟨rfl, hs⟩ := expiry?_eq_some_iff.1 h
  exact expiry?_of_isSome (hs rfl)

end LifeLimit

/-- What is held, the least recently used first. -/
structure Holdings where
  items : List Held
  distinct : items.Pairwise fun a b => a.key ≠ b.key

namespace Holdings

def empty : Holdings := ⟨[], .nil⟩

def find? (s : Holdings) (key : LooseText) : Option Held := s.items.find? (·.key == key)

def live? (s : Holdings) (now : Binary64) (key : LooseText) : Option Held :=
  (s.find? key).filter (·.isLive now)

def keep (p : Held → Bool) (s : Holdings) : Holdings := ⟨s.items.filter p, s.distinct.filter p⟩

def drop (key : LooseText) (s : Holdings) : Holdings := s.keep (·.key != key)

def unexpired (now : Binary64) (s : Holdings) : Holdings := s.keep (·.isLive now)

/-- Replaces what is under the key, as the most recently used value. -/
def put (h : Held) (s : Holdings) : Holdings where
  items := (s.drop h.key).items ++ [h]
  distinct := by
    rw [List.pairwise_append]
    refine ⟨(s.drop h.key).distinct, List.pairwise_singleton _ _, ?_⟩
    intro a ha b hb
    rw [List.mem_singleton] at hb
    subst hb
    have := (List.mem_filter.1 ha).2
    simpa using this

/-- The most recently used values only, so many. -/
def latest (n : Nat) (s : Holdings) : Holdings :=
  ⟨s.items.drop (s.items.length - n), s.distinct.sublist (List.drop_sublist _ _)⟩

theorem find?_keep (p : Held → Bool) (s : Holdings) (key : LooseText) :
    (s.keep p).find? key = (s.find? key).filter p := by
  obtain ⟨items, distinct⟩ := s
  simp only [find?, keep]
  induction items with
  | nil => rfl
  | cons h hs ih =>
    obtain ⟨hd, hr⟩ := List.pairwise_cons.1 distinct
    have ih := ih hr
    by_cases hk : h.key = key
    · by_cases hp : p h
      · simp [hk, hp, Option.filter]
      · have : hs.find? (·.key == key) = none := by
          rw [List.find?_eq_none]
          intro x hx
          have := hd x hx
          rw [hk] at this
          simpa using this.symm
        rw [List.filter_cons_of_neg hp, ih, this]
        simp [hk, hp, Option.filter]
    · have hne : (h.key == key) = false := by simpa using hk
      by_cases hp : p h
      · simp only [List.filter_cons_of_pos hp, List.find?_cons, hne]
        exact ih
      · simp only [List.filter_cons_of_neg hp, List.find?_cons, hne]
        exact ih

@[simp] theorem find?_drop (s : Holdings) (key other : LooseText) :
    (s.drop key).find? other = if other = key then none else s.find? other := by
  rw [drop, find?_keep]
  cases hf : s.find? other with
  | none => simp
  | some h =>
    have hk : h.key = other := by simpa using List.find?_some hf
    by_cases ho : other = key <;> simp [hk, ho, Option.filter]

@[simp] theorem find?_put (s : Holdings) (h : Held) (key : LooseText) :
    (s.put h).find? key = if key = h.key then some h else s.find? key := by
  have hd := find?_drop s h.key key
  simp only [find?] at hd
  simp only [find?, put, List.find?_append, hd, List.find?_singleton]
  by_cases hk : key = h.key
  · simp [hk]
  · have : (h.key == key) = false := by simpa using fun e => hk e.symm
    simp [hk, this]

@[simp] theorem live?_drop (s : Holdings) (now : Binary64) (key other : LooseText) :
    (s.drop key).live? now other = if other = key then none else s.live? now other := by
  rw [live?, live?, find?_drop]
  split <;> rfl

@[simp] theorem live?_put (s : Holdings) (now : Binary64) (h : Held) (key : LooseText) :
    (s.put h).live? now key =
      if key = h.key then (if h.isLive now then some h else none) else s.live? now key := by
  rw [live?, live?, find?_put]
  split
  · simp [Option.filter]
  · rfl

@[simp] theorem live?_unexpired (s : Holdings) (now : Binary64) (key : LooseText) :
    (s.unexpired now).live? now key = s.live? now key := by
  rw [live?, live?, unexpired, find?_keep]
  simp

theorem length_keep_le (p : Held → Bool) (s : Holdings) :
    (s.keep p).items.length ≤ s.items.length := List.length_filter_le _ _

theorem length_put_le (h : Held) (s : Holdings) :
    (s.put h).items.length ≤ s.items.length + 1 := by
  have := length_keep_le (·.key != h.key) s
  simp only [put, drop, List.length_append, List.length_singleton]
  omega

/-- A value that is held already takes no room again. -/
theorem length_put_of_find? {s : Holdings} {h g : Held} (hg : s.find? h.key = some g) :
    (s.put h).items.length ≤ s.items.length := by
  have hm : g ∈ s.items := List.mem_of_find?_eq_some hg
  have hk : g.key = h.key := by simpa using List.find?_some hg
  have : (s.drop h.key).items.length < s.items.length := by
    refine List.length_filter_lt_length_iff_exists.2 ⟨g, hm, ?_⟩
    simp [hk]
  simp only [put, List.length_append, List.length_singleton]
  omega

theorem length_latest_le (n : Nat) (s : Holdings) : (s.latest n).items.length ≤ n := by
  simp only [latest, List.length_drop]
  omega

end Holdings
end Renewals
