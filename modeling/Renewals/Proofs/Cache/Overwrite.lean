import Renewals.Proofs.Cache.Items
/-! Values put under one key in a row. The last of them decides what the cache holds, down to the
order in which values give way, and the first decides whether the others are taken in. -/
namespace Renewals

namespace Holdings
variable {s : Holdings}

theorem eq_of_items {t : Holdings} (h : s.items = t.items) : s = t := by
  obtain ⟨items, _⟩ := s
  obtain ⟨items', _⟩ := t
  obtain rfl : items = items' := h
  rfl

theorem keep_of_forall {p : Held → Bool} (h : ∀ g ∈ s.items, p g = true) : s.keep p = s :=
  eq_of_items (List.filter_eq_self.mpr h)

theorem latest_of_length_le {n : Nat} (h : s.items.length ≤ n) : s.latest n = s := by
  refine eq_of_items ?_
  simp only [latest, Nat.sub_eq_zero_of_le h, List.drop_zero]

theorem drop_put (s : Holdings) (h : Held) : (s.put h).drop h.key = s.drop h.key := by
  refine eq_of_items ?_
  simp [put, drop, keep, List.filter_filter]

theorem put_drop (s : Holdings) (h : Held) : (s.drop h.key).put h = s.put h := by
  refine eq_of_items ?_
  simp [put, drop, keep, List.filter_filter]

theorem put_put (s : Holdings) {g h : Held} (hk : g.key = h.key) : (s.put g).put h = s.put h := by
  rw [← put_drop, ← hk, drop_put, hk, put_drop]

end Holdings

namespace MemoryCache
variable {c : MemoryCache} {now : Binary64} {key before payload : LooseText} {ttl : Int}

theorem eq_of_held {c' : MemoryCache} (hs : c.maxsize = c'.maxsize) (h : c.held = c'.held) :
    c = c' := by
  obtain ⟨maxsize, held, _⟩ := c
  obtain ⟨maxsize', held', _⟩ := c'
  obtain rfl : maxsize = maxsize' := hs
  obtain rfl : held = held' := h
  rfl

theorem keep_of_forall {p : Held → Bool} (h : ∀ g ∈ c.held.items, p g = true) : c.keep p = c :=
  eq_of_held rfl (Holdings.keep_of_forall h)

theorem keep_keep (p : Held → Bool) : (c.keep p).keep p = c.keep p :=
  keep_of_forall fun _ hg => (List.mem_filter.mp hg).2

/-- The second value takes the place that was made for the first. -/
theorem put_put {g h : Held} (hk : g.key = h.key) (hm : c.maxsize ≠ 0) :
    (c.put g hm).put h hm = c.put h hm := by
  let others := (c.held.drop h.key).latest (c.maxsize - 1)
  have hothers : others.drop h.key = others := by
    refine Holdings.keep_of_forall fun x hx => ?_
    exact (List.mem_filter.mp (Holdings.mem_of_mem_latest hx)).2
  have hplace : ((others.put g).drop h.key).latest (c.maxsize - 1) = others := by
    rw [← hk, Holdings.drop_put, hk, hothers]
    exact Holdings.latest_of_length_le (Holdings.length_latest_le _ _)
  have hg : (c.put g hm).held = others.put g := by
    simp only [put, keep, hk]
    rfl
  refine eq_of_held rfl ?_
  have hh : ((c.put g hm).put h hm).held =
      (((c.put g hm).held.drop h.key).latest (c.maxsize - 1)).put h := rfl
  rw [hh, hg, hplace]
  rfl

/-! The ways in which a value is taken in -/

theorem set_none (he : expiry? now ttl = none) :
    c.set now key payload ttl = (.error .tooLong, c.keep (·.isLive now)) := by
  simp only [set, he]

section
variable {e : Binary64} (he : expiry? now ttl = some e)
include he

theorem set_dead (hl : now.below e = false) : c.set now key payload ttl =
    (.ok (), (c.keep (·.isLive now)).keep (·.key != key)) := by
  simp only [set, he, Held.isLive, hl, Bool.not_false, ↓reduceIte]

theorem set_full (hl : now.below e = true) (hm : c.maxsize = 0) :
    c.set now key payload ttl = (.error .tooLarge, c.keep (·.isLive now)) := by
  simp only [set, he, Held.isLive, hl, hm, Bool.not_true, Bool.false_eq_true, ↓reduceIte,
    ↓reduceDIte]

theorem set_live (hl : now.below e = true) (hm : c.maxsize ≠ 0) : c.set now key payload ttl =
    (.ok (), (c.keep (·.isLive now)).put ⟨key, payload, e⟩ hm) := by
  simp only [set, he, Held.isLive, hl, hm, Bool.not_true, Bool.false_eq_true, ↓reduceIte,
    ↓reduceDIte]

theorem set_put (hl : now.below e = true) (hc : ∀ g ∈ c.held.items, g.isLive now = true)
    (hm : c.maxsize ≠ 0) : (c.put ⟨key, before, e⟩ hm).set now key payload ttl =
      (.ok (), c.put ⟨key, payload, e⟩ hm) := by
  have hfresh : (c.put ⟨key, before, e⟩ hm).keep (·.isLive now) = c.put ⟨key, before, e⟩ hm :=
    keep_of_forall fun g hg => by
      rcases Cache.mem_put_memory hm hg with ⟨hg, -⟩ | rfl
      · exact hc g hg
      · exact hl
  have hm' : (c.put ⟨key, before, e⟩ hm).maxsize ≠ 0 := hm
  rw [set_live he hl hm']
  simp only [hfresh, put_put]

end

theorem set_set : (c.set now key before ttl).2.set now key payload ttl =
    c.set now key payload ttl := by
  cases he : expiry? now ttl with
  | none => simp only [set_none he, keep_keep]
  | some e =>
    cases hl : now.below e with
    | false =>
      have hfresh : ((c.keep (·.isLive now)).keep (·.key != key)).keep (·.isLive now) =
          (c.keep (·.isLive now)).keep (·.key != key) := keep_of_forall fun g hg =>
        (List.mem_filter.mp (List.mem_filter.mp hg).1).2
      simp only [set_dead he hl, hfresh, keep_keep]
    | true =>
      by_cases hm : c.maxsize = 0
      · have hm' : (c.keep (·.isLive now)).maxsize = 0 := hm
        simp only [set_full he hl hm, set_full he hl hm', keep_keep]
      · rw [set_live he hl hm, set_live he hl hm]
        exact set_put (c := c.keep (·.isLive now)) he hl (fun g hg => (List.mem_filter.mp hg).2) hm

end MemoryCache

namespace Cache

/-- A value under a key leaves no trace of the value that was put there just before. -/
theorem put_put (now : Binary64) (key before payload : LooseText) (ttl : Int) (c : Cache) :
    put .sound now key payload ttl (put .sound now key before ttl c).2 =
      put .sound now key payload ttl c := by
  cases c with
  | memory c => simp only [put, MemoryCache.set_set]
  | remote c =>
    simp only [put, RemoteCache.set, RemoteCache.outcome]
    by_cases ht : ttl ≤ 0
    · simp only [if_pos ht]
    · simp only [if_neg ht]
      cases he : c.limit.expiry? now ttl with
      | none => simp only [he]
      | some e => simp only [he, Holdings.put_put]

/-- Whether a value is taken in is up to the size of the cache and to how long it keeps values, not to
the value nor to the others. -/
theorem put_fst_congr {c c' : Cache} (hs : c.size? = c'.size?) (hl : c.limit = c'.limit)
    (now : Binary64) (key before payload : LooseText) (ttl : Int) :
    (put .sound now key payload ttl c).1 = (put .sound now key before ttl c').1 := by
  cases c with
  | memory c =>
    cases c' with
    | remote c' => exact absurd hs (by simp [size?])
    | memory c' =>
      have hm : c.maxsize = c'.maxsize := Option.some.inj hs
      simp only [put]
      cases he : expiry? now ttl with
      | none => rw [MemoryCache.set_none he, MemoryCache.set_none he]
      | some e =>
        cases hl : now.below e with
        | false => rw [MemoryCache.set_dead he hl, MemoryCache.set_dead he hl]
        | true =>
          by_cases hz : c.maxsize = 0
          · rw [MemoryCache.set_full he hl hz, MemoryCache.set_full he hl (hm ▸ hz)]
          · rw [MemoryCache.set_live he hl hz, MemoryCache.set_live he hl (hm ▸ hz)]
  | remote c =>
    cases c' with
    | memory c' => exact absurd hs (by simp [size?])
    | remote c' =>
      have hl : c.limit = c'.limit := hl
      simp only [put, RemoteCache.set, RemoteCache.outcome, hl]
      by_cases ht : ttl ≤ 0
      · simp only [if_pos ht]
      · simp only [if_neg ht]
        cases c'.limit.expiry? now ttl <;> rfl

theorem put_fst (now : Binary64) (key before payload : LooseText) (ttl : Int) (c : Cache) :
    (put .sound now key payload ttl c).1 = (put .sound now key before ttl c).1 :=
  put_fst_congr rfl rfl now key before payload ttl

/-- Caches of one kind that are alike under a key are so behind the same value put there. -/
theorem mem_items_put_congr {c c' : Cache} (hs : c.size? = c'.size?) (hlimit : c.limit = c'.limit)
    {now : Binary64} {key payload : LooseText} {ttl : Int} {h : Held} (hk : h.key = key)
    (hl : h.isLive now = true) (hsame : h ∈ c.items ↔ h ∈ c'.items) :
    h ∈ (put .sound now key payload ttl c).2.items ↔
      h ∈ (put .sound now key payload ttl c').2.items := by
  have hfst := put_fst_congr hs hlimit now key payload payload ttl
  cases hput : (put .sound now key payload ttl c).1 with
  | ok u =>
    rw [mem_items_put_of_ok hput hk hl, mem_items_put_of_ok (hfst.symm.trans hput) hk hl, hlimit]
  | error f =>
    rw [mem_items_put_of_error hput hl, mem_items_put_of_error (hfst.symm.trans hput) hl]
    exact hsame

end Cache
end Renewals
