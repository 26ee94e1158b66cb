import Mathlib.Data.List.Induction
import Renewals.Proofs.Service.Truthful
import Renewals.Proofs.Service.Turns
import Renewals.Settings.Basic
/-! Where cached values and entries come from when requests run side by side. Whoever puts a value
may do so long after the row has changed or gone, but the value is a row that the store once had. -/
namespace Renewals.Service

namespace Crew

theorem exists_of_call? {c : Crew} {k : Nat} {call : Call} (h : c.call? k = some call) :
    ∃ next, c.plans[k]? = some (.call call next) := by
  unfold call? at h
  split at h
  next c' next hk =>
    obtain rfl := Option.some.inj h
    exact ⟨next, hk⟩
  next => exact absurd h (by simp)

/-- Requests of which none has begun. -/
def gather (p : Policy) (requests : List Request) (d : Deployment) : Crew where
  plans := requests.map fun r => (serve p r).run
  deployment := d

/-- A turn of a request, or time that passes. -/
inductive Beat
  | turn (k : Nat)
  | wait (later : Binary64)

/-- A clock does not go back. -/
def beat (c : Crew) : Beat → Crew
  | .turn k => c.turn k
  | .wait later =>
    if c.deployment.clock.below later then ⟨c.plans, { c.deployment with clock := later }⟩ else c

def follow (c : Crew) (beats : List Beat) : Crew := beats.foldl beat c

theorem follow_concat (c : Crew) (beats : List Beat) (b : Beat) :
    c.follow (beats ++ [b]) = (c.follow beats).beat b := by
  simp only [follow, List.foldl_append, List.foldl_cons, List.foldl_nil]

end Crew

/-- What is left of a request is truthful. -/
abbrev Request.LeftTruthful (r : Request) (seen : Sightings)
    (plan : Plan (Except Failure Reply)) : Prop :=
  plan.Truthful (fun result later => ∀ reply, result = .ok reply → r.Answered reply later) seen

/-- Requests under way that have seen enough: the rows of now are among what has been seen, all that
is cached shows something that has been seen, and what is left of each request is truthful. -/
structure Sighted (requests : List Request) (seen : Sightings) (c : Crew) : Prop where
  rows : ∀ r ∈ c.deployment.store.table.rows, r ∈ seen.rows
  items : ∀ h ∈ c.deployment.cache.items, seen.Shows h.key h.payload
  plans : ∀ (k : Nat) (r : Request) (plan : Plan (Except Failure Reply)),
    requests[k]? = some r → c.plans[k]? = some plan → r.LeftTruthful seen plan
  length : c.plans.length = requests.length

section
variable {seen later : Sightings} {d : Deployment} {c : Call}

/-- An answer tells of rows that the store has behind the call, or of what is cached. -/
theorem vouched_answer (hrows : ∀ r ∈ (Deployment.answer c d).2.store.table.rows, r ∈ later.rows)
    (hitems : ∀ h ∈ d.cache.items, later.Shows h.key h.payload) :
    c.Vouched later (Deployment.answer c d).1 := by
  cases c with
  | ask q =>
    intro a ha
    have hrun := (Deployment.run_of_ask ha).2
    cases q with
    | create s =>
      obtain ⟨rfl, ht, -⟩ := Store.run_create hrun
      exact hrows _ (ht ▸ Table.mem_insert.mpr (.inr rfl))
    | read id =>
      obtain ⟨hfind, ht⟩ := Store.run_read hrun
      obtain ⟨hmem, hid⟩ := Table.find?_eq_some_iff.mp hfind
      exact ⟨hrows _ (ht ▸ hmem), hid⟩
    | update target s =>
      cases target with
      | none => trivial
      | some id =>
        intro h0
        obtain ⟨rfl, ht⟩ := Store.run_update hrun
        obtain ⟨r, hr, rfl⟩ := Table.hits_ne_zero_iff.mp h0
        exact hrows _ (ht ▸ Table.mem_modify.mpr (.inr ⟨r, hr, rfl, rfl⟩))
    | _ => trivial
  | fetch key =>
    intro payload ha
    obtain ⟨h, hm, rfl, -, rfl⟩ :=
      Cache.live?_eq_some_iff.mp (Deployment.live?_of_fetch ha).symm
    exact hitems h hm
  | _ => trivial

/-- Nothing gets into the cache but what is put there. -/
theorem shows_answer (hc : c.Honest later)
    (hitems : ∀ h ∈ d.cache.items, later.Shows h.key h.payload) :
    ∀ h ∈ (Deployment.answer c d).2.cache.items, later.Shows h.key h.payload := by
  have hping : (Deployment.answer .ping d).2.cache = d.cache := by
    obtain ⟨_, -, h, -⟩ := Deployment.throughClient_eq .ping (fun o c => (c.ping o, c)) d
    exact h
  have hclose : (Deployment.answer .closeCache d).2.cache = d.cache := by
    obtain ⟨_, -, h, -⟩ := Deployment.throughClient_eq .close (fun o c => (c.close o, c)) d
    exact h
  intro h hm
  cases c with
  | put key payload ttl =>
    rcases Deployment.mem_items_put hm with ⟨hm, -⟩ | ⟨rfl, rfl, -⟩
    · exact hitems h hm
    · exact hc
  | fetch key => exact hitems h (Deployment.mem_items_fetch.mp hm)
  | drop key => exact hitems h (Deployment.mem_items_drop hm).1
  | ping => exact hitems h (hping ▸ hm)
  | closeCache => exact hitems h (hclose ▸ hm)
  | _ => exact hitems h hm

end

section
variable {requests : List Request} {seen later : Sightings} {c : Crew}

theorem Sighted.storable (h : Sighted requests seen c) : c.deployment.store.table.Storable :=
  fun r hr => seen.storable r (h.rows r hr)

/-- A turn adds the rows behind its call to what has been seen. -/
theorem Sighted.turn (h : Sighted requests seen c) (k : Nat) :
    ∃ later, Sighted requests later (c.turn k) ∧
      ∀ r ∈ later.rows, r ∈ seen.rows ∨ r ∈ (c.turn k).deployment.store.table.rows := by
  rcases c.turn_cases k with ⟨call, next, hk, ht⟩ | ht
  · have hst := Deployment.storable_answer call h.storable
    have hle := seen.le_also hst
    have hlen : k < c.plans.length := (List.getElem?_eq_some_iff.mp hk).1
    have hlen' : k < requests.length := h.length ▸ hlen
    have hreq : requests[k]? = some requests[k] := List.getElem?_eq_getElem hlen'
    obtain ⟨honest, resume⟩ : call.Honest seen ∧ _ := by
      cases h.plans k _ _ hreq hk with
      | call honest resume => exact ⟨honest, resume⟩
    have hitems (g : Held) (hg : g ∈ c.deployment.cache.items) :=
      (h.items g hg).mono hle
    rw [ht]
    refine ⟨seen.also _ hst, ⟨fun r hr => .inr hr, shows_answer (honest.mono hle) hitems, ?_, ?_⟩,
      fun r hr => hr⟩
    · intro j r plan hj hplan
      by_cases he : j = k
      · subst he
        obtain rfl := Option.some.inj (hreq.symm.trans hj)
        obtain rfl := Option.some.inj ((List.getElem?_set_self hlen).symm.trans hplan)
        exact resume _ _ hle (vouched_answer (fun r hr => .inr hr) hitems)
      · have hold := h.plans j r plan hj ((List.getElem?_set_ne (Ne.symm he)).symm.trans hplan)
        exact hold.mono hle fun result hr reply hok => (hr reply hok).mono hle
    · rw [List.length_set, h.length]
  · rw [ht]
    exact ⟨seen, h, fun r hr => .inl hr⟩

theorem Sighted.beat (h : Sighted requests seen c) (b : Crew.Beat) :
    ∃ later, Sighted requests later (c.beat b) ∧
      ∀ r ∈ later.rows, r ∈ seen.rows ∨ r ∈ (c.beat b).deployment.store.table.rows := by
  cases b with
  | turn k => exact h.turn k
  | wait moment =>
    simp only [Crew.beat]
    split
    · exact ⟨seen, ⟨h.rows, h.items, h.plans, h.length⟩, fun r hr => .inl hr⟩
    · exact ⟨seen, h, fun r hr => .inl hr⟩

end

theorem sighted_gather (p : Policy) {d : Deployment} (hrows : d.store.table.Storable)
    (hcache : d.cache.items = []) {requests : List Request}
    (hrequests : ∀ r ∈ requests, ∀ today, r ≠ .rollover today) :
    Sighted requests ⟨{r | r ∈ d.store.table.rows}, hrows⟩ (Crew.gather p requests d) where
  rows _ hr := hr
  items h hm := absurd (hcache ▸ hm) List.not_mem_nil
  plans k r plan hk hplan := by
    rw [Crew.gather, List.getElem?_map, hk] at hplan
    obtain rfl := Option.some.inj hplan
    exact truthful_serve (hrequests r (List.mem_of_getElem? hk))
  length := List.length_map _

/-- At every moment of a run, what has been seen was there at that moment or before. -/
theorem exists_sighted (p : Policy) {d : Deployment} (hrows : d.store.table.Storable)
    (hcache : d.cache.items = []) {requests : List Request}
    (hrequests : ∀ r ∈ requests, ∀ today, r ≠ .rollover today) (beats : List Crew.Beat) :
    ∃ seen, Sighted requests seen ((Crew.gather p requests d).follow beats) ∧
      ∀ r ∈ seen.rows, ∃ early, early <+: beats ∧
        r ∈ ((Crew.gather p requests d).follow early).deployment.store.table.rows := by
  induction beats using List.reverseRecOn with
  | nil =>
    exact ⟨_, sighted_gather p hrows hcache hrequests, fun r hr => ⟨[], List.prefix_rfl, hr⟩⟩
  | append_singleton beats b ih =>
    obtain ⟨seen, hseen, hearly⟩ := ih
    obtain ⟨later, hlater, hnew⟩ := hseen.beat b
    rw [← Crew.follow_concat] at hlater hnew
    refine ⟨later, hlater, fun r hr => ?_⟩
    rcases hnew r hr with hr | hr
    · obtain ⟨early, hle, hmem⟩ := hearly r hr
      exact ⟨early, hle.trans (List.prefix_append _ _), hmem⟩
    · exact ⟨beats ++ [b], List.prefix_rfl, hr⟩

/-- The row under a number at that moment of the run or before. -/
def OnceStored (start : Crew) (beats : List Crew.Beat) (id : Int) (r : Row) : Prop :=
  ∃ early, early <+: beats ∧ (start.follow early).deployment.store.table.find? id = some r

/-- At a moment of a run: what a request is about to put into the cache, what is held there, and the
entry that a read has handed out, is each the row that the store has or had under that number. -/
structure Genuine (start : Crew) (requests : List Request) (beats : List Crew.Beat) : Prop where
  puts : ∀ (k : Nat) (id : Int) (payload : LooseText) (ttl : Int),
    (start.follow beats).call? k = some (.put (cacheKey id) payload ttl) →
      ∃ r, OnceStored start beats id r ∧ payload = r.toJson.text
  items : ∀ (id : Int), ∀ h ∈ (start.follow beats).deployment.cache.items, h.key = cacheKey id →
    ∃ r, OnceStored start beats id r ∧ h.payload = r.toJson.text
  entries : ∀ (k : Nat) (id : Int) (s : Snapshot), requests[k]? = some (.read id) →
    (start.follow beats).plans[k]? = some (.done (.ok (.entry s))) →
      ∃ r, OnceStored start beats id r ∧ s = r.snapshot

/-- Requests side by side, in whatever turns, and whatever of the store and the cache fails: nothing
is cached under a number, and no read of that number answered, but with a row that the store once
had under it. -/
theorem nothing_fabricated (p : Policy) {d : Deployment} (hrows : d.store.table.Storable)
    (hcache : d.cache.items = []) {requests : List Request}
    (hrequests : ∀ r ∈ requests, ∀ today, r ≠ .rollover today) (beats : List Crew.Beat) :
    Genuine (Crew.gather p requests d) requests beats := by
  obtain ⟨seen, hseen, hearly⟩ := exists_sighted p hrows hcache hrequests beats
  have hshows {id : Int} {key payload : LooseText} (hkey : key = cacheKey id)
      (h : seen.Shows key payload) :
      ∃ r, OnceStored (Crew.gather p requests d) beats id r ∧ payload = r.toJson.text := by
    obtain ⟨r, hr, hkey', hpayload⟩ := h
    obtain rfl := cacheKey_injective (LooseText.whole.inj (hkey.symm.trans hkey'))
    obtain ⟨early, hle, hmem⟩ := hearly r hr
    exact ⟨r, ⟨early, hle, Table.find?_eq_some_iff.mpr ⟨hmem, rfl⟩⟩, hpayload⟩
  refine ⟨fun k id payload ttl hcall => ?_, fun id h hm hkey => ?_, fun k id s hk hdone => ?_⟩
  · obtain ⟨next, hk⟩ := Crew.exists_of_call? hcall
    have hlen : k < requests.length := hseen.length ▸ (List.getElem?_eq_some_iff.mp hk).1
    cases hseen.plans k _ _ (List.getElem?_eq_getElem hlen) hk with
    | call honest _ => exact hshows rfl honest
  · exact hshows hkey (hseen.items h hm)
  · cases hseen.plans k _ _ hk hdone with
    | done h =>
      obtain ⟨r, hr, rfl, hs⟩ := h (.entry s) rfl
      obtain ⟨early, hle, hmem⟩ := hearly r hr
      exact ⟨r, ⟨early, hle, Table.find?_eq_some_iff.mpr ⟨hmem, rfl⟩⟩, hs⟩

/-- Two reads, an update and a removal of one entry, and an entry that is new. -/
def mixedRequests : List Request :=
  [.read 1,
    .update (Deployment.someDay 4 (by decide)) 1 "alice" ⟨"Cinema", 300, "01-08-2025", 2, true⟩
      none,
    .read 1, .remove 1, .createAggregator (Deployment.someDay 3 (by decide)) "bob" none]

/-- The first read has found the row and waits with it while the entry is replaced and removed. The
number is then given to another, and the first read puts back what it has found at last. -/
def mixedBeats : List Crew.Beat :=
  [.turn 0, .turn 0, .turn 1, .turn 3, .turn 3, .turn 3, .wait (.ofInt 5), .turn 1, .turn 4,
    .turn 2, .turn 4, .turn 3, .turn 0]

/-- The cache does not hear of the first removal. -/
def fickle : Deployment :=
  { Deployment.small (.remote .empty) with cachePlan := [.sound, .timedOut] }

theorem nothing_fabricated_mixed :
    Genuine (Crew.gather Settings.standard.policy mixedRequests fickle) mixedRequests
      mixedBeats := by
  have hrequests : ∀ r ∈ mixedRequests, ∀ today, r ≠ .rollover today := by simp [mixedRequests]
  have hrows : fickle.store.table.Storable := Deployment.storable_small (.remote .empty)
  exact nothing_fabricated Settings.standard.policy hrows rfl hrequests mixedBeats

end Renewals.Service
