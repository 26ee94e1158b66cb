import Renewals.Proofs.Deployment.Calls
import Renewals.Proofs.Task.Script
/-! What calls that go well do to the rows and to one cached entry, whatever else there is. -/
namespace Renewals.Service

/-- What a call makes of the rows. -/
def rowsBehind (schema : Schema) (t : Table) : Call → Table
  | .ask q => Store.rowsAfter schema q t
  | _ => t

/-- What a call makes of what lives under a key. -/
def entryBehind (now : Binary64) (key : LooseText) (entry : Option LooseText) :
    Call → Option LooseText
  | .put k payload ttl =>
    if k = key then if (expiry? now ttl).any now.below then some payload else none else entry
  | .drop k => if k = key then none else entry
  | _ => entry

/-- A deployment on the way from `start`. Calls go well, and if the cache has had room under `keys`,
it still has. -/
structure Calm (p : Policy) (keys : List LooseText) (F : Table → Prop) (start d : Deployment) :
    Prop where
  steady : d.Steady
  storable : d.store.table.Storable
  schema : d.store.schema = start.store.schema
  clock : d.clock = start.clock
  size : d.cache.size? = start.cache.size?
  room : start.cache.RoomFor keys → d.cache.RoomFor keys
  rows : F d.store.table

/-- Calls that keep a deployment calm, under a policy whose time to live suits the cache. -/
def Fits (p : Policy) (keys : List LooseText) (F : Table → Prop) (start : Deployment) : Call → Prop
  | .ask q => ∀ t, F t → F (Store.rowsAfter start.store.schema q t)
  | .put key _ ttl => key ∈ keys ∧ ttl = p.ttl
  | .drop _ => True
  | _ => False

/-- A time to live that a cache takes. -/
structure Suits (p : Policy) (d : Deployment) : Prop where
  positive : d.cache.size? = none → 0 < p.ttl
  finite : (Binary64.ofInt? p.ttl).isSome = true

variable {p : Policy} {keys : List LooseText} {F : Table → Prop} {start d : Deployment}

theorem Calm.table_answer (hd : Calm p keys F start d) (c : Call) :
    (Deployment.answer c d).2.store.table =
      rowsBehind start.store.schema d.store.table c := by
  cases c with
  | ask q => rw [(hd.steady.ask q).2, Store.table_ask, hd.schema, rowsBehind]
  | _ =>
    rw [Deployment.store_answer (by simp)]
    rfl

theorem Calm.answer (hd : Calm p keys F start d) {c : Call} (hc : Fits p keys F start c) :
    Calm p keys F start (Deployment.answer c d).2 where
  steady := hd.steady.answer c
  storable := Deployment.storable_answer c hd.storable
  schema := (Deployment.schema_answer c d).trans hd.schema
  clock := (Deployment.clock_answer c d).trans hd.clock
  size := (Deployment.size?_answer c d).trans hd.size
  room hr := by
    cases c with
    | ask q => exact hd.room hr
    | put key payload ttl => exact Deployment.roomFor_put (hd.room hr) hc.1
    | drop key => exact Deployment.roomFor_drop (hd.room hr)
    | _ => exact hc.elim
  rows := by
    rw [hd.table_answer]
    cases c with
    | ask q => exact hc _ hd.rows
    | _ => exact hd.rows

theorem Calm.put (hd : Calm p keys F start d) (hp : Suits p start) (key payload : LooseText) :
    (Deployment.answer (.put key payload p.ttl) d).1 = .ok () :=
  hd.steady.put (fun hs => hp.positive (hd.size ▸ hs)) hp.finite key payload

theorem Calm.entry_answer (hd : Calm p keys F start d) (hp : Suits p start)
    (hr : start.cache.RoomFor keys) {c : Call} (hc : Fits p keys F start c) (key : LooseText) :
    (Deployment.answer c d).2.cache.live? start.clock key =
      entryBehind start.clock key (d.cache.live? start.clock key) c := by
  rw [← hd.clock]
  cases c with
  | ask q => rfl
  | put k payload ttl =>
    obtain ⟨hk, rfl⟩ := hc
    by_cases he : k = key
    · subst he
      have hok := hd.put hp k payload
      let e := d.clock.add (.ofInt p.ttl)
      have hcounted : expiry? d.clock p.ttl = some e :=
        @LifeLimit.expiry?_of_isSome .countable _ _ hp.finite
      have hexp : d.cache.limit.expiry? d.clock p.ttl = some e :=
        LifeLimit.expiry?_of_isSome hp.finite
      cases hl : d.clock.below e with
      | true => simp [entryBehind, Deployment.live?_put hok hexp hl, hcounted, hl]
      | false => simp [entryBehind, Deployment.live?_put_dead hok hexp hl, hcounted, hl]
    · rw [Deployment.live?_put_of_ne (hd.room hr) hk (Ne.symm he), entryBehind, if_neg he]
  | drop k =>
    by_cases he : k = key
    · subst he
      rw [Deployment.live?_drop (hd.steady.drop k), entryBehind, if_pos rfl]
    · rw [Deployment.live?_drop_of_ne (Ne.symm he), entryBehind, if_neg he]
  | _ => exact hc.elim

/-- The rows, and what lives under a key. -/
def view (key : LooseText) (d : Deployment) : Table × Option LooseText :=
  (d.store.table, d.cache.live? d.clock key)

/-- What calls make of both. -/
def viewBehind (start : Deployment) (key : LooseText) (calls : List Call) :
    Table × Option LooseText :=
  (calls.foldl (rowsBehind start.store.schema) start.store.table,
    calls.foldl (entryBehind start.clock key) (start.cache.live? start.clock key))

theorem Calm.after (hd : Calm p keys F start d) {calls : List Call}
    (hcalls : ∀ c ∈ calls, Fits p keys F start c) : Calm p keys F start (d.after calls) := by
  induction calls generalizing d with
  | nil => exact hd
  | cons c calls ih =>
    exact ih (hd.answer (hcalls c List.mem_cons_self))
      fun c' hc' => hcalls c' (List.mem_cons_of_mem c hc')

theorem Calm.table_after (hd : Calm p keys F start d) {calls : List Call}
    (hcalls : ∀ c ∈ calls, Fits p keys F start c) : (d.after calls).store.table =
      calls.foldl (rowsBehind start.store.schema) d.store.table := by
  induction calls generalizing d with
  | nil => rfl
  | cons c calls ih =>
    rw [Deployment.after_cons, List.foldl_cons, ← hd.table_answer c]
    exact ih (hd.answer (hcalls c List.mem_cons_self))
      fun c' hc' => hcalls c' (List.mem_cons_of_mem c hc')

theorem Calm.entry_after (hd : Calm p keys F start d) (hp : Suits p start)
    (hr : start.cache.RoomFor keys) {calls : List Call}
    (hcalls : ∀ c ∈ calls, Fits p keys F start c) (key : LooseText) :
    (d.after calls).cache.live? start.clock key =
      calls.foldl (entryBehind start.clock key) (d.cache.live? start.clock key) := by
  induction calls generalizing d with
  | nil => rfl
  | cons c calls ih =>
    have hc := hcalls c List.mem_cons_self
    rw [Deployment.after_cons, List.foldl_cons, ← hd.entry_answer hp hr hc]
    exact ih (hd.answer hc) fun c' hc' => hcalls c' (List.mem_cons_of_mem c hc')

theorem Calm.view_after (hd : Calm p keys F start start) (hp : Suits p start)
    (hr : start.cache.RoomFor keys) {calls : List Call}
    (hcalls : ∀ c ∈ calls, Fits p keys F start c) (key : LooseText) :
    view key (start.after calls) = viewBehind start key calls := by
  simp only [view, viewBehind, (hd.after hcalls).clock, hd.table_after hcalls,
    hd.entry_after hp hr hcalls]

end Renewals.Service
