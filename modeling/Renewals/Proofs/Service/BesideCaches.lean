import Renewals.Proofs.Deployment.Calls
import Renewals.Proofs.Service.Agree
import Renewals.Proofs.Service.BillingDates
/-! The same requests beside two caches. Whatever the caches hold, and whether or not they can be
reached, the rows are the same all the time, and so is every reply but that to a read. -/
namespace Renewals.Service

/-- A write to the cache is done, or else the cache cannot be reached. -/
def isBorne : Except CacheFault Unit → Bool
  | .ok _ => true
  | .error f => f.isUnavailable

/-- No write to the cache fails in any other way. -/
def Borne : Call → Deployment → Prop
  | .put key payload ttl, d => isBorne (Deployment.answer (.put key payload ttl) d).1 = true
  | .drop key, d => isBorne (Deployment.answer (.drop key) d).1 = true
  | _, _ => True

instance : (c : Call) → (d : Deployment) → Decidable (Borne c d)
  | .put key payload ttl, d =>
    inferInstanceAs (Decidable (isBorne (Deployment.answer (.put key payload ttl) d).1 = true))
  | .drop key, d => inferInstanceAs (Decidable (isBorne (Deployment.answer (.drop key) d).1 = true))
  | .ask _, _ | .fetch _, _ | .ping, _ | .closeCache, _ | .openConnection _, _ | .broker _, _
  | .sleep _, _ | .log _, _ => isTrue trivial

/-! Where no such write fails. A cache that has room for values which live so long, behind a client
that does not crash, leads no request to another failure. -/

section
variable {p : Policy} {d : Deployment} {ttl : Int} {Q : Query → Prop}

theorem isBorne_of_tolerated {r : Except CacheFault Unit}
    (h : FailsOnly (·.isUnavailable = true) r) : isBorne r = true := by
  cases r with
  | ok u => rfl
  | error f => exact h f rfl

theorem borne_of_asks {c : Call} (hc : Asks ttl Q c) (hd : d.Bearable ttl) : Borne c d := by
  cases c with
  | put key payload life =>
    obtain rfl : life = ttl := hc
    exact isBorne_of_tolerated (hd.put key payload)
  | drop key => exact isBorne_of_tolerated (hd.drop key)
  | _ => trivial

theorem along_of_bearable {α : Type} {t : Task α} (ht : Task.Only (Asks ttl Q) t)
    (hd : d.Bearable ttl) : t.Along Borne d :=
  ht.along_of (C := Borne) (I := Deployment.Bearable ttl)
    (fun c _ hc hd => ⟨borne_of_asks hc hd, hd.answer c⟩) hd

theorem along_serve_of_bearable (hd : d.Bearable p.ttl) (r : Request) :
    (serve p r).Along Borne d :=
  along_of_bearable (only_asks p r) hd

-- a client that crashes leads even a removal to another one
example : ¬ (serve Settings.standard.policy (.remove 1)).Along Borne
    { Deployment.small (.remote .empty) with cachePlan := [.crashes] } := by decide +kernel

theorem along_rollover_of_bearable (hd : d.Bearable p.ttl) (today : Day) :
    (rollover p today).Along Borne d :=
  along_of_bearable (only_rollover (Q := fun _ => True) trivial fun _ _ => trivial) hd

end

/-- The same rows, and a store that goes on alike. -/
structure Abreast (d e : Deployment) : Prop where
  schema : d.store.schema = e.store.schema
  table : d.store.table = e.store.table
  storePlan : d.storePlan = e.storePlan

variable {p : Policy} {d : Deployment} {ttl : Int}

theorem abreast_ask? (q : Query) : Task.Agree Borne Abreast (Task.ask? q) (Task.ask? q) := by
  intro d e h _ _
  have hrun (m : Deployment) : m.run (Task.ask? q) =
      (.ok (Deployment.answer (.ask q) m).1, (Deployment.answer (.ask q) m).2) := rfl
  obtain ⟨hr, ht⟩ := Store.ask_congr h.schema h.table (d.storePlan.headD .sound) q
  rw [Task.AgreeAt, hrun, hrun]
  simp only [Deployment.answer, Deployment.ask, ← h.storePlan]
  refine ⟨congrArg Except.ok hr, ?_, ht, rfl⟩
  rw [Store.schema_ask, Store.schema_ask]
  exact h.schema

/-- A task without queries leaves the store alone. -/
theorem store_of_only {α : Type} {t : Task α} (ht : Task.Only (Asks ttl fun _ => False) t)
    (d : Deployment) : (d.run t).2.store = d.store ∧ (d.run t).2.storePlan = d.storePlan := by
  refine ht.run (I := fun m => m.store = d.store ∧ m.storePlan = d.storePlan)
    (fun c m hc hm => ?_) ⟨rfl, rfl⟩
  have hne : ∀ q, c ≠ .ask q := by
    rintro q rfl
    exact hc
  rw [Deployment.store_answer hne, Deployment.storePlan_of_answer hne]
  exact hm

/-- A task that asks for nothing but what it reads leaves the rows alone. -/
theorem table_of_only {α : Type} {t : Task α} (ht : Task.Only (Asks ttl (·.writes = false)) t)
    (d : Deployment) : (d.run t).2.store.table = d.store.table := by
  refine ht.run (I := fun m => m.store.table = d.store.table) (fun c m hc hm => ?_) rfl
  cases c with
  | ask q =>
    refine Eq.trans ?_ hm
    cases ha : (Deployment.answer (.ask q) m).1 with
    | error f => exact Deployment.table_of_ask_error ha
    | ok a => exact Deployment.table_of_ask_ok hc ha
  | _ =>
    rw [Deployment.store_answer (by simp)]
    exact hm

theorem abreast_idle {t : Task Unit} (ht : Task.Only (Asks p.ttl fun _ => False) t)
    (hok : ∀ d, t.Along Borne d → (d.run t).1 = .ok ()) : Task.Agree Borne Abreast t t := by
  intro d e h hd he
  obtain ⟨hstore, hplan⟩ := store_of_only ht d
  obtain ⟨hstore', hplan'⟩ := store_of_only ht e
  refine ⟨(hok d hd).trans (hok e he).symm, ?_, ?_, ?_⟩
  · rw [hstore, hstore']
    exact h.schema
  · rw [hstore, hstore']
    exact h.table
  · rw [hplan, hplan']
    exact h.storePlan

theorem run_tolerate_of_borne (what key : String) {r : Except CacheFault Unit}
    (hr : isBorne r = true) (d : Deployment) : (d.run (tolerate what key r)).1 = .ok () := by
  cases r with
  | ok u => rfl
  | error f =>
    have hf : f.isUnavailable = true := hr
    simp only [tolerate, if_pos hf]
    rfl

theorem partsAbreast (p : Policy) : PartsAgree p Borne Abreast where
  ask? := abreast_ask?
  keep r := abreast_idle (only_keep r) fun d hd => by
    exact run_tolerate_of_borne _ _ hd.1 _
  forget id := abreast_idle (p := p) (only_forget id) fun d hd => by
    exact run_tolerate_of_borne _ _ hd.1 _
  log level text := abreast_idle (p := p) (.perform (c := .log _) trivial) fun _ _ => rfl

/-! Runs -/

def Request.isRead : Request → Bool
  | .read _ => true
  | _ => false

/-- A request, the time it comes at, what has become of the cache until then, and how the calls of
the store and the cache go. -/
structure Visit where
  request : Request
  clock : Binary64
  meantime : Cache → Cache
  storePlan : List Outcome
  cachePlan : List ClientOutcome

namespace Visit

/-- The deployment that the request finds. -/
def find (v : Visit) (d : Deployment) : Deployment :=
  { d with
    clock := v.clock
    cache := v.meantime d.cache
    storePlan := v.storePlan
    cachePlan := v.cachePlan }

def run (p : Policy) (v : Visit) (d : Deployment) : Except Failure Reply × Deployment :=
  (v.find d).run (serve p v.request)

/-- The same request, before a store that goes on alike. A read may not come to the store at all. -/
structure Alike (v w : Visit) : Prop where
  request : v.request = w.request
  storePlan : v.request.isRead = false → v.storePlan = w.storePlan

end Visit

/-- The rows behind each request, and the reply to it unless it is a read. -/
def shown (p : Policy) : List Visit → Deployment → List (List Row × Option (Except Failure Reply))
  | [], _ => []
  | v :: vs, d =>
    ((v.run p d).2.store.table.rows, if v.request.isRead then none else some (v.run p d).1) ::
      shown p vs (v.run p d).2

/-- All the while no write to the cache fails but for a cache that cannot be reached. -/
def Spared (p : Policy) : List Visit → Deployment → Prop
  | [], _ => True
  | v :: vs, d => (serve p v.request).Along Borne (v.find d) ∧ Spared p vs (v.run p d).2

/-- Visits are spared whenever the client does not crash and a cache that had room at first does not
lose it in the meantime. -/
theorem spared_of_bearable (hfinite : (Binary64.ofInt? p.ttl).isSome = true) {vs : List Visit}
    (hvs : ∀ v ∈ vs, (∀ o ∈ v.cachePlan, o ≠ .crashes) ∧
      ∀ c : Cache, c.HasRoom → (v.meantime c).HasRoom)
    (hd : d.cache.HasRoom) : Spared p vs d := by
  induction vs generalizing d with
  | nil => trivial
  | cons v vs ih =>
    obtain ⟨⟨hplan, hmeantime⟩, hrest⟩ := List.forall_mem_cons.mp hvs
    have hfind : (v.find d).Bearable p.ttl := ⟨hplan, hmeantime d.cache hd, hfinite⟩
    exact ⟨along_serve_of_bearable hfind v.request, ih hrest (hfind.run _).room⟩

theorem table_read (id : Int) (d : Deployment) :
    (d.run (serve p (.read id))).2.store.table = d.store.table :=
  table_of_only (.bind (only_read rfl) fun _ => .pure _) d

/-- Behind the same visit to the same rows the rows are the same, and so is the reply unless it is to
a read. -/
theorem Visit.Alike.run {v w : Visit} (h : v.Alike w) {e : Deployment}
    (hschema : d.store.schema = e.store.schema) (htable : d.store.table = e.store.table)
    (hd : (serve p v.request).Along Borne (v.find d))
    (he : (serve p w.request).Along Borne (w.find e)) :
    (v.run p d).2.store.table = (w.run p e).2.store.table ∧
      (v.request.isRead = false → (v.run p d).1 = (w.run p e).1) := by
  unfold Visit.run
  rw [← h.request] at he ⊢
  cases hread : v.request.isRead with
  | true =>
    obtain ⟨id, hv⟩ : ∃ id, v.request = .read id := by
      cases hv : v.request <;> simp_all [Request.isRead]
    -- a read may come to the store beside one cache and not beside the other, but it changes no row
    rw [hv, table_read, table_read]
    exact ⟨htable, fun h => Bool.noConfusion h⟩
  | false =>
    have hne : ∀ id, v.request ≠ .read id := by
      intro id hv
      rw [hv] at hread
      exact Bool.noConfusion hread
    obtain ⟨hr, ha⟩ := (partsAbreast p).serve hne (v.find d) (w.find e)
      ⟨hschema, htable, h.storePlan hread⟩ hd he
    exact ⟨ha.table, fun _ => hr⟩

/-- Two caches beside the same store, whatever is in them, whoever else is at them, and whenever they
can be reached. No request leaves other rows than beside the other cache, and none but a read is
answered otherwise. -/
theorem shown_beside_caches (p : Policy) {vs ws : List Visit}
    (hvisits : List.Forall₂ Visit.Alike vs ws) {d e : Deployment}
    (hschema : d.store.schema = e.store.schema)
    (hrows : d.store.table.rows = e.store.table.rows) (hd : Spared p vs d) (he : Spared p ws e) :
    shown p vs d = shown p ws e := by
  -- only the rows carry over: what is left of the plan of the store differs behind a read
  induction hvisits generalizing d e with
  | nil => rfl
  | @cons v w vs ws hvw _ ih =>
    obtain ⟨hd, hds⟩ := hd
    obtain ⟨he, hes⟩ := he
    obtain ⟨htable, hreply⟩ := hvw.run hschema (Table.eq_of_rows hrows) hd he
    have hnext : (v.run p d).2.store.schema = (w.run p e).2.store.schema := by
      rw [Visit.run, Visit.run, Deployment.schema_run, Deployment.schema_run]
      exact hschema
    have hrest := ih hnext (congrArg Table.rows htable) hds hes
    simp only [shown, htable, hrest, ← hvw.request]
    cases hread : v.request.isRead with
    | true => rfl
    | false => rw [hreply hread]

/-- Requests of every kind, with a store that fails now and then. -/
def everyKind : List (Request × List Outcome) :=
  [(lastOfMarch, []), (.createAggregator blank.today "bob" none, [.commitFails]), (.read 1, []),
    (.update blank.today 1 "alice" ⟨"Music", 500, "01-03-2026", 6, true⟩ none, []),
    (.rollover fifthOfMay, [.sound, .statementFails]), (.read 1, []), (.list "alice" "user" 5 0, []),
    (.sum "alice" ⟨"01-03-2026", 2, none⟩, []), (.remove 1, [.crashes]), (.remove 1, [])]

/-- A cache that holds nothing for long. -/
def besideForgetful : List Visit :=
  everyKind.map fun r => ⟨r.1, .zero, fun _ => .memory (.empty 1), r.2, []⟩

/-- A cache that is left to itself, and that can be reached at every other call at best. -/
def besideAbsent : List Visit :=
  everyKind.map fun r => ⟨r.1, .zero, id, r.2, [.refused, .sound, .timedOut]⟩

theorem shown_beside_caches_blank : List.Forall₂ Visit.Alike besideForgetful besideAbsent ∧
    Spared blank.policy besideForgetful blank ∧
    Spared blank.policy besideAbsent { blank with cache := .remote .empty } ∧
    shown blank.policy besideForgetful blank =
      shown blank.policy besideAbsent { blank with cache := .remote .empty } := by
  have halike : List.Forall₂ Visit.Alike besideForgetful besideAbsent := by
    simp only [besideForgetful, besideAbsent, List.forall₂_map_left_iff,
      List.forall₂_map_right_iff, List.forall₂_same]
    exact fun r _ => ⟨rfl, fun _ => rfl⟩
  have hfinite : (Binary64.ofInt? blank.policy.ttl).isSome = true := by decide +kernel
  have hforgetful : Cache.HasRoom (.memory (.empty 1)) :=
    fun h => absurd (Option.some.inj h) (by decide)
  have hleft : Spared blank.policy besideForgetful blank := by
    refine spared_of_bearable hfinite (fun v hv => ?_) hforgetful
    obtain ⟨r, -, rfl⟩ := List.mem_map.mp hv
    exact ⟨by simp, fun _ _ => hforgetful⟩
  have hright : Spared blank.policy besideAbsent { blank with cache := .remote .empty } := by
    refine spared_of_bearable hfinite (fun v hv => ?_) nofun
    obtain ⟨r, -, rfl⟩ := List.mem_map.mp hv
    exact ⟨by simp, fun _ hc => hc⟩
  exact ⟨halike, hleft, hright, shown_beside_caches blank.policy halike rfl rfl hleft hright⟩

end Renewals.Service
