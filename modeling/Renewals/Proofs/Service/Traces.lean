import Renewals.Proofs.Service.BesideCaches
import Renewals.Proofs.Service.Stages
/-! Requests that fail. What can fail of a request to change rows comes before it has changed them,
and what follows puts up with a cache that cannot be reached. So a failure leaves all rows as they
were, and nothing in the cache that has not been there before. -/
namespace Renewals

namespace Deployment

/-- No row has changed and no value has come into the cache. Of the values that were there, only
those under some keys may be gone. -/
structure Untouched (keys : List LooseText) (d d' : Deployment) : Prop where
  table : d'.store.table = d.store.table
  old : ∀ h ∈ d'.cache.items, h ∈ d.cache.items
  kept : ∀ h ∈ d.cache.items, h.key ∉ keys → h ∈ d'.cache.items

variable {keys : List LooseText} {d m d' : Deployment}

namespace Untouched

theorem of_parts (ht : d'.store.table = d.store.table) (hc : d'.cache = d.cache) :
    Untouched keys d d' where
  table := ht
  old _ hm := hc ▸ hm
  kept _ hm _ := hc ▸ hm

theorem trans (h : Untouched keys d m) (h' : Untouched keys m d') : Untouched keys d d' where
  table := h'.table.trans h.table
  old g hg := h.old g (h'.old g hg)
  kept g hg hk := h'.kept g (h.kept g hg hk) hk

theorem answer_drop (key : LooseText) (d : Deployment) :
    Untouched [key] d (answer (.drop key) d).2 where
  table := congrArg Store.table (store_answer (by simp) d)
  old _ hm := (mem_items_drop hm).1
  kept _ hm hk := mem_drop_of_ne hm fun he => hk (List.mem_singleton.mpr he)

end Untouched

variable {α β ε : Type} {f : Failure}

/-- If the rest behind a query goes well whenever the query does, then it is the query that has
failed. -/
theorem untouched_of_ask {q : Query} {next : q.Answer → Task α}
    (hnext : ∀ a, (answer (.ask q) d).1 = .ok a →
      ∃ b, ((answer (.ask q) d).2.run (next a)).1 = .ok b)
    (hf : (d.run (Task.ask q >>= next)).1 = .error f) :
    Untouched keys d (d.run (Task.ask q >>= next)).2 := by
  cases ha : (answer (.ask q) d).1 with
  | error g =>
    rw [run_ask_bind_error ha]
    exact .of_parts (table_of_ask_error ha) rfl
  | ok a =>
    obtain ⟨b, hb⟩ := hnext a ha
    rw [run_ask_bind_ok ha, hb] at hf
    exact absurd hf (by simp)

/-- What fails before the first call leaves everything as it is. -/
theorem untouched_of_lift {g : ε → Failure} {x : Except ε α} {next : α → Task β}
    (hnext : ∀ a, x = .ok a → (d.run (next a)).1 = .error f → Untouched keys d (d.run (next a)).2)
    (hf : (d.run (Task.lift g x >>= next)).1 = .error f) :
    Untouched keys d (d.run (Task.lift g x >>= next)).2 := by
  cases x with
  | error e => exact .of_parts rfl rfl
  | ok a => exact hnext a rfl hf

end Deployment

namespace Task
variable {α : Type} {C : Call → Deployment → Prop} {d : Deployment}

theorem along_behind_ask {q : Query} {next : q.Answer → Task α} {a : q.Answer}
    (h : (ask q >>= next).Along C d) (ha : (Deployment.answer (.ask q) d).1 = .ok a) :
    (next a).Along C (Deployment.answer (.ask q) d).2 := by
  have hrun := Deployment.run_ask_ok ha
  have hnext := (along_bind.mp h).2 a
  rw [hrun] at hnext
  exact hnext rfl

end Task

namespace Service
variable {p : Policy} {d : Deployment} {f : Failure} {keys : List LooseText}

theorem run_keep_of_borne {r : Row} (h : (keep p r).Along Borne d) :
    (d.run (keep p r)).1 = .ok () :=
  run_tolerate_of_borne _ _ h.1 _

theorem run_forget_of_borne {id : Int} (h : (forget id).Along Borne d) :
    (d.run (forget id)).1 = .ok () :=
  run_tolerate_of_borne _ _ h.1 _

theorem parts_tolerate (what key : String) (r : Except CacheFault Unit) (d : Deployment) :
    (d.run (tolerate what key r)).2.store = d.store ∧
      (d.run (tolerate what key r)).2.cache = d.cache := by
  unfold tolerate
  split
  next => exact ⟨rfl, rfl⟩
  next =>
    split
    next => exact ⟨rfl, rfl⟩
    next => exact ⟨rfl, rfl⟩

theorem untouched_forget (id : Int) (d : Deployment) :
    d.Untouched [cacheKey id] (d.run (forget id)).2 := by
  obtain ⟨hs, hc⟩ := parts_tolerate "failed to invalidate cache" (cacheKey id)
    (Deployment.answer (.drop (cacheKey id)) d).1 (Deployment.answer (.drop (cacheKey id)) d).2
  exact (Deployment.Untouched.answer_drop (cacheKey id) d).trans
    (.of_parts (congrArg Store.table hs) hc)

theorem untouched_store {s : Subscription} (h : (store p s).Along Borne d)
    (hf : (d.run (store p s)).1 = .error f) : d.Untouched keys (d.run (store p s)).2 := by
  apply Deployment.untouched_of_ask _ hf
  intro id ha
  obtain ⟨hkeep, -⟩ := Task.along_bind.mp (Task.along_behind_ask h ha)
  exact ⟨id, Deployment.run_then_pure (run_keep_of_borne hkeep) id⟩

theorem untouched_replace {s : Subscription} {id : Int}
    (h : (Task.ask (.update (some id) s) >>= keepHit p ⟨s, id⟩).Along Borne d)
    (hf : (d.run (Task.ask (.update (some id) s) >>= keepHit p ⟨s, id⟩)).1 = .error f) :
    d.Untouched keys (d.run (Task.ask (.update (some id) s) >>= keepHit p ⟨s, id⟩)).2 := by
  apply Deployment.untouched_of_ask _ hf
  intro n ha
  have hbehind : (keepHit p ⟨s, id⟩ n).Along Borne _ := Task.along_behind_ask h ha
  exists n
  apply run_keepHit
  intro hn
  unfold keepHit at hbehind
  rw [if_pos hn] at hbehind
  exact run_keep_of_borne (Task.along_bind.mp hbehind).1

theorem untouched_remove {id : Int} (h : (remove id).Along Borne d)
    (hf : (d.run (remove id)).1 = .error f) :
    d.Untouched [cacheKey id] (d.run (remove id)).2 := by
  have hrun : d.run (remove id) = d.run (forget id >>= fun _ => removeStored id) := rfl
  obtain ⟨hfirst, hrest⟩ := Task.along_bind.mp h
  have hok := run_forget_of_borne hfirst
  have hrest := hrest () hok
  rw [hrun, Deployment.run_bind, hok] at hf ⊢
  apply (untouched_forget id d).trans
  apply Deployment.untouched_of_ask _ hf
  intro n ha
  obtain ⟨hagain, -⟩ := Task.along_bind.mp (Task.along_behind_ask hrest ha)
  exact ⟨n, Deployment.run_then_pure (run_forget_of_borne hagain) n⟩

/-- Requests that change a row of their own. -/
def Request.isCommand : Request → Bool
  | .create .. | .createAggregator .. | .update .. | .remove _ => true
  | _ => false

/-- The keys of the values that a request may take out of the cache before it fails. -/
def Request.forgotten : Request → List LooseText
  | .remove id => [cacheKey id]
  | _ => []

theorem untouched_of_error {q : Request} (hq : q.isCommand = true)
    (h : (serve p q).Along Borne d) (hf : (d.run (serve p q)).1 = .error f) :
    d.Untouched q.forgotten (d.run (serve p q)).2 := by
  cases q with
  | create today username o userUid =>
    obtain ⟨h, -⟩ := Task.along_bind.mp h
    rw [serve, Deployment.run_map] at hf ⊢
    apply Deployment.untouched_of_lift _ (eq_error_of_map hf)
    intro s hs hstore
    rw [create, hs] at h
    exact untouched_store h hstore
  | createAggregator today username userUid =>
    obtain ⟨h, -⟩ := Task.along_bind.mp h
    rw [serve, Deployment.run_map] at hf ⊢
    apply Deployment.untouched_of_lift _ (eq_error_of_map hf)
    intro s hs hstore
    rw [createAggregator, hs] at h
    exact untouched_store h hstore
  | update today id username o userUid =>
    obtain ⟨h, -⟩ := Task.along_bind.mp h
    rw [serve, Deployment.run_map] at hf ⊢
    apply Deployment.untouched_of_lift _ (eq_error_of_map hf)
    intro s hs hreplace
    rw [update, hs] at h
    exact untouched_replace h hreplace
  | remove id =>
    obtain ⟨h, -⟩ := Task.along_bind.mp h
    rw [serve, Deployment.run_map] at hf ⊢
    exact untouched_remove h (eq_error_of_map hf)
  | _ => exact Bool.noConfusion hq

/-! Rows that are not changed -/

/-- Requests that only read. -/
def Request.isQuery : Request → Bool
  | .read _ | .list .. | .sum .. => true
  | _ => false

theorem table_of_isQuery {q : Request} (hq : q.isQuery = true) (d : Deployment) :
    (d.run (serve p q)).2.store.table = d.store.table := by
  apply table_of_only
  cases q with
  | read id => exact .bind (only_read rfl) fun _ => .pure _
  | list username role limit offset => exact .bind (only_list _ _ rfl rfl) fun _ => .pure _
  | sum username o => exact .bind (only_sum _ _ fun _ => rfl) fun _ => .pure _
  | _ => exact Bool.noConfusion hq

/-- Behind a query that has changed nothing, a task that only reads leaves the rows as they were. -/
theorem table_of_ask {α : Type} {ttl : Int} {q : Query} {next : q.Answer → Task α} {b : α}
    (hnext : ∀ a, Task.Only (Asks ttl (·.writes = false)) (next a))
    (hsame : ∀ a, (Deployment.answer (.ask q) d).1 = .ok a →
      ((Deployment.answer (.ask q) d).2.run (next a)).1 = .ok b →
        (Deployment.answer (.ask q) d).2.store.table = d.store.table)
    (h : (d.run (Task.ask q >>= next)).1 = .ok b) :
    (d.run (Task.ask q >>= next)).2.store.table = d.store.table := by
  cases ha : (Deployment.answer (.ask q) d).1 with
  | error f =>
    rw [Deployment.run_ask_bind_error ha] at h
    exact absurd h (by simp)
  | ok a =>
    rw [Deployment.run_ask_bind_ok ha] at h ⊢
    exact (table_of_only (hnext a) _).trans (hsame a ha h)

theorem eq_of_then_pure {α : Type} {t : Task Unit} {a b : α}
    (h : (d.run (t >>= fun _ => pure a)).1 = .ok b) : b = a := by
  rw [Deployment.run_bind] at h
  split at h
  next => exact (Except.ok.inj h).symm
  next => exact absurd h (by simp)

theorem eq_of_keepHit {r : Row} {n m : Nat} (h : (d.run (keepHit p r n)).1 = .ok m) : m = n := by
  unfold keepHit at h
  split at h
  next => exact eq_of_then_pure h
  next => exact (Except.ok.inj h).symm

theorem only_keepHit {Q : Query → Prop} (r : Row) (n : Nat) :
    Task.Only (Asks p.ttl Q) (keepHit p r n) := by
  unfold keepHit
  split
  next => exact .bind (only_keep r) fun _ => .pure n
  next => exact .pure n

theorem table_of_update_none {today : Day} {id : Int} {username : LooseText} {o : Order}
    {userUid : Option LooseText} (h : (d.run (update p today id username o userUid)).1 = .ok 0) :
    (d.run (update p today id username o userUid)).2.store.table = d.store.table := by
  unfold update at h ⊢
  cases hs : o.accept username userUid today o.isActive with
  | error f => rfl
  | ok s =>
    rw [hs] at h
    apply table_of_ask (q := .update (some id) s) (fun n => only_keepHit ⟨s, id⟩ n) _ h
    intro n ha hn
    obtain rfl := eq_of_keepHit hn
    obtain ⟨hhits, ht⟩ := Store.run_update (Deployment.run_of_ask ha).2
    rw [ht]
    exact Table.modify_of_hits_eq_zero hhits.symm _

theorem table_of_remove_none {id : Int} (h : (d.run (remove id)).1 = .ok 0) :
    (d.run (remove id)).2.store.table = d.store.table := by
  have hfirst : (d.run (forget id)).2.store.table = d.store.table := (untouched_forget id d).table
  have hrun : d.run (remove id) = d.run (forget id >>= fun _ => removeStored id) := rfl
  rw [hrun, Deployment.run_bind] at h ⊢
  split
  next hok =>
    rw [hok] at h
    rw [← hfirst]
    apply table_of_ask (fun n => .bind (@only_forget _ 0 id) fun _ => .pure n) _ h
    intro n ha hn
    obtain rfl := eq_of_then_pure hn
    obtain ⟨hhits, ht⟩ := Store.run_remove (Deployment.run_of_ask ha).2
    rw [ht]
    exact Table.erase_of_hits_eq_zero hhits.symm
  next => exact hfirst

/-- A request that has come to no row has changed none. -/
theorem table_of_no_rows {q : Request} (hq : q.isCommand = true)
    (h : (d.run (serve p q)).1 = .ok (.rows 0)) :
    (d.run (serve p q)).2.store.table = d.store.table := by
  have hgets := gets_of_serve h
  cases q with
  | update today id username o userUid =>
    rw [serve, Deployment.run_map] at h ⊢
    obtain ⟨n, hn, hrows⟩ := exists_of_map_eq_ok h
    obtain rfl := Reply.rows.inj hrows
    exact table_of_update_none hn
  | remove id =>
    rw [serve, Deployment.run_map] at h ⊢
    obtain ⟨n, hn, hrows⟩ := exists_of_map_eq_ok h
    obtain rfl := Reply.rows.inj hrows
    exact table_of_remove_none hn
  | rollover today => exact Bool.noConfusion hq
  | _ => exact hgets.elim

end Service
end Renewals
