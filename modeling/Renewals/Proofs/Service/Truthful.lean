import Mathlib.Data.Set.Basic
import Renewals.Proofs.Cache.Items
import Renewals.Proofs.Service.Requests
import Renewals.Proofs.Store.Rows
/-! Requests that pass on nothing but what they have seen. Between two calls of a request anything
may happen to the store, so all that a request can rely on is that the rows it has been told of were
there at some moment; and it puts nothing else into the cache, and hands out nothing else. -/
namespace Renewals

/-- Rows that have been in the store at some moment. -/
structure Sightings where
  rows : Set Row
  storable : ∀ r ∈ rows, r.Storable

namespace Sightings

instance : LE Sightings := ⟨fun a b => a.rows ⊆ b.rows⟩

variable {seen mid later : Sightings}

theorem le_refl (seen : Sightings) : seen ≤ seen := Set.Subset.refl seen.rows

theorem le_trans (h : seen ≤ mid) (h' : mid ≤ later) : seen ≤ later := Set.Subset.trans h h'

/-- A cached value that shows one of the rows. -/
def Shows (seen : Sightings) (key payload : LooseText) : Prop :=
  ∃ r ∈ seen.rows, key = cacheKey r.id ∧ payload = r.toJson.text

theorem Shows.mono {key payload : LooseText} (h : seen.Shows key payload) (hle : seen ≤ later) :
    later.Shows key payload := by
  obtain ⟨r, hr, hs⟩ := h
  exact ⟨r, hle hr, hs⟩

/-- The rows of a store as well. -/
def also (seen : Sightings) (t : Table) (ht : t.Storable) : Sightings where
  rows := seen.rows ∪ {r | r ∈ t.rows}
  storable r hr := hr.elim (seen.storable r) (ht r)

theorem le_also (seen : Sightings) {t : Table} (ht : t.Storable) : seen ≤ seen.also t ht :=
  fun _ hr => .inl hr

end Sightings

/-- The rows that the answer to a query tells of have been seen. -/
def Query.Tells (seen : Sightings) : (q : Query) → q.Answer → Prop
  | .create s, id => ⟨s, id⟩ ∈ seen.rows
  | .read id, r => r ∈ seen.rows ∧ r.id = id
  | .update (some id) s, n => n ≠ (0 : Nat) → ⟨s, id⟩ ∈ seen.rows
  | _, _ => True

namespace Call

/-- A value that is put into the cache shows a row that has been seen. -/
def Honest (seen : Sightings) : Call → Prop
  | put key payload _ => seen.Shows key payload
  | _ => True

/-- So does a value that is found there. -/
def Vouched (seen : Sightings) : (c : Call) → c.Answer → Prop
  | ask q, r => ∀ a, r = .ok a → q.Tells seen a
  | fetch key, r => ∀ payload, r = .ok (some payload) → seen.Shows key payload
  | _, _ => True

theorem Honest.mono {seen later : Sightings} {c : Call} (h : c.Honest seen) (hle : seen ≤ later) :
    c.Honest later := by
  cases c with
  | put key payload ttl => exact Sightings.Shows.mono h hle
  | _ => trivial

end Call

/-- All calls are honest, whatever comes to be seen meanwhile and whatever the answers are, as long
as they tell of what has been seen. `R` holds of the result. -/
inductive Plan.Truthful {α : Type} (R : α → Sightings → Prop) : Sightings → Plan α → Prop
  | done {seen : Sightings} {a : α} (h : R a seen) : Truthful R seen (.done a)
  | call {seen : Sightings} {c : Call} {next : c.Answer → Plan α} (honest : c.Honest seen)
    (resume : ∀ later a, seen ≤ later → c.Vouched later a → Truthful R later (next a)) :
    Truthful R seen (.call c next)

namespace Plan.Truthful
variable {α β : Type} {R : α → Sightings → Prop} {S : β → Sightings → Prop}
  {seen later : Sightings} {plan : Plan α}

theorem mono (h : plan.Truthful R seen) (hle : seen ≤ later)
    (hR : ∀ a, R a seen → R a later) : plan.Truthful R later := by
  cases h with
  | done h => exact .done (hR _ h)
  | call honest resume =>
    exact .call (honest.mono hle) fun last a hl hv => resume last a (Sightings.le_trans hle hl) hv

theorem weaken {R' : α → Sightings → Prop} (h : plan.Truthful R seen)
    (hR : ∀ a later, seen ≤ later → R a later → R' a later) : plan.Truthful R' seen := by
  induction h with
  | done h => exact .done (hR _ _ (Sightings.le_refl _) h)
  | call honest _ ih =>
    exact .call honest fun later a hle hv =>
      ih later a hle hv fun b last hl => hR b last (Sightings.le_trans hle hl)

theorem bind {f : α → Plan β} (h : plan.Truthful R seen)
    (hf : ∀ a later, seen ≤ later → R a later → (f a).Truthful S later) :
    (plan.bind f).Truthful S seen := by
  induction h with
  | done h => exact hf _ _ (Sightings.le_refl _) h
  | call honest _ ih =>
    exact .call honest fun later a hle hv =>
      ih later a hle hv fun b last hl => hf b last (Sightings.le_trans hle hl)

end Plan.Truthful

namespace Task

/-- A task that makes honest calls only. `R` holds of the value it comes to, if it comes to one. -/
abbrev Truthful {α : Type} (seen : Sightings) (t : Task α) (R : α → Sightings → Prop) : Prop :=
  t.run.Truthful (fun result later => ∀ a, result = .ok a → R a later) seen

namespace Truthful
variable {α β : Type} {seen : Sightings} {R : α → Sightings → Prop} {S : β → Sightings → Prop}
  {t : Task α}

theorem pure {a : α} (h : R a seen) : Truthful seen (Pure.pure a) R :=
  .done fun _ hb => Except.ok.inj hb ▸ h

theorem throw {f : Failure} : Truthful seen (MonadExcept.throw f) R :=
  .done fun _ hb => absurd hb (by simp)

theorem lift {ε : Type} {f : ε → Failure} {x : Except ε α} (h : ∀ a, x = .ok a → R a seen) :
    Truthful seen (Task.lift f x) R := by
  cases x with
  | ok a => exact pure (h a rfl)
  | error e => exact throw

theorem perform {c : Call} (h : c.Honest seen) :
    Truthful seen (Task.perform c) fun a later => c.Vouched later a :=
  .call h fun _ _ _ hv => .done fun _ hb => Except.ok.inj hb ▸ hv

theorem bind {f : α → Task β} (h : Truthful seen t R)
    (hf : ∀ a later, seen ≤ later → R a later → Truthful later (f a) S) :
    Truthful seen (t >>= f) S :=
  Plan.Truthful.bind h fun result later hle hr => by
    cases result with
    | ok a => exact hf a later hle (hr a rfl)
    | error f => exact .done fun _ hb => absurd hb (by simp)

/-- What was seen before is seen still. -/
theorem map {f : α → β} (h : Truthful seen t R)
    (hf : ∀ a later, seen ≤ later → R a later → S (f a) later) :
    Truthful seen (do return f (← t)) S :=
  bind h fun a later hle hr => pure (hf a later hle hr)

theorem ask (q : Query) : Truthful seen (Task.ask q) fun a later => q.Tells later a :=
  bind (perform trivial) fun _ _ _ hv => lift fun a ha => hv a ha

end Truthful
end Task

namespace Service

section
variable {p : Policy} {seen : Sightings}

theorem truthful_tolerate (what key : String) (r : Except CacheFault Unit) :
    Task.Truthful seen (tolerate what key r) fun _ _ => True := by
  unfold tolerate
  split
  · exact .pure trivial
  · split
    · exact (Task.Truthful.perform (c := .log _) trivial).weaken fun _ _ _ _ _ _ => trivial
    · exact .throw

/-- A row that is cached has to have been seen. -/
theorem truthful_keep {r : Row} (hr : r ∈ seen.rows) :
    Task.Truthful seen (keep p r) fun _ _ => True :=
  .bind (.perform (c := .put _ _ _) ⟨r, hr, rfl, rfl⟩) fun a _ _ _ => truthful_tolerate _ _ a

theorem truthful_forget (id : Int) : Task.Truthful seen (forget id) fun _ _ => True :=
  .bind (.perform (c := .drop _) trivial) fun a _ _ _ => truthful_tolerate _ _ a

theorem truthful_store (s : Subscription) : Task.Truthful seen (store p s) fun _ _ => True :=
  .bind (.ask (.create s)) fun id _ _ hid =>
    .bind (truthful_keep (r := ⟨s, id⟩) hid) fun _ _ _ _ => .pure trivial

/-- Nothing is cached of an update that has met no row. -/
theorem truthful_update (today : Day) (id : Int) (username : LooseText) (o : Order)
    (userUid : Option LooseText) :
    Task.Truthful seen (update p today id username o userUid) fun _ _ => True := by
  refine .bind (R := fun _ _ => True) (.lift fun _ _ => trivial) fun s _ _ _ => ?_
  refine .bind (.ask (.update (some id) s)) fun n later _ hn => ?_
  by_cases h0 : n = (0 : Nat)
  · rw [if_neg (not_not.mpr h0)]
    exact .pure trivial
  · rw [if_pos h0]
    exact .bind (truthful_keep (r := ⟨s, id⟩) (hn h0)) fun _ _ _ _ => .pure trivial

theorem truthful_remove (id : Int) : Task.Truthful seen (remove id) fun _ _ => True :=
  .bind (truthful_forget id) fun _ _ _ _ => .bind (.ask (.remove id)) fun _ _ _ _ =>
    .bind (truthful_forget id) fun _ _ _ _ => .pure trivial

/-- The entry is a row that has been seen. -/
def EntryOf (id : Int) (s : Snapshot) (seen : Sightings) : Prop :=
  ∃ r ∈ seen.rows, r.id = id ∧ s = r.snapshot

theorem truthful_getCached (id : Int) :
    Task.Truthful seen (Task.getCached Snapshot.ofJson (cacheKey id)) fun found later =>
      ∀ s, found = some s → EntryOf id s later := by
  refine .bind (.perform (c := .fetch (cacheKey id)) trivial) fun x later _ hx => ?_
  refine .bind (R := fun found later => ∀ payload, found = some payload →
    later.Shows (cacheKey id) payload) (.lift fun found hfound => ?_) fun found later _ hfound => ?_
  · rintro payload rfl
    exact hx payload hfound
  · cases found with
    | none => exact .pure fun s hs => absurd hs (by simp)
    | some payload =>
      refine .bind (R := EntryOf id) (.lift fun s hs => ?_) fun s _ _ hs =>
        .pure fun s' hs' => Option.some.inj hs' ▸ hs
      obtain ⟨r, hr, hk, rfl⟩ := hfound payload rfl
      rw [r.decode_toJson (later.storable r hr)] at hs
      exact ⟨r, hr, (cacheKey_injective (LooseText.whole.inj hk)).symm, (Except.ok.inj hs).symm⟩

theorem truthful_read (id : Int) : Task.Truthful seen (read p id) (EntryOf id) := by
  refine .bind (truthful_getCached id) fun found later _ hfound => ?_
  cases found with
  | some s => exact .pure (hfound s rfl)
  | none =>
    refine .bind (.ask (.read id)) fun row later _ hrow => ?_
    exact .bind (truthful_keep hrow.1) fun _ last hle _ =>
      .pure ⟨row, hle hrow.1, hrow.2, rfl⟩

/-- What a reply tells of has been seen. -/
def Request.Answered : Request → Reply → Sightings → Prop
  | .read id, .entry s => EntryOf id s
  | _, _ => fun _ => True

theorem Request.Answered.mono {r : Request} {reply : Reply} {later : Sightings}
    (h : r.Answered reply seen) (hle : seen ≤ later) : r.Answered reply later := by
  unfold Answered at h ⊢
  split
  · obtain ⟨row, hrow, hs⟩ := h
    exact ⟨row, hle hrow, hs⟩
  · trivial

/-- Every request but a rollover passes on only what it has seen. -/
theorem truthful_serve {r : Request} (hr : ∀ today, r ≠ .rollover today) :
    Task.Truthful seen (serve p r) r.Answered := by
  cases r with
  | create today username o userUid =>
    exact .map (R := fun _ _ => True) (.bind (R := fun _ _ => True) (.lift fun _ _ => trivial)
      fun s _ _ _ => truthful_store s) fun _ _ _ _ => trivial
  | createAggregator today username userUid =>
    exact .map (R := fun _ _ => True) (.bind (R := fun _ _ => True) (.lift fun _ _ => trivial)
      fun s _ _ _ => truthful_store s) fun _ _ _ _ => trivial
  | update today id username o userUid =>
    exact .map (truthful_update today id username o userUid) fun _ _ _ _ => trivial
  | remove id => exact .map (truthful_remove id) fun _ _ _ _ => trivial
  | read id => exact .map (truthful_read id) fun _ _ _ h => h
  | list username role limit offset =>
    have hask (q : Query) : Task.Truthful seen (Task.ask q) fun _ _ => True :=
      (Task.Truthful.ask q).weaken fun _ _ _ _ _ _ => trivial
    exact .map (iteInduction (motive := fun t => Task.Truthful seen t fun _ _ => True)
      (fun _ => hask (.listAll limit offset)) fun _ => hask (.list username limit offset))
      fun _ _ _ _ => trivial
  | sum username o =>
    refine .map (R := fun _ _ => True) (.bind (R := fun _ _ => True) (.lift fun _ _ => trivial)
      fun w _ _ _ => ?_) fun _ _ _ _ => trivial
    exact (Task.Truthful.ask (.sum w)).weaken fun _ _ _ _ _ _ => trivial
  | rollover today => exact absurd rfl (hr today)

end

end Service
end Renewals
