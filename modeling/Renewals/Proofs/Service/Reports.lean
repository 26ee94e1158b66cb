import Renewals.Proofs.Cache.Decoding
import Renewals.Proofs.Service.BesideCaches
import Renewals.Proofs.Store.Faults
/-! What becomes of a text that is no subscription any more. Whoever reads it is told that the cache
has failed, unless it is one of the texts whose faults nobody expects. -/
namespace Renewals

/-- Failures that the callers of the service are told of: the cache or the store cannot be used, or
there is no such row. -/
def Failure.isReported : Failure → Bool
  | .cache f => f.isUnavailable
  | .store f => f.isReported
  | _ => false

namespace Deployment
variable {α β : Type} {d : Deployment} {E : Failure → Prop} {t : Task α} {next : α → Task β}

theorem failsOnly_lift {ε : Type} {f : ε → Failure} {x : Except ε α}
    (h : FailsOnly (fun e => E (f e)) x) (d : Deployment) :
    FailsOnly E (d.run (Task.lift f x)).1 := by
  rw [run_lift]
  exact h.mapError

theorem failsOnly_bind (ht : FailsOnly E (d.run t).1)
    (hn : ∀ a, (d.run t).1 = .ok a → FailsOnly E ((d.run t).2.run (next a)).1) :
    FailsOnly E (d.run (t >>= next)).1 := by
  rw [run_bind]
  cases h : (d.run t).1 with
  | ok a => exact hn a h
  | error f => exact FailsOnly.error_iff.mpr (ht f h)

theorem failsOnly_ask {q : Query}
    (h : FailsOnly (fun f => E (.store f)) (answer (.ask q) d).1) :
    FailsOnly E (d.run (Task.ask q)).1 :=
  failsOnly_lift h _

theorem failsOnly_of_bind (h : FailsOnly E (d.run (t >>= next)).1) : FailsOnly E (d.run t).1 := by
  intro f hf
  apply h f
  rw [run_bind, hf]

end Deployment

namespace Service

/-- Neither the store nor the cache fails in a way that is not meant to happen, and a value fits
into the cache. -/
structure Told (p : Policy) (d : Deployment) : Prop extends d.Bearable p.ttl where
  crashes : ∀ o ∈ d.storePlan, o ≠ .crashes
  opens : ∀ o ∈ d.storePlan, o ≠ .cannotOpen

variable {p : Policy} {d : Deployment}

namespace Told

protected theorem answer (hd : Told p d) (c : Call) : Told p (Deployment.answer c d).2 where
  toBearable := hd.toBearable.answer c
  crashes o ho := hd.crashes o (Deployment.storePlan_answer c d ho)
  opens o ho := hd.opens o (Deployment.storePlan_answer c d ho)

protected theorem run {α : Type} (hd : Told p d) (t : Task α) : Told p (d.run t).2 :=
  Deployment.run_induction (I := Told p) (fun c _ h => h.answer c) t hd

theorem ask (hd : Told p d) {q : Query} (hsum : ∀ w, q ≠ .sum w)
    (hq : ∀ a ∈ q.parameters, Store.take a = .ok ()) :
    FailsOnly (·.isReported = true) (d.run (Task.ask q)).1 := by
  have hhead : d.storePlan.headD .sound = .sound ∨ d.storePlan.headD .sound ∈ d.storePlan := by
    cases d.storePlan with
    | nil => exact .inl rfl
    | cons o os => exact .inr List.mem_cons_self
  refine Deployment.failsOnly_ask (Store.reported_ask ?_ ?_ hsum hq d.store)
  · rcases hhead with h | h
    · rw [h]
      simp
    · exact hd.crashes _ h
  · rcases hhead with h | h
    · rw [h]
      simp
    · exact hd.opens _ h

end Told

/-- Keeping a value that fits in never fails. -/
theorem run_keep (hd : d.Bearable p.ttl) (r : Row) : (d.run (keep p r)).1 = .ok () :=
  run_tolerate_of_borne _ _ (isBorne_of_tolerated (hd.put _ _)) _

/-- Whoever reads the cache is told of every fault but those of a stray text. -/
theorem getCached_reported_iff {ttl : Int} (hd : d.Bearable ttl) (key : LooseText) :
    FailsOnly (·.isReported = true) (d.run (Task.getCached Snapshot.ofJson key)).1 ↔
      ∀ payload, (Deployment.answer (.fetch key) d).1 = .ok (some payload) →
        ¬ Cache.Stray payload := by
  cases hf : (Deployment.answer (.fetch key) d).1 with
  | error f =>
    have hrun : (d.run (Task.getCached Snapshot.ofJson key)).1 = .error (.cache f) := by
      rw [Deployment.run_getCached, hf]
      rfl
    rw [hrun, FailsOnly.error_iff]
    exact iff_of_true (hd.fetch key f hf) fun payload h => absurd h (by simp)
  | ok found =>
    cases found with
    | none =>
      rw [Deployment.run_getCached_none hf]
      exact iff_of_true (.ok none) fun payload h => absurd (Except.ok.inj h) (by simp)
    | some payload =>
      have hread : FailsOnly (·.isReported = true)
            (d.run (Task.getCached Snapshot.ofJson key)).1 ↔
          FailsOnly (·.isUnavailable = true) (Cache.decode Snapshot.ofJson key payload) := by
        cases hv : Cache.decode Snapshot.ofJson key payload with
        | ok s =>
          rw [Deployment.run_getCached_some hf hv]
          exact iff_of_true (.ok _) (.ok _)
        | error f =>
          rw [Deployment.run_getCached_error hf hv, FailsOnly.error_iff, FailsOnly.error_iff]
          rfl
      rw [hread, Cache.decode_tolerated_iff]
      constructor
      · intro h other hother
        exact Option.some.inj (Except.ok.inj hother) ▸ h
      · intro h
        exact h payload rfl

theorem read_reported_iff (hd : Told p d) {id : Int} (hid : fitsWord id = true) :
    FailsOnly (·.isReported = true) (d.run (read p id)).1 ↔
      ∀ payload, (Deployment.answer (.fetch (cacheKey id)) d).1 = .ok (some payload) →
        ¬ Cache.Stray payload := by
  rw [← getCached_reported_iff hd.toBearable]
  constructor
  · exact Deployment.failsOnly_of_bind
  · intro h
    refine Deployment.failsOnly_bind h fun found _ => ?_
    cases found with
    | some s => exact .ok s
    | none =>
      -- behind a miss only the store can fail, since the row that is kept fits in
      have hmiss := hd.run (Task.getCached Snapshot.ofJson (cacheKey id))
      refine Deployment.failsOnly_bind (hmiss.ask (by simp) ?_) fun row _ => ?_
      · intro a ha
        obtain rfl := List.mem_singleton.mp ha
        simp [Store.take, hid]
      · refine Deployment.failsOnly_bind ?_ fun _ _ => .ok _
        have hkeep := run_keep (hmiss.run (Task.ask (.read id))).toBearable row
        intro f hf
        exact absurd (hkeep.symm.trans hf) (by simp)

/-- Whatever text a key has come to hold, whoever asks for it is given an entry or told that the
cache has failed; and a request to read is answered, or told that the cache or the store has failed
or that there is no such row. A stray text is the exception to both, and always is. -/
theorem corruption_told (hd : Told p d) :
    (∀ key payload, (Deployment.answer (.fetch key) d).1 = .ok (some payload) →
      ((∃ s, (d.run (Task.getCached Snapshot.ofJson key)).1 = .ok (some s)) ∨
          (∃ f, (d.run (Task.getCached Snapshot.ofJson key)).1 = .error (.cache f) ∧
            f.isUnavailable = true) ↔
        ¬ Cache.Stray payload)) ∧
    ∀ id, fitsWord id = true →
      (FailsOnly (·.isReported = true) (d.run (read p id)).1 ↔
        ∀ payload, (Deployment.answer (.fetch (cacheKey id)) d).1 = .ok (some payload) →
          ¬ Cache.Stray payload) := by
  constructor
  · intro key payload hf
    rw [← Cache.decode_tolerated_iff key]
    cases hv : Cache.decode Snapshot.ofJson key payload with
    | ok s =>
      rw [Deployment.run_getCached_some hf hv]
      exact iff_of_true (.inl ⟨s, rfl⟩) (.ok s)
    | error f =>
      rw [Deployment.run_getCached_error hf hv, FailsOnly.error_iff]
      simp
  · intro id hid
    exact read_reported_iff hd hid

/-- A row, and a text of somebody else's in its place in the cache. -/
def overwritten (payload : LooseText) : Deployment :=
  .small (.remote ⟨.put ⟨cacheKey 1, payload, .ofInt 60⟩ .empty, .unlimited⟩)

theorem told_overwritten (payload : LooseText) :
    Told (overwritten payload).policy (overwritten payload) where
  plan o ho := absurd ho List.not_mem_nil
  room := by simp [overwritten, Deployment.small, Deployment.fresh, Cache.HasRoom, Cache.size?]
  finite := by
    change (Binary64.ofInt? Settings.standard.policy.ttl).isSome = true
    decide +kernel
  crashes o ho := absurd ho List.not_mem_nil
  opens o ho := absurd ho List.not_mem_nil

theorem fetch_overwritten (payload : LooseText) :
    (Deployment.answer (.fetch (cacheKey 1)) (overwritten payload)).1 = .ok (some payload) := by
  have hsound : (overwritten payload).SoundCache :=
    ⟨fun o ho => absurd ho List.not_mem_nil, (told_overwritten payload).room⟩
  refine (hsound.fetch _).trans (congrArg Except.ok ?_)
  refine Cache.live?_eq_some_iff.mpr ⟨_, Holdings.mem_put.mpr (.inr rfl), rfl, ?_, rfl⟩
  change Binary64.below .zero (.ofInt 60) = true
  decide +kernel

theorem not_stray_broken : ¬ Cache.Stray "\x7bnot json" := by
  have hread : Json.read "\x7bnot json" = .error (.unmet .name 1 2 1) := by cbv
  rintro (⟨c, h⟩ | ⟨v, h, -⟩)
  · exact absurd (hread.symm.trans h) (by simp)
  · exact absurd (hread.symm.trans h) (by simp)

theorem corruption_told_broken :
    Told (overwritten "\x7bnot json").policy (overwritten "\x7bnot json") ∧ fitsWord 1 = true ∧
    (Deployment.answer (.fetch (cacheKey 1)) (overwritten "\x7bnot json")).1 =
      .ok (some "\x7bnot json") ∧
    ¬ Cache.Stray "\x7bnot json" ∧
    ((∃ s, ((overwritten "\x7bnot json").run
        (Task.getCached Snapshot.ofJson (cacheKey 1))).1 = .ok (some s)) ∨
      ∃ f, ((overwritten "\x7bnot json").run
        (Task.getCached Snapshot.ofJson (cacheKey 1))).1 = .error (.cache f) ∧
          f.isUnavailable = true) ∧
    FailsOnly (·.isReported = true)
      ((overwritten "\x7bnot json").run (read (overwritten "\x7bnot json").policy 1)).1 := by
  have htold := told_overwritten "\x7bnot json"
  have hfetch := fetch_overwritten "\x7bnot json"
  obtain ⟨hget, hread⟩ := corruption_told htold
  refine ⟨htold, by decide, hfetch, not_stray_broken,
    (hget _ _ hfetch).mpr not_stray_broken, (hread 1 (by decide)).mpr ?_⟩
  intro payload hpayload
  obtain rfl := Option.some.inj (Except.ok.inj (hfetch.symm.trans hpayload))
  exact not_stray_broken

/-- A text that can be read as a list is no record, and the failure to find a member escapes. -/
theorem read_of_list : Told (overwritten "[]").policy (overwritten "[]") ∧ fitsWord 1 = true ∧
    (Deployment.answer (.fetch (cacheKey 1)) (overwritten "[]")).1 = .ok (some "[]") ∧
    ((overwritten "[]").run (Task.getCached Snapshot.ofJson (cacheKey 1))).1 =
      .error (.cache (.unreadable (.value (.notRecord "list")))) ∧
    ((overwritten "[]").run (read (overwritten "[]").policy 1)).1 =
      .error (.cache (.unreadable (.value (.notRecord "list")))) ∧
    (Failure.cache (.unreadable (.value (.notRecord "list")))).isReported = false := by
  have hfetch := fetch_overwritten "[]"
  have hread : Json.read "[]" = .ok (.arr []) := by cbv
  have hdecode : Cache.decode Snapshot.ofJson (cacheKey 1) "[]" =
      .error (.unreadable (.value (.notRecord "list"))) := by
    rw [Cache.decode, hread]
    rfl
  have hget := Deployment.run_getCached_error hfetch hdecode
  refine ⟨told_overwritten "[]", by decide, hfetch, congrArg Prod.fst hget, ?_, rfl⟩
  rw [read, Deployment.run_bind, hget]

end Service
end Renewals
