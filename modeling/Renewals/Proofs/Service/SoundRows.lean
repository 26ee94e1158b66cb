import Renewals.Proofs.Service.BillingDates
import Renewals.Proofs.Store.Schema
import Renewals.Proofs.Task.Agree
/-! Runs of the service from an empty store. The table itself may check prices and terms or may not:
what requests are accepted for, and what rollovers make of it, is sound anyway, so there is nothing
that a constraint could refuse. -/
namespace Renewals

theorem Subscription.Sound.settled {s : Subscription} (h : s.Sound) (today : Day) :
    (s.settled today).Sound := by
  rcases s.settled_cases today with hstay | ⟨due, next, hdue, hlt, hn, hmoved⟩
  · rw [hstay]
    exact h
  · obtain ⟨first, due', hfirst, hdue', hle⟩ := h.due
    obtain rfl : due = due' := Option.some.inj (hdue.symm.trans hdue')
    -- a rollover moves a payment date forward only
    have hnext : first ≤ next :=
      Day.le_trans hle (Day.le_trans (Nat.le_of_lt hlt) (Billing.rollForward_spec hn).2)
    rw [hmoved]
    exact { h with due := ⟨first, next, hfirst, rfl, hnext⟩ }

namespace Deployment
variable {d : Deployment} {α : Type} {ttl : Int}

/-- The same with a table of another kind. -/
def under (schema : Schema) (d : Deployment) : Deployment :=
  { d with store := d.store.under schema }

theorem answer_checked {c : Call} (hc : Service.Asks ttl Store.Admissible c)
    (hd : d.store.schema = .plain) :
    answer c (d.under .checked) = ((answer c d).1, (answer c d).2.under .checked) := by
  have hclient {β : Type} (call : ClientCall) (f : ClientOutcome → Cache → β × Cache) :
      (d.under .checked).throughClient call f =
        ((d.throughClient call f).1, (d.throughClient call f).2.under .checked) := by
    unfold throughClient
    cases hcache : d.cache <;> simp only [under, hcache]
  cases c with
  | ask q =>
    have hask := Store.ask_checked hc (d.storePlan.headD .sound) hd
    simp only [answer, Deployment.ask, under, hask]
    rfl
  | fetch key => exact hclient (.get key) fun o => Cache.fetch o d.clock key
  | put key payload life =>
    exact hclient (.set key payload life) fun o => Cache.put o d.clock key payload life
  | drop key => exact hclient (.delete key) fun o => Cache.drop o d.clock key
  | log line => rfl
  | _ => exact hc.elim

theorem run_checked {t : Task α} (ht : Task.Only (Service.Asks ttl Store.Admissible) t)
    (hd : d.store.schema = .plain) :
    (d.under .checked).run t = ((d.run t).1, (d.run t).2.under .checked) := by
  have hagree : Task.Agree (fun c _ => Service.Asks ttl Store.Admissible c)
      (fun d e => d.store.schema = .plain ∧ e = d.under .checked) t t := by
    refine .of_calls (fun c d e hc _ h => ?_) t
    obtain ⟨hs, rfl⟩ := h
    rw [answer_checked hc hs]
    exact ⟨rfl, (schema_answer c d).trans hs, rfl⟩
  have halong := ht.along (fun _ _ h => h)
  obtain ⟨hr, -, hleft⟩ := hagree d (d.under .checked) ⟨hd, rfl⟩ (halong d) (halong _)
  exact Prod.ext hr.symm hleft

end Deployment

namespace Service
variable {p : Policy} {d : Deployment}

/-- Whatever is asked for, no query breaks a constraint. -/
theorem only_admissible (p : Policy) (r : Request) :
    Task.Only (Asks p.ttl Store.Admissible) (serve p r) := by
  refine only_serve (fun q hq => ?_) (fun _ => trivial) (fun s hs => ?_) fun _ _ _ _ => trivial
  · cases q with
    | create | update | setNextPayment => exact Bool.noConfusion hq
    | _ => trivial
  · have hnone := hs.sound.violation?_eq_none
    exact ⟨hnone, fun _ => hnone⟩

theorem Step.after_checked (hd : d.store.schema = .plain) (s : Step) :
    s.after (serve p) (d.under .checked) = (s.after (serve p) d).under .checked := by
  cases s with
  | call r => exact congrArg Prod.snd (Deployment.run_checked (only_admissible p r) hd)
  | wait later =>
    exact (apply_ite (·.under .checked) (d.clock.below later = true) { d with clock := later } d).symm

theorem Step.schema_after (s : Step) : (s.after (serve p) d).store.schema = d.store.schema := by
  cases s with
  | call r => exact Deployment.schema_run _ d
  | wait later =>
    simp only [Step.after]
    split <;> rfl

theorem replies_checked (steps : List Step) (hd : d.store.schema = .plain) :
    replies (serve p) steps (d.under .checked) = replies (serve p) steps d := by
  induction steps generalizing d with
  | nil => rfl
  | cons s steps ih =>
    have hreply : s.reply? (serve p) (d.under .checked) = s.reply? (serve p) d := by
      cases s with
      | call r =>
        have hrun := Deployment.run_checked (only_admissible p r) hd
        simp only [Step.reply?, hrun]
      | wait later => rfl
    rw [replies, replies, hreply, s.after_checked hd, ih (s.schema_after.trans hd)]

theorem history_checked (steps : List Step) (hd : d.store.schema = .plain) :
    history (serve p) steps (d.under .checked) =
      (history (serve p) steps d).map (·.under .checked) := by
  induction steps generalizing d with
  | nil => rfl
  | cons s steps ih =>
    rw [history, history, s.after_checked hd, ih (s.schema_after.trans hd), List.map_cons]

/-- Where the store is called, it does not fail over a constraint. -/
def Unhindered : Call → Deployment → Prop
  | .ask q, d => Store.Unchecked (Deployment.answer (.ask q) d).1
  | _, _ => True

/-- Sound rows under different numbers, and no request that a constraint would stop on its way. -/
structure Tidy (p : Policy) (d : Deployment) : Prop where
  sound : ∀ r ∈ d.store.table.rows, r.toSubscription.Sound
  distinct : (d.store.table.rows.map (·.id)).Nodup
  unhindered : ∀ r, (serve p r).Along Unhindered d

theorem tidy_of_sound (h : ∀ r ∈ d.store.table.rows, r.toSubscription.Sound) : Tidy p d where
  sound := h
  distinct := List.pairwise_map.mpr d.store.table.distinct
  unhindered r := by
    refine (only_admissible p r).along (fun c m hc => ?_) d
    cases c with
    | ask q => exact Store.unchecked_ask hc _ m.store
    | _ => trivial

theorem sound_history (steps : List Step) (hd : ∀ r ∈ d.store.table.rows, r.toSubscription.Sound) :
    ∀ m ∈ history (serve p) steps d, ∀ r ∈ m.store.table.rows, r.toSubscription.Sound :=
  rows_history (Φ := fun r => r.toSubscription.Sound) (fun _ hs _ => hs.sound)
    (fun today _ h => h.settled today) steps hd

/-- Runs from an empty store, whatever is asked for and whatever fails on the way. All rows are sound
all the time, and a table with constraints cannot be told from one without. -/
theorem tidy_from_empty (p : Policy) (steps : List Step) (hd : d.store.table.rows = []) :
    (∀ m ∈ history (serve p) steps d, Tidy p m) ∧
      replies (serve p) steps (d.under .checked) = replies (serve p) steps (d.under .plain) ∧
      history (serve p) steps (d.under .checked) =
        (history (serve p) steps (d.under .plain)).map (·.under .checked) := by
  have hplain : (d.under .plain).store.schema = .plain := rfl
  refine ⟨fun m hm => tidy_of_sound (sound_history steps (fun r hr => ?_) m hm),
    replies_checked steps hplain, history_checked steps hplain⟩
  rw [hd] at hr
  exact absurd hr List.not_mem_nil

/-- An empty store that fails over and over, beside a cache that fails at first. -/
def brittle : Deployment :=
  { blank with
    storePlan := [.sound, .commitFails, .sound, .sound, .statementFails, .cannotOpen]
    cache := .remote .empty
    cachePlan := [.refused, .timedOut] }

/-- Requests of which some are refused and some get stuck in the store. -/
def stubbornRequests : List Step :=
  [.call lastOfMarch, .call (.createAggregator blank.today "bob" none),
    .call (.update blank.today 1 "alice" ⟨" Music ", 500, "01-03-2026", 6, true⟩ none),
    .call (.update blank.today 1 "alice" ⟨"Music", -5, "01-03-2026", 6, true⟩ none),
    .call (.rollover fifthOfMay), .call (.remove 1)]

theorem tidy_from_empty_brittle : brittle.store.table.rows = [] ∧
    (∀ m ∈ history (serve brittle.policy) stubbornRequests brittle, Tidy brittle.policy m) ∧
      replies (serve brittle.policy) stubbornRequests (brittle.under .checked) =
        replies (serve brittle.policy) stubbornRequests (brittle.under .plain) ∧
      history (serve brittle.policy) stubbornRequests (brittle.under .checked) =
        (history (serve brittle.policy) stubbornRequests (brittle.under .plain)).map
          (·.under .checked) :=
  ⟨rfl, tidy_from_empty brittle.policy stubbornRequests rfl⟩

end Service
end Renewals
