import Renewals.Proofs.Service.Footprint
import Renewals.Proofs.Service.Requests
import Renewals.Proofs.Service.Rollover
import Renewals.Proofs.Subscription.Sound
/-! Where the rows of a store come from. Whatever fails on the way, each of them was there before, or
is what a request asks for, or has been brought to a later day since. -/
namespace Renewals.Service

variable {p : Policy} {d : Deployment}

/-- Requests write what is ordered, and rollovers payment dates; all else leaves the store alone or
takes rows away. -/
theorem only_serve {Q : Query → Prop} {r : Request} (hlook : ∀ q, q.writes = false → Q q)
    (hremove : ∀ id, Q (.remove id))
    (hnew : ∀ s, s.Ordered → Q (.create s) ∧ ∀ id, Q (.update (some id) s))
    (hset : ∀ today, r = .rollover today → ∀ id day, Q (.setNextPayment id day)) :
    Task.Only (Asks p.ttl Q) (serve p r) := by
  cases r with
  | create today username o userUid =>
    exact .bind (only_accepted fun s hs => only_store (hnew s (.accepted hs)).1) fun _ => .pure _
  | createAggregator today username userUid =>
    exact .bind (only_accepted fun s hs => only_store (hnew s (.aggregator hs)).1) fun _ => .pure _
  | update today id username o userUid =>
    exact .bind (only_update today id username o userUid fun s hs =>
      (hnew s (.accepted hs)).2 id) fun _ => .pure _
  | remove id => exact .bind (only_remove (hremove id)) fun _ => .pure _
  | read id => exact .bind (only_read (hlook _ rfl)) fun _ => .pure _
  | list username role limit offset =>
    exact .bind (only_list username role (hlook _ rfl) (hlook _ rfl)) fun _ => .pure _
  | sum username o => exact .bind (only_sum username o fun w => hlook (.sum w) rfl) fun _ => .pure _
  | rollover today =>
    exact .bind (only_rollover (hlook _ rfl) (hset today rfl)) fun _ => .pure _

/-- Whatever is asked for, only the store, the cache and the log are called, and what is cached is
to live as long as the policy says. -/
theorem only_asks (p : Policy) (r : Request) : Task.Only (Asks p.ttl fun _ => True) (serve p r) :=
  only_serve (fun _ _ => trivial) (fun _ => trivial) (fun _ _ => ⟨trivial, fun _ => trivial⟩)
    fun _ _ _ _ => trivial

theorem run_serve_rollover (today : Day) :
    (d.run (serve p (.rollover today))).2 = (d.run (rollover p today)).2 := by
  rw [serve, Deployment.run_bind]
  cases (d.run (rollover p today)).1 <;> rfl

section
variable {Φ : Row → Prop} (hnew : ∀ s, Subscription.Ordered s → ∀ id, Φ ⟨s, id⟩)
  (hsettled : ∀ today r, Φ r → Φ (r.settled today))
include hnew hsettled

theorem rows_serve (r : Request) (hd : ∀ q ∈ d.store.table.rows, Φ q) :
    ∀ q ∈ (d.run (serve p r)).2.store.table.rows, Φ q := by
  by_cases hr : ∃ today, r = .rollover today
  · obtain ⟨today, rfl⟩ := hr
    rw [run_serve_rollover]
    intro q hq
    obtain ⟨r, hr, rfl | rfl⟩ := (partlySettled_rollover p today d).exists_of_mem hq
    · exact hd q hr
    · exact hsettled today r (hd r hr)
  · have honly : Task.Only (Asks p.ttl (Store.Brings Φ)) (serve p r) := by
      refine only_serve (fun q hq => ?_) (fun _ => trivial) (fun s hs => ⟨hnew s hs, ?_⟩)
        fun today he => absurd ⟨today, he⟩ hr
      · cases q with
        | create | update | setNextPayment => exact Bool.noConfusion hq
        | _ => trivial
      · exact fun id i _ => hnew s hs i
    refine honly.run (I := fun d => ∀ q ∈ d.store.table.rows, Φ q) (fun c d hc hd => ?_) hd
    cases c with
    | ask q => exact Store.rows_ask hd _ hc
    | _ =>
      rw [Deployment.store_answer (by simp)]
      exact hd

/-- Wherever a run stands, each row is as it was at first, or ordered, or has been settled since. -/
theorem rows_history (steps : List Step) (hd : ∀ q ∈ d.store.table.rows, Φ q) :
    ∀ m ∈ history (serve p) steps d, ∀ q ∈ m.store.table.rows, Φ q :=
  history_induction (fun r _ => rows_serve hnew hsettled r) (fun _ _ h => h) steps hd

end

end Renewals.Service
