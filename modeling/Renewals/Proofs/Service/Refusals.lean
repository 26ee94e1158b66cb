import Renewals.Proofs.Service.Reports
import Renewals.Proofs.Service.Rollover
import Renewals.Proofs.Service.Stages
import Renewals.Proofs.Service.Sums
import Renewals.Proofs.Store.Answers
import Renewals.Proofs.Subscription.Refusals
/-! What becomes of input that is formed as it should be, where nothing behind the service fails. The
service does as it is asked or refuses in a way that a client can put right, unless it comes to a day
beyond the calendar or to a name without a written form. -/
namespace Renewals

/-- Failures that a client can put right. -/
def Failure.isRefusal : Failure → Bool
  | .term (.refused _) => true
  | _ => false

/-- Failures that nobody has thought of, wherever the day or the name turns up. -/
def Failure.isOverlooked : Failure → Bool
  | .term (.date _) => true
  | .store f => f.isOverlooked
  | _ => false

/-- A refusal at most, unless something escapes: then it ends in a failure that nobody has thought
of. -/
structure RefusedUnless {α : Type} (escapes : Prop) (x : Except Failure α) : Prop where
  refused : ¬ escapes → FailsOnly (·.isRefusal = true) x
  overlooked : escapes → ∃ f, x = .error f ∧ f.isOverlooked = true

namespace RefusedUnless
variable {α β : Type} {escapes : Prop}

theorem refused_iff {x : Except Failure α} (h : RefusedUnless escapes x) :
    FailsOnly (·.isRefusal = true) x ↔ ¬ escapes := by
  constructor
  · intro hfails hesc
    obtain ⟨f, hf, hover⟩ := h.overlooked hesc
    have hrefusal := hfails f hf
    cases f with
    | term f => cases f <;> simp [Failure.isRefusal, Failure.isOverlooked] at hrefusal hover
    | _ => exact Bool.noConfusion hrefusal
  · exact h.refused

/-- What follows has to go well. -/
theorem bind {d : Deployment} {t : Task α} {next : α → Task β}
    (ht : RefusedUnless escapes (d.run t).1)
    (hn : ∀ a, (d.run t).1 = .ok a → ∃ b, ((d.run t).2.run (next a)).1 = .ok b) :
    RefusedUnless escapes (d.run (t >>= next)).1 where
  refused hesc := by
    apply Deployment.failsOnly_bind (ht.refused hesc)
    intro a ha
    obtain ⟨b, hb⟩ := hn a ha
    rw [hb]
    exact .ok b
  overlooked hesc := by
    obtain ⟨f, hf, hover⟩ := ht.overlooked hesc
    refine ⟨f, ?_, hover⟩
    rw [Deployment.run_bind, hf]

end RefusedUnless

namespace SumOrder
variable {o : SumOrder} {username : LooseText} {start : Day}

theorem storable_window_iff : (o.window username start).Storable ↔
    (∃ t : String, username = t) ∧
      ∀ name ∈ o.serviceName, name.strip.isEmpty = false → ∃ t : String, name.strip = t := by
  constructor
  · rintro ⟨huser, hname⟩
    constructor
    · exact huser
    · intro name hmem hvisible
      apply hname
      rw [Option.mem_def] at hmem ⊢
      simp [window, hmem, hvisible]
  · rintro ⟨huser, hname⟩
    constructor
    · exact huser
    intro name h
    obtain ⟨h, hvisible⟩ := Option.mem_filter_iff.mp h
    obtain ⟨name, hmem, rfl⟩ := Option.mem_map.mp h
    exact hname name hmem (by simpa using hvisible)

end SumOrder

namespace Service

/-- Names of a caller that can be written down. -/
structure Signed (username : LooseText) (userUid : Option LooseText) : Prop where
  username : ∃ t : String, username = t
  userUid : ∀ t ∈ userUid, ∃ u : String, t = u

/-- A request about a term, with input that is formed as it should be. -/
def Request.Valid : Request → Prop
  | .create _ username o userUid => o.Valid ∧ Signed username userUid
  | .update _ id username o userUid => fitsWord id = true ∧ o.Valid ∧ Signed username userUid
  | .sum username o => 0 < o.counterMonths ∧ ∃ t : String, username = t
  | _ => False

/-- Where a request comes to a day beyond the calendar or to a name without a written form: a term or
a window that does not end, a torn name, or a row in the window whose own term does not end. -/
inductive Request.Escapes (t : Table) : Request → Prop
  | create {today username o userUid} (h : o.EndsBeyond) :
    Escapes t (.create today username o userUid)
  | update {today id username o userUid} (h : o.EndsBeyond) :
    Escapes t (.update today id username o userUid)
  | endless {username} {o : SumOrder} {start f} (hstart : Term.readStart o.startDate = .ok start)
    (h : start.addMonths o.counterMonths = .error f) : Escapes t (.sum username o)
  | torn {username} {o : SumOrder} {start} {name : LooseText}
    (hstart : Term.readStart o.startDate = .ok start) (hmem : name ∈ o.serviceName)
    (hvisible : name.strip.isEmpty = false) (h : ¬ ∃ s : String, name.strip = s) :
    Escapes t (.sum username o)
  | row {username} {o : SumOrder} {start last f} {r : Row}
    (hstart : Term.readStart o.startDate = .ok start)
    (hlast : start.addMonths o.counterMonths = .ok last) (hmem : r ∈ t.rows)
    (hcovers : o.Covers username last r.toSubscription) (h : r.endDate = .error f) :
    Escapes t (.sum username o)

variable {p : Policy} {d : Deployment} {today : Day} {username : LooseText}
  {userUid : Option LooseText}

/-! Orders -/

section
variable {o : Order} {s : Subscription} {isActive : Bool}

theorem accept_refusedUnless (ho : o.Valid) (d : Deployment) :
    RefusedUnless o.EndsBeyond
      (d.run (Task.lift .term (o.accept username userUid today isActive))).1 where
  refused hend := by
    apply Deployment.failsOnly_lift
    intro f hf
    obtain ⟨r, rfl⟩ := Order.refused_of_not_endsBeyond hend f hf
    rfl
  overlooked hend := by
    have hfails : ∃ f, o.accept username userUid today isActive = .error (.date f) :=
      Order.accept_of_endsBeyond ho hend
    obtain ⟨f, hf⟩ := hfails
    rw [hf]
    exact ⟨.term (.date f), rfl, rfl⟩

theorem violation?_of_accept (hs : o.accept username userUid today isActive = .ok s) :
    s.violation? = none :=
  (Subscription.Ordered.accepted hs).sound.violation?_eq_none

theorem run_store (hd : Reliable p d) (hnext : fitsWord d.store.table.nextId = true)
    (hs : s.Storable) (hv : s.violation? = none) :
    (d.run (store p s)).1 = .ok d.store.table.nextId := by
  have hask := (hd.ask (.create s)).trans (Store.ask_create hd.schema hs hv hnext)
  have hkeep := run_keep (hd.answer (.ask (.create s))).bearable ⟨s, d.store.table.nextId⟩
  rw [store, Deployment.run_ask_bind_ok hask]
  exact Deployment.run_then_pure hkeep _

theorem run_replace (hd : Reliable p d) {id : Int} (hid : fitsWord id = true) (hs : s.Storable)
    (hv : s.violation? = none) :
    (d.run (Task.ask (.update (some id) s) >>= keepHit p ⟨s, id⟩)).1 =
      .ok (d.store.table.hits id) := by
  have hask := (hd.ask (.update (some id) s)).trans (Store.ask_update_eq_hits hd.schema hs hv hid)
  have hkeep := run_keep (hd.answer (.ask (.update (some id) s))).bearable ⟨s, id⟩
  have hrun := Deployment.run_ask_bind_ok hask (keepHit p ⟨s, id⟩)
  exact (congrArg Prod.fst hrun).trans (run_keepHit (d.store.table.hits id) fun _ => hkeep)

end

/-! Sums -/

section
variable {o : SumOrder} {start : Day}

theorem exists_total_iff (hd : Reliable p d) (huser : ∃ t : String, username = t)
    (hstart : Term.readStart o.startDate = .ok start) :
    (∃ total, (d.store.ask .sound (.sum (o.window username start))).1 = .ok total) ↔
      ¬ Request.Escapes d.store.table (.sum username o) := by
  rw [Store.exists_ask_sum_iff hd.schema, SumOrder.storable_window_iff]
  constructor
  · rintro ⟨⟨-, hname⟩, last, hlast, hrows⟩ hesc
    have hlast : start.addMonths o.counterMonths = .ok last := hlast
    cases hesc with
    | endless hother h =>
      obtain rfl := Except.ok.inj (hstart.symm.trans hother)
      exact absurd (hlast.symm.trans h) (by simp)
    | torn _ hmem hvisible h => exact h (hname _ hmem hvisible)
    | row hother hend hmem hcovers h =>
      obtain rfl := Except.ok.inj (hstart.symm.trans hother)
      obtain rfl := Except.ok.inj (hlast.symm.trans hend)
      obtain ⟨e, he⟩ := hrows _ hmem (SumOrder.inWindow_iff.mpr hcovers)
      exact absurd (he.symm.trans h) (by simp)
  · intro hesc
    cases hlast : start.addMonths o.counterMonths with
    | error f => exact absurd (.endless hstart hlast) hesc
    | ok last =>
      refine ⟨⟨huser, ?_⟩, last, hlast, ?_⟩
      · intro name hmem hvisible
        by_contra h
        exact hesc (.torn hstart hmem hvisible h)
      · intro r hmem hin
        cases hend : r.endDate with
        | ok e => exact ⟨e, rfl⟩
        | error f => exact absurd (.row hstart hlast hmem (SumOrder.inWindow_iff.mp hin) hend) hesc

theorem sum_refusedUnless (hd : Reliable p d) (hm : 0 < o.counterMonths)
    (huser : ∃ t : String, username = t) :
    RefusedUnless (Request.Escapes d.store.table (.sum username o))
      (d.run (sum username o)).1 := by
  rw [run_sum, Deployment.headD_eq hd.store]
  cases hstart : Term.readStart o.startDate with
  | error r =>
    have haccept : o.accept username = .error (.refused r) := by
      simp [SumOrder.accept, hstart, bind, Except.bind]
    rw [haccept]
    constructor
    · intro _
      exact FailsOnly.error_iff.mpr rfl
    · intro hesc
      cases hesc <;> exact absurd (hstart.symm.trans ‹_›) (by simp)
  | ok start =>
    have haccept : o.accept username = .ok (o.window username start) :=
      SumOrder.accept_eq_ok_iff.mpr ⟨start, hstart, hm, rfl⟩
    have hiff := exists_total_iff hd huser hstart
    have hover : FailsOnly (·.isOverlooked = true)
      (d.store.ask .sound (.sum (o.window username start))).1 := Store.overlooked_ask_sum hd.schema
    rw [haccept]
    change RefusedUnless _ ((d.store.ask .sound (.sum (o.window username start))).1.mapError .store)
    cases hask : (d.store.ask .sound (.sum (o.window username start))).1 with
    | ok total =>
      have hnone := hiff.mp ⟨total, hask⟩
      exact ⟨fun _ => .ok total, fun hesc => absurd hesc hnone⟩
    | error f =>
      have hesc : Request.Escapes d.store.table (.sum username o) := by
        by_contra hnone
        obtain ⟨total, h⟩ := hiff.mpr hnone
        exact absurd (hask.symm.trans h) (by simp)
      exact ⟨fun hnone => absurd hesc hnone, fun _ => ⟨.store f, rfl, hover f hask⟩⟩

end

/-- Nothing but what escapes keeps a request about a term from being done or refused. -/
theorem serve_refusedUnless {q : Request} (hd : Reliable p d)
    (hnext : fitsWord d.store.table.nextId = true) (hq : q.Valid) :
    RefusedUnless (q.Escapes d.store.table) (d.run (serve p q)).1 := by
  cases q with
  | create today username o userUid =>
    obtain ⟨ho, hsigned⟩ := hq
    have hiff : o.EndsBeyond ↔
        Request.Escapes d.store.table (.create today username o userUid) :=
      ⟨.create, fun h => by cases h; assumption⟩
    rw [← hiff]
    apply RefusedUnless.bind _ fun n _ => ⟨.id n, rfl⟩
    apply RefusedUnless.bind (accept_refusedUnless ho d)
    intro s hs
    rw [Deployment.run_lift] at hs ⊢
    have hs := eq_ok_of_mapError hs
    exact ⟨_, run_store hd hnext (ho.storable hsigned.username hsigned.userUid hs)
      (violation?_of_accept hs)⟩
  | update today id username o userUid =>
    obtain ⟨hid, ho, hsigned⟩ := hq
    have hiff : o.EndsBeyond ↔
        Request.Escapes d.store.table (.update today id username o userUid) :=
      ⟨.update, fun h => by cases h; assumption⟩
    rw [← hiff]
    apply RefusedUnless.bind _ fun n _ => ⟨.rows n, rfl⟩
    apply RefusedUnless.bind (accept_refusedUnless ho d)
    intro s hs
    rw [Deployment.run_lift] at hs ⊢
    have hs := eq_ok_of_mapError hs
    exact ⟨_, run_replace hd hid (ho.storable hsigned.username hsigned.userUid hs)
      (violation?_of_accept hs)⟩
  | sum username o =>
    obtain ⟨hm, huser⟩ := hq
    exact .bind (sum_refusedUnless hd hm huser) fun n _ => ⟨.total n, rfl⟩
  | _ => exact hq.elim

end Service
end Renewals
