import Renewals.Proofs.Task.Retry
import Renewals.Scheduler.Scan
/-! How waiting for the store can go. Every attempt but the last finds that the store is not
available. -/
namespace Renewals

def StoreFault.isUnavailable : StoreFault → Bool
  | .unavailable .. => true
  | _ => false

def Answered.probes? : Answered → Option (Except StoreFault Unit)
  | ready a => some a
  | _ => none

namespace Store
open Renewals.Task (rounds paced)

/-- How the attempts to reach the store went. -/
def outcomes (h : List Answered) : List (Except StoreFault Unit) := h.filterMap Answered.probes?

@[simp] theorem outcomes_append (early late : List Answered) :
    outcomes (early ++ late) = outcomes early ++ outcomes late := List.filterMap_append

/-- The store is asked once. -/
def probe (attempts : Int) (number : Nat) : Task (Except StoreFault Unit) := do
  match ← Task.ask? .ready with
  | .ok _ => pure (.ok ())
  | .error (.unavailable q cause) => do
    let f : StoreFault := .unavailable q cause
    Task.log .warning s!"store not ready (attempt {number}/{attempts}): {f.message}"
    pure (.error f)
  | .error f => throw (.store f)

theorem await_eq_retry (attempts : Int) (pause : Seconds) :
    await attempts pause =
      Task.retry (probe attempts) (.notReady attempts) pause attempts.toNat 1 none := by
  unfold await
  generalize attempts.toNat = left, 1 = number, (none : Option StoreFault) = last
  induction left generalizing number last with
  | zero => rfl
  | succ left ih =>
    unfold awaitFrom Task.retry probe
    rw [bind_assoc]
    refine bind_congr fun a => ?_
    cases a with
    | ok => rfl
    | error f =>
      cases f with
      | unavailable q cause =>
        simp only [bind_assoc, pure_bind, ih]
        rfl
      | _ => rfl

/-- The history of an attempt that fails. -/
def missed (attempts : Int) (number : Nat) (f : StoreFault) : List Answered :=
  [.ready (.error f),
    .logged .warning s!"store not ready (attempt {number}/{attempts}): {f.message}"]

variable {attempts : Int} {number : Nat} {pause : Seconds} {h : List Answered}

/-- How one attempt can go. -/
inductive Trying (attempts : Int) (number : Nat) :
    List Answered → Except Failure (Except StoreFault Unit) → Prop
  | answered : Trying attempts number [.ready (.ok ())] (.ok (.ok ()))
  | missed {f : StoreFault} (hf : f.isUnavailable = true) :
    Trying attempts number (missed attempts number f) (.ok (.error f))
  | crashed {f : StoreFault} (hf : f.isUnavailable = false) :
    Trying attempts number [.ready (.error f)] (.error (.store f))

theorem trying_of_ends {r : Except Failure (Except StoreFault Unit)}
    (ht : (probe attempts number).Ends h r) : Trying attempts number h r := by
  obtain ⟨a, rest, rfl, hr⟩ := Task.ends_perform_bind.mp ht
  cases a with
  | ok u =>
    obtain ⟨rfl, rfl⟩ := Task.ends_pure.mp hr
    exact .answered
  | error f =>
    cases f with
    | unavailable q cause =>
      obtain ⟨_, rest, rfl, hlate⟩ := Task.ends_perform_bind.mp hr
      obtain ⟨rfl, rfl⟩ := Task.ends_pure.mp hlate
      exact .missed rfl
    | _ =>
      obtain ⟨rfl, rfl⟩ := Task.ends_throw.mp hr
      exact .crashed rfl

/-- How waiting can go: the store never answers, or it does at last, or it fails in a way that
nobody expects. -/
inductive Awaiting (attempts : Int) (pause : Seconds) :
    List Answered → Except Failure Unit → Prop
  | gaveUp {failed : List StoreFault} (hf : ∀ f ∈ failed, f.isUnavailable = true)
    (hlen : failed.length = attempts.toNat) :
    Awaiting attempts pause (paced pause (rounds (missed attempts) 1 failed))
      (.error (.notReady attempts failed.getLast?))
  | answered {failed : List StoreFault} (hf : ∀ f ∈ failed, f.isUnavailable = true)
    (hlen : failed.length < attempts.toNat) :
    Awaiting attempts pause
      (paced pause (rounds (missed attempts) 1 failed ++ [[.ready (.ok ())]])) (.ok ())
  | crashed {failed : List StoreFault} (hf : ∀ f ∈ failed, f.isUnavailable = true)
    (hlen : failed.length < attempts.toNat) {f : StoreFault} (hc : f.isUnavailable = false) :
    Awaiting attempts pause
      (paced pause (rounds (missed attempts) 1 failed ++ [[.ready (.error f)]]))
      (.error (.store f))

theorem awaiting_of_ends {r : Except Failure Unit} (hr : (await attempts pause).Ends h r) :
    Awaiting attempts pause h r := by
  rw [await_eq_retry] at hr
  have hmiss (number : Nat) (h : List Answered) (f : StoreFault)
      (ht : (probe attempts number).Ends h (.ok (.error f))) :
      ∃ x : StoreFault, x.isUnavailable = true ∧ h = missed attempts number x ∧ f = id x := by
    cases trying_of_ends ht with
    | missed hf => exact ⟨_, hf, rfl, rfl⟩
  obtain ⟨failed, hf, ⟨hlen, rfl, rfl⟩ | ⟨hlen, final, x, rfl, hx, hend⟩⟩ :=
    Task.exists_of_ends_retry hmiss hr
  · have hlast : (failed.map (some ∘ id)).getLastD none = failed.getLast? := by
      rw [List.getLastD_eq_getLast?, List.getLast?_map]
      cases failed.getLast? <;> rfl
    rw [hlast]
    exact .gaveUp hf hlen
  · rcases hend with ⟨u, rfl, rfl⟩ | ⟨f, rfl, rfl⟩
    · cases trying_of_ends hx with
      | answered => exact .answered hf hlen
    · cases trying_of_ends hx with
      | crashed hc => exact .crashed hf hlen hc

theorem outcomes_attempts (failed : List StoreFault) (final : List (List Answered)) :
    outcomes (paced pause (rounds (missed attempts) number failed ++ final)) =
      failed.map .error ++ final.flatMap outcomes := by
  have hmissed (i : Nat) (f : StoreFault) : outcomes (missed attempts i f) = [.error f] := rfl
  rw [List.map_eq_flatMap]
  exact Task.filterMap_rounds rfl hmissed failed final

/-- An attempt that nobody expects is the last. -/
theorem Awaiting.last_of_unexpected {r : Except Failure Unit} (ha : Awaiting attempts pause h r)
    {f : StoreFault} (hf : .error f ∈ outcomes h) (hu : f.isUnavailable = false) :
    r = .error (.store f) ∧ ∃ before, h = before ++ [.ready (.error f)] := by
  have hfailed (failed : List StoreFault) (hexp : ∀ f ∈ failed, f.isUnavailable = true) :
      .error f ∉ failed.map (Except.error (α := Unit)) := by
    intro hmem
    obtain ⟨g, hg, heq⟩ := List.mem_map.mp hmem
    cases heq
    exact absurd (hexp f hg) (by simp [hu])
  cases ha with
  | @gaveUp failed hexp =>
    rw [← List.append_nil (rounds _ _ _), outcomes_attempts, List.flatMap_nil,
      List.append_nil] at hf
    exact absurd hf (hfailed failed hexp)
  | @answered failed hexp =>
    rw [outcomes_attempts, List.mem_append] at hf
    rcases hf with hf | hf
    · exact absurd hf (hfailed failed hexp)
    · cases List.mem_singleton.mp hf
  | @crashed failed hexp _ g =>
    rw [outcomes_attempts, List.mem_append] at hf
    rcases hf with hf | hf
    · exact absurd hf (hfailed failed hexp)
    · cases List.mem_singleton.mp hf
      exact ⟨rfl, Task.exists_paced_concat⟩

theorem Awaiting.answered_iff {r : Except Failure Unit} (ha : Awaiting attempts pause h r) :
    .ok () ∈ outcomes h ↔ r = .ok () := by
  cases ha with
  | @gaveUp failed =>
    rw [← List.append_nil (rounds _ _ _), outcomes_attempts]
    simp
  | @answered failed =>
    rw [outcomes_attempts]
    exact iff_of_true (List.mem_append_right _ (List.mem_singleton_self _)) rfl
  | @crashed failed _ _ g =>
    have hone : [[Answered.ready (.error g)]].flatMap outcomes = [.error g] := rfl
    rw [outcomes_attempts, hone]
    simp

/-- Nothing but the store is asked for anything while waiting. -/
theorem Awaiting.filterMap_eq_nil {β : Type} {f : Answered → Option β} {r : Except Failure Unit}
    (ha : Awaiting attempts pause h r) (hready : ∀ a, f (.ready a) = none)
    (hslept : f (.slept pause) = none) (hlogged : ∀ level text, f (.logged level text) = none) :
    h.filterMap f = [] := by
  have hfailed (failed : List StoreFault) (final : List (List Answered)) :
      (paced pause (rounds (missed attempts) 1 failed ++ final)).filterMap f =
        final.flatMap (List.filterMap f) := by
    have hmissed (i : Nat) (x : StoreFault) : (missed attempts i x).filterMap f = [] := by
      rw [missed, List.filterMap_cons_none (hready _), List.filterMap_cons_none (hlogged ..),
        List.filterMap_nil]
    refine (Task.filterMap_rounds hslept hmissed failed final).trans ?_
    rw [List.flatMap_eq_nil_iff.mpr fun _ _ => rfl, List.nil_append]
  cases ha with
  | @gaveUp failed =>
    rw [← List.append_nil (rounds _ _ failed)]
    exact hfailed failed []
  | _ =>
    rw [hfailed, List.flatMap_singleton, List.filterMap_cons_none (hready _), List.filterMap_nil]

end Store
end Renewals
