import Mathlib.Data.List.Basic
import Renewals.Broker.Topology
/-! What calls do to the queues of a broker. A call that is taken has its effect, and one that fails
leaves the queues as they are. -/
namespace Renewals

theorem eraseDups_eq_singleton {α : Type} [BEq α] [LawfulBEq α] {xs : List α} {a : α}
    (ha : a ∈ xs) (h : ∀ x ∈ xs, x = a) : xs.eraseDups = [a] := by
  cases xs with
  | nil => exact absurd ha List.not_mem_nil
  | cons x xs =>
    have hrest : xs.filter (!· == x) = [] := by
      rw [List.filter_eq_nil_iff]
      intro y hy
      simp [h y (List.mem_cons_of_mem x hy), h x List.mem_cons_self]
    rw [List.eraseDups_cons, hrest, h x List.mem_cons_self]
    rfl

namespace Broker

/-! Queues -/

/-- No two queues share a name. -/
def Distinct (qs : List Queue) : Prop := qs.Pairwise fun a b => a.name ≠ b.name

/-- What lies in the queues of a name. -/
def contents (qs : List Queue) (name : LooseText) : List Message :=
  (qs.filter (.whole ·.name == name)).flatMap (·.messages)

section
variable {qs : List Queue} {n : String}

theorem contents_append (qs rs : List Queue) (name : LooseText) :
    contents (qs ++ rs) name = contents qs name ++ contents rs name := by
  simp [contents]

theorem contents_cons (q : Queue) (qs : List Queue) (name : LooseText) : contents (q :: qs) name =
    (if .whole q.name = name then q.messages else []) ++ contents qs name := by
  by_cases h : .whole q.name = name <;> simp [contents, h]

theorem contents_of_ne (h : ∀ q ∈ qs, q.name ≠ n) : contents qs (.whole n) = [] := by
  have hnone : qs.filter (fun q => .whole q.name == LooseText.whole n) = [] := by
    rw [List.filter_eq_nil_iff]
    intro q hq
    simpa using h q hq
  simp [contents, hnone]

theorem addQueue_cases (n : String) (qs : List Queue) :
    ((∃ q ∈ qs, q.name = n) ∧ addQueue n qs = qs) ∨
      (∀ q ∈ qs, q.name ≠ n) ∧ addQueue n qs = qs ++ [⟨n, []⟩] := by
  unfold addQueue
  split
  next h =>
    obtain ⟨q, hq, hn⟩ := List.any_eq_true.mp h
    exact .inl ⟨⟨q, hq, by simpa using hn⟩, rfl⟩
  next h => exact .inr ⟨fun q hq hn => h (List.any_eq_true.mpr ⟨q, hq, by simpa using hn⟩), rfl⟩

theorem exists_mem_addQueue (n : String) (qs : List Queue) : ∃ q ∈ addQueue n qs, q.name = n := by
  rcases addQueue_cases n qs with ⟨h, he⟩ | ⟨-, he⟩ <;> rw [he]
  · exact h
  · exact ⟨_, List.mem_append_right _ List.mem_cons_self, rfl⟩

theorem Distinct.addQueue (h : Distinct qs) (n : String) : Distinct (addQueue n qs) := by
  rcases addQueue_cases n qs with ⟨-, he⟩ | ⟨hn, he⟩ <;> rw [he]
  · exact h
  · refine List.pairwise_append.mpr ⟨h, List.pairwise_singleton _ _, fun q hq r hr => ?_⟩
    rw [List.mem_singleton.mp hr]
    exact hn q hq

theorem contents_addQueue (n : String) (qs : List Queue) (name : LooseText) :
    contents (addQueue n qs) name = contents qs name := by
  rcases addQueue_cases n qs with ⟨-, he⟩ | ⟨-, he⟩ <;> rw [he]
  rw [contents_append]
  simp [contents]

theorem Distinct.push (h : Distinct qs) (m : Message) (n : String) : Distinct (push m n qs) := by
  refine List.pairwise_map.mpr ((h.addQueue n).imp fun {a b} hab => ?_)
  split <;> split <;> exact hab

/-- The message goes to the end of the one queue of its name. -/
theorem Distinct.contents_push (h : Distinct qs) (m : Message) (n : String) (name : LooseText) :
    contents (Broker.push m n qs) name =
      contents qs name ++ if .whole n = name then [m] else [] := by
  have hadd := h.addQueue n
  obtain ⟨q, hq, rfl⟩ := exists_mem_addQueue n qs
  rw [← contents_addQueue q.name qs, Broker.push]
  obtain ⟨early, late, hsplit⟩ := List.append_of_mem hq
  rw [hsplit] at hadd ⊢
  obtain ⟨-, hlate, hcross⟩ := List.pairwise_append.mp hadd
  have hearly : ∀ r ∈ early, r.name ≠ q.name := fun r hr => hcross r hr q List.mem_cons_self
  have hlate : ∀ r ∈ late, r.name ≠ q.name := fun r hr => ((List.pairwise_cons.mp hlate).1 r hr).symm
  have hstay {rs : List Queue} (hrs : ∀ r ∈ rs, r.name ≠ q.name) :
      (rs.map fun r => if r.name = q.name then { r with messages := r.messages ++ [m] } else r) =
        rs :=
    (List.map_congr_left fun r hr => if_neg (hrs r hr)).trans (List.map_id _)
  rw [List.map_append, List.map_cons, hstay hearly, hstay hlate, if_pos rfl]
  by_cases hname : .whole q.name = name
  · subst hname
    simp [contents_append, contents_cons, contents_of_ne hearly, contents_of_ne hlate]
  · simp [contents_append, contents_cons, hname]

end

/-! Calls -/

/-- The part of a broker that says where messages go and where they lie. -/
def wires (b : Broker) : List (Connection × ChannelState) × List Binding × List Queue :=
  (b.channels, b.bindings, b.queues)

variable {b b' : Broker}

theorem channel?_of_wires (h : b'.wires = b.wires) (c : Connection) :
    b'.channel? c = b.channel? c :=
  congrArg (List.lookup c ∘ Prod.fst) h

theorem bindings_of_wires (h : b'.wires = b.wires) : b'.bindings = b.bindings :=
  congrArg (·.2.1) h

theorem queues_of_wires (h : b'.wires = b.wires) : b'.queues = b.queues := congrArg (·.2.2) h

theorem wires_effect (call : BrokerCall) (b : Broker) (plan : BrokerPlan)
    (trace : List BrokerEvent) :
    (effect call { b with plan, trace }).wires = (effect call b).wires := by
  cases call with
  | bindQueue =>
    simp only [effect, bind]
    split <;> rfl
  | publish c m =>
    change (deliver c m { b with plan, trace }).wires = (deliver c m b).wires
    unfold deliver
    by_cases h : b.channel? c = some .closed
    · have h' : channel? c { b with plan, trace } = some .closed := h
      rw [if_pos h, if_pos h']
      rfl
    · have h' : channel? c { b with plan, trace } ≠ some .closed := h
      rw [if_neg h, if_neg h']
      rfl
  | _ => rfl

/-- A call that is taken has its effect, and one that fails has none but a misuse. -/
theorem attempt_cases (call : BrokerCall) (b : Broker) :
    ((attempt call b).1 = .ok () ∧ misuse? call b = none ∧
      (attempt call b).2.wires = (effect call b).wires) ∨
    ∃ cause, (attempt call b).1 = .error cause ∧ ((attempt call b).2.wires = b.wires ∨
      misuse? call b = some cause ∧ (attempt call b).2.wires = (effect call b).wires) := by
  have hmisuse (plan : BrokerPlan) (trace : List BrokerEvent) :
      misuse? call { b with plan, trace } = misuse? call b := by
    cases call <;> rfl
  simp only [attempt, record]
  rcases b.plan.take (BrokerPlan.kind call) with ⟨_ | cause, plan⟩
  · simp only [hmisuse]
    cases misuse? call b with
    | some cause => exact .inr ⟨cause, rfl, .inr ⟨rfl, wires_effect call b plan _⟩⟩
    | none => exact .inl ⟨rfl, rfl, wires_effect call b plan _⟩
  · exact .inr ⟨cause, rfl, .inl rfl⟩

theorem attempt_ok {call : BrokerCall} (h : (attempt call b).1 = .ok ()) :
    misuse? call b = none ∧ (attempt call b).2.wires = (effect call b).wires := by
  rcases attempt_cases call b with ⟨-, hattempt⟩ | ⟨cause, hfail, -⟩
  · exact hattempt
  · cases h.symm.trans hfail

/-- A message that is taken is delivered, and the queues stay as they are if it is not. -/
theorem perform_publish_cases (c : Connection) (m : Message) (b : Broker) :
    ((b.perform (.publish c m)).1 = .ok () ∧
      (b.perform (.publish c m)).2.wires = (b.deliver c m).wires) ∨
    ∃ cause, (b.perform (.publish c m)).1 = .error cause ∧
      (b.perform (.publish c m)).2.wires = b.wires := by
  cases hr : b.refusal? c m with
  | some cause =>
    have hperform : b.perform (.publish c m) = (.error cause, b) := by simp only [perform, hr]
    rw [hperform]
    exact .inr ⟨cause, rfl, rfl⟩
  | none =>
    have hperform : b.perform (.publish c m) = attempt (.publish c m) b := by
      simp only [perform, hr]
    rw [hperform]
    rcases attempt_cases (.publish c m) b with ⟨hok, -, he⟩ | ⟨cause, hfail, he | ⟨hmisuse, -⟩⟩
    · exact .inl ⟨hok, he⟩
    · exact .inr ⟨cause, hfail, he⟩
    · exact absurd hmisuse (by simp [misuse?])

end Broker
end Renewals
