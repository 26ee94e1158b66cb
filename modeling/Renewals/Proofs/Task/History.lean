import Renewals.Proofs.Task.Calls
/-! Tasks in any world at all: nothing is known of the answers but what is said of them. What a task
can come to is told by its history, the calls that it has made with the answers to them. -/
namespace Renewals

/-- Answers calls from a state of its own. -/
abbrev World (σ : Type) := (c : Call) → σ → c.Answer × σ

/-- A call that was made, and the answer to it. -/
structure Answered where
  call : Call
  answer : call.Answer

namespace Answered

@[match_pattern] abbrev opened (url : String) (c : Connection) : Answered :=
  ⟨.openConnection url, c⟩

@[match_pattern] abbrev broker (b : BrokerCall) (a : Except BrokerCause Unit) : Answered :=
  ⟨.broker b, a⟩

@[match_pattern] abbrev ready (a : Except StoreFault Unit) : Answered := ⟨.ask .ready, a⟩

@[match_pattern] abbrev slept (pause : Seconds) : Answered := ⟨.sleep pause, ()⟩

@[match_pattern] abbrev logged (level : Level) (text : LooseText) : Answered :=
  ⟨.log ⟨level, text⟩, ()⟩

end Answered

namespace Plan
variable {σ α β : Type}

def history (w : World σ) : Plan α → σ → List Answered
  | done _, _ => []
  | call c next, s => ⟨c, (w c s).1⟩ :: history w (next (w c s).1) (w c s).2

theorem history_bind (w : World σ) (p : Plan α) (f : α → Plan β) (s : σ) :
    (p.bind f).history w s =
      p.history w s ++ (f (p.run w s).1).history w (p.run w s).2 := by
  induction p generalizing s with
  | done a => rfl
  | call c next ih => exact congrArg (_ :: ·) (ih _ _)

/-- A history that this world gives, on the way from one state to the other. -/
inductive Gives (w : World σ) : σ → List Answered → σ → Prop
  | nil (s : σ) : Gives w s [] s
  | cons {c : Call} {a : c.Answer} {s s' : σ} {h : List Answered} (ha : (w c s).1 = a)
    (rest : Gives w (w c s).2 h s') : Gives w s (⟨c, a⟩ :: h) s'

theorem gives_history (w : World σ) (p : Plan α) (s : σ) :
    Gives w s (p.history w s) (p.run w s).2 := by
  induction p generalizing s with
  | done a => exact .nil s
  | call c next ih => exact .cons rfl (ih _ _)

theorem Gives.append {w : World σ} {early late : List Answered} {s s' : σ}
    (h : Gives w s (early ++ late) s') :
    ∃ middle, Gives w s early middle ∧ Gives w middle late s' := by
  induction early generalizing s with
  | nil => exact ⟨s, .nil s, h⟩
  | cons x early ih =>
    cases h with
    | cons ha rest =>
      obtain ⟨middle, hearly, hlate⟩ := ih rest
      exact ⟨middle, .cons ha hearly, hlate⟩

/-- What every call of a history preserves, the history preserves. -/
theorem Gives.induction {w : World σ} {I : σ → Prop} {h : List Answered} {s s' : σ}
    (hg : Gives w s h s') (hcall : ∀ x ∈ h, ∀ s, I s → I (w x.call s).2) (hs : I s) : I s' := by
  induction hg with
  | nil s => exact hs
  | cons _ rest ih =>
    exact ih (fun x hx => hcall x (List.mem_cons_of_mem _ hx)) (hcall _ List.mem_cons_self _ hs)

/-- With these answers on the way the plan ends in `a`. -/
inductive Ends : Plan α → List Answered → α → Prop
  | done (a : α) : Ends (.done a) [] a
  | call {c : Call} {next : c.Answer → Plan α} {h : List Answered} {a : α} (r : c.Answer)
    (rest : Ends (next r) h a) : Ends (.call c next) (⟨c, r⟩ :: h) a

theorem ends_history (w : World σ) (p : Plan α) (s : σ) :
    p.Ends (p.history w s) (p.run w s).1 := by
  induction p generalizing s with
  | done a => exact .done a
  | call c next ih => exact .call _ (ih _ _)

theorem ends_bind {p : Plan α} {f : α → Plan β} {h : List Answered} {b : β} :
    (p.bind f).Ends h b ↔
      ∃ early a late, h = early ++ late ∧ p.Ends early a ∧ (f a).Ends late b := by
  induction p generalizing h with
  | done a =>
    refine ⟨fun hb => ⟨[], a, h, rfl, .done a, hb⟩, ?_⟩
    rintro ⟨_, _, late, rfl, hd, hb⟩
    cases hd
    exact hb
  | call c next ih =>
    constructor
    · intro hb
      cases hb with
      | call r hr =>
        obtain ⟨early, a, late, rfl, ha, hb⟩ := (ih r).mp hr
        exact ⟨⟨c, r⟩ :: early, a, late, rfl, .call r ha, hb⟩
    · rintro ⟨_, a, late, rfl, ha, hb⟩
      cases ha with
      | call r hr => exact .call r ((ih r).mpr ⟨_, a, late, rfl, hr, hb⟩)

end Plan

namespace Task
variable {σ α β : Type}

def result (w : World σ) (t : Task α) (s : σ) : Except Failure α := (Plan.run w t.run s).1

def history (w : World σ) (t : Task α) (s : σ) : List Answered := Plan.history w t.run s

/-- With these answers on the way the task comes to `r`. -/
def Ends (t : Task α) (h : List Answered) (r : Except Failure α) : Prop := Plan.Ends t.run h r

theorem ends_history (w : World σ) (t : Task α) (s : σ) :
    t.Ends (t.history w s) (t.result w s) :=
  Plan.ends_history w t.run s

theorem history_bind (w : World σ) (t : Task α) (f : α → Task β) (s : σ) :
    (t >>= f).history w s = t.history w s ++
      match t.result w s with
      | .ok a => (f a).history w (Plan.run w t.run s).2
      | .error _ => [] := by
  change Plan.history w (Plan.bind t.run _) s = _
  rw [Plan.history_bind]
  unfold result history
  cases (Plan.run w t.run s).1 <;> rfl

theorem history_tryCatch (w : World σ) (t : Task α) (handle : Failure → Task α) (s : σ) :
    Task.history w (tryCatch t handle) s = t.history w s ++
      match t.result w s with
      | .ok _ => []
      | .error f => (handle f).history w (Plan.run w t.run s).2 := by
  change Plan.history w (Plan.bind t.run _) s = _
  rw [Plan.history_bind]
  unfold result history
  cases (Plan.run w t.run s).1 <;> rfl

/-- What follows a failure changes nothing. -/
theorem bind_error (w : World σ) {t : Task α} (f : α → Task β) {s : σ} {e : Failure}
    (ht : t.result w s = .error e) :
    (t >>= f).result w s = .error e ∧ (t >>= f).history w s = t.history w s := by
  have hrun : (Plan.run w t.run s).1 = .error e := ht
  constructor
  · change (Plan.run w (Plan.bind t.run _) s).1 = _
    rw [Plan.run_bind, hrun]
    rfl
  · change Plan.history w (Plan.bind t.run _) s = _
    rw [Plan.history_bind, hrun]
    exact List.append_nil _

/-- A deployment is one such world. -/
theorem result_answer (t : Task α) (d : Deployment) :
    t.result Deployment.answer d = (d.run t).1 := rfl

variable {t : Task α} {h : List Answered} {r : Except Failure α}

@[simp] theorem ends_pure {a : α} : Ends (pure a) h r ↔ h = [] ∧ r = .ok a := by
  constructor
  · intro hp
    cases hp
    exact ⟨rfl, rfl⟩
  · rintro ⟨rfl, rfl⟩
    exact .done _

@[simp] theorem ends_throw {f : Failure} :
    Ends (throw f : Task α) h r ↔ h = [] ∧ r = .error f := by
  constructor
  · intro hp
    cases hp
    exact ⟨rfl, rfl⟩
  · rintro ⟨rfl, rfl⟩
    exact .done _

theorem ends_perform_bind {c : Call} {f : c.Answer → Task α} :
    Ends (perform c >>= f) h r ↔ ∃ a rest, h = ⟨c, a⟩ :: rest ∧ (f a).Ends rest r := by
  constructor
  · intro hp
    cases hp with
    | call a hr => exact ⟨a, _, rfl, hr⟩
  · rintro ⟨a, rest, rfl, hr⟩
    exact .call a hr

/-- A task goes on behind a value, and a failure ends it. -/
theorem ends_bind {f : α → Task β} {r : Except Failure β} : Ends (t >>= f) h r ↔
    (∃ a early late, h = early ++ late ∧ t.Ends early (.ok a) ∧ (f a).Ends late r) ∨
      ∃ e, t.Ends h (.error e) ∧ r = .error e := by
  refine Plan.ends_bind.trans ⟨?_, ?_⟩
  · rintro ⟨early, e | a, late, rfl, ha, hr⟩
    · cases hr
      exact .inr ⟨e, by rwa [List.append_nil], rfl⟩
    · exact .inl ⟨a, early, late, rfl, ha, hr⟩
  · rintro (⟨a, early, late, rfl, ha, hr⟩ | ⟨e, he, rfl⟩)
    · exact ⟨early, .ok a, late, rfl, ha, hr⟩
    · exact ⟨h, .error e, [], (List.append_nil h).symm, he, .done _⟩

/-- A handler goes on behind a failure, and a value stands. -/
theorem ends_tryCatch {handle : Failure → Task α} : Ends (tryCatch t handle) h r ↔
    (∃ a, t.Ends h (.ok a) ∧ r = .ok a) ∨
      ∃ e early late, h = early ++ late ∧ t.Ends early (.error e) ∧ (handle e).Ends late r := by
  refine Plan.ends_bind.trans ⟨?_, ?_⟩
  · rintro ⟨early, e | a, late, rfl, ha, hr⟩
    · exact .inr ⟨e, early, late, rfl, ha, hr⟩
    · cases hr
      exact .inl ⟨a, by rwa [List.append_nil], rfl⟩
  · rintro (⟨a, ha, rfl⟩ | ⟨e, early, late, rfl, he, hr⟩)
    · exact ⟨h, .ok a, [], (List.append_nil h).symm, ha, .done _⟩
    · exact ⟨early, .error e, late, rfl, he, hr⟩

end Task
end Renewals
