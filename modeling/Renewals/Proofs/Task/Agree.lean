import Renewals.Proofs.Task.Calls
/-! Two tasks beside each other, each in a deployment of its own. They agree where they come to the
same end whenever their deployments are related at first, and the deployments are related then. What
the calls must come up to on the way is left open. -/
namespace Renewals

/-- Every call of a plan is such where it is made. -/
def Plan.Along {α : Type} (C : Call → Deployment → Prop) : Plan α → Deployment → Prop
  | done _, _ => True
  | call c next, d =>
    C c d ∧ (next (Deployment.answer c d).1).Along C (Deployment.answer c d).2

instance Plan.decidableAlong {α : Type} {C : Call → Deployment → Prop} [∀ c d, Decidable (C c d)] :
    (p : Plan α) → (d : Deployment) → Decidable (p.Along C d)
  | done _, _ => isTrue trivial
  | call _ next, _ => @instDecidableAnd _ _ inferInstance (decidableAlong (next _) _)

theorem Plan.along_bind {α β : Type} {C : Call → Deployment → Prop} (p : Plan α) (f : α → Plan β)
    (d : Deployment) : (p.bind f).Along C d ↔
      p.Along C d ∧ (f (p.run Deployment.answer d).1).Along C (p.run Deployment.answer d).2 := by
  induction p generalizing d with
  | done a => exact ⟨fun h => ⟨trivial, h⟩, And.right⟩
  | call c next ih => exact (and_congr_right fun _ => ih _ _).trans and_assoc.symm

namespace Task
variable {α β : Type} {C : Call → Deployment → Prop}

/-- Every call of a task is such where it is made. -/
def Along (C : Call → Deployment → Prop) (t : Task α) (d : Deployment) : Prop :=
  Plan.Along C t.run d

instance [∀ c d, Decidable (C c d)] (t : Task α) (d : Deployment) : Decidable (t.Along C d) :=
  inferInstanceAs (Decidable (Plan.Along C t.run d))

theorem along_bind {t : Task α} {next : α → Task β} {d : Deployment} :
    (t >>= next).Along C d ↔
      t.Along C d ∧ ∀ a, (d.run t).1 = .ok a → (next a).Along C (d.run t).2 := by
  refine (Plan.along_bind t.run _ d).trans (and_congr_right fun _ => ?_)
  unfold Deployment.run
  cases (Plan.run Deployment.answer t.run d).1 with
  | ok a =>
    exact ⟨fun h b hb => Except.ok.inj hb ▸ h, fun h => h a rfl⟩
  | error f =>
    exact ⟨fun _ b hb => absurd hb (by simp), fun _ => trivial⟩

theorem along_of_forall (h : ∀ c d, C c d) (t : Task α) (d : Deployment) : t.Along C d := by
  unfold Along
  generalize ExceptT.run t = plan
  induction plan generalizing d with
  | done a => trivial
  | call c next ih => exact ⟨h c d, ih _ _⟩

/-- What holds of such calls in some deployments holds of all calls of a task that makes no others,
if they lead from such deployments to such. -/
theorem Only.along_of {P : Call → Prop} {I : Deployment → Prop} {t : Task α} (ht : Only P t)
    (hcall : ∀ c d, P c → I d → C c d ∧ I (Deployment.answer c d).2) {d : Deployment} (hd : I d) :
    t.Along C d := by
  have hall := ht d
  unfold Deployment.calls at hall
  unfold Along
  generalize ExceptT.run t = plan at hall
  induction plan generalizing d with
  | done a => trivial
  | call c next ih =>
    obtain ⟨hc, hnext⟩ := hcall c d (hall c List.mem_cons_self) hd
    exact ⟨hc, ih _ hnext fun c' hc' => hall c' (List.mem_cons_of_mem c hc')⟩

theorem Only.along {P : Call → Prop} {t : Task α} (ht : Only P t) (h : ∀ c d, P c → C c d)
    (d : Deployment) : t.Along C d :=
  ht.along_of (I := fun _ => True) (fun c d hc _ => ⟨h c d hc, trivial⟩) trivial

/-- What such calls preserve where they are made, the task preserves. -/
theorem Along.run {I : Deployment → Prop} {t : Task α} {d : Deployment} (ht : t.Along C d)
    (hcall : ∀ c d, C c d → I d → I (Deployment.answer c d).2) (hd : I d) : I (d.run t).2 := by
  unfold Along at ht
  unfold Deployment.run
  generalize ExceptT.run t = plan at ht
  induction plan generalizing d with
  | done a => exact hd
  | call c next ih => exact ih _ (hcall c d ht.1 hd) ht.2

/-- Two tasks come to the same end, each in its deployment. -/
def AgreeAt (R : Deployment → Deployment → Prop) (d e : Deployment) (t u : Task α) : Prop :=
  (d.run t).1 = (e.run u).1 ∧ R (d.run t).2 (e.run u).2

/-- Two tasks that come to the same end in all related deployments. -/
def Agree (C : Call → Deployment → Prop) (R : Deployment → Deployment → Prop) (t u : Task α) :
    Prop :=
  ∀ d e, R d e → t.Along C d → u.Along C e → AgreeAt R d e t u

variable {R : Deployment → Deployment → Prop}

theorem AgreeAt.bind {d e : Deployment} {t u : Task α} {f g : α → Task β} (h : AgreeAt R d e t u)
    (hf : ∀ a, Agree C R (f a) (g a)) (hd : (t >>= f).Along C d) (he : (u >>= g).Along C e) :
    AgreeAt R d e (t >>= f) (u >>= g) := by
  obtain ⟨hr, ha⟩ := h
  have hfd := (along_bind.mp hd).2
  have hge := (along_bind.mp he).2
  rw [← hr] at hge
  unfold AgreeAt
  rw [Deployment.run_bind, Deployment.run_bind, ← hr]
  cases hend : (d.run t).1 with
  | ok a => exact hf a _ _ ha (hfd a hend) (hge a hend)
  | error f => exact ⟨rfl, ha⟩

namespace Agree

theorem pure (a : α) : Agree C R (Pure.pure a : Task α) (Pure.pure a) :=
  fun _ _ h _ _ => ⟨rfl, h⟩

theorem throw (f : Failure) :
    Agree C R (MonadExcept.throw f : Task α) (MonadExcept.throw f) :=
  fun _ _ h _ _ => ⟨rfl, h⟩

theorem lift {ε : Type} (f : ε → Failure) (x : Except ε α) :
    Agree C R (Task.lift f x) (Task.lift f x) := by
  cases x with
  | ok a => exact pure a
  | error e => exact throw (f e)

theorem bind {t u : Task α} {f g : α → Task β} (ht : Agree C R t u)
    (hf : ∀ a, Agree C R (f a) (g a)) : Agree C R (t >>= f) (u >>= g) :=
  fun d e h hd he => (ht d e h (along_bind.mp hd).1 (along_bind.mp he).1).bind hf hd he

/-- Where such calls are answered alike in related deployments, and leave them related, a task
agrees with itself. -/
theorem of_calls (hcall : ∀ c d e, C c d → C c e → R d e →
      (Deployment.answer c d).1 = (Deployment.answer c e).1 ∧
        R (Deployment.answer c d).2 (Deployment.answer c e).2) (t : Task α) : Agree C R t t := by
  intro d e h hd he
  unfold Along at hd he
  unfold AgreeAt Deployment.run
  generalize ExceptT.run t = plan at hd he
  induction plan generalizing d e with
  | done a => exact ⟨rfl, h⟩
  | call c next ih =>
    obtain ⟨hc, hd⟩ := hd
    obtain ⟨hc', he⟩ := he
    obtain ⟨ha, hr⟩ := hcall c d e hc hc' h
    rw [← ha] at he
    simp only [Plan.run]
    rw [← ha]
    exact ih _ _ _ hr hd he

end Agree
end Task
end Renewals
