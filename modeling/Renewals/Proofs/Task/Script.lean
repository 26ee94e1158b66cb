import Renewals.Deployment.Basic
/-! Tasks whose calls are known beforehand, as far as the answers are. -/
namespace Renewals

namespace Deployment

/-- What all calls leave, one after the other. -/
def after (d : Deployment) (calls : List Call) : Deployment :=
  calls.foldl (fun d c => (answer c d).2) d

@[simp] theorem after_nil (d : Deployment) : d.after [] = d := rfl

@[simp] theorem after_cons (d : Deployment) (c : Call) (calls : List Call) :
    d.after (c :: calls) = (answer c d).2.after calls := rfl

theorem after_append (d : Deployment) (early late : List Call) :
    d.after (early ++ late) = (d.after early).after late := List.foldl_append

end Deployment

/-- Deployments with `J` make a plan go through these calls. `R` says of a result what calls are
still to come behind it. -/
inductive Plan.Follows (J : Deployment → Prop) {α : Type} (R : α → List Call → Prop) :
    Plan α → List Call → Prop
  | done {a : α} {calls : List Call} (h : R a calls) : Follows J R (.done a) calls
  | call {c : Call} {next : c.Answer → Plan α} {calls : List Call}
    (h : ∀ d, J d → Follows J R (next (Deployment.answer c d).1) calls) :
    Follows J R (.call c next) (c :: calls)

namespace Plan

/-- Deployments with `J` make a plan go through these calls and no others. -/
abbrev Makes (J : Deployment → Prop) {α : Type} (plan : Plan α) (calls : List Call) : Prop :=
  plan.Follows J (fun _ rest => rest = []) calls

variable {J : Deployment → Prop} {α β : Type} {R : β → List Call → Prop}

theorem Follows.bind {plan : Plan α} {f : α → Plan β} {calls : List Call}
    (h : plan.Follows J (fun a rest => (f a).Follows J R rest) calls) :
    (plan.bind f).Follows J R calls := by
  induction h with
  | done h => exact h
  | call h ih => exact .call ih

theorem Follows.mono {S : β → List Call → Prop} {plan : Plan β} {calls : List Call}
    (h : plan.Follows J R calls) (hRS : ∀ a rest, R a rest → S a rest) :
    plan.Follows J S calls := by
  induction h with
  | done h => exact .done (hRS _ _ h)
  | call h ih => exact .call ih

/-- A failure ends a task, and no calls of what would follow are made. -/
theorem Follows.bind_task {t : Task α} {f : α → Task β}
    {S : Except Failure β → List Call → Prop} {calls : List Call}
    (h : t.run.Follows J (fun r rest => match r with
      | .ok a => (f a).run.Follows J S rest
      | .error e => S (.error e) rest) calls) : (t >>= f).run.Follows J S calls :=
  Follows.bind (h.mono fun r rest hr => by
    cases r with
    | ok a => exact hr
    | error e => exact .done hr)

theorem Makes.eq_nil {a : α} {calls : List Call} (h : Makes J (.done a) calls) : calls = [] := by
  cases h with
  | done h => exact h

theorem Makes.eq_cons {c : Call} {next : c.Answer → Plan α} {calls : List Call}
    (h : Makes J (.call c next) calls) : ∃ rest, calls = c :: rest ∧
      ∀ d, J d → Makes J (next (Deployment.answer c d).1) rest := by
  cases h with
  | call h => exact ⟨_, rfl, h⟩

/-- Run by itself, the plan leaves what its calls leave. -/
theorem Makes.run {plan : Plan α} {calls : List Call} (h : Makes J plan calls)
    (hkeep : ∀ c ∈ calls, ∀ d, J d → J (Deployment.answer c d).2) {d : Deployment} (hd : J d) :
    (plan.run Deployment.answer d).2 = d.after calls := by
  induction h generalizing d with
  | done h =>
    subst h
    rfl
  | call h ih =>
    exact ih d hd (fun c hc => hkeep c (List.mem_cons_of_mem _ hc))
      (hkeep _ List.mem_cons_self d hd)

end Plan
end Renewals
