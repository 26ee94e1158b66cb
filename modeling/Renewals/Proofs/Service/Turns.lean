import Renewals.Proofs.Deployment.Calls
import Renewals.Proofs.Service.Requests
import Renewals.Proofs.Task.Script
/-! Requests under way side by side. They take turns, one call of the store or the cache each. -/
namespace Renewals.Service

/-- What is left of each request, and the deployment that they share. -/
structure Crew where
  plans : List (Plan (Except Failure Reply))
  deployment : Deployment

namespace Crew

/-- The coming call of a request; none if it has been answered. -/
def call? (c : Crew) (k : Nat) : Option Call :=
  match c.plans[k]? with
  | some (.call call _) => some call
  | _ => none

/-- One call of a request. -/
def turn (c : Crew) (k : Nat) : Crew :=
  match c.plans[k]? with
  | some (.call call next) =>
    let r := Deployment.answer call c.deployment
    ⟨c.plans.set k (next r.1), r.2⟩
  | _ => c

def play (c : Crew) (order : List Nat) : Crew := order.foldl turn c

/-- All requests have been answered. -/
def Done (c : Crew) : Prop := ∀ plan ∈ c.plans, ∃ r, plan = .done r

instance (plan : Plan (Except Failure Reply)) : Decidable (∃ r, plan = .done r) :=
  match plan with
  | .done r => .isTrue ⟨r, rfl⟩
  | .call _ _ => .isFalse fun ⟨_, h⟩ => by cases h

instance (c : Crew) : Decidable c.Done :=
  inferInstanceAs (Decidable (∀ plan ∈ c.plans, ∃ r, plan = .done r))

@[simp] theorem play_nil (c : Crew) : c.play [] = c := rfl

@[simp] theorem play_cons (c : Crew) (k : Nat) (order : List Nat) :
    c.play (k :: order) = (c.turn k).play order := rfl

theorem play_append (c : Crew) (early late : List Nat) :
    c.play (early ++ late) = (c.play early).play late := List.foldl_append

theorem turn_of_call {c : Crew} {k : Nat} {call : Call}
    {next : call.Answer → Plan (Except Failure Reply)}
    (h : c.plans[k]? = some (.call call next)) :
    c.turn k = ⟨c.plans.set k (next (Deployment.answer call c.deployment).1),
      (Deployment.answer call c.deployment).2⟩ := by
  simp only [turn, h]

theorem turn_of_done {c : Crew} {k : Nat} {r : Except Failure Reply}
    (h : c.plans[k]? = some (.done r)) : c.turn k = c := by
  simp only [turn, h]

theorem turn_of_none {c : Crew} {k : Nat} (h : c.plans[k]? = none) : c.turn k = c := by
  simp only [turn, h]

/-- A turn of a request with a call to make, or nothing. -/
theorem turn_cases (c : Crew) (k : Nat) :
    (∃ call next, c.plans[k]? = some (.call call next) ∧
      c.turn k = ⟨c.plans.set k (next (Deployment.answer call c.deployment).1),
        (Deployment.answer call c.deployment).2⟩) ∨ c.turn k = c := by
  cases h : c.plans[k]? with
  | none => exact .inr (turn_of_none h)
  | some plan =>
    cases plan with
    | done r => exact .inr (turn_of_done h)
    | call call next => exact .inl ⟨call, next, rfl, turn_of_call h⟩

/-- What every turn preserves, every order of turns preserves. -/
theorem play_induction {I : Crew → Prop} (hturn : ∀ c k, I c → I (c.turn k)) (order : List Nat)
    {c : Crew} (hc : I c) : I (c.play order) := by
  induction order generalizing c with
  | nil => exact hc
  | cons k order ih => exact ih (hturn c k hc)

@[simp] theorem length_play (c : Crew) (order : List Nat) :
    (c.play order).plans.length = c.plans.length :=
  play_induction (I := fun c' => c'.plans.length = c.plans.length)
    (fun c' k h => by
      rcases c'.turn_cases k with ⟨call, next, -, ht⟩ | ht
      · rw [ht, List.length_set, h]
      · rw [ht, h]) order rfl

/-! The calls that the turns come to -/

/-- A call, and which request makes it. -/
abbrev Made := Nat × Call

/-- Of the calls those that one request makes. -/
def callsOf (k : Nat) (made : List Made) : List Call := (made.filter (·.1 = k)).map Prod.snd

def trace (c : Crew) : List Nat → List Made
  | [] => []
  | k :: order => ((c.call? k).map (k, ·)).toList ++ (c.turn k).trace order

theorem trace_cons_of_call {c : Crew} {k : Nat} {call : Call}
    {next : call.Answer → Plan (Except Failure Reply)}
    (h : c.plans[k]? = some (.call call next)) (order : List Nat) :
    c.trace (k :: order) = (k, call) :: (c.turn k).trace order := by
  simp only [trace, call?, h, Option.map_some, Option.toList_some, List.singleton_append]

/-- A request without a call to make lets its turn pass. -/
theorem call_or_pass (c : Crew) (k : Nat) (order : List Nat) :
    (∃ call next, c.plans[k]? = some (.call call next)) ∨
      (c.turn k = c ∧ c.trace (k :: order) = c.trace order) := by
  cases h : c.plans[k]? with
  | none =>
    refine .inr ⟨turn_of_none h, ?_⟩
    simp only [trace, call?, h, turn_of_none h, Option.map_none, Option.toList_none,
      List.nil_append]
  | some plan =>
    cases plan with
    | call call next => exact .inl ⟨call, next, rfl⟩
    | done r =>
      refine .inr ⟨turn_of_done h, ?_⟩
      simp only [trace, call?, h, turn_of_done h, Option.map_none, Option.toList_none,
        List.nil_append]

theorem trace_append (c : Crew) (early late : List Nat) :
    c.trace (early ++ late) = c.trace early ++ (c.play early).trace late := by
  induction early generalizing c with
  | nil => rfl
  | cons k early ih => simp only [List.cons_append, trace, ih, play_cons, List.append_assoc]

theorem deployment_play (c : Crew) (order : List Nat) :
    (c.play order).deployment = c.deployment.after ((c.trace order).map Prod.snd) := by
  induction order generalizing c with
  | nil => rfl
  | cons k order ih =>
    rcases c.call_or_pass k order with ⟨call, next, h⟩ | ⟨ht, htr⟩
    · rw [play_cons, ih, trace_cons_of_call h, turn_of_call h]
      rfl
    · rw [play_cons, htr, ht, ih]

theorem mem_trace {c : Crew} {order : List Nat} {x : Made} (hx : x ∈ c.trace order) :
    x.1 ∈ order ∧ x.1 < c.plans.length := by
  induction order generalizing c with
  | nil => exact absurd hx List.not_mem_nil
  | cons k order ih =>
    rcases c.call_or_pass k order with ⟨call, next, h⟩ | ⟨-, htr⟩
    · rw [trace_cons_of_call h] at hx
      rcases List.mem_cons.mp hx with rfl | hx
      · exact ⟨List.mem_cons_self, (List.getElem?_eq_some_iff.mp h).1⟩
      · obtain ⟨ho, hl⟩ := ih hx
        rw [turn_of_call h, List.length_set] at hl
        exact ⟨List.mem_cons_of_mem k ho, hl⟩
    · rw [htr] at hx
      exact ⟨List.mem_cons_of_mem k (ih hx).1, (ih hx).2⟩

theorem plans_of_not_mem {c : Crew} {order : List Nat} {k : Nat} (hk : k ∉ order) :
    (c.play order).plans[k]? = c.plans[k]? := by
  induction order generalizing c with
  | nil => rfl
  | cons j order ih =>
    obtain ⟨hj, hk⟩ := not_or.mp (mt List.mem_cons.mpr hk)
    rw [play_cons, ih hk]
    rcases c.turn_cases j with ⟨call, next, -, ht⟩ | ht
    · rw [ht]
      exact List.getElem?_set_ne (Ne.symm hj)
    · rw [ht]

theorem callsOf_append (k : Nat) (early late : List Made) :
    callsOf k (early ++ late) = callsOf k early ++ callsOf k late := by
  simp [callsOf]

/-- Requests of which it is known what calls are left of them. All of these calls keep `J`. -/
structure Scripted (J : Deployment → Prop) (P : Nat → Prop) (script : Nat → List Call)
    (c : Crew) : Prop where
  good : J c.deployment
  plans : ∀ k, P k → ∀ plan, c.plans[k]? = some plan → plan.Makes J (script k)
  keeps : ∀ k, P k → ∀ x ∈ script k, ∀ d, J d → J (Deployment.answer x d).2

section
variable {J : Deployment → Prop} {P : Nat → Prop} {script : Nat → List Call} {c : Crew}

/-- A turn takes the first call off the script of a request, or nothing. -/
theorem Scripted.turn (h : c.Scripted J P script) {j : Nat} (hj : P j) :
    ∃ script', (c.turn j).Scripted J P script' ∧
      ∀ k, P k → script k = callsOf k (c.trace [j]) ++ script' k := by
  rcases c.call_or_pass j [] with ⟨call, next, hcall⟩ | ⟨ht, htr⟩
  · obtain ⟨left, hleft, hnext⟩ := (h.plans j hj _ hcall).eq_cons
    have hlen : j < c.plans.length := (List.getElem?_eq_some_iff.mp hcall).1
    have hother {k : Nat} (hk : k ≠ j) : Function.update script j left k = script k :=
      Function.update_of_ne hk ..
    have hsub {k : Nat} {x : Call} (hx : x ∈ Function.update script j left k) : x ∈ script k := by
      by_cases hk : k = j
      · subst hk
        rw [Function.update_self] at hx
        exact hleft ▸ List.mem_cons_of_mem call hx
      · rwa [← hother hk]
    refine ⟨Function.update script j left, ⟨?_, ?_, ?_⟩, ?_⟩
    · rw [turn_of_call hcall]
      exact h.keeps j hj call (hleft ▸ List.mem_cons_self) _ h.good
    · intro k hk plan hp
      rw [turn_of_call hcall] at hp
      by_cases he : k = j
      · subst he
        obtain rfl := Option.some.inj ((List.getElem?_set_self hlen).symm.trans hp)
        rw [Function.update_self]
        exact hnext _ h.good
      · rw [hother he]
        exact h.plans k hk plan ((List.getElem?_set_ne (Ne.symm he)).symm.trans hp)
    · exact fun k hk x hx => h.keeps k hk x (hsub hx)
    · intro k hk
      rw [trace_cons_of_call hcall]
      by_cases he : k = j
      · subst he
        simp [callsOf, trace, hleft]
      · simp [callsOf, trace, Ne.symm he, hother he]
  · rw [ht, htr]
    exact ⟨script, h, fun k _ => rfl⟩

/-- So whatever the turns are, each request goes through its calls in their order. -/
theorem Scripted.play (h : c.Scripted J P script) {order : List Nat} (horder : ∀ k ∈ order, P k) :
    ∃ rest, (c.play order).Scripted J P rest ∧
      ∀ k, P k → script k = callsOf k (c.trace order) ++ rest k := by
  induction order generalizing c script with
  | nil => exact ⟨script, h, fun k _ => rfl⟩
  | cons j order ih =>
    obtain ⟨script', h', hturn⟩ := h.turn (horder j List.mem_cons_self)
    obtain ⟨rest, hrest, hplay⟩ := ih h' fun k hk => horder k (List.mem_cons_of_mem j hk)
    refine ⟨rest, hrest, fun k hk => ?_⟩
    have htrace : c.trace (j :: order) = c.trace [j] ++ (c.turn j).trace order :=
      c.trace_append [j] order
    rw [htrace, callsOf_append, List.append_assoc, ← hplay k hk]
    exact hturn k hk

/-- All the calls of a request that has been answered. -/
theorem Scripted.callsOf_of_done (h : c.Scripted J P script) {order : List Nat}
    (horder : ∀ k ∈ order, P k) (hdone : (c.play order).Done) {k : Nat} (hk : P k)
    (hlen : k < c.plans.length) : callsOf k (c.trace order) = script k := by
  obtain ⟨rest, hrest, hplay⟩ := h.play horder
  have hlen' : k < (c.play order).plans.length := by rwa [length_play]
  obtain ⟨r, hr⟩ := hdone _ (List.getElem_mem hlen')
  have hnil : rest k = [] :=
    Plan.Makes.eq_nil (hr ▸ hrest.plans k hk _ (List.getElem?_eq_getElem hlen'))
  rw [hplay k hk, hnil, List.append_nil]

end

end Crew
end Renewals.Service
