import Renewals.Proofs.Basic
import Renewals.Proofs.Service.Turns
/-! Which of the calls that requests make in turns come before which others. -/
namespace Renewals.Service

/-- Calls of one kind that one of the requests makes. -/
def madeBy (k : Nat) (f : Call → Bool) (x : Crew.Made) : Bool := x.1 == k && f x.2

/-- What `a` selects is made before all that `b` selects. -/
def Before (a b : Crew.Made → Bool) (made : List Crew.Made) : Prop :=
  made.Pairwise fun x y => b x = true → a y = false

/-- Behind the last of what `b` selects there is nothing that `a` selects. -/
def Yields (a b : Crew.Made → Bool) : List Crew.Made → Prop
  | [] => True
  | x :: made => (b x = true → made.any b = true ∨ made.any a = false) ∧ Yields a b made

instance (a b : Crew.Made → Bool) (made : List Crew.Made) : Decidable (Before a b made) :=
  inferInstanceAs (Decidable (made.Pairwise _))

instance Yields.decidable (a b : Crew.Made → Bool) :
    (made : List Crew.Made) → Decidable (Yields a b made)
  | [] => .isTrue trivial
  | x :: made =>
    have := Yields.decidable a b made
    inferInstanceAs (Decidable ((b x = true → made.any b = true ∨ made.any a = false) ∧ _))

section
variable {a b : Crew.Made → Bool} {made : List Crew.Made}

theorem Before.of_mem {front back : List Crew.Made} {x y : Crew.Made} (h : Before a b made)
    (hmade : made = front ++ x :: back) (hy : y ∈ front) (hb : b y = true) : a x = false := by
  subst hmade
  exact (List.pairwise_append.mp h).2.2 y hy x List.mem_cons_self hb

theorem Yields.of_none (h : ∀ x ∈ made, b x = false) : Yields a b made := by
  induction made with
  | nil => trivial
  | cons x made ih =>
    refine ⟨fun hx => Bool.noConfusion (hx.symm.trans (h x List.mem_cons_self)), ?_⟩
    exact ih fun y hy => h y (List.mem_cons_of_mem x hy)

theorem Yields.split {early late : List Crew.Made} {x : Crew.Made}
    (h : Yields a b (early ++ x :: late)) (hx : a x = true) (hb : b x = false) :
    late.any b = true ∨ early.any b = false := by
  induction early with
  | nil => exact .inr rfl
  | cons y early ih =>
    rcases ih h.2 with hl | he
    · exact .inl hl
    · cases hy : b y with
      | false => exact .inr (by simp [hy, he])
      | true =>
        rcases h.1 hy with hmore | hnone
        · left
          simpa [he, hb] using hmore
        · simp [hx] at hnone

theorem mem_callsOf {k : Nat} {c : Call} : c ∈ Crew.callsOf k made ↔ (k, c) ∈ made := by
  constructor
  · intro h
    obtain ⟨⟨j, c'⟩, hx, rfl⟩ := List.mem_map.mp h
    obtain ⟨hm, hj⟩ := List.mem_filter.mp hx
    exact (by simpa using hj : j = k) ▸ hm
  · intro h
    exact List.mem_map.mpr ⟨_, List.mem_filter.mpr ⟨h, by simp⟩, rfl⟩

/-- If they do not get into each other's way, the calls of one request can be made first. -/
theorem foldl_callsOf {σ : Type} {act : σ → Call → σ} {j k : Nat} (hjk : j ≠ k)
    (hmade : ∀ x ∈ made, x.1 = j ∨ x.1 = k)
    (h : ∀ early x late, made = early ++ x :: late → x.1 = j →
      (∀ y ∈ early, y.1 = k → ∀ a, act (act a y.2) x.2 = act (act a x.2) y.2) ∨
        ∃ y ∈ late, y.1 = k ∧ ∀ a b, act a y.2 = act b y.2) (a : σ) :
    (made.map Prod.snd).foldl act a =
      (Crew.callsOf j made ++ Crew.callsOf k made).foldl act a := by
  have hother {x : Crew.Made} (hx : x ∈ made) : (!decide (x.1 = j)) = decide (x.1 = k) := by
    rcases hmade x hx with he | he
    · simp [he, hjk]
    · simp [he, Ne.symm hjk]
  have hfirst : made.foldl (fun a x => act a x.2) a = _ :=
    foldl_first (fun a (x : Crew.Made) => act a x.2) (fun x => decide (x.1 = j))
      (fun early x late he hx => ?_) a
  · rw [List.foldl_map, hfirst, List.foldl_append, List.foldl_append, Crew.callsOf, Crew.callsOf,
      List.foldl_map, List.foldl_map, List.filter_congr fun x hx => hother hx]
  · have hmem {y : Crew.Made} (hy : y ∈ early ∨ y ∈ late) (hf : decide (y.1 = j) = false) :
        y.1 = k :=
      (hmade y (by rw [he]; rcases hy with hy | hy <;> simp [hy])).resolve_left (by simpa using hf)
    rcases h early x late he (by simpa using hx) with hc | ⟨y, hy, hk, hc⟩
    · exact .inl fun y hy hf => hc y hy (hmem (.inl hy) hf)
    · exact .inr ⟨y, hy, by simpa [hk] using Ne.symm hjk, hc⟩

end

end Renewals.Service
