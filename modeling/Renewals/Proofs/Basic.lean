/-! Steps that may fail, lists in which no two members share a key, and actions in a row of which
some can be done before the others. -/
namespace Renewals

/-- Steps that succeed in turn have each succeeded. -/
theorem exists_of_bind_eq_ok {ε α β : Type} {x : Except ε α} {f : α → Except ε β} {b : β}
    (h : x >>= f = .ok b) : ∃ a, x = .ok a ∧ f a = .ok b := by
  cases x with
  | error e => exact absurd h (by simp [bind, Except.bind])
  | ok a => exact ⟨a, rfl, h⟩

@[simp] theorem mapError_ok {ε ε' α : Type} (f : ε → ε') (a : α) :
    (Except.ok a : Except ε α).mapError f = .ok a := rfl

@[simp] theorem mapError_error {ε ε' α : Type} (f : ε → ε') (e : ε) :
    (Except.error e : Except ε α).mapError f = .error (f e) := rfl

theorem eq_ok_of_mapError {ε ε' α : Type} {f : ε → ε'} {x : Except ε α} {a : α}
    (h : x.mapError f = .ok a) : x = .ok a := by
  cases x with
  | error e => exact absurd h (by simp)
  | ok b => exact congrArg _ (Except.ok.inj h)

theorem exists_of_map_eq_ok {ε α β : Type} {f : α → β} {x : Except ε α} {b : β}
    (h : x.map f = .ok b) : ∃ a, x = .ok a ∧ f a = b := by
  cases x with
  | error e => exact absurd h (by simp [Except.map])
  | ok a => exact ⟨a, rfl, Except.ok.inj h⟩

theorem eq_error_of_map {ε α β : Type} {f : α → β} {x : Except ε α} {e : ε}
    (h : x.map f = .error e) : x = .error e := by
  cases x with
  | error e => exact congrArg _ (Except.error.inj h)
  | ok a => exact absurd h (by simp [Except.map])

theorem eq_ok_of_toOption {ε α : Type} {x : Except ε α} {a : α} (h : x.toOption = some a) :
    x = .ok a := by
  cases x with
  | error e => exact absurd h (by simp [Except.toOption])
  | ok b => exact congrArg _ (Option.some.inj h)

/-- Those of one kind and those of another, if none is of both. -/
theorem countP_or {α : Type} {p q : α → Bool} {xs : List α}
    (h : ∀ x ∈ xs, p x = true → q x = false) :
    xs.countP (fun x => p x || q x) = xs.countP p + xs.countP q := by
  rw [List.countP_eq_countP_filter_add xs _ p, List.countP_filter, List.countP_filter]
  congr 1
  · exact List.countP_congr fun x _ => by cases p x <;> simp
  · apply List.countP_congr
    intro x hx
    cases hp : p x with
    | true => simp [h x hx hp]
    | false => simp

/-- It may fail, but only in such ways. -/
def FailsOnly {ε α : Type} (E : ε → Prop) (x : Except ε α) : Prop := ∀ e, x = .error e → E e

namespace FailsOnly
variable {ε ε' α β : Type} {E : ε → Prop}

theorem ok (a : α) : FailsOnly E (.ok a) := by
  intro e h
  exact absurd h (by simp)

@[simp] theorem error_iff {e : ε} : FailsOnly E (.error e : Except ε α) ↔ E e := by
  simp [FailsOnly]

theorem bind {x : Except ε α} {next : α → Except ε β} (hx : FailsOnly E x)
    (hn : ∀ a, x = .ok a → FailsOnly E (next a)) : FailsOnly E (x >>= next) := by
  cases x with
  | error e => exact error_iff.mpr (hx e rfl)
  | ok a => exact hn a rfl

theorem mapError {E' : ε' → Prop} {f : ε → ε'} {x : Except ε α}
    (h : FailsOnly (fun e => E' (f e)) x) : FailsOnly E' (x.mapError f) := by
  cases x with
  | error e => exact error_iff.mpr (h e rfl)
  | ok a => exact ok a

theorem forM {f : α → Except ε Unit} {xs : List α} (h : ∀ a ∈ xs, FailsOnly E (f a)) :
    FailsOnly E (xs.forM f) := by
  induction xs with
  | nil => exact ok ()
  | cons a xs ih =>
    exact bind (h a List.mem_cons_self) fun _ _ => ih fun b hb => h b (List.mem_cons_of_mem a hb)

end FailsOnly

variable {α κ : Type} [DecidableEq κ] {key : α → κ} {xs : List α}

theorem find?_of_mem (hd : xs.Pairwise fun a b => key a ≠ key b) {a : α} (ha : a ∈ xs) :
    xs.find? (key · == key a) = some a := by
  induction xs with
  | nil => exact absurd ha List.not_mem_nil
  | cons b xs ih =>
    obtain ⟨hb, hr⟩ := List.pairwise_cons.mp hd
    rcases List.mem_cons.mp ha with rfl | ha
    · rw [List.find?_cons_of_pos (by simp)]
    · rw [List.find?_cons_of_neg (by simpa using hb a ha)]
      exact ih hr ha

theorem eq_of_key_eq (hd : xs.Pairwise fun a b => key a ≠ key b) {a b : α} (ha : a ∈ xs)
    (hb : b ∈ xs) (h : key a = key b) : a = b := by
  have hf := find?_of_mem hd ha
  rw [h, find?_of_mem hd hb] at hf
  exact (Option.some.inj hf).symm

section
variable {σ β : Type} {act : σ → β → σ} {first : β → Bool}

theorem foldl_of_overwrite {xs : List β} {x : β} (hx : x ∈ xs) (hc : ∀ a b, act a x = act b x)
    (a b : σ) : xs.foldl act a = xs.foldl act b := by
  obtain ⟨early, late, rfl⟩ := List.append_of_mem hx
  rw [List.foldl_append, List.foldl_append, List.foldl_cons, List.foldl_cons, hc]

theorem foldl_act_comm {xs : List β} {y : β} (h : ∀ x ∈ xs, ∀ a, act (act a y) x = act (act a x) y)
    (a : σ) : xs.foldl act (act a y) = act (xs.foldl act a) y := by
  induction xs generalizing a with
  | nil => rfl
  | cons x xs ih =>
    rw [List.foldl_cons, List.foldl_cons, h x List.mem_cons_self,
      ih fun z hz => h z (List.mem_cons_of_mem x hz)]

/-- Some actions can be done before all others, if each of them commutes with the others that stand
before it, or one of the others overwrites everything behind it. -/
theorem foldl_first (act : σ → β → σ) (first : β → Bool) {xs : List β}
    (h : ∀ early x late, xs = early ++ x :: late → first x = true →
      (∀ y ∈ early, first y = false → ∀ a, act (act a y) x = act (act a x) y) ∨
        ∃ y ∈ late, first y = false ∧ ∀ a b, act a y = act b y) (a : σ) :
    xs.foldl act a = (xs.filter first ++ xs.filter (!first ·)).foldl act a := by
  induction xs generalizing a with
  | nil => rfl
  | cons z xs ih =>
    have ih := ih (fun early x late he hx => by
      rcases h (z :: early) x late (by rw [he, List.cons_append]) hx with hc | hc
      · exact .inl fun y hy => hc y (List.mem_cons_of_mem z hy)
      · exact .inr hc)
    cases hz : first z with
    | true => simp only [List.foldl_cons, ih, List.filter_cons, hz, ↓reduceIte, List.cons_append,
        Bool.not_true, Bool.false_eq_true]
    | false =>
      simp only [List.foldl_cons, ih, List.filter_cons, hz, Bool.false_eq_true, ↓reduceIte,
        Bool.not_false, List.foldl_append]
      by_cases hover : ∃ y ∈ xs, first y = false ∧ ∀ a b, act a y = act b y
      · obtain ⟨y, hy, hf, hc⟩ := hover
        exact foldl_of_overwrite (List.mem_filter.mpr ⟨hy, by simp [hf]⟩) hc _ _
      · rw [foldl_act_comm fun x hx a => ?_]
        obtain ⟨hx, hf⟩ := List.mem_filter.mp hx
        obtain ⟨early, late, rfl⟩ := List.append_of_mem hx
        rcases h (z :: early) x late rfl hf with hc | ⟨y, hy, hc⟩
        · exact hc z List.mem_cons_self hz a
        · exact absurd ⟨y, List.mem_append_right _ (List.mem_cons_of_mem x hy), hc⟩ hover

end

end Renewals
