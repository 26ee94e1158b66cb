import Renewals.Proofs.Task.History
/-! Attempts in a row with a pause between two of them, up to the first that succeeds. -/
namespace Renewals

def Answered.sleeps? : Answered → Option Seconds
  | slept pause => some pause
  | _ => none

namespace Task

/-- Attempts from number `number` on, `left` of them. -/
def retry {ε α : Type} (attempt : Nat → Task (Except ε α)) (giveUp : Option ε → Failure)
    (pause : Seconds) : Nat → Nat → Option ε → Task α
  | 0, _, last => throw (giveUp last)
  | left + 1, number, _ => do
    match ← attempt number with
    | .ok a => pure a
    | .error e => do
      if left ≠ 0 then sleep pause
      retry attempt giveUp pause left (number + 1) (some e)

/-- Histories one after the other, with a pause between two of them and nowhere else. -/
def paced (pause : Seconds) (rounds : List (List Answered)) : List Answered :=
  [.slept pause].intercalate rounds

section
variable {pause : Seconds} {round : List Answered} {rounds : List (List Answered)}

@[simp] theorem paced_nil : paced pause [] = [] := rfl

@[simp] theorem paced_singleton : paced pause [round] = round := List.append_nil round

theorem paced_cons (h : rounds ≠ []) :
    paced pause (round :: rounds) = round ++ .slept pause :: paced pause rounds := by
  obtain ⟨next, rest, rfl⟩ := List.exists_cons_of_ne_nil h
  simp [paced, List.intercalate_cons_cons]

theorem exists_paced_concat : ∃ before, paced pause (rounds ++ [round]) = before ++ round := by
  induction rounds with
  | nil => exact ⟨[], paced_singleton⟩
  | cons first rounds ih =>
    obtain ⟨before, hbefore⟩ := ih
    refine ⟨first ++ .slept pause :: before, ?_⟩
    rw [List.cons_append, paced_cons (by simp), hbefore]
    simp

/-- What the pauses do not contribute to comes from the rounds alone. -/
theorem filterMap_paced {β : Type} {f : Answered → Option β} (hf : f (.slept pause) = none) :
    (paced pause rounds).filterMap f = rounds.flatMap (List.filterMap f) := by
  induction rounds with
  | nil => rfl
  | cons round rounds ih =>
    by_cases h : rounds = []
    · subst h
      simp
    · rw [paced_cons h, List.filterMap_append, List.filterMap_cons_none hf, ih, List.flatMap_cons]

theorem filterMap_sleeps_paced (h : ∀ round ∈ rounds, round.filterMap Answered.sleeps? = []) :
    (paced pause rounds).filterMap Answered.sleeps? = List.replicate (rounds.length - 1) pause := by
  induction rounds with
  | nil => rfl
  | cons round rounds ih =>
    have hround := h round List.mem_cons_self
    by_cases hr : rounds = []
    · subst hr
      simpa using hround
    · have hlen : rounds.length - 1 + 1 = rounds.length :=
        Nat.sub_add_cancel (List.length_pos_iff.mpr hr)
      have hpause : Answered.sleeps? (.slept pause) = some pause := rfl
      rw [paced_cons hr, List.filterMap_append, hround, List.nil_append,
        List.filterMap_cons_some hpause, ih fun x hx => h x (List.mem_cons_of_mem _ hx),
        List.length_cons, Nat.add_sub_cancel, ← List.replicate_succ, hlen]

end

/-- The histories of attempts that are numbered from `number` on. -/
def rounds {δ : Type} (miss : Nat → δ → List Answered) (number : Nat) (failed : List δ) :
    List (List Answered) :=
  (failed.zipIdx number).map fun x => miss x.2 x.1

section
variable {δ : Type} {miss : Nat → δ → List Answered} {number : Nat}

@[simp] theorem rounds_nil : rounds miss number [] = [] := rfl

@[simp] theorem rounds_cons {x : δ} {failed : List δ} :
    rounds miss number (x :: failed) = miss number x :: rounds miss (number + 1) failed := rfl

@[simp] theorem length_rounds {failed : List δ} :
    (rounds miss number failed).length = failed.length := by simp [rounds]

/-- What does not depend on the numbers comes from the attempts in turn. -/
theorem filterMap_rounds {β : Type} {f : Answered → Option β} {g : δ → List β} {pause : Seconds}
    (hf : f (.slept pause) = none) (hg : ∀ number x, (miss number x).filterMap f = g x)
    (failed : List δ) (final : List (List Answered)) :
    (paced pause (rounds miss number failed ++ final)).filterMap f =
      failed.flatMap g ++ final.flatMap (List.filterMap f) := by
  rw [filterMap_paced hf, List.flatMap_append]
  congr 1
  induction failed generalizing number with
  | nil => rfl
  | cons x failed ih => rw [rounds_cons, List.flatMap_cons, hg, ih, List.flatMap_cons]

end

variable {ε α δ : Type} {attempt : Nat → Task (Except ε α)} {giveUp : Option ε → Failure}
  {pause : Seconds} {miss : Nat → δ → List Answered} {cause : δ → ε} {P : δ → Prop}

/-- In front of the attempts to come there is a pause exactly if there are any. -/
theorem exists_of_ends_pause {left : Nat} {next : Task α} {h : List Answered}
    {r : Except Failure α}
    (hr : Ends (do
      if left ≠ 0 then sleep pause
      next) h r) :
    ∃ rest, next.Ends rest r ∧ h = if left = 0 then rest else .slept pause :: rest := by
  by_cases hl : left = 0
  · subst hl
    exact ⟨h, hr, rfl⟩
  · rw [if_pos hl] at hr
    obtain ⟨_, rest, rfl, hrest⟩ := ends_perform_bind.mp hr
    exact ⟨rest, hrest, (if_neg hl).symm⟩

/-- Either all attempts fail, or the last one made succeeds or breaks the loop off. -/
theorem exists_of_ends_retry
    (hmiss : ∀ number h e, (attempt number).Ends h (.ok (.error e)) →
      ∃ x, P x ∧ h = miss number x ∧ e = cause x)
    {left number : Nat} {last : Option ε} {h : List Answered} {r : Except Failure α}
    (hr : (retry attempt giveUp pause left number last).Ends h r) :
    ∃ failed : List δ, (∀ x ∈ failed, P x) ∧
      ((failed.length = left ∧ h = paced pause (rounds miss number failed) ∧
          r = .error (giveUp ((failed.map (some ∘ cause)).getLastD last))) ∨
        (failed.length < left ∧ ∃ final x,
          h = paced pause (rounds miss number failed ++ [final]) ∧
          (attempt (number + failed.length)).Ends final x ∧
          ((∃ a, x = .ok (.ok a) ∧ r = .ok a) ∨ ∃ f, x = .error f ∧ r = .error f))) := by
  induction left generalizing number last h with
  | zero =>
    obtain ⟨rfl, rfl⟩ := ends_throw.mp hr
    exact ⟨[], by simp, .inl ⟨rfl, rfl, rfl⟩⟩
  | succ left ih =>
    rcases ends_bind.mp hr with ⟨x, early, late, rfl, hx, hlate⟩ | ⟨f, hf, rfl⟩
    · cases x with
      | ok a =>
        obtain ⟨rfl, rfl⟩ := ends_pure.mp hlate
        refine ⟨[], by simp, .inr ⟨Nat.succ_pos _, early, _, ?_, hx, .inl ⟨a, rfl, rfl⟩⟩⟩
        simp
      | error e =>
        obtain ⟨x, hP, rfl, rfl⟩ := hmiss _ _ _ hx
        obtain ⟨rest, hrest, rfl⟩ := exists_of_ends_pause hlate
        obtain ⟨failed, hfailed, hcase⟩ := ih hrest
        refine ⟨x :: failed, List.forall_mem_cons.mpr ⟨hP, hfailed⟩, ?_⟩
        rcases hcase with ⟨hlen, rfl, rfl⟩ | ⟨hlen, final, y, rfl, hy, hend⟩
        · refine .inl ⟨congrArg (· + 1) hlen, ?_, ?_⟩
          · by_cases hl : left = 0
            · obtain rfl : failed = [] := List.eq_nil_of_length_eq_zero (hlen.trans hl)
              simp [hl]
            · rw [if_neg hl, rounds_cons, paced_cons]
              intro hnil
              have hlen' : (rounds miss (number + 1) failed).length = left := by
                rw [length_rounds, hlen]
              exact hl (by rw [← hlen', hnil, List.length_nil])
          · rw [List.map_cons, List.getLastD_cons]
            rfl
        · refine .inr ⟨Nat.succ_lt_succ hlen, final, y, ?_, ?_, hend⟩
          · rw [if_neg (Nat.ne_of_gt (Nat.zero_lt_of_lt hlen)), rounds_cons, List.cons_append,
              paced_cons (by simp)]
          · rwa [List.length_cons, Nat.add_comm failed.length, ← Nat.add_assoc]
    · refine ⟨[], by simp, .inr ⟨Nat.succ_pos _, h, _, ?_, hf, .inr ⟨f, rfl, rfl⟩⟩⟩
      simp

end Task
end Renewals
