import Renewals.Proofs.Store.Rows
/-! Tables that check prices and terms, and tables that do not. Where nothing is written that a
table with constraints refuses, nobody can tell one from the other. -/
namespace Renewals.Store

/-- No constraint refuses what is written. -/
def Admissible : Query → Prop
  | .create s | .update _ s => s.violation? = none
  | _ => True

/-- The same rows in a table of another kind. -/
def under (schema : Schema) (s : Store) : Store := { s with schema }

variable {q : Query}

theorem checkRow_of_violation?_eq_none {s : Subscription} (h : s.violation? = none)
    (schema : Schema) (name : String) : checkRow schema name s = .ok () := by
  unfold checkRow
  split
  next hc => exact absurd (h.symm.trans hc) (by simp)
  next => rfl

theorem run_congr_schema (hq : Admissible q) (schema other : Schema) (t : Table) :
    run schema t q = run other t q := by
  cases q with
  | create s =>
    simp only [run, checkRow_of_violation?_eq_none hq]
  | update id s =>
    cases id with
    | none => rfl
    | some id => simp only [run, checkRow_of_violation?_eq_none hq]
  | _ => rfl

theorem reach_checked (o : Outcome) (q : Query) : reach o .checked q = reach o .plain q := by
  cases o <;> rfl

/-- A table with constraints answers as one without. -/
theorem ask_checked (hq : Admissible q) (o : Outcome) {s : Store} (hs : s.schema = .plain) :
    (s.under .checked).ask o q = ((s.ask o q).1, (s.ask o q).2.under .checked) := by
  have hsession : session o .checked s.table q = session o s.schema s.table q := by
    unfold session
    rw [hs, reach_checked, run_congr_schema hq .checked .plain]
  unfold ask
  split
  next => rfl
  next =>
    simp only [under, hsession]
    cases session o s.schema s.table q <;> rfl

/-- It may fail, but not over a constraint of the table. -/
def Unchecked {α : Type} (x : Except StoreFault α) : Prop :=
  ∀ name constraint, x ≠ .error (.unavailable name (.check constraint))

/-- A failure that no constraint is behind. -/
abbrev Unchecked.Fault (f : StoreFault) : Prop :=
  ∀ name constraint, f ≠ .unavailable name (.check constraint)

theorem unchecked_iff {α : Type} {x : Except StoreFault α} :
    Unchecked x ↔ FailsOnly Unchecked.Fault x := by
  constructor
  · intro h f hf name constraint he
    exact h name constraint (he ▸ hf)
  · intro h name constraint he
    exact h _ he name constraint rfl

theorem unchecked_prepare (q : Query) : FailsOnly Unchecked.Fault (prepare q) := by
  cases q with
  | sum w => exact .mapError fun _ _ => by simp [Unchecked.Fault]
  | _ => exact .ok ()

theorem unchecked_take (p : Parameter) : FailsOnly Unchecked.Fault (take p) := by
  unfold take
  split
  · split <;> simp [FailsOnly, Unchecked.Fault]
  · split <;> simp [FailsOnly, Unchecked.Fault]

theorem unchecked_reach (o : Outcome) (schema : Schema) (q : Query) :
    FailsOnly Unchecked.Fault (reach o schema q) := by
  unfold reach
  split
  · simp [Unchecked.Fault]
  · simp [Unchecked.Fault]
  · simp [Unchecked.Fault]
  · split <;> simp [FailsOnly, Unchecked.Fault]
  · exact .forM fun p _ => unchecked_take p

theorem unchecked_run (hq : Admissible q) (schema : Schema) (t : Table) :
    FailsOnly Unchecked.Fault (run schema t q) := by
  cases q with
  | create s =>
    simp only [run, checkRow_of_violation?_eq_none hq]
    refine .bind (.ok ()) fun _ _ => ?_
    split
    · exact .ok _
    · simp [throw, throwThe, MonadExceptOf.throw, Unchecked.Fault]
  | update id s =>
    cases id with
    | none => exact .ok _
    | some id =>
      simp only [run, checkRow_of_violation?_eq_none hq]
      split
      · exact .ok _
      · exact .bind (.ok ()) fun _ _ => .ok _
  | read id =>
    simp only [run]
    split
    · exact .ok _
    · simp [Unchecked.Fault]
  | sum w =>
    exact .bind (.mapError fun _ _ => by simp [Unchecked.Fault]) fun _ _ =>
      .bind (.mapError fun _ _ => by simp [Unchecked.Fault]) fun _ _ => .ok _
  | _ => exact .ok _

theorem unchecked_commit (o : Outcome) (q : Query) : FailsOnly Unchecked.Fault (commit o q) := by
  unfold commit
  split
  · simp [Unchecked.Fault]
  · exact .ok ()

/-- Behind a broken constraint there is a query that is not admissible. -/
theorem unchecked_ask (hq : Admissible q) (o : Outcome) (s : Store) : Unchecked (s.ask o q).1 :=
  unchecked_iff.mpr <| failsOnly_ask (by simp [Unchecked.Fault]) (unchecked_prepare q)
    (unchecked_reach o s.schema q) (unchecked_run hq s.schema s.table) (unchecked_commit o q)

end Renewals.Store
