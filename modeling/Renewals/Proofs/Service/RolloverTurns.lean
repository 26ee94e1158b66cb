import Renewals.Proofs.Service.Precedence
import Renewals.Proofs.Service.Scripts
/-! A rollover in turns with a request that updates or removes an entry. Its query cuts the calls of
both in two. -/
namespace Renewals.Service

/-- A rollover and a writing, neither of them begun. -/
def pair (p : Policy) (today : Day) (id : Int) (w : Writing) (d : Deployment) : Crew where
  plans := [(serve p (.rollover today)).run, (serve p (w.request id)).run]
  deployment := d

/-- The calls that are made, cut at the query of the rollover. -/
structure Cut (p : Policy) (today : Day) (start : Deployment) (calls : List Call)
    (early late : List Crew.Made) : Prop where
  alone : ∀ x ∈ early, x.1 = 1
  both : ∀ x ∈ late, x.1 = 0 ∨ x.1 = 1
  writing : early.map Prod.snd ++ Crew.callsOf 1 late = calls
  rollover : Crew.callsOf 0 late = moves p today
    ((early.map Prod.snd).foldl (rowsBehind start.store.schema) start.store.table)

/-- Nothing fails. -/
structure Ready (p : Policy) (d : Deployment) : Prop where
  steady : d.Steady
  schema : d.store.schema = .plain ∨ d.store.schema = .checked
  storable : d.store.table.Storable
  suits : Suits p d

section
variable {p : Policy} {today : Day} {id : Int} {w : Writing} {d : Deployment} {calls : List Call}

/-- What stays true meanwhile. -/
abbrev Going (p : Policy) (today : Day) (id : Int) (w : Writing) (d : Deployment) :
    Deployment → Prop :=
  Calm p (concerned today id d.store.table) (w.Keeps id (d.store.table.hits id)) d

theorem Ready.going (hd : Ready p d) (today : Day) (id : Int) (w : Writing) :
    Going p today id w d d where
  steady := hd.steady
  storable := hd.storable
  schema := rfl
  clock := rfl
  size := rfl
  room := fun hr => hr
  rows := by cases w <;> trivial

/-- Calls under which it stays true. -/
abbrev GoesOn (p : Policy) (today : Day) (id : Int) (w : Writing) (d : Deployment) : Call → Prop :=
  Fits p (concerned today id d.store.table) (w.Keeps id (d.store.table.hits id)) d

theorem goesOn_query : GoesOn p today id w d (.ask (.overdue today)) := fun t ht => by
  rw [Store.rowsAfter_of_not_writes rfl]
  exact ht

theorem Writing.Script.goesOn (h : w.Script p id calls) (today : Day) (d : Deployment) :
    ∀ c ∈ calls, GoesOn p today id w d c :=
  h.fits List.mem_cons_self _

theorem goesOn_rolling {t : Table}
    (hr : ∀ r ∈ t.rows, (w ≠ .remove ∧ r.id = id) ∨ r ∈ d.store.table.rows) :
    ∀ c ∈ rolling p today t, GoesOn p today id w d c := by
  intro c hc
  rcases List.mem_cons.mp hc with rfl | hc
  · exact goesOn_query
  · exact fits_moves hr c hc

theorem Ready.makes_moves (hd : Ready p d) (today : Day) (id : Int) (w : Writing) : ∃ behind,
    (serve p (.rollover today)).run = .call (.ask (.overdue today)) behind ∧
      ∀ d', Going p today id w d d' →
        (behind (Deployment.answer (.ask (.overdue today)) d').1).Makes (Going p today id w d)
          (moves p today d'.store.table) :=
  Service.makes_moves hd.schema hd.suits

theorem lt_two {k : Nat} {x : Plan (Except Failure Reply)}
    (h : (pair p today id w d).plans[k]? = some x) : k < 2 :=
  (List.getElem?_eq_some_iff.mp h).1

/-- What the writing will do is known from the start. -/
theorem Ready.scripted_writing (hd : Ready p d) (hscript : w.Script p id calls)
    (hmakes : (serve p (w.request id)).run.Makes (Going p today id w d) calls) :
    (pair p today id w d).Scripted (Going p today id w d) (· ≠ 0) fun _ => calls where
  good := hd.going today id w
  plans k hk plan hp := by
    have hlt := lt_two hp
    obtain rfl : k = 1 := by omega
    exact Option.some.inj hp ▸ hmakes
  keeps _ _ x hx _ hd' := hd'.answer (hscript.goesOn today d x hx)

/-- From its query on it is known what the rollover will do. -/
theorem scripted_both {c : Crew} {behind : (Call.ask (.overdue today)).Answer →
      Plan (Except Failure Reply)} {rest : Nat → List Call}
    (hc : c.Scripted (Going p today id w d) (· ≠ 0) rest) (hlen : c.plans.length = 2)
    (hcall : c.plans[0]? = some (.call (.ask (.overdue today)) behind))
    (hbehind : ∀ d', Going p today id w d d' →
      (behind (Deployment.answer (.ask (.overdue today)) d').1).Makes (Going p today id w d)
        (moves p today d'.store.table))
    (hrows : ∀ r ∈ c.deployment.store.table.rows,
      (w ≠ .remove ∧ r.id = id) ∨ r ∈ d.store.table.rows) :
    (c.turn 0).Scripted (Going p today id w d) (fun _ => True) fun k =>
      if k = 0 then moves p today c.deployment.store.table else rest k where
  good := by
    rw [Crew.turn_of_call hcall]
    exact hc.good.answer goesOn_query
  plans k _ plan hp := by
    rw [Crew.turn_of_call hcall] at hp
    by_cases hk : k = 0
    · subst hk
      obtain rfl := Option.some.inj ((List.getElem?_set_self (by omega)).symm.trans hp)
      exact hbehind _ hc.good
    · rw [if_neg hk]
      exact hc.plans k hk plan ((List.getElem?_set_ne (Ne.symm hk)).symm.trans hp)
  keeps k _ x hx d' hd' := by
    by_cases hk : k = 0
    · rw [if_pos hk] at hx
      exact hd'.answer (fits_moves hrows x hx)
    · rw [if_neg hk] at hx
      exact hc.keeps k hk x hx d' hd'

theorem exists_cut (hd : Ready p d) (hscript : w.Script p id calls)
    (hmakes : (serve p (w.request id)).run.Makes (Going p today id w d) calls) {order : List Nat}
    (hdone : ((pair p today id w d).play order).Done) : ∃ early late,
      (pair p today id w d).trace order = early ++ (0, .ask (.overdue today)) :: late ∧
        Cut p today d calls early late := by
  let c := pair p today id w d
  obtain ⟨behind, hroll, hbehind⟩ := hd.makes_moves today id w
  have hfirst : c.plans[0]? = some (.call (.ask (.overdue today)) behind) := congrArg some hroll
  have hzero : 0 ∈ order := by
    by_contra hno
    obtain ⟨r, hr⟩ := hdone _ (List.mem_of_getElem? ((Crew.plans_of_not_mem hno).trans hfirst))
    cases hr
  obtain ⟨front, back, rfl, hfront⟩ := List.eq_append_cons_of_mem hzero
  let c₁ := c.play front
  have hcall : c₁.plans[0]? = some (.call (.ask (.overdue today)) behind) :=
    (Crew.plans_of_not_mem hfront).trans hfirst
  have hlen₁ : c₁.plans.length = 2 := Crew.length_play c front
  have hlen₂ : (c₁.turn 0).plans.length = 2 := by
    rw [Crew.turn_of_call hcall, List.length_set, hlen₁]
  -- Until the query only the writing has its turns.
  have hnotzero : ∀ k ∈ front, k ≠ 0 := fun k hk he => hfront (he ▸ hk)
  obtain ⟨rest, hrest, hsplit⟩ := (hd.scripted_writing hscript hmakes).play hnotzero
  have halone : ∀ x ∈ c.trace front, x.1 = 1 := by
    intro x hx
    obtain ⟨hmem, hlt⟩ := Crew.mem_trace hx
    have hne := hnotzero _ hmem
    have hlt : x.1 < 2 := hlt
    omega
  have hown : (c.trace front).map Prod.snd ++ rest 1 = calls := by
    rw [hsplit 1 (by decide), Crew.callsOf,
      List.filter_eq_self.mpr fun x hx => by simp [halone x hx]]
  have hearly : ∀ x ∈ (c.trace front).map Prod.snd, x ∈ calls := fun x hx =>
    hown ▸ List.mem_append_left _ hx
  have htable : c₁.deployment.store.table = ((c.trace front).map Prod.snd).foldl
      (rowsBehind d.store.schema) d.store.table := by
    rw [Crew.deployment_play]
    exact (hd.going today id w).table_after fun x hx => hscript.goesOn today d x (hearly x hx)
  -- From then on the calls of both are known.
  have hboth := scripted_both hrest hlen₁ hcall hbehind fun r hr =>
    hscript.mem_rows_foldl hearly (htable ▸ hr)
  have hdone' : ((c₁.turn 0).play back).Done := by
    rw [Crew.play_append, Crew.play_cons] at hdone
    exact hdone
  have hcalls {k : Nat} (hk : k < 2) :=
    hboth.callsOf_of_done (fun _ _ => trivial) hdone' trivial (hlen₂.symm ▸ hk)
  refine ⟨c.trace front, (c₁.turn 0).trace back, ?_, halone, ?_, ?_, ?_⟩
  · rw [Crew.trace_append, Crew.trace_cons_of_call hcall]
  · intro x hx
    have hlt := (Crew.mem_trace hx).2
    omega
  · rw [hcalls (by decide)]
    exact hown
  · rw [hcalls (by decide), ← htable]
    rfl

variable {early late : List Crew.Made}

/-- All calls of a rollover that finds the rows of `t`, among those of the writing. -/
structure Whole (p : Policy) (today : Day) (t : Table) (calls : List Call)
    (made : List Crew.Made) : Prop where
  both : ∀ x ∈ made, x.1 = 0 ∨ x.1 = 1
  rollover : Crew.callsOf 0 made = rolling p today t
  writing : Crew.callsOf 1 made = calls

/-- If the writing has not asked the store before, the rollover finds what it would find first. -/
theorem Cut.whole (hcut : Cut p today d calls early late)
    (hno : ∀ x ∈ early, x.2.asks = false) :
    Whole p today d.store.table calls (early ++ (0, .ask (.overdue today)) :: late) where
  both x hx := by
    rcases List.mem_append.mp hx with hx | hx
    · exact .inr (hcut.alone x hx)
    · rcases List.mem_cons.mp hx with rfl | hx
      · exact .inl rfl
      · exact hcut.both x hx
  rollover := by
    have hnone : early.filter (fun x => decide (x.1 = 0)) = [] :=
      List.filter_eq_nil_iff.mpr fun x hx => by simp [hcut.alone x hx]
    have hstill : (early.map Prod.snd).foldl (rowsBehind d.store.schema) d.store.table =
        d.store.table := foldl_rowsBehind_of_not_asks (fun c hc => by
      obtain ⟨x, hx, rfl⟩ := List.mem_map.mp hc
      exact hno x hx) _
    have hroll := hcut.rollover
    rw [hstill] at hroll
    rw [rolling, ← hroll]
    simp [Crew.callsOf, hnone]
  writing := by
    have hall : early.filter (fun x => decide (x.1 = 1)) = early :=
      List.filter_eq_self.mpr fun x hx => by simp [hcut.alone x hx]
    rw [← hcut.writing]
    simp [Crew.callsOf, hall]

section
variable {t : Table} {made front back : List Crew.Made} {x y : Crew.Made}

theorem Whole.mem_calls (h : Whole p today t calls made) (hy : y ∈ made) (hk : y.1 = 1) :
    y.2 ∈ calls :=
  h.writing ▸ mem_callsOf.mpr (hk ▸ hy)

theorem Whole.mem_rolling (h : Whole p today t calls made) (hx : x ∈ made) (hk : x.1 = 0) :
    x.2 ∈ rolling p today t :=
  h.rollover ▸ mem_callsOf.mpr (hk ▸ hx)

theorem Whole.mem (h : Whole p today t calls made) (hx : x ∈ made) :
    x.2 ∈ rolling p today t ∨ x.2 ∈ calls :=
  (h.both x hx).imp (h.mem_rolling hx) (h.mem_calls hx)

end

end

end Renewals.Service
