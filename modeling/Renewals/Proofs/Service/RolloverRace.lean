import Renewals.Proofs.Service.RolloverTurns
/-! A rollover beside a request that updates or removes an entry. The rollover works on rows that it
has found beforehand. As long as it is not overtaken, it is as if one had come after the other. -/
namespace Renewals.Service

/-- The rollover is done with the row and the entry before the writing is. A row that has been
removed can still be dated, to no effect. -/
structure Writing.Ahead (id : Int) (w : Writing) (made : List Crew.Made) : Prop where
  rows : w ≠ .remove → Before (madeBy 0 (Call.dates id)) (madeBy 1 Call.asks) made
  entry : Yields (madeBy 0 (Call.touches id)) (madeBy 1 (Call.touches id)) made

/-- The rollover finds what the writing has left, and puts the entry behind it. -/
structure Writing.Behind (id : Int) (made : List Crew.Made) : Prop where
  rows : Before (madeBy 1 Call.asks) (madeBy 0 Call.seeks) made
  entry : Before (madeBy 1 (Call.touches id)) (madeBy 0 (Call.touches id)) made

section
variable {p : Policy} {today : Day} {id : Int} {w : Writing} {d : Deployment} {calls : List Call}
  {early late : List Crew.Made}

section
variable {t : Table} {made front back : List Crew.Made} {x y : Crew.Made}

/-- What counts of the rows is as if the rollover had come first. -/
theorem Whole.settled_first (h : Whole p today t calls made) (hscript : w.Script p id calls)
    (schema : Schema) (u : Table) :
    w.settled id ((made.map Prod.snd).foldl (rowsBehind schema) u) =
      w.settled id ((rolling p today t ++ calls).foldl (rowsBehind schema) u) := by
  have hany {c : Call} (hc : c ∈ rolling p today t ∨ c ∈ calls) (u : Table) :
      w.settled id (rowsBehind schema (w.settled id u) c) =
        w.settled id (rowsBehind schema u c) := by
    rcases hc with hc | hc
    · rcases rowsBehind_of_mem_rolling hc schema with ⟨m, rfl⟩ | hr
      · exact w.settled_rowsBehind_dateOf m u
      · rw [hr, hr, w.settled_settled]
    · exact hscript.settled_rowsBehind hc u
  have hmade : ∀ c ∈ made.map Prod.snd, ∀ u, w.settled id (rowsBehind schema (w.settled id u) c) =
      w.settled id (rowsBehind schema u c) := by
    intro c hc
    obtain ⟨x, hx, rfl⟩ := List.mem_map.mp hc
    exact hany (h.mem hx)
  have hboth : ∀ c ∈ rolling p today t ++ calls, ∀ u,
      w.settled id (rowsBehind schema (w.settled id u) c) =
        w.settled id (rowsBehind schema u c) := fun c hc => hany (List.mem_append.mp hc)
  rw [Writing.settled_foldl hmade, Writing.settled_foldl hboth, ← h.rollover, ← h.writing]
  refine foldl_callsOf (by decide) h.both (fun front x back he hx => .inl fun y hy hk u => ?_) _
  have hx' := h.mem_rolling (he ▸ by simp) hx
  have hy' := h.mem_calls (he ▸ List.mem_append_left _ hy) hk
  rcases rowsBehind_of_mem_rolling hx' schema with ⟨m, hm⟩ | hr
  · rw [hm]
    exact hscript.settled_comm hy' m u
  · rw [hr, hr, w.settled_settled, hscript.settled_rowsBehind hy']

/-- The rows are as if the rollover had come first, unless it dates a row behind its update. -/
theorem Whole.rows_first (h : Whole p today t calls made) (hscript : w.Script p id calls)
    (hdates : w ≠ .remove → Before (madeBy 0 (Call.dates id)) (madeBy 1 Call.asks) made)
    (schema : Schema) (u : Table) : (made.map Prod.snd).foldl (rowsBehind schema) u =
      (rolling p today t ++ calls).foldl (rowsBehind schema) u := by
  rw [← h.rollover, ← h.writing]
  refine foldl_callsOf (by decide) h.both (fun front x back he hx => .inl fun y hy hk u => ?_) u
  have hx' := h.mem_rolling (he ▸ by simp) hx
  have hy' := h.mem_calls (he ▸ List.mem_append_left _ hy) hk
  rcases rowsBehind_of_mem_rolling hx' schema with ⟨m, hm⟩ | hr
  · rw [hm]
    refine hscript.rows_dateOf hy' ?_ u
    by_cases hid : m.id = id
    · refine .inr (or_iff_not_imp_left.mpr fun hw => ?_)
      by_contra ha
      have hlate := (hdates hw).of_mem he hy (by simpa [madeBy, hk] using ha)
      rw [madeBy, hx, hm, ← hid, dates_dateOf] at hlate
      exact absurd hlate (by decide)
    · exact .inl hid
  · rw [hr, hr]

theorem Whole.entry_first (h : Whole p today t calls made) (hscript : w.Script p id calls)
    (hputs : Yields (madeBy 0 (Call.touches id)) (madeBy 1 (Call.touches id)) made)
    (now : Binary64) (entry : Option LooseText) :
    (made.map Prod.snd).foldl (entryBehind now (cacheKey id)) entry =
      (rolling p today t ++ calls).foldl (entryBehind now (cacheKey id)) entry := by
  rw [← h.rollover, ← h.writing]
  refine foldl_callsOf (by decide) h.both (fun front x back he hx => ?_) entry
  have hcall {y : Crew.Made} (hy : y ∈ front ∨ y ∈ back) (hk : y.1 = 1) : y.2 ∈ calls :=
    h.mem_calls (by rcases hy with hy | hy <;> simp [he, hy]) hk
  by_cases hself : ∀ entry, entryBehind now (cacheKey id) entry x.2 = entry
  · exact .inl fun y _ _ entry => by rw [hself, hself]
  -- What is left is that the rollover puts the entry of the writing.
  obtain ⟨m, hm⟩ : ∃ m, x.2 = entryOf p m := by
    rcases Service.mem_rolling (h.mem_rolling (he ▸ by simp) hx) with hm | ⟨m, hm | hm⟩
    · exact absurd (fun entry => by rw [hm, entryBehind_of_asks rfl]) hself
    · exact absurd (fun entry => by rw [hm, entryBehind_of_asks (c := dateOf m) rfl]) hself
    · exact ⟨m, hm⟩
  have hid : m.id = id := by
    by_contra hid
    exact hself fun entry => by rw [hm, entryBehind_entryOf_of_ne hid]
  have hput : madeBy 0 (Call.touches id) x = true := by
    rw [madeBy, hx, hm, ← hid, touches_entryOf]
    rfl
  rcases (he ▸ hputs).split hput (by simp [madeBy, hx]) with hlate | hearly
  · obtain ⟨y, hy, hty⟩ := List.any_eq_true.mp hlate
    obtain ⟨hk, hty⟩ := Bool.and_eq_true_iff.mp hty
    have hk : y.1 = 1 := by simpa using hk
    exact .inr ⟨y, hy, hk,
      hscript.entry (hcall (.inr hy) hk) (Call.asks_of_touches hty) now⟩
  · refine .inl fun y hy hk entry => ?_
    have hasks : y.2.asks = true := by
      by_contra ha
      have hty := hscript.touches (hcall (.inl hy) hk) (Bool.not_eq_true _ ▸ ha)
      exact List.any_eq_false.mp hearly y hy (by simp [madeBy, hk, hty])
    rw [entryBehind_of_asks hasks, entryBehind_of_asks hasks]

end

theorem Cut.foldl_behind {σ : Type} {act : σ → Call → σ} (hcut : Cut p today d calls early late)
    (hquery : ∀ a, act a (.ask (.overdue today)) = a)
    (h : ∀ front x back, late = front ++ x :: back → x.1 = 1 → ∀ y ∈ front, y.1 = 0 →
      ∀ a, act (act a y.2) x.2 = act (act a x.2) y.2) (a : σ) :
    ((early ++ (0, .ask (.overdue today)) :: late).map Prod.snd).foldl act a =
      (calls ++ .ask (.overdue today) :: Crew.callsOf 0 late).foldl act a := by
  have hlate := foldl_callsOf (by decide) (fun x hx => (hcut.both x hx).symm)
    fun front x back he hx => .inl (h front x back he hx)
  rw [← hcut.writing]
  simp only [List.map_append, List.map_cons, List.foldl_append, List.foldl_cons, hquery, hlate]

/-- If the writing has asked the store first, the rollover finds what it has left. -/
theorem Cut.rolling_eq (hcut : Cut p today d calls early late)
    (hno : ∀ c ∈ Crew.callsOf 1 late, c.asks = false) :
    rolling p today (calls.foldl (rowsBehind d.store.schema) d.store.table) =
      .ask (.overdue today) :: Crew.callsOf 0 late := by
  rw [rolling, hcut.rollover, ← hcut.writing, List.foldl_append, foldl_rowsBehind_of_not_asks hno]

theorem Cut.rows_second (hcut : Cut p today d calls early late)
    (hno : ∀ c ∈ Crew.callsOf 1 late, c.asks = false) :
    ((early ++ (0, .ask (.overdue today)) :: late).map Prod.snd).foldl (rowsBehind d.store.schema)
        d.store.table =
      (calls ++ rolling p today (calls.foldl (rowsBehind d.store.schema) d.store.table)).foldl
        (rowsBehind d.store.schema) d.store.table := by
  rw [hcut.rolling_eq hno]
  refine hcut.foldl_behind (fun t => rowsBehind_overdue t today)
    (fun front x back he hx y _ _ t => ?_) _
  have hc : x.2.asks = false := hno _ (mem_callsOf.mpr (by rw [← hx, he]; simp))
  rw [rowsBehind_of_not_asks hc, rowsBehind_of_not_asks hc]

/-- The entry is as if the rollover had come second, unless it puts it before the writing does. -/
theorem Cut.entry_second (hcut : Cut p today d calls early late)
    (hno : ∀ c ∈ Crew.callsOf 1 late, c.asks = false)
    (hclear : ∀ m ∈ moved today
        ((early.map Prod.snd).foldl (rowsBehind d.store.schema) d.store.table),
      ∀ front x back, late = front ++ x :: back → x.1 = 1 → (0, entryOf p m) ∈ front →
        m.id ≠ id) (now : Binary64) (entry : Option LooseText) :
    ((early ++ (0, .ask (.overdue today)) :: late).map Prod.snd).foldl
        (entryBehind now (cacheKey id)) entry =
      (calls ++ rolling p today (calls.foldl (rowsBehind d.store.schema) d.store.table)).foldl
        (entryBehind now (cacheKey id)) entry := by
  rw [hcut.rolling_eq hno]
  refine hcut.foldl_behind (fun entry => entryBehind_of_asks rfl _ _ entry)
    (fun front x back he hx y hy hk entry => ?_) entry
  have hy' : (0, y.2) ∈ front := hk ▸ hy
  obtain ⟨m, hmoved, hm⟩ :=
    mem_moves (hcut.rollover ▸ mem_callsOf.mpr (he ▸ List.mem_append_left _ hy'))
  have hself (entry : Option LooseText) : entryBehind now (cacheKey id) entry y.2 = entry := by
    rcases hm with hm | hm
    · rw [hm, entryBehind_of_asks (c := dateOf m) rfl]
    · rw [hm, entryBehind_entryOf_of_ne (hclear m hmoved front x back he hx (hm ▸ hy'))]
  rw [hself, hself]

/-- A writing that has asked the store does not ask it again. -/
theorem Cut.not_asks (hcut : Cut p today d calls early late) (hscript : w.Script p id calls)
    {x : Crew.Made} (hx : x ∈ early) (ha : x.2.asks = true) :
    ∀ c ∈ Crew.callsOf 1 late, c.asks = false := by
  have honce := hscript.asks_once
  rw [← hcut.writing] at honce
  exact fun c hc => (List.pairwise_append.mp honce).2.2 _ (List.mem_map_of_mem hx) c hc ha

/-- If the rollover has found the rows before the writing asks the store, it can be ahead only. -/
theorem Cut.ahead (hcut : Cut p today d calls early late) (hscript : w.Script p id calls)
    (hno : ∀ x ∈ early, x.2.asks = false)
    (horder : w.Ahead id (early ++ (0, .ask (.overdue today)) :: late) ∨
      Writing.Behind id (early ++ (0, .ask (.overdue today)) :: late)) :
    w.Ahead id (early ++ (0, .ask (.overdue today)) :: late) := by
  rcases horder with h | h
  · exact h
  -- The writing asks neither before the query nor behind it, so it makes no calls.
  have hnone : calls = [] := by
    refine hscript.eq_nil fun c hc => ?_
    rw [← hcut.writing] at hc
    rcases List.mem_append.mp hc with hc | hc
    · obtain ⟨x, hx, rfl⟩ := List.mem_map.mp hc
      exact hno x hx
    · have hlate := (List.pairwise_cons.mp (List.pairwise_append.mp h.rows).2.1).1 _
        (mem_callsOf.mp hc) rfl
      simpa [madeBy] using hlate
  have hquiet (f : Call → Bool) : ∀ x ∈ early ++ (0, .ask (.overdue today)) :: late,
      madeBy 1 f x = false := by
    intro x hx
    by_contra hf
    have hk : x.1 = 1 := by
      have := (Bool.and_eq_true_iff.mp (Bool.not_eq_false _ ▸ hf)).1
      simpa using this
    have hmem := (hcut.whole hno).mem_calls hx hk
    rw [hnone] at hmem
    exact absurd hmem List.not_mem_nil
  exact ⟨fun _ => List.pairwise_of_forall_mem_list fun x hx y _ ha =>
    Bool.noConfusion (ha.symm.trans (hquiet _ x hx)), Yields.of_none (hquiet _)⟩

/-- A row that the rollover puts into the cache before the last call of a writing that came first
is another one. -/
theorem Cut.ne_of_asked (hcut : Cut p today d calls early late) (hd : Ready p d)
    (hscript : w.Script p id calls)
    (horder : w.Ahead id (early ++ (0, .ask (.overdue today)) :: late) ∨
      Writing.Behind id (early ++ (0, .ask (.overdue today)) :: late))
    {x y : Crew.Made} (hx : x ∈ early) (ha : x.2.asks = true) {m : Row}
    (hm : m ∈ moved today ((early.map Prod.snd).foldl (rowsBehind d.store.schema) d.store.table))
    {front back : List Crew.Made} (he : late = front ++ y :: back) (hy : y.1 = 1)
    (hput : (0, entryOf p m) ∈ front) : m.id ≠ id := by
  rintro rfl
  rcases horder with h | h
  · cases w with
    | remove =>
      obtain ⟨r, hr, hid⟩ := exists_of_mem_movedRows hm
      refine hscript.ne_of_remove hd.schema (fun c hc => ?_) (List.mem_map_of_mem hx) ha hd.storable
        (List.mem_filter.mp hr).1 hid
      exact hcut.writing ▸ List.mem_append_left _ hc
    | update today' username o userUid =>
      have hdate : (0, dateOf m) ∈ late := by
        refine mem_callsOf.mp (hcut.rollover ▸ ?_)
        exact List.mem_flatMap.mpr ⟨m, hm, List.mem_cons_self⟩
      have hbefore := (List.pairwise_append.mp (h.rows Writing.noConfusion)).2.2 x hx _
        (List.mem_cons_of_mem _ hdate) (by simp [madeBy, hcut.alone x hx, ha])
      simp [madeBy, dates_dateOf] at hbefore
  · have hcall : y.2 ∈ Crew.callsOf 1 late := mem_callsOf.mpr (by rw [← hy, he]; simp)
    have hsplit : early ++ (0, .ask (.overdue today)) :: late =
        (early ++ (0, .ask (.overdue today)) :: front) ++ y :: back := by simp [he]
    have hlast := h.entry.of_mem hsplit (List.mem_append_right _ (List.mem_cons_of_mem _ hput))
      (by simp [madeBy, touches_entryOf])
    have htouch := hscript.touches (hcut.writing ▸ List.mem_append_right _ hcall)
      (hcut.not_asks hscript hx ha _ hcall)
    simp [madeBy, hy, htouch] at hlast

/-! One after the other -/

theorem Ready.run_rollover (hd : Ready p d) {d' : Deployment} (hd' : Going p today id w d d')
    (hr : ∀ r ∈ d'.store.table.rows, (w ≠ .remove ∧ r.id = id) ∨ r ∈ d.store.table.rows) :
    (d'.run (serve p (.rollover today))).2 = d'.after (rolling p today d'.store.table) := by
  obtain ⟨behind, hroll, hbehind⟩ := hd.makes_moves today id w
  rw [Deployment.run, hroll]
  exact (hbehind d' hd').run (fun c hc d hd => hd.answer (fits_moves hr c hc))
    (hd'.answer goesOn_query)

theorem Ready.finish_first (hd : Ready p d) (hscript : w.Script p id calls)
    (hmakes : (serve p (w.request id)).run.Makes (Going p today id w d) calls) :
    finish (serve p) [.call (.rollover today), .call (w.request id)] d =
        d.after (rolling p today d.store.table ++ calls) ∧
      ∀ c ∈ rolling p today d.store.table ++ calls, GoesOn p today id w d c := by
  have hcalls := hscript.goesOn today d
  have hroll : ∀ c ∈ rolling p today d.store.table, GoesOn p today id w d c :=
    goesOn_rolling fun r hr => .inr hr
  have hfirst := hd.run_rollover (hd.going today id w) fun r hr => .inr hr
  have hgoing : Going p today id w d (d.run (serve p (.rollover today))).2 := by
    rw [hfirst]
    exact (hd.going today id w).after hroll
  constructor
  · rw [Deployment.after_append, ← hfirst]
    exact hmakes.run (fun c hc d hd => hd.answer (hcalls c hc)) hgoing
  · intro c hc
    exact (List.mem_append.mp hc).elim (hroll c) (hcalls c)

theorem Ready.finish_second (hd : Ready p d) (hscript : w.Script p id calls)
    (hmakes : (serve p (w.request id)).run.Makes (Going p today id w d) calls) :
    let all := calls ++ rolling p today (calls.foldl (rowsBehind d.store.schema) d.store.table)
    finish (serve p) [.call (w.request id), .call (.rollover today)] d = d.after all ∧
      ∀ c ∈ all, GoesOn p today id w d c := by
  have hcalls := hscript.goesOn today d
  have htable := (hd.going today id w).table_after hcalls
  have hold : ∀ r ∈ (d.after calls).store.table.rows,
      (w ≠ .remove ∧ r.id = id) ∨ r ∈ d.store.table.rows := fun r hr =>
    hscript.mem_rows_foldl (fun c hc => hc) (htable ▸ hr)
  have hfirst : (d.run (serve p (w.request id))).2 = d.after calls :=
    hmakes.run (fun c hc d hd => hd.answer (hcalls c hc)) (hd.going today id w)
  have hgoing : Going p today id w d (d.run (serve p (w.request id))).2 := by
    rw [hfirst]
    exact (hd.going today id w).after hcalls
  have hold' : ∀ r ∈ (d.run (serve p (w.request id))).2.store.table.rows,
      (w ≠ .remove ∧ r.id = id) ∨ r ∈ d.store.table.rows := by
    rw [hfirst]
    exact hold
  constructor
  · rw [Deployment.after_append, ← htable, ← hfirst]
    exact hd.run_rollover hgoing hold'
  · intro c hc
    exact (List.mem_append.mp hc).elim (hcalls c) (goesOn_rolling (htable ▸ hold) c)

theorem Cut.goesOn (hcut : Cut p today d calls early late) (hscript : w.Script p id calls) :
    ∀ c ∈ (early ++ (0, .ask (.overdue today)) :: late).map Prod.snd, GoesOn p today id w d c := by
  have hcalls := hscript.goesOn today d
  have hearly : ∀ c ∈ early.map Prod.snd, c ∈ calls := fun c hc =>
    hcut.writing ▸ List.mem_append_left _ hc
  intro c hc
  rw [List.map_append, List.map_cons] at hc
  rcases List.mem_append.mp hc with hc | hc
  · exact hcalls c (hearly c hc)
  · rcases List.mem_cons.mp hc with rfl | hc
    · exact goesOn_query
    · obtain ⟨x, hx, rfl⟩ := List.mem_map.mp hc
      rcases hcut.both x hx with hk | hk
      · have hm : x.2 ∈ Crew.callsOf 0 late := mem_callsOf.mpr (hk ▸ hx)
        exact fits_moves (fun r hr => hscript.mem_rows_foldl hearly hr) x.2 (hcut.rollover ▸ hm)
      · have hm : x.2 ∈ Crew.callsOf 1 late := mem_callsOf.mpr (hk ▸ hx)
        exact hcalls _ (hcut.writing ▸ List.mem_append_right _ hm)

end

/-- The two orders in which one can come after the other. -/
def inTurn (today : Day) (id : Int) (w : Writing) : List (List Step) :=
  [[.call (.rollover today), .call (w.request id)], [.call (w.request id), .call (.rollover today)]]

/-- A rollover and an update or a removal, with no failures. The rows are as if one had come after
the other, but for the payment date of a row that is updated. If the cache has room, and the
rollover is done with the row and its entry before the other is or finds what the other has left,
then the rows and the entry are as if one had come after the other. -/
theorem rollover_beside_writing (p : Policy) (today : Day) (id : Int) (w : Writing)
    {d : Deployment} (hd : Ready p d) {order : List Nat}
    (hdone : ((pair p today id w d).play order).Done) :
    let made := (pair p today id w d).trace order
    let left := ((pair p today id w d).play order).deployment
    (∃ steps ∈ inTurn today id w, w.settled id left.store.table =
        w.settled id (finish (serve p) steps d).store.table) ∧
      (d.cache.RoomFor (concerned today id d.store.table) →
        w.Ahead id made ∨ Writing.Behind id made →
          ∃ steps ∈ inTurn today id w,
            view (cacheKey id) left = view (cacheKey id) (finish (serve p) steps d)) := by
  intro made left
  obtain ⟨calls, hscript, hmakes⟩ : ∃ calls, w.Script p id calls ∧
      (serve p (w.request id)).run.Makes (Going p today id w d) calls := exists_script hd.suits w
  obtain ⟨early, late, htrace, hcut⟩ := exists_cut hd hscript hmakes hdone
  obtain ⟨hfirst, hfits⟩ := hd.finish_first hscript hmakes
  obtain ⟨hsecond, hfits'⟩ := hd.finish_second hscript hmakes
  have hgoing := hd.going today id w
  have hleft : left = d.after ((early ++ (0, .ask (.overdue today)) :: late).map Prod.snd) :=
    htrace ▸ Crew.deployment_play _ order
  have hmade := hcut.goesOn hscript
  by_cases hasked : ∃ x ∈ early, x.2.asks = true
  · -- The rollover finds what the writing has left.
    obtain ⟨x, hx, ha⟩ := hasked
    have hrows := hcut.rows_second (hcut.not_asks hscript hx ha)
    refine ⟨⟨_, List.mem_cons_of_mem _ List.mem_cons_self, ?_⟩,
      fun hroom horder => ⟨_, List.mem_cons_of_mem _ List.mem_cons_self, ?_⟩⟩
    · rw [hleft, hsecond, hgoing.table_after hmade, hgoing.table_after hfits', hrows]
    · have hentry := hcut.entry_second (hcut.not_asks hscript hx ha)
        fun m hm front y back he hy hput =>
          hcut.ne_of_asked hd hscript (htrace ▸ horder) hx ha hm he hy hput
      rw [hleft, hsecond, hgoing.view_after hd.suits hroom hmade,
        hgoing.view_after hd.suits hroom hfits']
      exact Prod.ext hrows (hentry _ _)
  · -- It finds the rows as they were, and what it writes of them can be late.
    have hno : ∀ x ∈ early, x.2.asks = false := fun x hx =>
      Bool.eq_false_iff.mpr fun ha => hasked ⟨x, hx, ha⟩
    have hwhole := hcut.whole hno
    refine ⟨⟨_, List.mem_cons_self, ?_⟩, fun hroom horder => ⟨_, List.mem_cons_self, ?_⟩⟩
    · rw [hleft, hfirst, hgoing.table_after hmade, hgoing.table_after hfits]
      exact hwhole.settled_first hscript _ _
    · have hahead := hcut.ahead hscript hno (htrace ▸ horder)
      rw [hleft, hfirst, hgoing.view_after hd.suits hroom hmade,
        hgoing.view_after hd.suits hroom hfits]
      exact Prod.ext (hwhole.rows_first hscript hahead.rows _ _)
        (hwhole.entry_first hscript hahead.entry _ _)

open Deployment (someSubscription someToday small)

/-- An update to another date that has passed. -/
def someWriting : Writing :=
  .update someToday (.whole "alice")
    ⟨.whole "music", 900, .whole "2025-07-01", 3, true⟩ none

/-- A rollover of one row, or more, beside the update of the first. -/
def smallPair (d : Deployment) : Crew :=
  pair Settings.standard.policy someToday 1 someWriting d

theorem ready_small : Ready Settings.standard.policy (small (.remote .empty)) where
  steady := Deployment.steady_small (by simp [Cache.HasRoom, Cache.size?])
  schema := .inl rfl
  storable := Deployment.storable_small _
  suits := ⟨fun _ => by decide, by decide +kernel⟩

/-- The update falls in between, but for each of its calls the rollover has come first. -/
theorem rollover_alternating :
    ∃ steps ∈ inTurn someToday 1 someWriting,
      view (cacheKey 1) ((smallPair (small (.remote .empty))).play [0, 0, 1, 0, 1]).deployment =
        view (cacheKey 1)
          (finish (serve Settings.standard.policy) steps (small (.remote .empty))) :=
  (rollover_beside_writing Settings.standard.policy someToday 1 someWriting ready_small
    (by decide +kernel)).2 (fun _ h => by cases h)
      (.inl ⟨fun _ => by decide +kernel, by decide +kernel⟩)

/-- Two rows, and a cache for one entry. -/
def crowded : Deployment :=
  let d := small (.memory (.empty 1))
  { d with store := { d.store with table := d.store.table.insert someSubscription } }

theorem steady_crowded : crowded.Steady :=
  ⟨fun _ h => absurd h List.not_mem_nil, fun _ h => absurd h List.not_mem_nil,
    fun h => absurd (Option.some.inj h) (by decide)⟩

theorem storable_crowded : crowded.store.table.Storable := by
  intro r hr
  have hsmall := Deployment.storable_small (.memory (.empty 1))
  rcases Table.mem_insert.mp hr with hr | rfl
  · exact hsmall r hr
  · exact { (hsmall _ (List.mem_singleton.mpr rfl)).toStorable with id := by decide +kernel }

theorem ready_crowded : Ready Settings.standard.policy crowded where
  steady := steady_crowded
  schema := .inl rfl
  storable := storable_crowded
  suits := ⟨fun h => (by cases h), by decide +kernel⟩

/-- An update that comes between the query and what the rollover writes is undone in part. And in a
cache that is too small the entry of the update can give way to those that the rollover puts. -/
theorem not_in_turn :
    (∃ (p : Policy) (today : Day) (id : Int) (w : Writing) (d : Deployment) (order : List Nat),
      Ready p d ∧ d.cache.items = [] ∧ ((pair p today id w d).play order).Done ∧
        ¬ ∃ steps ∈ inTurn today id w,
          view (cacheKey id) ((pair p today id w d).play order).deployment =
            view (cacheKey id) (finish (serve p) steps d)) ∧
    ∃ (p : Policy) (today : Day) (id : Int) (w : Writing) (d : Deployment) (order : List Nat),
      Ready p d ∧ d.cache.items = [] ∧ ((pair p today id w d).play order).Done ∧
        w.Ahead id ((pair p today id w d).trace order) ∧
        ¬ ∃ steps ∈ inTurn today id w,
          view (cacheKey id) ((pair p today id w d).play order).deployment =
            view (cacheKey id) (finish (serve p) steps d) := by
  have hdates {v v' : Table × Option LooseText} (h : v = v') :
      v.1.rows.map (·.nextPayment) = v'.1.rows.map (·.nextPayment) := by rw [h]
  have hturns {today : Day} {id : Int} {w : Writing} {steps : List Step}
      (h : steps ∈ inTurn today id w) :
      steps = [.call (.rollover today), .call (w.request id)] ∨
        steps = [.call (w.request id), .call (.rollover today)] := by
    simpa [inTurn] using h
  constructor
  · refine ⟨Settings.standard.policy, someToday, 1, someWriting,
      small (.remote .empty), [0, 1, 1, 0, 0], ready_small, rfl, by decide +kernel, ?_⟩
    rintro ⟨steps, hsteps, h⟩
    rcases hturns hsteps with rfl | rfl
    · exact absurd (hdates h) (by decide +kernel)
    · exact absurd (hdates h) (by decide +kernel)
  · refine ⟨Settings.standard.policy, someToday, 1, someWriting, crowded,
      [0, 0, 0, 1, 1, 0, 0], ready_crowded, rfl, by decide +kernel,
      ⟨fun _ => by decide +kernel, by decide +kernel⟩, ?_⟩
    rintro ⟨steps, hsteps, h⟩
    rcases hturns hsteps with rfl | rfl
    · exact absurd (congrArg (·.2.isSome) h) (by decide +kernel)
    · exact absurd (hdates h) (by decide +kernel)

end Renewals.Service
