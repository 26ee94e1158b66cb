import Renewals.Proofs.Service.Stages
import Renewals.Proofs.Service.Turns
/-! A removal among readers of the same entry. What a reader has found in the store before the
removal and puts into the cache behind it stays there. -/
namespace Renewals.Service

section
variable (p : Policy) (id : Int)

/-- The stages of a read. -/
inductive Reader : Plan (Except Failure Reply) → Prop
  | asked {plan} (h : plan = (serve p (.read id)).run) : Reader plan
  | missed {plan} (h : plan = (asEntry (refill p id)).run) : Reader plan
  | found {plan} (row : Row) (hid : row.id = id) (h : plan = (asEntry (putBack p row)).run) :
    Reader plan
  | done {plan} (r : Except Failure Reply) (h : plan = .done r) : Reader plan

/-- The stages of a removal. -/
inductive Remover (s : Store) : Plan (Except Failure Reply) → Prop
  | asked {plan} (h : plan = (serve p (.remove id)).run) : Remover s plan
  | forgot {plan} (h : plan = (asRows (removeStored id)).run) : Remover s plan
  | removed {plan} (n : Nat) (hgone : s.Lacks id)
    (h : plan = (asRows (forgetAgain id n)).run) : Remover s plan
  | done {plan} (r : Except Failure Reply) (h : plan = .done r) : Remover s plan

end

/-- A request that is about to put a value under a key. -/
def Putting (key : LooseText) (plan : Plan (Except Failure Reply)) : Prop :=
  ∃ payload ttl next, plan = .call (.put key payload ttl) next

section
variable {p : Policy} {id : Int}

theorem not_putting_done {key : LooseText} {plan : Plan (Except Failure Reply)}
    {r : Except Failure Reply} (h : plan = .done r) : ¬ Putting key plan := by
  rintro ⟨_, _, _, hp⟩
  rw [h] at hp
  cases hp

theorem reader_of_asked {plan : Plan (Except Failure Reply)}
    (h : plan = (serve p (.read id)).run) : ∃ next, plan = .call (.fetch (cacheKey id)) next ∧
      ∀ a, Reader p id (next a) ∧ ¬ Putting (cacheKey id) (next a) := by
  obtain ⟨next, heq, hmiss, hhit, herr⟩ := serve_read_eq p id
  refine ⟨next, h.trans heq, fun a => ?_⟩
  cases a with
  | error f =>
    obtain ⟨r, hr⟩ := herr f
    exact ⟨.done r hr, not_putting_done hr⟩
  | ok found =>
    cases found with
    | none =>
      refine ⟨.missed hmiss, fun ⟨_, _, _, hput⟩ => ?_⟩
      rw [hmiss] at hput
      cases hput
    | some payload =>
      obtain ⟨r, hr⟩ := hhit payload
      exact ⟨.done r hr, not_putting_done hr⟩

/-- Calls go well, and what readers put lives. -/
structure Smooth (p : Policy) (d : Deployment) : Prop where
  steady : d.Steady
  pos : 0 < p.ttl
  life : ∃ e, expiry? d.clock p.ttl = some e ∧ d.clock.below e = true

theorem Smooth.answer {d : Deployment} (hd : Smooth p d) (call : Call) :
    Smooth p (Deployment.answer call d).2 where
  steady := hd.steady.answer call
  pos := hd.pos
  life := by
    rw [Deployment.clock_answer]
    exact hd.life

theorem Smooth.put {d : Deployment} (hd : Smooth p d) (key payload : LooseText) :
    (Deployment.answer (.put key payload p.ttl) d).1 = .ok () := by
  obtain ⟨e, he, -⟩ := hd.life
  exact hd.steady.put (fun _ => hd.pos) (Cache.isSome_of_expiry? he) key payload

/-- A turn of a reader. It leaves the rows alone; it brings the entry if it was about to, and is
about to only if it has found the row. -/
structure ReaderTurn (p : Policy) (id : Int) (d d' : Deployment)
    (plan plan' : Plan (Except Failure Reply)) : Prop where
  schema : d'.store.schema = d.store.schema
  table : d'.store.table = d.store.table
  reader : Reader p id plan'
  effect : (¬ Putting (cacheKey id) plan ∧
      d'.cache.live? d.clock (cacheKey id) = d.cache.live? d.clock (cacheKey id) ∧
      (d.store.table.find? id = none → ¬ Putting (cacheKey id) plan')) ∨
    (Putting (cacheKey id) plan ∧ d'.cache.live? d.clock (cacheKey id) ≠ none)

theorem Reader.turn {plan : Plan (Except Failure Reply)} (h : Reader p id plan) {d : Deployment}
    (hd : Smooth p d) : (∃ r, plan = .done r) ∨ ∃ call next, plan = .call call next ∧
      ReaderTurn p id d (Deployment.answer call d).2 plan (next (Deployment.answer call d).1) := by
  cases h with
  | done r h => exact .inl ⟨r, h⟩
  | asked h =>
    obtain ⟨next, heq, hnext⟩ := reader_of_asked h
    obtain ⟨hr, hp⟩ := hnext (Deployment.answer (.fetch (cacheKey id)) d).1
    have hstore := Deployment.store_answer (c := .fetch (cacheKey id)) (by simp) d
    refine .inr ⟨_, next, heq, ⟨Deployment.schema_answer _ d, by rw [hstore], hr, ?_⟩⟩
    refine .inl ⟨?_, Deployment.live?_fetch _, fun _ => hp⟩
    rw [heq]
    exact fun ⟨_, _, _, h⟩ => by cases h
  | missed h =>
    obtain ⟨next, heq, hrow, herr⟩ := refill_eq p id
    have hno : ¬ Putting (cacheKey id) plan := by
      rw [h, heq]
      exact fun ⟨_, _, _, h⟩ => by cases h
    refine .inr ⟨_, next, h.trans heq, ?_⟩
    cases ha : (Deployment.answer (.ask (.read id)) d).1 with
    | ok row =>
      have hfind := (Store.run_read (Deployment.run_of_ask ha).2).1
      refine ⟨Deployment.schema_answer _ d, Deployment.table_of_ask_ok rfl ha,
        .found row (Table.find?_eq_some_iff.mp hfind).2 (hrow row), .inl ⟨hno, rfl, fun hn => ?_⟩⟩
      exact absurd (hn.symm.trans hfind) (Option.some_ne_none _).symm
    | error f =>
      obtain ⟨r, hr⟩ := herr f
      exact ⟨Deployment.schema_answer _ d, Deployment.table_of_ask_error ha, .done r hr,
        .inl ⟨hno, rfl, fun _ => not_putting_done hr⟩⟩
  | found row hid h =>
    subst hid
    obtain ⟨next, heq, r, hr⟩ := putBack_eq p row
    obtain ⟨e, he, hl⟩ := hd.life
    have hok := hd.put (cacheKey row.id) row.toJson.text
    have hlive := Deployment.live?_put hok (LifeLimit.expiry?_of_some he) hl
    refine .inr ⟨_, next, h.trans heq, ?_⟩
    refine ⟨Deployment.schema_answer _ d, by rw [Deployment.store_answer (by simp)],
      .done r (hok ▸ hr),
      .inr ⟨⟨_, _, next, h.trans heq⟩, ?_⟩⟩
    exact fun h => Option.some_ne_none _ (hlive.symm.trans h)

theorem exists_mem_set {α : Type} {P : α → Prop} {xs : List α} {k : Nat} {a b : α}
    (hk : xs[k]? = some a) (ha : ¬ P a) (hb : ¬ P b) :
    (∃ x ∈ xs.set k b, P x) ↔ ∃ x ∈ xs, P x := by
  constructor
  · rintro ⟨x, hx, hp⟩
    rcases List.mem_or_eq_of_mem_set hx with hx | rfl
    · exact ⟨x, hx, hp⟩
    · exact absurd hp hb
  · rintro ⟨x, hx, hp⟩
    obtain ⟨i, hi⟩ := List.mem_iff_getElem?.mp hx
    have hik : k ≠ i := by
      rintro rfl
      obtain rfl := Option.some.inj (hk.symm.trans hi)
      exact ha hp
    exact ⟨x, List.mem_iff_getElem?.mpr ⟨i, (List.getElem?_set_ne hik).trans hi⟩, hp⟩

/-! Until the removal is over -/

/-- A removal among readers. -/
structure Racing (p : Policy) (id : Int) (c : Crew) : Prop where
  smooth : Smooth p c.deployment
  plans : ∃ plan rest, c.plans = plan :: rest ∧ Remover p id c.deployment.store plan ∧
    ∀ q ∈ rest, Reader p id q

theorem Remover.turn {d : Deployment} {plan : Plan (Except Failure Reply)}
    (h : Remover p id d.store plan) (hd : d.Steady) : (∃ r, plan = .done r) ∨
      ∃ call next, plan = .call call next ∧
        Remover p id (Deployment.answer call d).2.store (next (Deployment.answer call d).1) := by
  cases h with
  | done r h => exact .inl ⟨r, h⟩
  | asked h =>
    obtain ⟨next, heq, hnext⟩ := serve_remove_eq p id
    refine .inr ⟨_, next, h.trans heq, .forgot ?_⟩
    rw [hd.drop, hnext]
  | forgot h =>
    obtain ⟨next, heq, hok, herr⟩ := removeStored_eq id
    refine .inr ⟨_, next, h.trans heq, ?_⟩
    cases ha : (Deployment.answer (.ask (.remove id)) d).1 with
    | error f => exact .done _ (herr f)
    | ok n =>
      obtain ⟨hsound, hstore⟩ := hd.ask (.remove id)
      refine .removed n ?_ (hok n)
      rw [hstore]
      exact Store.lacks_of_remove (hsound.symm.trans ha)
  | removed n hgone h =>
    obtain ⟨next, heq, hnext⟩ := forgetAgain_eq id n
    refine .inr ⟨_, next, h.trans heq, .done (.ok (.rows n)) ?_⟩
    rw [hd.drop, hnext]

theorem Remover.congr {s s' : Store} {plan : Plan (Except Failure Reply)}
    (h : Remover p id s plan) (hs : s'.schema = s.schema) (ht : s'.table = s.table) :
    Remover p id s' plan := by
  cases h with
  | asked h => exact .asked h
  | forgot h => exact .forgot h
  | removed n hgone h => exact .removed n ⟨ht ▸ hgone.find, hs ▸ hgone.reach⟩ h
  | done r h => exact .done r h

theorem Racing.turn {c : Crew} (hc : Racing p id c) (k : Nat) : Racing p id (c.turn k) := by
  obtain ⟨plan, rest, hplans, hplan, hrest⟩ := hc.plans
  cases k with
  | zero =>
    have hk : c.plans[0]? = some plan := by rw [hplans, List.getElem?_cons_zero]
    rcases hplan.turn hc.smooth.steady with ⟨r, h⟩ | ⟨call, next, h, ht⟩
    · rw [Crew.turn_of_done (h ▸ hk)]
      exact hc
    · rw [Crew.turn_of_call (h ▸ hk)]
      exact ⟨hc.smooth.answer call, _, rest, by rw [hplans, List.set_cons_zero], ht, hrest⟩
  | succ k =>
    cases hk : c.plans[k + 1]? with
    | none =>
      rw [Crew.turn_of_none hk]
      exact hc
    | some q =>
      have hq : q ∈ rest := by
        rw [hplans, List.getElem?_cons_succ] at hk
        exact List.mem_of_getElem? hk
      rcases (hrest q hq).turn hc.smooth with ⟨r, h⟩ | ⟨call, next, h, ht⟩
      · rw [Crew.turn_of_done (h ▸ hk)]
        exact hc
      · rw [Crew.turn_of_call (h ▸ hk)]
        refine ⟨hc.smooth.answer call, plan, _, by rw [hplans, List.set_cons_succ], ?_, ?_⟩
        · exact hplan.congr ht.schema ht.table
        · intro q' hq'
          rcases List.mem_or_eq_of_mem_set hq' with hq' | rfl
          · exact hrest q' hq'
          · exact ht.reader

/-! Behind the removal -/

/-- The row is gone, and only readers are left. -/
structure Gone (p : Policy) (id : Int) (c : Crew) : Prop where
  smooth : Smooth p c.deployment
  gone : c.deployment.store.Lacks id
  readers : ∀ plan ∈ c.plans, Reader p id plan

/-- The entry is there, or about to come. -/
def Showing (id : Int) (c : Crew) : Prop :=
  c.deployment.cache.live? c.deployment.clock (cacheKey id) ≠ none ∨
    ∃ plan ∈ c.plans, Putting (cacheKey id) plan

/-- A reader's turn neither brings the entry nor takes it away, if what is about to come counts. -/
theorem Gone.turn {c : Crew} (hc : Gone p id c) (k : Nat) :
    Gone p id (c.turn k) ∧ (Showing id (c.turn k) ↔ Showing id c) := by
  cases hk : c.plans[k]? with
  | none =>
    rw [Crew.turn_of_none hk]
    exact ⟨hc, Iff.rfl⟩
  | some plan =>
    rcases (hc.readers plan (List.mem_of_getElem? hk)).turn hc.smooth with
      ⟨r, h⟩ | ⟨call, next, h, ht⟩
    · rw [Crew.turn_of_done (h ▸ hk)]
      exact ⟨hc, Iff.rfl⟩
    · subst h
      rw [Crew.turn_of_call hk]
      refine ⟨⟨hc.smooth.answer call, ⟨ht.table ▸ hc.gone.find, ht.schema ▸ hc.gone.reach⟩,
        fun q hq => ?_⟩, ?_⟩
      · rcases List.mem_or_eq_of_mem_set hq with hq | rfl
        · exact hc.readers q hq
        · exact ht.reader
      · simp only [Showing, Deployment.clock_answer]
        rcases ht.effect with ⟨hp, hl, hn⟩ | ⟨hp, hl⟩
        · rw [hl, exists_mem_set hk hp (hn hc.gone.find)]
        · exact iff_of_true (.inl hl) (.inr ⟨_, List.mem_of_getElem? hk, hp⟩)

/-- The removal's last call leaves nothing in the cache but what readers are about to put. -/
theorem Racing.over {c : Crew} (hc : Racing p id c) (hopen : ∀ r, c.plans[0]? ≠ some (.done r))
    {reply : Reply} (hover : (c.turn 0).plans[0]? = some (.done (.ok reply))) :
    Gone p id (c.turn 0) ∧
      (Showing id (c.turn 0) ↔ ∃ plan ∈ c.plans, Putting (cacheKey id) plan) := by
  obtain ⟨plan, rest, hplans, hplan, hrest⟩ := hc.plans
  have hk : c.plans[0]? = some plan := by rw [hplans, List.getElem?_cons_zero]
  have hnew {call : Call} {next} (h : plan = .call call next) :
      next (Deployment.answer call c.deployment).1 = .done (.ok reply) := by
    rw [Crew.turn_of_call (h ▸ hk), hplans, List.set_cons_zero, List.getElem?_cons_zero] at hover
    exact Option.some.inj hover
  cases hplan with
  | done r h => exact absurd (h ▸ hk) (hopen r)
  | asked h =>
    obtain ⟨next, heq, hnext⟩ := serve_remove_eq p id
    have := hnew (h.trans heq)
    rw [hc.smooth.steady.drop, hnext] at this
    cases this
  | forgot h =>
    obtain ⟨next, heq, hok, herr⟩ := removeStored_eq id
    have := hnew (h.trans heq)
    cases ha : (Deployment.answer (.ask (.remove id)) c.deployment).1 with
    | ok n =>
      rw [ha, hok] at this
      cases this
    | error f =>
      rw [ha, herr] at this
      cases this
  | removed n hgone h =>
    obtain ⟨next, heq, hnext⟩ := forgetAgain_eq id n
    rw [h, heq] at hk
    rw [Crew.turn_of_call hk]
    have hs : (Deployment.answer (.drop (cacheKey id)) c.deployment).2.store = c.deployment.store :=
      Deployment.store_answer (by simp) _
    have hdrop := hc.smooth.steady.drop (cacheKey id)
    have hend := (congrArg next hdrop).trans hnext
    refine ⟨⟨hc.smooth.answer _, hs ▸ hgone, fun q hq => ?_⟩, ?_⟩
    · rw [hplans, List.set_cons_zero] at hq
      rcases List.mem_cons.mp hq with rfl | hq
      · exact .done _ hend
      · exact hrest q hq
    · simp only [Showing, Deployment.clock_answer, Deployment.live?_drop hdrop, ne_eq,
        not_true_eq_false, false_or]
      exact exists_mem_set hk (fun ⟨_, _, _, h⟩ => by cases h) (not_putting_done hend)

/-- Only an entry in the cache hides that there is no such row. -/
theorem read_of_lacks {d : Deployment} (hd : d.Steady) (hl : d.store.Lacks id) :
    (d.run (read p id)).1 ≠ .error (.store (.notFound id)) ↔
      d.cache.live? d.clock (cacheKey id) ≠ none := by
  have hfetch := hd.fetch (cacheKey id)
  let d' := (Deployment.answer (.fetch (cacheKey id)) d).2
  have hs : d'.store = d.store := Deployment.store_answer (by simp) d
  cases hlive : d.cache.live? d.clock (cacheKey id) with
  | none =>
    rw [hlive] at hfetch
    have hask : (Deployment.answer (.ask (.read id)) d').1 = .error (.notFound id) := by
      rw [((hd.answer _).ask _).1, hs]
      exact hl.read
    have hrun : d.run (read p id) = (.error (.store (.notFound id)),
        (Deployment.answer (.ask (.read id)) d').2) := by
      simp only [read, Deployment.run_bind, Deployment.run_getCached_none hfetch]
      refine (Deployment.run_bind (Task.ask (.read id)) _ d').trans ?_
      rw [Deployment.run_ask_error hask]
    exact iff_of_false (fun h => h (congrArg Prod.fst hrun)) fun h => h rfl
  | some payload =>
    rw [hlive] at hfetch
    refine iff_of_true (fun h => ?_) (Option.some_ne_none _)
    cases hdec : Cache.decode Snapshot.ofJson (cacheKey id) payload with
    | ok s =>
      simp only [read, Deployment.run_bind, Deployment.run_getCached_some hfetch hdec] at h
      cases h
    | error f =>
      simp only [read, Deployment.run_bind, Deployment.run_getCached_error hfetch hdec] at h
      cases h

/-- A removal and so many reads of one entry, none of them begun. -/
def race (p : Policy) (id : Int) (readers : Nat) (d : Deployment) : Crew where
  plans := (serve p (.remove id)).run :: List.replicate readers (serve p (.read id)).run
  deployment := d

theorem racing_race (n : Nat) {d : Deployment} (hd : Smooth p d) : Racing p id (race p id n d) where
  smooth := hd
  plans := ⟨_, _, rfl, .asked rfl, fun _ hq => .asked (List.eq_of_mem_replicate hq)⟩

end

/-- A removal among readers, with no failures. Once all have been answered, the entry is alive in
the cache, and a read does not find out that there is no such row, exactly if some reader had found
the row and was about to put it when the removal made its last call. -/
theorem live_after_remove_iff (p : Policy) {d : Deployment} (hd : Smooth p d) (id : Int) (n : Nat)
    (early late : List Nat) (hopen : ∀ r, ((race p id n d).play early).plans[0]? ≠ some (.done r))
    {reply : Reply}
    (hover : ((race p id n d).play (early ++ [0])).plans[0]? = some (.done (.ok reply)))
    (hdone : ((race p id n d).play (early ++ 0 :: late)).Done) :
    let pending := ∃ plan ∈ ((race p id n d).play early).plans, Putting (cacheKey id) plan
    let left := ((race p id n d).play (early ++ 0 :: late)).deployment
    (left.cache.live? left.clock (cacheKey id) ≠ none ↔ pending) ∧
      ((left.run (read p id)).1 ≠ .error (.store (.notFound id)) ↔ pending) := by
  intro pending left
  let c := (race p id n d).play early
  have hc : Racing p id c := Crew.play_induction (fun c k h => h.turn k) early (racing_race n hd)
  have hplay : (race p id n d).play (early ++ 0 :: late) = (c.turn 0).play late :=
    Crew.play_append _ early (0 :: late)
  rw [Crew.play_append] at hover
  obtain ⟨hgone, hshow⟩ := hc.over hopen hover
  obtain ⟨hgone', hshow'⟩ : Gone p id ((c.turn 0).play late) ∧
      (Showing id ((c.turn 0).play late) ↔ Showing id (c.turn 0)) :=
    Crew.play_induction (I := fun c' => Gone p id c' ∧ (Showing id c' ↔ Showing id (c.turn 0)))
      (fun c' k h => ⟨(h.1.turn k).1, (h.1.turn k).2.trans h.2⟩) late ⟨hgone, Iff.rfl⟩
  rw [← hplay] at hgone' hshow'
  have hnone : ¬ ∃ plan ∈ ((race p id n d).play (early ++ 0 :: late)).plans,
      Putting (cacheKey id) plan := by
    rintro ⟨plan, hm, hp⟩
    obtain ⟨r, hr⟩ := hdone plan hm
    exact not_putting_done hr hp
  have hlive : left.cache.live? left.clock (cacheKey id) ≠ none ↔ pending :=
    (or_iff_left hnone).symm.trans (hshow'.trans hshow)
  exact ⟨hlive, (read_of_lacks hgone'.smooth.steady hgone'.gone).trans hlive⟩

/-- The removal of the only row, and one reader of it. -/
def smallRace : Crew := race Settings.standard.policy 1 1 (Deployment.small (.remote .empty))

/-- The removal overtakes the reader that has found the row. -/
def overtaken : List Nat := [1, 1, 0, 0, 0, 1]

theorem smooth_small : Smooth Settings.standard.policy (Deployment.small (.remote .empty)) where
  steady := Deployment.steady_small (by simp [Cache.HasRoom, Cache.size?])
  pos := by decide
  life := ⟨_, rfl, by decide +kernel⟩

theorem done_overtaken : (smallRace.play overtaken).Done := by
  have hplans : (smallRace.play overtaken).plans = [.done (.ok (.rows 1)), .done _] := rfl
  rw [Crew.Done, hplans]
  simp

theorem live_after_remove_overtaken :
    let pending := ∃ plan ∈ (smallRace.play [1, 1, 0, 0]).plans, Putting (cacheKey 1) plan
    let left := (smallRace.play overtaken).deployment
    (left.cache.live? left.clock (cacheKey 1) ≠ none ↔ pending) ∧
      ((left.run (read Settings.standard.policy 1)).1 ≠ .error (.store (.notFound 1)) ↔ pending) :=
  live_after_remove_iff Settings.standard.policy smooth_small 1 1 [1, 1, 0, 0] [1]
    (fun r h => by cases h) (by rfl) done_overtaken

/-- A read that races with a removal can leave the entry behind. -/
theorem entry_left_behind : ∃ (p : Policy) (d : Deployment) (id : Int) (n : Nat) (order : List Nat),
    Smooth p d ∧ d.cache.items = [] ∧ ((race p id n d).play order).Done ∧
      ((race p id n d).play order).deployment.cache.live? d.clock (cacheKey id) ≠ none := by
  refine ⟨Settings.standard.policy, Deployment.small (.remote .empty), 1, 1, overtaken, smooth_small,
    rfl, done_overtaken, ?_⟩
  rw [← Option.isSome_iff_ne_none]
  decide +kernel

end Renewals.Service
