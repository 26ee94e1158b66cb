import Renewals.Proofs.Service.Traces
/-! Page after page of what a caller is shown, while subscriptions come in. New rows stand behind
all others, so that the pages that are fetched later go on where the earlier ones ended. -/
namespace Renewals

/-- So many from an offset on. -/
theorem Table.page_natCast {α : Type} (size offset : Nat) (xs : List α) :
    Table.page (size : Int) (offset : Int) xs = (xs.drop offset).take size := by
  have hsize : ¬ (size : Int) < 0 := by omega
  simp only [Table.page, if_neg hsize, Int.toNat_natCast]

/-- A full page, and what stands behind it whatever else has come in. -/
theorem Table.page_append_drop {α : Type} {size offset : Nat} {xs : List α} (ys : List α)
    (h : offset + size ≤ xs.length) :
    (xs.drop offset).take size ++ (xs ++ ys).drop (offset + size) = (xs ++ ys).drop offset := by
  have hpage : (xs.drop offset).take size = ((xs ++ ys).drop offset).take size := by
    rw [List.drop_append_of_le_length (by omega), List.take_append_of_le_length]
    rw [List.length_drop]
    omega
  rw [hpage, ← List.drop_drop, List.take_append_drop]

namespace Service

/-- Administrators see all subscriptions, everyone else their own. -/
def sees (p : Policy) (username role : LooseText) (s : Subscription) : Bool :=
  role == .whole p.adminRole || s.username == username

/-- All that a caller could be shown, by increasing number. -/
def visible (p : Policy) (username role : LooseText) (t : Table) : List Row :=
  t.select (sees p username role)

variable {p : Policy} {username role : LooseText} {d : Deployment}

/-! Rows that come in -/

/-- Requests that may bring one row more and leave the others alone. -/
def Request.onlyAdds : Request → Bool
  | .create .. | .createAggregator .. => true
  | r => r.isQuery

def Step.onlyAdds : Step → Bool
  | .call r => r.onlyAdds
  | .wait _ => true

/-- The rows are as before, or there is one more behind them. A number in the reply is the number of
that row. -/
def Adds (t : Table) (reply : Except Failure Reply) (u : Table) : Prop :=
  (u = t ∧ ∀ n, reply ≠ .ok (.id n)) ∨
    ∃ s, u = t.insert s ∧ ∀ n, reply = .ok (.id n) → n = t.nextId

theorem adds_store (p : Policy) (s : Subscription) (d : Deployment) :
    Adds d.store.table ((d.run (store p s)).1.map .id) (d.run (store p s)).2.store.table := by
  cases ha : (Deployment.answer (.ask (.create s)) d).1 with
  | error f =>
    have hrun : d.run (store p s) = (.error (.store f), _) := Deployment.run_ask_bind_error ha _
    rw [hrun]
    exact .inl ⟨Deployment.table_of_ask_error ha, fun n h => absurd h (by simp [Except.map])⟩
  | ok id =>
    have hrun : d.run (store p s) = _ := Deployment.run_ask_bind_ok ha _
    obtain ⟨hid, htable, -⟩ := Store.run_create (Deployment.run_of_ask ha).2
    rw [hrun]
    refine .inr ⟨s, ?_, fun n h => ?_⟩
    · rw [← htable]
      exact table_of_only (.bind (only_keep _) fun _ => .pure id) _
    · obtain ⟨m, hm, he⟩ := exists_of_map_eq_ok h
      obtain rfl := Reply.id.inj he
      exact (eq_of_then_pure hm).trans hid

theorem Request.adds {r : Request} (hr : r.onlyAdds = true) (p : Policy) (d : Deployment) :
    Adds d.store.table (d.run (serve p r)).1 (d.run (serve p r)).2.store.table := by
  have hquery (h : r.isQuery = true) :
      Adds d.store.table (d.run (serve p r)).1 (d.run (serve p r)).2.store.table := by
    refine .inl ⟨table_of_isQuery h d, fun n hn => ?_⟩
    have hgets := gets_of_serve hn
    cases r with
    | create | createAggregator => exact Bool.noConfusion h
    | _ => exact hgets
  have haccepted {ε : Type} {f : ε → Failure} (x : Except ε Subscription) :
      Adds d.store.table ((d.run (Task.lift f x >>= store p)).1.map .id)
        (d.run (Task.lift f x >>= store p)).2.store.table := by
    cases x with
    | error e => exact .inl ⟨rfl, fun n h => absurd h (by simp [Task.lift, Except.map])⟩
    | ok s => exact adds_store p s d
  cases r with
  | create today username o userUid =>
    rw [serve, Deployment.run_map]
    exact haccepted _
  | createAggregator today username userUid =>
    rw [serve, Deployment.run_map]
    exact haccepted _
  | _ => exact hquery hr

/-- Whatever comes in between stands behind the rows that were there. -/
theorem exists_rows_finish {steps : List Step} (hsteps : ∀ s ∈ steps, s.onlyAdds = true)
    (d : Deployment) : ∃ new, new.length ≤ steps.length ∧
      (finish (serve p) steps d).store.table.rows = d.store.table.rows ++ new := by
  induction steps generalizing d with
  | nil => exact ⟨[], Nat.le_refl 0, (List.append_nil _).symm⟩
  | cons s steps ih =>
    obtain ⟨hs, hrest⟩ := List.forall_mem_cons.mp hsteps
    have hstep : ∃ new, new.length ≤ 1 ∧
        (s.after (serve p) d).store.table.rows = d.store.table.rows ++ new := by
      cases s with
      | wait later =>
        refine ⟨[], Nat.zero_le 1, ?_⟩
        simp only [Step.after, List.append_nil]
        split <;> rfl
      | call r =>
        rcases Request.adds hs p d with ⟨h, -⟩ | ⟨s, h, -⟩
        · exact ⟨[], Nat.zero_le 1, by rw [Step.after, h, List.append_nil]⟩
        · exact ⟨[_], Nat.le_refl 1, congrArg Table.rows h⟩
    obtain ⟨first, hfirst, hrows⟩ := hstep
    obtain ⟨more, hmore, hfinish⟩ := ih hrest (s.after (serve p) d)
    refine ⟨first ++ more, ?_, ?_⟩
    · simp only [List.length_append, List.length_cons]
      omega
    · rw [← List.append_assoc, ← hrows]
      exact hfinish

/-! One page -/

theorem visible_append {t u : Table} {new : List Row} (h : u.rows = t.rows ++ new) :
    visible p username role u = visible p username role t ++
      new.filter fun r => sees p username role r.toSubscription := by
  simp only [visible, Table.select, h, List.filter_append]

theorem visible_of_admin (hrole : role = .whole p.adminRole) (t : Table) :
    visible p username role t = t.select fun _ => true := by
  simp only [visible, Table.select, sees, hrole, BEq.rfl, Bool.true_or]

theorem visible_of_owner (hrole : role ≠ .whole p.adminRole) (t : Table) :
    visible p username role t = t.select (·.username == username) := by
  simp only [visible, Table.select, sees, beq_eq_false_iff_ne.mpr hrole, Bool.false_or]

variable {size offset : Nat} {page : List Row}

/-- A page is cut from what the caller is shown, not from all rows. -/
theorem page_of_run_list (h : (d.run (list p username role size offset)).1 = .ok page) :
    page = ((visible p username role d.store.table).drop offset).take size := by
  rw [← Table.page_natCast]
  by_cases hrole : role = .whole p.adminRole
  · have hlist : list p username role size offset = Task.ask (.listAll size offset) := if_pos hrole
    have hask := (congrArg Prod.fst (Deployment.run_ask (.listAll size offset) d)).symm.trans
      (hlist ▸ h)
    rw [visible_of_admin hrole]
    exact (Prod.mk.inj (Except.ok.inj (Deployment.run_of_ask (eq_ok_of_mapError hask)).2)).1.symm
  · have hlist : list p username role size offset = Task.ask (.list username size offset) :=
      if_neg hrole
    have hask := (congrArg Prod.fst (Deployment.run_ask (.list username size offset) d)).symm.trans
      (hlist ▸ h)
    rw [visible_of_owner hrole]
    exact (Prod.mk.inj (Except.ok.inj (Deployment.run_of_ask (eq_ok_of_mapError hask)).2)).1.symm

theorem table_of_list (p : Policy) (username role : LooseText) (limit offset : Int)
    (d : Deployment) :
    (d.run (list p username role limit offset)).2.store.table = d.store.table :=
  table_of_only (only_list username role rfl rfl) d

/-- The store has its tables, and no query to come fails. -/
structure Answering (d : Deployment) : Prop where
  plan : ∀ o ∈ d.storePlan, o = .sound
  schema : d.store.schema = .plain ∨ d.store.schema = .checked

theorem Answering.run {α : Type} (h : Answering d) (t : Task α) : Answering (d.run t).2 where
  plan o ho := h.plan o (Deployment.storePlan_run t d ho)
  schema := by
    rw [Deployment.schema_run]
    exact h.schema

theorem Answering.finish (h : Answering d) (steps : List Step) :
    Answering (finish (serve p) steps d) :=
  finish_induction (fun r _ h => h.run (serve p r)) (fun _ _ h => ⟨h.plan, h.schema⟩) steps h

/-- A query is answered from the rows if the store takes what it is handed. -/
theorem Answering.ask (h : Answering d) {q : Query} {answer : Table → q.Answer}
    {change : Table → Table} (hprepare : Store.prepare q = .ok ())
    (hrun : ∀ t, Store.run d.store.schema t q = .ok (answer t, change t))
    (htake : ∀ x ∈ q.parameters, Store.take x = .ok ()) :
    (d.run (Task.ask q)).1 = .ok (answer d.store.table) := by
  have hask := (Deployment.answer_ask_sound h.plan q).1
  rw [(Store.ask_of_run hprepare hrun rfl).1, Store.reach_of_take h.schema htake] at hask
  exact congrArg Prod.fst (Deployment.run_ask_ok hask)

/-- A caller that the store can look for. -/
def Known (p : Policy) (username role : LooseText) : Prop :=
  role = .whole p.adminRole ∨ ∃ s : String, username = s

theorem Answering.list (h : Answering d)
    (hname : Known p username role)
    (hsize : fitsWord size = true) (hoffset : fitsWord offset = true) :
    (d.run (list p username role size offset)).1 =
      .ok (((visible p username role d.store.table).drop offset).take size) := by
  have hnumber {n : Nat} (hn : fitsWord n = true) : Store.take (.number n) = .ok () := by
    simp [Store.take, hn]
  rw [← Table.page_natCast]
  by_cases hrole : role = .whole p.adminRole
  · have hlist : Service.list p username role size offset = Task.ask (.listAll size offset) :=
      if_pos hrole
    rw [hlist, visible_of_admin hrole]
    exact h.ask (q := .listAll size offset) rfl (fun _ => rfl)
      (by simp [Query.parameters, hnumber hsize, hnumber hoffset])
  · obtain ⟨s, rfl⟩ := hname.resolve_left hrole
    have hlist : Service.list p s role size offset = Task.ask (.list s size offset) :=
      if_neg hrole
    rw [hlist, visible_of_owner hrole]
    exact h.ask (q := .list s size offset) rfl (fun _ => rfl)
      (by simp [Query.parameters, Store.take_whole, hnumber hsize, hnumber hoffset])

/-! Page after page -/

/-- Pages of one size are fetched one behind the other until one is shorter, and the steps that come
next are made before each page but the first. The rows are those of all pages together. -/
inductive Walk (p : Policy) (username role : LooseText) (size : Nat) :
    Nat → List (List Step) → Deployment → List Row → Deployment → Prop
  | last {k : Nat} {batches : List (List Step)} {d : Deployment} {page : List Row}
      (hpage : (d.run (list p username role size (k * size : Nat))).1 = .ok page)
      (hshort : page.length < size) :
      Walk p username role size k batches d page
        (d.run (list p username role size (k * size : Nat))).2
  | next {k : Nat} {batches : List (List Step)} {d e : Deployment} {page rows : List Row}
      (hpage : (d.run (list p username role size (k * size : Nat))).1 = .ok page)
      (hfull : size ≤ page.length)
      (hrest : Walk p username role size (k + 1) batches.tail
        (finish (serve p) (batches.headD [])
          (d.run (list p username role size (k * size : Nat))).2) rows e) :
      Walk p username role size k batches d (page ++ rows) e

variable {batches : List (List Step)}

/-- What is done between two pages leaves what has been fetched where it was. -/
theorem exists_rows_between (hadds : ∀ steps ∈ batches, ∀ s ∈ steps, s.onlyAdds = true)
    (p : Policy) (username role : LooseText) (limit offset : Int) (d : Deployment) :
    ∃ new, new.length ≤ (batches.headD []).length ∧
      (finish (serve p) (batches.headD [])
        (d.run (list p username role limit offset)).2).store.table.rows =
          d.store.table.rows ++ new := by
  have hhead : ∀ s ∈ batches.headD [], s.onlyAdds = true := by
    cases batches with
    | nil => exact fun s hs => absurd hs List.not_mem_nil
    | cons steps rest => exact hadds steps List.mem_cons_self
  rw [← table_of_list p username role limit offset d]
  exact exists_rows_finish hhead _

/-- Behind a full page there may be more. -/
theorem le_length_of_full {k : Nat} (hsize : 1 ≤ size)
    (hpage : (d.run (list p username role size (k * size : Nat))).1 = .ok page)
    (hfull : size ≤ page.length) :
    k * size + size ≤ (visible p username role d.store.table).length := by
  rw [page_of_run_list hpage, List.length_take, List.length_drop] at hfull
  omega

/-- From its first page on, a walk comes to all that the caller is shown at the last one. -/
theorem Walk.rows_eq (hsize : 1 ≤ size) {k : Nat} {rows : List Row} {e : Deployment}
    (h : Walk p username role size k batches d rows e)
    (hadds : ∀ steps ∈ batches, ∀ s ∈ steps, s.onlyAdds = true) :
    rows = (visible p username role e.store.table).drop (k * size) ∧
      ∃ new, e.store.table.rows = d.store.table.rows ++ new := by
  induction h with
  | @last k batches d page hpage hshort =>
    rw [table_of_list]
    refine ⟨?_, [], (List.append_nil _).symm⟩
    rw [page_of_run_list hpage, List.length_take] at hshort
    rw [page_of_run_list hpage]
    exact List.take_of_length_le (by omega)
  | @next k batches d e page rows hpage hfull hrest ih =>
    obtain ⟨between, -, hbetween⟩ := exists_rows_between hadds p username role size
      (k * size : Nat) d
    obtain ⟨rfl, later, hlater⟩ := ih fun steps hs => hadds steps (List.mem_of_mem_tail hs)
    have hrows : e.store.table.rows = d.store.table.rows ++ (between ++ later) := by
      rw [hlater, hbetween, List.append_assoc]
    refine ⟨?_, between ++ later, hrows⟩
    rw [page_of_run_list hpage, visible_append hrows, Nat.succ_mul]
    exact Table.page_append_drop _ (le_length_of_full hsize hpage hfull)

theorem fitsWord_of_le {m n : Nat} (h : fitsWord n = true) (hle : m ≤ n) : fitsWord m = true := by
  simp only [fitsWord, Bool.and_eq_true, decide_eq_true_eq] at h ⊢
  omega

section
variable (hsize : 1 ≤ size) (hname : Known p username role) (hfit : fitsWord size = true)
include hsize hname hfit

/-- The page is the last one, or the walk goes on behind it. -/
theorem walk_or_on (batches : List (List Step)) {k : Nat} (hd : Answering d)
    (hoffset : fitsWord (k * size : Nat) = true) :
    (∃ rows e, Walk p username role size k batches d rows e) ∨
      k * size + size ≤ (visible p username role d.store.table).length ∧
        ((∃ rows e, Walk p username role size (k + 1) batches.tail
          (finish (serve p) (batches.headD [])
            (d.run (list p username role size (k * size : Nat))).2) rows e) →
          ∃ rows e, Walk p username role size k batches d rows e) := by
  have hpage := hd.list hname hfit hoffset
  by_cases hshort :
      (((visible p username role d.store.table).drop (k * size)).take size).length < size
  · exact .inl ⟨_, _, .last hpage hshort⟩
  · have hfull := Nat.le_of_not_lt hshort
    refine .inr ⟨le_length_of_full hsize hpage hfull, ?_⟩
    rintro ⟨rows, e, hrest⟩
    exact ⟨_, _, .next hpage hfull hrest⟩

/-- Once nothing comes in any more, each page brings the walk nearer to its end. -/
theorem exists_walk_of_rest {k : Nat} (hd : Answering d)
    (hk : k * size ≤ (visible p username role d.store.table).length)
    (hroom : fitsWord (visible p username role d.store.table).length = true) :
    ∃ rows e, Walk p username role size k [] d rows e := by
  induction hleft : (visible p username role d.store.table).length - k * size
    using Nat.strongRecOn generalizing k d with
  | ind left ih =>
    rcases walk_or_on hsize hname hfit [] hd (fitsWord_of_le hroom hk) with hlast | ⟨hle, hon⟩
    · exact hlast
    · let behind := (d.run (list p username role size (k * size : Nat))).2
      have hsame : behind.store.table = d.store.table := table_of_list p username role _ _ d
      have hnext : Answering behind := hd.run _
      have hle' : (k + 1) * size ≤ (visible p username role behind.store.table).length := by
        rw [hsame, Nat.succ_mul]
        exact hle
      have hnearer :
          (visible p username role behind.store.table).length - (k + 1) * size < left := by
        rw [hsame, Nat.succ_mul]
        omega
      exact hon (ih _ hnearer hnext hle' (hsame ▸ hroom) rfl)

theorem exists_walk (batches : List (List Step)) {k : Nat}
    (hadds : ∀ steps ∈ batches, ∀ s ∈ steps, s.onlyAdds = true) (hd : Answering d)
    (hk : k * size ≤ (visible p username role d.store.table).length)
    (hroom : fitsWord ((visible p username role d.store.table).length +
      batches.flatten.length : Nat) = true) :
    ∃ rows e, Walk p username role size k batches d rows e := by
  induction batches generalizing k d with
  | nil => exact exists_walk_of_rest hsize hname hfit hd hk hroom
  | cons steps rest ih =>
    obtain ⟨new, hnew, hrows⟩ := exists_rows_between hadds p username role size
      (k * size : Nat) d
    have hoffset := fitsWord_of_le hroom (hk.trans (Nat.le_add_right _ _))
    rcases walk_or_on hsize hname hfit (steps :: rest) hd hoffset with hlast | ⟨hle, hon⟩
    · exact hlast
    · have hseen := List.length_filter_le (fun r : Row => sees p username role r.toSubscription) new
      refine hon (ih (fun s hs => hadds s (List.mem_cons_of_mem _ hs))
        ((hd.run _).finish _) ?_ (fitsWord_of_le hroom ?_))
      · rw [visible_append hrows, List.length_append, Nat.succ_mul]
        omega
      · rw [visible_append hrows, List.length_append, List.flatten_cons, List.length_append]
        simp only [List.headD_cons] at hnew
        omega

end

/-- A row that comes in has a number above all numbers in use, and so has the reply. -/
theorem Adds.rows {t u : Table} {reply : Except Failure Reply} (h : Adds t reply u) :
    (u.rows = t.rows ∨ ∃ s n, u.rows = t.rows ++ [⟨s, n⟩] ∧ ∀ q ∈ t.rows, q.id < n) ∧
      ∀ n, reply = .ok (.id n) → (∃ s, u.rows = t.rows ++ [⟨s, n⟩]) ∧ ∀ q ∈ t.rows, q.id < n := by
  have habove := Table.lt_nextAfter t.ascending
  rcases h with ⟨rfl, hnone⟩ | ⟨s, rfl, hid⟩
  · exact ⟨.inl rfl, fun n hn => absurd hn (hnone n)⟩
  · refine ⟨.inr ⟨s, _, rfl, habove⟩, fun n hn => ?_⟩
    obtain rfl := hid n hn
    exact ⟨⟨s, rfl⟩, habove⟩

/-- Pages of one size, one behind the other until one is shorter, while subscriptions come in and
none is changed or removed. They bring all that the caller was shown at the first page, once each
and by increasing number, and behind it what has come in since. Such a walk comes to an end if the
store does, as long as the offsets can be counted in it. -/
theorem pages_show_all (p : Policy) (username role : LooseText) (hsize : 1 ≤ size)
    (hadds : ∀ steps ∈ batches, ∀ s ∈ steps, s.onlyAdds = true) (d : Deployment) :
    (∀ rows e, Walk p username role size 0 batches d rows e →
      rows = visible p username role e.store.table ∧
      rows.Pairwise (fun a b => a.id < b.id) ∧
      ∃ new, rows = visible p username role d.store.table ++ new ∧
        ∀ r ∈ new, ∀ q ∈ d.store.table.rows, q.id < r.id) ∧
    (Answering d → Known p username role → fitsWord size = true →
      fitsWord ((visible p username role d.store.table).length +
        batches.flatten.length : Nat) = true →
      ∃ rows e, Walk p username role size 0 batches d rows e) ∧
    ∀ (r : Request) (m : Deployment), r.onlyAdds = true →
      let after := m.run (serve p r)
      (after.2.store.table.rows = m.store.table.rows ∨
        ∃ s n, after.2.store.table.rows = m.store.table.rows ++ [⟨s, n⟩] ∧
          ∀ q ∈ m.store.table.rows, q.id < n) ∧
      ∀ n, after.1 = .ok (.id n) →
        (∃ s, after.2.store.table.rows = m.store.table.rows ++ [⟨s, n⟩]) ∧
          ∀ q ∈ m.store.table.rows, q.id < n := by
  refine ⟨fun rows e h => ?_, fun hd hname hfit hroom => ?_, fun r m hr => (r.adds hr p m).rows⟩
  · obtain ⟨hrows, new, hnew⟩ := h.rows_eq hsize hadds
    rw [Nat.zero_mul, List.drop_zero] at hrows
    have hascending := e.store.table.ascending
    refine ⟨hrows, hrows ▸ hascending.filter _, _, hrows.trans (visible_append hnew), ?_⟩
    rw [hnew, List.pairwise_append] at hascending
    exact fun r hr q hq => hascending.2.2 q hq r (List.mem_filter.mp hr).1
  · exact exists_walk hsize hname hfit batches hadds hd (by rw [Nat.zero_mul]; exact Nat.zero_le _)
      hroom

/-- Another owner's subscription comes in behind the first page, and one of the caller behind the
second. -/
def comingIn : List (List Step) :=
  [[.call (.createAggregator Deployment.someToday "bob" none)],
    [.wait (.ofInt 5), .call (.createAggregator Deployment.someToday "alice" none)]]

theorem pages_show_all_comingIn :
    let d := Deployment.small (.remote .empty)
    1 ≤ 1 ∧ (∀ steps ∈ comingIn, ∀ s ∈ steps, s.onlyAdds = true) ∧ Answering d ∧
      Known d.policy "alice" "user" ∧ fitsWord (1 : Nat) = true ∧
      fitsWord ((visible d.policy "alice" "user" d.store.table).length +
        comingIn.flatten.length : Nat) = true ∧
      ∃ rows e, Walk d.policy "alice" "user" 1 0 comingIn d rows e ∧
        rows = visible d.policy "alice" "user" e.store.table ∧
        ∃ new, rows = visible d.policy "alice" "user" d.store.table ++ new ∧
          ∀ r ∈ new, ∀ q ∈ d.store.table.rows, q.id < r.id := by
  intro d
  have hadds : ∀ steps ∈ comingIn, ∀ s ∈ steps, s.onlyAdds = true := by decide
  have hd : Answering d := ⟨fun _ h => absurd h List.not_mem_nil, .inl rfl⟩
  have hname : Known d.policy "alice" "user" := .inr ⟨_, rfl⟩
  have hroom : fitsWord ((visible d.policy "alice" "user" d.store.table).length +
      comingIn.flatten.length : Nat) = true := by decide +kernel
  obtain ⟨hshown, hwalk, -⟩ := pages_show_all d.policy "alice" "user"
    (Nat.le_refl 1) hadds d
  obtain ⟨rows, e, h⟩ := hwalk hd hname (by decide) hroom
  obtain ⟨hrows, -, hnew⟩ := hshown rows e h
  exact ⟨Nat.le_refl 1, hadds, hd, hname, by decide, hroom, rows, e, h, hrows, hnew⟩

end Service
end Renewals
