import Renewals.Subscription.Payload
/-! Stored subscriptions under increasing numbers. -/
namespace Renewals

structure Table where
  rows : List Row
  ascending : rows.Pairwise fun a b => a.id < b.id

namespace Table

def empty : Table := ⟨[], .nil⟩

def nextAfter : List Row → Int
  | [] => 1
  | [r] => r.id + 1
  | _ :: r :: rs => nextAfter (r :: rs)

theorem lt_nextAfter {rows : List Row}
    (h : rows.Pairwise fun a b => a.id < b.id) : ∀ r ∈ rows, r.id < nextAfter rows := by
  induction rows with
  | nil => simp
  | cons r rs ih =>
    cases rs with
    | nil =>
      intro p hp
      rw [List.mem_singleton] at hp
      subst hp
      exact Int.lt_succ p.id
    | cons q qs =>
      obtain ⟨hr, hs⟩ := List.pairwise_cons.1 h
      intro p hp
      rcases List.mem_cons.1 hp with rfl | hp
      · exact Int.lt_trans (hr q List.mem_cons_self) (ih hs q List.mem_cons_self)
      · exact ih hs p hp

/-- One more than the greatest number in use. -/
def nextId (t : Table) : Int := nextAfter t.rows

def insert (t : Table) (s : Subscription) : Table where
  rows := t.rows ++ [⟨s, t.nextId⟩]
  ascending := by
    rw [List.pairwise_append]
    refine ⟨t.ascending, List.pairwise_singleton _ _, ?_⟩
    intro r hr q hq
    rw [List.mem_singleton] at hq
    subst hq
    exact lt_nextAfter t.ascending r hr

def find? (t : Table) (id : Int) : Option Row := t.rows.find? (·.id == id)

/-- The number of rows under a number: none or one. -/
def hits (t : Table) (id : Int) : Nat := t.rows.countP (·.id == id)

def modify (t : Table) (id : Int) (f : Subscription → Subscription) : Table where
  rows := t.rows.map fun r => if r.id = id then ⟨f r.toSubscription, r.id⟩ else r
  ascending := by
    rw [List.pairwise_map]
    refine t.ascending.imp ?_
    intro a b h
    split <;> split <;> exact h

def replace (t : Table) (id : Int) (s : Subscription) : Table := t.modify id fun _ => s

def erase (t : Table) (id : Int) : Table where
  rows := t.rows.filter (·.id != id)
  ascending := t.ascending.filter _

/-- Rows that a test selects, by increasing number. -/
def select (t : Table) (p : Subscription → Bool) : List Row :=
  t.rows.filter fun r => p r.toSubscription

/-- A negative limit is none, a negative offset is zero. -/
def page {α : Type} (limit offset : Int) (xs : List α) : List α :=
  let rest := xs.drop offset.toNat
  if limit < 0 then rest else rest.take limit.toNat

def inWindow (w : Window) (last : Day) (s : Subscription) : Bool :=
  s.username == w.username && s.isActive && decide (s.startDate < last) &&
    w.serviceName.all (s.serviceName == ·)

/-- Price times months left, over the rows in a window. -/
def sum (t : Table) (w : Window) (last : Day) : Except Day.Fault Int :=
  (t.select (inWindow w last)).foldlM
    (fun total r => do
      let n ← Term.monthsLeft r.startDate r.counterMonths w.startDate
      pure (total + r.price * n))
    0

@[simp] theorem rows_empty : empty.rows = [] := rfl

@[simp] theorem rows_insert (t : Table) (s : Subscription) :
    (t.insert s).rows = t.rows ++ [⟨s, t.nextId⟩] := rfl

@[simp] theorem rows_modify (t : Table) (id : Int) (f : Subscription → Subscription) :
    (t.modify id f).rows = t.rows.map fun r => if r.id = id then ⟨f r.toSubscription, r.id⟩ else r := rfl

@[simp] theorem rows_erase (t : Table) (id : Int) :
    (t.erase id).rows = t.rows.filter (·.id != id) := rfl

end Table
end Renewals
