import Renewals.Proofs.Service.Sums
/-! What an owner is shown depends on nobody else's rows. The owner selects rows before they are
counted off or looked at any closer, so that rows of others neither take up a place on a page nor
fail a sum. -/
namespace Renewals

namespace Store

/-- The stores hold the same rows of the owner under the same numbers. -/
structure Alike (username : LooseText) (s t : Store) : Prop where
  schema : s.schema = t.schema
  rows : ∀ r : Row, r.username = username → (r ∈ s.table.rows ↔ r ∈ t.table.rows)

namespace Alike
variable {username : LooseText} {s t : Store} (h : Alike username s t)
include h

theorem select_eq {p : Subscription → Bool} (hp : ∀ x, p x = true → x.username = username) :
    s.table.select p = t.table.select p :=
  Table.select_eq fun r hr => h.rows r (hp _ hr)

theorem ask_list (o : Outcome) (limit offset : Int) :
    (s.ask o (.list username limit offset)).1 = (t.ask o (.list username limit offset)).1 := by
  have hselect : s.table.select (·.username == username) = t.table.select (·.username == username) :=
    h.select_eq fun x hx => by simpa using hx
  refine ask_fst_congr h.schema ?_ o
  simp only [run, hselect]
  rfl

theorem ask_sum (o : Outcome) {w : Window} (hw : w.username = username) :
    (s.ask o (.sum w)).1 = (t.ask o (.sum w)).1 := by
  have hsum (last : Day) : s.table.sum w last = t.table.sum w last := by
    have hselect := h.select_eq (p := Table.inWindow w last) fun x hx => by
      simp only [Table.inWindow, Bool.and_eq_true, beq_iff_eq] at hx
      exact hx.1.1.1.trans hw
    simp only [Table.sum, hselect]
  refine ask_fst_congr h.schema ?_ o
  simp only [run, hsum]
  cases w.endDate with
  | error f => rfl
  | ok last =>
    simp only [mapError_ok, bind, Except.bind]
    cases t.table.sum w last <;> rfl

end Alike
end Store

namespace Service
variable {d d₁ d₂ : Deployment} {username role : LooseText} {p : Policy} {limit offset : Int}

theorem run_list (hrole : role ≠ .whole p.adminRole) :
    (d.run (list p username role limit offset)).1 =
      (d.store.ask (d.storePlan.headD .sound) (.list username limit offset)).1.mapError .store := by
  have hown : list p username role limit offset = Task.ask (.list username limit offset) :=
    if_neg hrole
  rw [hown]
  exact congrArg Prod.fst (Deployment.run_ask _ d)

/-- Stores that hold the same rows of an owner answer the owner alike, with a page as with a sum,
and fail alike if they fail. -/
theorem shown_of_alike (hstore : d₁.store.Alike username d₂.store)
    (hplan : d₁.storePlan = d₂.storePlan) (hrole : role ≠ .whole p.adminRole) :
    (∀ limit offset, (d₁.run (list p username role limit offset)).1 =
      (d₂.run (list p username role limit offset)).1) ∧
    ∀ o, (d₁.run (sum username o)).1 = (d₂.run (sum username o)).1 := by
  constructor
  · intro limit offset
    rw [run_list hrole, run_list hrole, hplan, hstore.ask_list]
  · intro o
    rw [run_sum, run_sum, hplan]
    cases haccept : o.accept username with
    | error f => rfl
    | ok w =>
      obtain ⟨start, -, -, rfl⟩ := SumOrder.accept_eq_ok_iff.mp haccept
      have hask := hstore.ask_sum (d₂.storePlan.headD .sound) (w := o.window username start) rfl
      simp only [mapError_ok, bind, Except.bind, hask]

/-- A term that goes on beyond the calendar. -/
def overlong : Subscription :=
  { Deployment.someSubscription with username := "bob", counterMonths := 120000 }

/-- Two rows, the first of them without end and of another owner than the second. -/
def besideOverlong : Deployment :=
  { Deployment.small (.remote .empty) with
    store := ⟨.plain, (Table.empty.insert overlong).insert Deployment.someSubscription, ⟨0, 0, 0⟩⟩ }

/-- The second of them alone, under the number that it has. -/
def alone : Deployment :=
  { besideOverlong with
    store := { besideOverlong.store with table := besideOverlong.store.table.erase 1 } }

theorem alike_alone : alone.store.Alike "alice" besideOverlong.store where
  schema := rfl
  rows r hr := by
    refine Table.mem_erase.trans (and_iff_left_of_imp fun hm hid => ?_)
    obtain rfl | rfl : r = ⟨overlong, 1⟩ ∨ r = ⟨Deployment.someSubscription, 2⟩ := by
      simpa [besideOverlong, Table.nextId, Table.nextAfter] using hm
    · exact absurd hr (by decide)
    · exact absurd hid (by decide)

theorem shown_alone : alone.store.Alike "alice" besideOverlong.store ∧
    alone.storePlan = besideOverlong.storePlan ∧
    ("user" : LooseText) ≠ .whole besideOverlong.policy.adminRole ∧
    overlong.endDate.isOk = false ∧
    (∀ limit offset, (alone.run (list alone.policy "alice" "user" limit offset)).1 =
      (besideOverlong.run (list alone.policy "alice" "user" limit offset)).1) ∧
    ∀ o, (alone.run (sum "alice" o)).1 = (besideOverlong.run (sum "alice" o)).1 :=
  have hrole : ("user" : LooseText) ≠ .whole alone.policy.adminRole := by decide
  ⟨alike_alone, rfl, hrole, by decide, shown_of_alike alike_alone rfl hrole⟩

end Service
end Renewals
