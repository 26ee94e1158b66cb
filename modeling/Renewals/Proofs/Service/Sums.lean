import Renewals.Proofs.Service.SoundRows
import Renewals.Proofs.Store.Sums
/-! Sums over the subscriptions of an owner, in stores that the service has filled by itself. Such a
store has sound rows only, so a sum fails over nothing but the request and the session. -/
namespace Renewals

namespace SumOrder

/-- The window of a request whose start is read. A name without a visible character is none. -/
def window (o : SumOrder) (username : LooseText) (start : Day) : Window where
  username
  serviceName := (o.serviceName.map (·.strip)).filter (!·.isEmpty)
  startDate := start
  counterMonths := o.counterMonths

/-- A request selects active rows of the owner that start before the window ends, and of these the
rows of a service if it names one. -/
def Covers (o : SumOrder) (username : LooseText) (last : Day) (s : Subscription) : Prop :=
  s.isActive = true ∧ s.username = username ∧ s.startDate < last ∧
    ∀ name ∈ o.serviceName, name.strip.isEmpty = false → s.serviceName = name.strip

variable {o : SumOrder} {username : LooseText} {start last : Day} {w : Window}

instance (s : Subscription) : Decidable (o.Covers username last s) :=
  inferInstanceAs (Decidable (_ ∧ _ ∧ _ ∧ _))

theorem accept_eq_ok_iff : o.accept username = .ok w ↔ ∃ start,
    Term.readStart o.startDate = .ok start ∧ 0 < o.counterMonths ∧ o.window username start = w := by
  unfold accept
  cases Term.readStart o.startDate with
  | error f => simp [bind, Except.bind]
  | ok start =>
    by_cases hm : o.counterMonths ≤ 0
    · simp [hm, bind, Except.bind, throw, throwThe, MonadExceptOf.throw]
    · simp [hm, bind, Except.bind, pure, Except.pure, window, Int.not_le.mp hm]

theorem inWindow_iff {s : Subscription} :
    Table.inWindow (o.window username start) last s = true ↔ o.Covers username last s := by
  have hname : ((o.serviceName.map (·.strip)).filter (!·.isEmpty)).all (s.serviceName == ·) = true ↔
      ∀ name ∈ o.serviceName, name.strip.isEmpty = false → s.serviceName = name.strip := by
    cases o.serviceName with
    | none => simp
    | some name => cases hn : name.strip.isEmpty <;> simp [hn]
  unfold Table.inWindow Covers
  simp only [window, Bool.and_eq_true, beq_iff_eq, decide_eq_true_eq, hname]
  tauto

section
variable {startDate text name : LooseText} {months : Int} {names : Option LooseText}

theorem window_of_blank (h : ∀ text ∈ names, text.Blank) :
    window ⟨startDate, months, names⟩ username start = ⟨username, none, start, months⟩ := by
  have hnone : (names.map (·.strip)).filter (!·.isEmpty) = none := by
    cases names with
    | none => rfl
    | some text => simp [(h text rfl).isEmpty_strip]
  simp only [window, hnone]

/-- A name that is stored is found again behind any blanks. -/
theorem window_of_padded (hname : name.isEmpty = false) (hstrip : name.strip = name)
    (h : name.Padded text) :
    window ⟨startDate, months, some text⟩ username start = ⟨username, some name, start, months⟩ := by
  have hsome : (Option.map (·.strip) (some text)).filter (!·.isEmpty) = some name := by
    rw [Option.map_some, h.strip_eq, hstrip, Option.filter_some, hname]
    rfl
  simp only [window, hsome]

end

end SumOrder

namespace Service

/-- Where runs from an empty table lead, whatever fails on the way. -/
def Reached (t : Table) : Prop :=
  ∃ p steps d, d.store.table.rows = [] ∧ (finish (serve p) steps d).store.table = t

theorem Reached.sound {t : Table} (h : Reached t) : ∀ r ∈ t.rows, r.toSubscription.Sound := by
  obtain ⟨p, steps, d, hd, rfl⟩ := h
  refine sound_history steps (fun r hr => ?_) _ (finish_mem_history (serve p) steps d)
  rw [hd] at hr
  exact absurd hr List.not_mem_nil

theorem Reached.storable {t : Table} (h : Reached t) : t.Storable := by
  obtain ⟨p, steps, d, hd, rfl⟩ := h
  refine finish_induction (I := fun d => d.store.table.Storable)
    (fun r _ h => Deployment.storable_run (serve p r) h) (fun _ _ h => h) steps fun r hr => ?_
  rw [hd] at hr
  exact absurd hr List.not_mem_nil

variable {d : Deployment} {username : LooseText} {o : SumOrder} {total : Int}

theorem run_sum : (d.run (sum username o)).1 = (o.accept username).mapError .term >>= fun w =>
    (d.store.ask (d.storePlan.headD .sound) (.sum w)).1.mapError .store := by
  unfold sum
  cases o.accept username with
  | error f => rfl
  | ok w => exact congrArg Prod.fst (Deployment.run_ask (.sum w) d)

/-- Over sound rows a sum is as good as its request and its session. -/
theorem run_sum_eq_ok_iff (hd : ∀ r ∈ d.store.table.rows, r.toSubscription.Sound) :
    (d.run (sum username o)).1 = .ok total ↔
      Store.Open (d.storePlan.headD .sound) d.store.schema ∧ ∃ start last,
        Term.readStart o.startDate = .ok start ∧ 0 < o.counterMonths ∧
        start.addMonths o.counterMonths = .ok last ∧ (o.window username start).Storable ∧
        d.store.table.charge (o.window username start) last = total := by
  rw [run_sum]
  constructor
  · intro h
    obtain ⟨w, hw, h⟩ := exists_of_bind_eq_ok h
    obtain ⟨start, hstart, hmonths, rfl⟩ :=
      SumOrder.accept_eq_ok_iff.mp (eq_ok_of_mapError hw)
    obtain ⟨hopen, hstorable, last, hlast, hsum⟩ :=
      Store.ask_sum_eq_ok_iff.mp (eq_ok_of_mapError h)
    rw [Table.sum_of_sound hd] at hsum
    exact ⟨hopen, start, last, hstart, hmonths, hlast, hstorable, Except.ok.inj hsum⟩
  · rintro ⟨hopen, start, last, hstart, hmonths, hlast, hstorable, rfl⟩
    have haccept : o.accept username = .ok (o.window username start) :=
      SumOrder.accept_eq_ok_iff.mpr ⟨start, hstart, hmonths, rfl⟩
    have hask := Store.ask_sum_eq_ok_iff.mpr
      ⟨hopen, hstorable, last, hlast, Table.sum_of_sound hd⟩
    simp only [haccept, mapError_ok, bind, Except.bind, hask]
    rfl

theorem charge_window {t : Table} {start last : Day} : t.charge (o.window username start) last =
    ((t.rows.filter fun r => o.Covers username last r.toSubscription).map
      (·.chargeFrom start)).sum := by
  have hselect : t.select (Table.inWindow (o.window username start) last) =
      t.rows.filter fun r => o.Covers username last r.toSubscription :=
    List.filter_congr fun r _ =>
      (Bool.eq_iff_iff.mpr (SumOrder.inWindow_iff.trans decide_eq_true_iff.symm))
  rw [Table.charge, hselect]
  rfl

/-- A sum over a store that the service has filled: every row that the request selects is charged
for its billing dates from the start of the window on. -/
theorem sum_of_reached (hd : Reached d.store.table)
    (hopen : Store.Open (d.storePlan.headD .sound) d.store.schema) {start last : Day}
    (hstart : Term.readStart o.startDate = .ok start) (hmonths : 0 < o.counterMonths)
    (hlast : start.addMonths o.counterMonths = .ok last) (u : String)
    (hname : ∀ name ∈ o.serviceName, ∃ t : String, name = t) :
    (d.run (sum u o)).1 = .ok
      ((d.store.table.rows.filter fun r => o.Covers u last r.toSubscription).map fun r =>
        r.price * (Term.datesFrom r.startDate r.counterMonths.toNat start : Int)).sum := by
  have hstorable : (o.window u start).Storable := by
    refine ⟨⟨u, rfl⟩, fun name h => ?_⟩
    obtain ⟨h, -⟩ := Option.mem_filter_iff.mp h
    obtain ⟨name, hmem, rfl⟩ := Option.mem_map.mp h
    obtain ⟨t, rfl⟩ := hname name hmem
    exact ⟨Text.strip t, rfl⟩
  exact (run_sum_eq_ok_iff hd.sound).mpr
    ⟨hopen, start, last, hstart, hmonths, hlast, hstorable, charge_window⟩

/-- Two services for one owner. -/
def twoOrders : List Step :=
  [.call lastOfMarch,
    .call (.create blank.today "alice" ⟨" Music ", 500, "01-03-2026", 6, true⟩ none)]

def twoServices : Deployment := finish (serve blank.policy) twoOrders blank

def firstOfMay : Day := { fifthOfMay with day := 1, day_range := by decide }

def firstOfJuly : Day :=
  { firstOfMay with month := 7, month_range := by decide, day_range := by decide }

theorem reached_twoServices : Reached twoServices.store.table := by
  unfold twoServices
  exact ⟨blank.policy, twoOrders, blank, rfl, rfl⟩

theorem open_twoServices :
    Store.Open (twoServices.storePlan.headD .sound) twoServices.store.schema := by
  unfold Store.Open
  decide +kernel

def cinemaInMay : SumOrder := ⟨"01-05-2026", 2, some " Cinema"⟩

theorem sum_of_reached_cinema : Reached twoServices.store.table ∧
    Store.Open (twoServices.storePlan.headD .sound) twoServices.store.schema ∧
    Term.readStart cinemaInMay.startDate = .ok firstOfMay ∧ 0 < cinemaInMay.counterMonths ∧
    firstOfMay.addMonths cinemaInMay.counterMonths = .ok firstOfJuly ∧
    (∀ name ∈ cinemaInMay.serviceName, ∃ t : String, name = t) ∧
    (twoServices.run (sum "alice" cinemaInMay)).1 = .ok
      ((twoServices.store.table.rows.filter fun r =>
        cinemaInMay.Covers "alice" firstOfJuly r.toSubscription).map fun r =>
          r.price * (Term.datesFrom r.startDate r.counterMonths.toNat firstOfMay : Int)).sum := by
  have hstart : Term.readStart cinemaInMay.startDate = .ok firstOfMay := by decide +kernel
  have hlast : firstOfMay.addMonths cinemaInMay.counterMonths = .ok firstOfJuly := by
    decide +kernel
  have hname : ∀ name ∈ cinemaInMay.serviceName, ∃ t : String, name = t :=
    fun name h => ⟨" Cinema", (Option.some.inj h).symm⟩
  exact ⟨reached_twoServices, open_twoServices, hstart, by decide, hlast, hname,
    sum_of_reached reached_twoServices open_twoServices hstart (by decide) hlast "alice" hname⟩

example : (twoServices.run (sum "alice" cinemaInMay)).1 = .ok 3000 := by decide +kernel

/-- Half of a pair without its partner. -/
def tornName : LooseText := .torn [.half 0x3D] rfl

/-- A request that is accepted and yet not answered, since the store takes no torn name. -/
theorem sum_of_torn_name : Reached blank.store.table ∧
    Store.Open (blank.storePlan.headD .sound) blank.store.schema ∧
    Term.readStart "01-05-2026" = .ok firstOfMay ∧ firstOfMay.addMonths 2 = .ok firstOfJuly ∧
    ∀ total, (blank.run (sum "alice" ⟨"01-05-2026", 2, some tornName⟩)).1 ≠ .ok total := by
  have hfails : (blank.run (sum "alice" ⟨"01-05-2026", 2, some tornName⟩)).1.isOk = false := by
    decide +kernel
  refine ⟨⟨blank.policy, [], blank, rfl, rfl⟩, ⟨.inl rfl, .inl rfl⟩, by decide +kernel,
    by decide +kernel, fun total h => ?_⟩
  rw [h] at hfails
  exact Bool.noConfusion hfails

/-- The sum over all services of an owner is the sum of the sums over each of them, with whatever
blanks the names are written. -/
theorem sum_over_services (hd : Reached d.store.table) {startDate : LooseText} {months : Int}
    {all : Option LooseText} (hall : ∀ text ∈ all, text.Blank)
    (h : (d.run (sum username ⟨startDate, months, all⟩)).1 = .ok total) :
    (∀ other : Option LooseText, (∀ text ∈ other, text.Blank) →
      (d.run (sum username ⟨startDate, months, other⟩)).1 = .ok total) ∧
    ∃ part : LooseText → Int,
      (∀ name ∈ d.store.table.services username, ∀ text, name.Padded text →
        (d.run (sum username ⟨startDate, months, some text⟩)).1 = .ok (part name)) ∧
      total = ∑ name ∈ d.store.table.services username, part name := by
  have hsound := hd.sound
  obtain ⟨hopen, start, last, hstart, hmonths, hlast, hstorable, rfl⟩ :=
    (run_sum_eq_ok_iff hsound).mp h
  rw [SumOrder.window_of_blank hall] at hstorable ⊢
  -- all these requests differ in the service of their window only
  have hrun {names service : Option LooseText} (hs : ∀ name ∈ service, ∃ t : String, name = t)
      (hw : SumOrder.window ⟨startDate, months, names⟩ username start =
        ⟨username, service, start, months⟩) :
      (d.run (sum username ⟨startDate, months, names⟩)).1 =
        .ok (d.store.table.charge ⟨username, service, start, months⟩ last) :=
    (run_sum_eq_ok_iff hsound).mpr ⟨hopen, start, last, hstart, hmonths, hlast,
      hw.symm ▸ ⟨hstorable.username, hs⟩, congrArg (d.store.table.charge · last) hw⟩
  refine ⟨fun other hother => ?_,
    fun name => d.store.table.charge ⟨username, name, start, months⟩ last,
    fun name hname text htext => ?_, Table.charge_eq_sum rfl⟩
  · exact hrun (fun _ h => absurd h (by simp)) (SumOrder.window_of_blank hother)
  · obtain ⟨r, hr, -, rfl⟩ := Table.mem_services.mp hname
    obtain ⟨t, ht⟩ := (hd.storable r hr).serviceName
    refine hrun (fun name hn => ⟨t, ?_⟩)
      (SumOrder.window_of_padded (hsound r hr).named (hsound r hr).trimmed htext)
    exact (Option.some.inj hn).symm.trans ht

theorem sum_over_services_two : Reached twoServices.store.table ∧
    (∀ text ∈ (none : Option LooseText), text.Blank) ∧
    (twoServices.run (sum "alice" ⟨"01-05-2026", 2, none⟩)).1 = .ok 5000 ∧
    (∀ other : Option LooseText, (∀ text ∈ other, text.Blank) →
      (twoServices.run (sum "alice" ⟨"01-05-2026", 2, other⟩)).1 = .ok 5000) ∧
    ∃ part : LooseText → Int,
      (∀ name ∈ twoServices.store.table.services "alice", ∀ text, name.Padded text →
        (twoServices.run (sum "alice" ⟨"01-05-2026", 2, some text⟩)).1 = .ok (part name)) ∧
      5000 = ∑ name ∈ twoServices.store.table.services "alice", part name := by
  have hnone : ∀ text ∈ (none : Option LooseText), text.Blank := fun _ h => absurd h (by simp)
  have hall : (twoServices.run (sum "alice" ⟨"01-05-2026", 2, none⟩)).1 = .ok 5000 := by
    decide +kernel
  exact ⟨reached_twoServices, hnone, hall, sum_over_services reached_twoServices hnone hall⟩

end Service
end Renewals
