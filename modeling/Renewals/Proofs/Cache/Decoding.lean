import Renewals.Cache.Basic
import Renewals.Proofs.Basic
/-! Which cached texts come to an end that no reader of a cache knows about. All others are read, or
their fault is reported as one of the cache. -/
namespace Renewals

/-- A reading that fails in a way its callers do not know about. -/
def Unforeseen {α : Type} (x : Except DecodeFault α) : Prop :=
  ∃ f, x = .error f ∧ f.isHandled = false

section
variable {α β : Type}

theorem not_unforeseen_ok {a : α} : ¬ Unforeseen (.ok a : Except DecodeFault α) := by
  rintro ⟨f, h, -⟩
  exact absurd h (by simp)

theorem unforeseen_error {f : DecodeFault} :
    Unforeseen (.error f : Except DecodeFault α) ↔ f.isHandled = false := by
  simp [Unforeseen]

theorem not_unforeseen_pure {a : α} : ¬ Unforeseen (pure a : Except DecodeFault α) :=
  not_unforeseen_ok

/-- Steps fail so if the first does, or the others do on what it comes to. -/
theorem unforeseen_bind {x : Except DecodeFault α} {next : α → Except DecodeFault β} :
    Unforeseen (x >>= next) ↔ Unforeseen x ∨ ∃ a, x = .ok a ∧ Unforeseen (next a) := by
  cases x with
  | error f =>
    constructor
    · rintro ⟨g, hg, hf⟩
      obtain rfl := Except.error.inj hg
      exact .inl ⟨f, rfl, hf⟩
    · rintro (⟨g, hg, hf⟩ | ⟨a, ha, -⟩)
      · obtain rfl := Except.error.inj hg
        exact ⟨f, rfl, hf⟩
      · exact absurd ha (by simp)
  | ok a =>
    constructor
    · intro h
      exact .inr ⟨a, rfl, h⟩
    · rintro (h | ⟨b, hb, h⟩)
      · exact absurd h not_unforeseen_ok
      · exact Except.ok.inj hb ▸ h

theorem unforeseen_map {x : Except DecodeFault α} {f : α → β} :
    Unforeseen (f <$> x) ↔ Unforeseen x := by
  rw [map_eq_pure_bind, unforeseen_bind]
  simp only [not_unforeseen_pure, and_false, exists_false, or_false]

end

namespace Snapshot
variable {v : Json}

theorem unforeseen_readWhole :
    Unforeseen (readWhole v) ↔ ∃ negative, v = .float (.infinite negative) := by
  cases v with
  | float x => cases x <;> simp [readWhole, Unforeseen, DecodeFault.isHandled]
  | str s =>
    cases h : Numeral.read s <;> simp [readWhole, h, Unforeseen, DecodeFault.isHandled]
  | _ => simp [readWhole, Unforeseen, DecodeFault.isHandled]

theorem not_unforeseen_readDate : ¬ Unforeseen (readDate v) := by
  cases v with
  | str s =>
    cases h : Day.readIsoText s <;> simp [readDate, h, Unforeseen, DecodeFault.isHandled]
  | _ => simp [readDate, Unforeseen, DecodeFault.isHandled]

theorem not_unforeseen_member (name : String) : ¬ Unforeseen (member v name) := by
  unfold member
  split <;> simp [Unforeseen, DecodeFault.isHandled]

/-- No record at all, or an infinite number that is come to for the price or the months. -/
inductive Stray : Json → Prop
  | notRecord {v : Json} (h : ∀ members, v ≠ .obj members) : Stray v
  | price {v name : Json} {negative : Bool} (hname : member v "service_name" = .ok name)
      (hprice : member v "price" = .ok (.float (.infinite negative))) : Stray v
  | months {v name price user start : Json} {amount : Int} {first : Day} {negative : Bool}
      (hname : member v "service_name" = .ok name) (hprice : member v "price" = .ok price)
      (hamount : readWhole price = .ok amount) (huser : member v "username" = .ok user)
      (hstart : member v "start_date" = .ok start) (hfirst : readDate start = .ok first)
      (hmonths : member v "counter_months" = .ok (.float (.infinite negative))) : Stray v

/-- All other faults of a record are known, those of the payment date included. -/
theorem unforeseen_ofJson : Unforeseen (ofJson v) ↔ Stray v := by
  by_cases hv : ∃ members, v = .obj members
  · obtain ⟨members, rfl⟩ := hv
    simp only [ofJson, apply_ite Unforeseen, unforeseen_bind, unforeseen_map, not_unforeseen_pure,
      not_unforeseen_member, unforeseen_readWhole, not_unforeseen_readDate, false_or, and_false,
      exists_false, or_false, ite_self]
    constructor
    · rintro ⟨name, hname, price, hprice, ⟨negative, rfl⟩ | ⟨amount, hamount, user, huser, start,
        hstart, first, hfirst, months, hmonths, negative, rfl⟩⟩
      · exact .price hname hprice
      · exact .months hname hprice hamount huser hstart hfirst hmonths
    · intro h
      cases h with
      | notRecord h => exact absurd rfl (h members)
      | price hname hprice => exact ⟨_, hname, _, hprice, .inl ⟨_, rfl⟩⟩
      | months hname hprice hamount huser hstart hfirst hmonths =>
        exact ⟨_, hname, _, hprice, .inr ⟨_, hamount, _, huser, _, hstart, _, hfirst, _, hmonths,
          _, rfl⟩⟩
  · have hnot : ∀ members, v ≠ .obj members := by
      intro members h
      exact hv ⟨members, h⟩
    have hread : ofJson v = .error (.notRecord v.kind) := by
      cases v with
      | obj members => exact absurd rfl (hnot members)
      | _ => rfl
    rw [hread, unforeseen_error]
    exact ⟨fun _ => .notRecord hnot, fun _ => rfl⟩

end Snapshot

namespace Cache

/-- A text that is nested too deep, or stands for a value that is none of a subscription in a way
that its readers do not know about. -/
inductive Stray (payload : LooseText) : Prop
  | tooDeep (c : Json.Container) (h : Json.read payload = .error (.tooDeep c))
  | value (v : Json) (h : Json.read payload = .ok v) (hv : Snapshot.Stray v)

theorem isUnavailable_undecodable (key : LooseText) (f : ReadFault) :
    (undecodable key f).isUnavailable = f.isHandled := by
  unfold undecodable
  split
  next h => exact h.symm
  next h => simpa [CacheFault.isUnavailable] using h

/-- A text is read, or its fault is one that callers of a cache know about, unless it is stray. -/
theorem decode_tolerated_iff (key : LooseText) {payload : LooseText} :
    FailsOnly (·.isUnavailable = true) (decode Snapshot.ofJson key payload) ↔ ¬ Stray payload := by
  unfold decode
  cases hread : Json.read payload with
  | error f =>
    simp only [FailsOnly.error_iff, isUnavailable_undecodable]
    constructor
    · rintro hf (⟨c, h⟩ | ⟨v, h, -⟩)
      · obtain rfl := Except.error.inj (hread.symm.trans h)
        exact Bool.noConfusion hf
      · exact absurd (hread.symm.trans h) (by simp)
    · intro hs
      cases f with
      | tooDeep c => exact absurd (.tooDeep c hread) hs
      | _ => rfl
  | ok v =>
    have hstray : Stray payload ↔ Unforeseen (Snapshot.ofJson v) := by
      rw [Snapshot.unforeseen_ofJson]
      constructor
      · rintro (⟨c, h⟩ | ⟨w, h, hw⟩)
        · exact absurd (hread.symm.trans h) (by simp)
        · exact Except.ok.inj (hread.symm.trans h) ▸ hw
      · exact .value v hread
    rw [hstray]
    cases hv : Snapshot.ofJson v with
    | ok s => simp [hv, Unforeseen, FailsOnly]
    | error f => simp [hv, unforeseen_error, isUnavailable_undecodable, ReadFault.isHandled]

end Cache
end Renewals
