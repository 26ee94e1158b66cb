import Renewals.Number.Binary64
/-! The order of binary numbers. What is undefined is below nothing and above nothing. -/
namespace Renewals.Binary64

theorem signed_mul (negative : Bool) (m n : Nat) :
    signed negative (m * n) = signed negative m * n := by
  cases negative with
  | false => exact Int.natCast_mul m n
  | true => simp only [signed, ↓reduceIte, Int.natCast_mul, Int.neg_mul]

theorem power_add (base : Nat) {a b : Int} (ha : 0 ≤ a) (hb : 0 ≤ b) :
    power base (a + b) = power base a * power base b := by
  have h : (a + b).toNat = a.toNat + b.toNat := by omega
  simp only [power, h]
  exact Nat.pow_add base a.toNat b.toNat

/-- In smaller units a number counts a power of two times as many. -/
theorem inUnits_of_le {u v e : Int} (hu : u ≤ v) (hv : v ≤ e) (s : Bool) (m : Nat) :
    inUnits u s m e = inUnits v s m e * power 2 (v - u) := by
  have h : e - u = e - v + (v - u) := by omega
  rw [inUnits, inUnits, h, power_add 2 (by omega) (by omega), ← Nat.mul_assoc, signed_mul]

/-- Two numbers can be compared in any units that both of them are whole in. -/
theorem below_finite {u e f : Int} (he : u ≤ e) (hf : u ≤ f) (s t : Bool) (m n : Nat) :
    below (.finite s m e) (.finite t n f) = true ↔ inUnits u s m e < inUnits u t n f := by
  have hp : (0 : Int) < power 2 (min e f - u) := Int.natCast_pos.mpr (Nat.pow_pos (by decide))
  simp only [below, decide_eq_true_eq]
  rw [inUnits_of_le (u := u) (v := min e f) (by omega) (by omega) s m,
    inUnits_of_le (u := u) (v := min e f) (by omega) (by omega) t n]
  exact (Int.mul_lt_mul_right hp).symm

theorem below_trans {a b c : Binary64} (hab : below a b = true) (hbc : below b c = true) :
    below a c = true := by
  cases a with
  | undefined => cases b <;> exact Bool.noConfusion hab
  | infinite s =>
    cases b with
    | undefined => exact Bool.noConfusion hab
    | infinite t =>
      cases c with
      | undefined => exact Bool.noConfusion hbc
      | infinite r => simp_all [below]
      | finite r l g => simp_all [below]
    | finite t n f =>
      cases c with
      | undefined => exact Bool.noConfusion hbc
      | infinite r => simp_all [below]
      | finite r l g => exact hab
  | finite s m e =>
    cases b with
    | undefined => exact Bool.noConfusion hab
    | infinite t =>
      cases c with
      | undefined => exact Bool.noConfusion hbc
      | infinite r => simp_all [below]
      | finite r l g => simp_all [below]
    | finite t n f =>
      cases c with
      | undefined => exact Bool.noConfusion hbc
      | infinite r => exact hbc
      | finite r l g =>
        -- all three in the units of the finest of them
        let u := min e (min f g)
        rw [below_finite (u := u) (by omega) (by omega)] at hab hbc ⊢
        exact Int.lt_trans hab hbc

/-- Below the other number, or the same. -/
def UpTo (a b : Binary64) : Prop := a = b ∨ below a b = true

theorem UpTo.refl (a : Binary64) : UpTo a a := .inl rfl

theorem UpTo.trans {a b c : Binary64} (hab : UpTo a b) (hbc : UpTo b c) : UpTo a c := by
  rcases hab with rfl | hab
  · exact hbc
  · rcases hbc with rfl | hbc
    · exact .inr hab
    · exact .inr (below_trans hab hbc)

end Renewals.Binary64
