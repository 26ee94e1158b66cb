import Renewals.Text.Digit
import Renewals.Text.Quoted
/-! Numbers in a base, written and read back: with leading zeros up to a width, and as short as they
are. -/
namespace Renewals.Text

/-- The writing of both `hex` and `padded`. -/
def filled (base width n : Nat) : List Char :=
  List.replicate (width - (Nat.toDigits base n).length) '0' ++ Nat.toDigits base n

theorem hex_eq_filled (width n : Nat) : hex width n = filled 16 width n := rfl

theorem padded_eq_filled (width n : Nat) : padded width n = filled 10 width n := rfl

theorem filled_one {base n : Nat} (h : n < base) : filled base 1 n = [n.digitChar] := by
  simp [filled, Nat.toDigits_of_lt_base h]

/-- The last digit stands apart from the others, those that only fill up included. -/
theorem filled_succ {base width : Nat} (hb : 1 < base) (hw : 0 < width) (n : Nat) :
    filled base (width + 1) n = filled base width (n / base) ++ [(n % base).digitChar] := by
  by_cases h : n < base
  · have hd : n / base = 0 := Nat.div_eq_of_lt h
    have hr : List.replicate width '0' = List.replicate (width - 1) '0' ++ ['0'] := by
      rw [← List.replicate_succ', Nat.sub_add_cancel hw]
    simp [filled, Nat.toDigits_of_lt_base h, hd, Nat.mod_eq_of_lt h, Nat.toDigits_zero, hr]
  · simp [filled, Nat.toDigits_of_base_le hb (Nat.le_of_not_lt h)]

theorem hex_four {n : Nat} (h : n < 0x10000) :
    hex 4 n = [(n / 16 / 16 / 16).digitChar, (n / 16 / 16 % 16).digitChar,
      (n / 16 % 16).digitChar, (n % 16).digitChar] := by
  rw [hex_eq_filled, filled_succ (by decide) (by decide), filled_succ (by decide) (by decide),
    filled_succ (by decide) (by decide), filled_one (by omega)]
  rfl

theorem padded_two {n : Nat} (h : n < 100) :
    padded 2 n = [(n / 10).digitChar, (n % 10).digitChar] := by
  rw [padded_eq_filled, filled_succ (by decide) (by decide), filled_one (by omega)]
  rfl

theorem padded_four {n : Nat} (h : n < 10000) :
    padded 4 n = [(n / 10 / 10 / 10).digitChar, (n / 10 / 10 % 10).digitChar,
      (n / 10 % 10).digitChar, (n % 10).digitChar] := by
  rw [padded_eq_filled, filled_succ (by decide) (by decide), filled_succ (by decide) (by decide),
    filled_succ (by decide) (by decide), filled_one (by omega)]
  rfl

theorem hexValue?_digitChar {d : Nat} (h : d < 16) : hexValue? d.digitChar = some d := by
  have all : ∀ d : Fin 16, hexValue? d.val.digitChar = some d.val := by decide
  exact all ⟨d, h⟩

theorem asciiDigitValue?_digitChar {d : Nat} (h : d < 10) :
    asciiDigitValue? d.digitChar = some d := by
  have all : ∀ d : Fin 10, asciiDigitValue? d.val.digitChar = some d.val := by decide
  exact all ⟨d, h⟩

theorem isAsciiDigit_eq (c : Char) : isAsciiDigit c = c.isDigit := rfl

theorem isAsciiDigit_of_mem_digits {n : Nat} {c : Char} (h : c ∈ digits n) :
    isAsciiDigit c = true :=
  (isAsciiDigit_eq c).trans (Nat.isDigit_of_mem_toDigits (by decide) (by decide) h)

theorem filterMap_asciiDigitValue? {cs : List Char} (h : ∀ c ∈ cs, isAsciiDigit c = true) :
    cs.filterMap asciiDigitValue? = cs.map fun c => c.toNat - '0'.toNat := by
  induction cs with
  | nil => rfl
  | cons c cs ih =>
    have hc : asciiDigitValue? c = some (c.toNat - '0'.toNat) := if_pos (h c List.mem_cons_self)
    rw [List.filterMap_cons_some hc, ih fun d hd => h d (List.mem_cons_of_mem c hd), List.map_cons]

/-- The digits of a number, read as digits, are the number again. -/
theorem ofDigits_digits (n : Nat) : ofDigits ((digits n).filterMap asciiDigitValue?) = n := by
  rw [filterMap_asciiDigitValue? fun _ => isAsciiDigit_of_mem_digits, ofDigits, List.foldl_map]
  exact Nat.ofDigitChars_toDigits (by decide) (by decide)

theorem digits_injective {m n : Nat} (h : digits m = digits n) : m = n := by
  rw [← ofDigits_digits m, h, ofDigits_digits]

theorem digits_ne_nil (n : Nat) : digits n ≠ [] := Nat.toDigits_ne_nil

theorem minus_notMem_digits (n : Nat) : '-' ∉ digits n := fun h =>
  absurd (isAsciiDigit_of_mem_digits h) (by decide)

/-- Two whole numbers with one writing are the same: a sign is no digit. -/
theorem integer_injective {m n : Int} (h : integer m = integer n) : m = n := by
  unfold integer at h
  split at h <;> split at h
  · have := digits_injective (List.cons.inj h).2
    omega
  · exact absurd (h ▸ List.mem_cons_self) (minus_notMem_digits _)
  · exact absurd (h ▸ List.mem_cons_self) (minus_notMem_digits _)
  · have := digits_injective h
    omega

end Renewals.Text
