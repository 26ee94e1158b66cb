import Renewals.Json.Printer
import Renewals.Json.Reader
import Renewals.Proofs.Text.Decimal
/-! Text in quotes is read back as it was written, escapes and pairs of surrogates included. -/
namespace Renewals.Json

theorem readText_quote (start : Nat) (cs : List CodePoint) :
    readText start (.char '"' :: cs) = .ok ([], cs) := by
  rw [readText, if_pos rfl]

theorem readText_plain {c : Char} (hq : c ≠ '"') (hb : c ≠ '\\') (hc : 0x20 ≤ c.toNat)
    (start : Nat) (cs : List CodePoint) :
    readText start (.char c :: cs) = (readText start cs).map fun r => (.char c :: r.1, r.2) := by
  have hq' : CodePoint.char c ≠ .char '"' := fun h => hq (CodePoint.char.inj h)
  have hb' : CodePoint.char c ≠ .char '\\' := fun h => hb (CodePoint.char.inj h)
  have hc' : ¬ (CodePoint.char c).code < 0x20 := Nat.not_lt.mpr hc
  rw [readText, if_neg hq', if_neg hb', if_neg hc']
  cases readText start cs <;> rfl

theorem readText_escape {start : Nat} {cs rest : List CodePoint} {d : CodePoint}
    (h : readEscape start cs = .ok (d, rest)) :
    readText start (.char '\\' :: cs) = (readText start rest).map fun r => (d :: r.1, r.2) := by
  rw [readText, if_neg (by decide), if_pos rfl]
  split
  next e he => rw [h] at he; exact absurd he (by simp)
  next d' rest' he =>
    obtain ⟨rfl, rfl⟩ : d = d' ∧ rest = rest' := by
      rw [h] at he
      exact Prod.mk.inj (Except.ok.inj he)
    cases readText start rest <;> rfl

theorem readEscape_plain {start : Nat} {e c : Char} (he : e ≠ 'u')
    (h : plainEscape? e = some c) (cs : List CodePoint) :
    readEscape start (.char e :: cs) = .ok (.char c, cs) := by
  have he' : CodePoint.char e ≠ .char 'u' := fun h => he (CodePoint.char.inj h)
  simp only [readEscape, if_neg he', CodePoint.char?, Option.bind_some, h]

/-- Four hexadecimal digits with something behind them. -/
theorem readUnit?_hex {v : Nat} (hv : v < 0x10000) {tail : List CodePoint} (ht : tail ≠ []) :
    readUnit? ((Text.hex 4 v).map .char ++ tail) = some (v, tail) := by
  obtain ⟨e, rest, rfl⟩ := List.exists_cons_of_ne_nil ht
  have h0 := Text.hexValue?_digitChar (show v / 16 / 16 / 16 < 16 by omega)
  have h1 := Text.hexValue?_digitChar (show v / 16 / 16 % 16 < 16 by omega)
  have h2 := Text.hexValue?_digitChar (show v / 16 % 16 < 16 by omega)
  have h3 := Text.hexValue?_digitChar (show v % 16 < 16 by omega)
  rw [Text.hex_four hv]
  simp only [List.map_cons, List.map_nil, List.cons_append, List.nil_append, readUnit?, hexValue?,
    CodePoint.char?, Option.bind_some, h0, h1, h2, h3]
  change some _ = some _
  congr 2
  omega

theorem isHigh_char (c : Char) : CodePoint.isHigh c.toNat = false := by
  have := c.valid
  simp only [CodePoint.isHigh, Bool.and_eq_false_iff, decide_eq_false_iff_not]
  simp only [UInt32.isValidChar, Nat.isValidChar] at this
  change c.val.toNat < _ ∨ _ at this
  change ¬ 0xD800 ≤ c.val.toNat ∨ ¬ c.val.toNat < 0xDC00
  omega

theorem ofUnit_char (c : Char) : CodePoint.ofUnit c.toNat = .char c := by
  have := c.valid
  simp only [UInt32.isValidChar, Nat.isValidChar] at this
  have hn : ¬ (0xD800 ≤ c.toNat ∧ c.toNat < 0xE000) := by
    change c.val.toNat < _ ∨ _ at this
    change ¬ (0xD800 ≤ c.val.toNat ∧ c.val.toNat < 0xE000)
    omega
  rw [CodePoint.ofUnit, dif_neg hn, Char.ofNat_toNat]

theorem toNat_lt (c : Char) : c.toNat < 0x110000 := by
  have := c.valid
  simp only [UInt32.isValidChar, Nat.isValidChar] at this
  change c.val.toNat < _ ∨ _ at this
  change c.val.toNat < _
  omega

theorem readEscape_unit {start : Nat} {c : Char} (hc : c.toNat ≤ 0xFFFF) {tail : List CodePoint}
    (ht : tail ≠ []) :
    readEscape start (.char 'u' :: ((Text.hex 4 c.toNat).map .char ++ tail)) =
      .ok (.char c, tail) := by
  simp only [readEscape, ↓reduceIte, readUnit?_hex (Nat.lt_succ_of_le hc) ht, isHigh_char,
    Bool.false_eq_true, ofUnit_char]

/-- Two halves behind each other, as units that are read one by one. -/
theorem readEscape_halves {start v w : Nat} {cs ds tail : List CodePoint}
    (hv : readUnit? cs = some (v, .char '\\' :: .char 'u' :: ds)) (hh : CodePoint.isHigh v = true)
    (hw : readUnit? ds = some (w, tail)) (hl : CodePoint.isLow w = true) :
    readEscape start (.char 'u' :: cs) = .ok (.ofPair v w, tail) := by
  simp only [readEscape, ↓reduceIte, hv, hh, readLow?, hw, hl]

/-- A character beyond the basic plane comes back from its two halves. -/
theorem readEscape_pair {start : Nat} {c : Char} (hc : 0xFFFF < c.toNat) {tail : List CodePoint}
    (ht : tail ≠ []) :
    readEscape start (.char 'u' :: ((Text.hex 4 (0xD800 + (c.toNat - 0x10000) / 0x400)).map .char ++
      .char '\\' :: .char 'u' ::
        ((Text.hex 4 (0xDC00 + (c.toNat - 0x10000) % 0x400)).map .char ++ tail))) =
      .ok (.char c, tail) := by
  have hm := toNat_lt c
  have hhigh : CodePoint.isHigh (0xD800 + (c.toNat - 0x10000) / 0x400) = true := by
    simp only [CodePoint.isHigh, Bool.and_eq_true, decide_eq_true_eq]
    omega
  have hlow : CodePoint.isLow (0xDC00 + (c.toNat - 0x10000) % 0x400) = true := by
    simp only [CodePoint.isLow, Bool.and_eq_true, decide_eq_true_eq]
    omega
  have hjoin : 0x10000 + (0xD800 + (c.toNat - 0x10000) / 0x400 - 0xD800) * 0x400 +
      (0xDC00 + (c.toNat - 0x10000) % 0x400 - 0xDC00) = c.toNat := by omega
  rw [readEscape_halves (readUnit?_hex (by omega) (List.cons_ne_nil _ _)) hhigh
    (readUnit?_hex (by omega) ht) hlow, CodePoint.ofPair, hjoin, Char.ofNat_toNat]

theorem map_escapedUnit (n : Nat) (tail : List CodePoint) :
    (escapedUnit n).map .char ++ tail =
      .char '\\' :: .char 'u' :: ((Text.hex 4 n).map .char ++ tail) := rfl

theorem readText_escaped (c : Char) (start : Nat) {tail : List CodePoint} (ht : tail ≠ []) :
    readText start ((escaped c).map .char ++ tail) =
      (readText start tail).map fun r => (.char c :: r.1, r.2) := by
  have short {e : Char} (he : e ≠ 'u') (hv : plainEscape? e = some c) :
      readText start (([('\\' : Char), e]).map .char ++ tail) =
        (readText start tail).map fun r => (.char c :: r.1, r.2) :=
    readText_escape (readEscape_plain he hv tail)
  unfold escaped
  split
  next h => exact short (by decide) (by rw [h]; rfl)
  split
  next h => exact short (by decide) (by rw [h]; rfl)
  split
  next h => exact short (by decide) (by rw [h]; rfl)
  split
  next h => exact short (by decide) (by rw [h]; rfl)
  split
  next h => exact short (by decide) (by rw [h]; rfl)
  split
  next h => exact short (by decide) (by rw [Char.toNat_inj.mp (show _ = '\x08'.toNat from h)]; rfl)
  split
  next h => exact short (by decide) (by rw [Char.toNat_inj.mp (show _ = '\x0c'.toNat from h)]; rfl)
  split
  next hq hb _ _ _ _ _ h => exact readText_plain hq hb h.1 start tail
  split
  next h =>
    rw [map_escapedUnit]
    exact readText_escape (readEscape_unit h ht)
  next h =>
    rw [List.map_append, List.append_assoc, map_escapedUnit, map_escapedUnit]
    exact readText_escape (readEscape_pair (Nat.lt_of_not_le h) ht)

/-- Quoted text is read back, whatever stands behind it. -/
theorem readText_quoted (start : Nat) (cs : List Char) (rest : List CodePoint) :
    readText start ((cs.flatMap escaped).map .char ++ .char '"' :: rest) =
      .ok (cs.map .char, rest) := by
  induction cs with
  | nil => exact readText_quote start rest
  | cons c cs ih =>
    rw [List.flatMap_cons, List.map_append, List.append_assoc,
      readText_escaped c start (by simp), ih]
    rfl

end Renewals.Json
