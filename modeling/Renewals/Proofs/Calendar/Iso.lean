import Renewals.Calendar.Iso
import Renewals.Proofs.Text.Decimal
/-! The standard writing of a day is read back as that day. -/
namespace Renewals.Day

theorem utf8Size_digitChar {d : Nat} (h : d < 10) : d.digitChar.utf8Size = 1 := by
  have all : ∀ d : Fin 10, d.val.digitChar.utf8Size = 1 := by decide
  exact all ⟨d, h⟩

theorem digitsOf?_digitChar (k n : Nat) {d : Nat} (h : d < 10) (cs : List Char) :
    digitsOf? (k + 1) n (d.digitChar :: cs) = digitsOf? k (10 * n + d) cs := by
  simp only [digitsOf?, digit?, Text.asciiDigitValue?_digitChar h, Option.map_some,
    Option.bind_some]

theorem digitsOf?_padded_four {n : Nat} (h : n < 10000) (cs : List Char) :
    digitsOf? 4 0 (Text.padded 4 n ++ cs) = some (n, cs) := by
  rw [Text.padded_four h]
  simp only [List.cons_append, List.nil_append]
  rw [digitsOf?_digitChar _ _ (by omega), digitsOf?_digitChar _ _ (by omega),
    digitsOf?_digitChar _ _ (by omega), digitsOf?_digitChar _ _ (by omega), digitsOf?]
  congr 2
  omega

theorem digitsOf?_padded_two {n : Nat} (h : n < 100) (cs : List Char) :
    digitsOf? 2 0 (Text.padded 2 n ++ cs) = some (n, cs) := by
  rw [Text.padded_two h]
  simp only [List.cons_append, List.nil_append]
  rw [digitsOf?_digitChar _ _ (by omega), digitsOf?_digitChar _ _ (by omega), digitsOf?]
  congr 2
  omega

theorem fits_padding (d : Day) : d.year < 10000 ∧ d.month < 100 ∧ d.day < 100 := by
  have hy := d.year_range
  have hm := d.month_range
  have hd := d.day_range
  have := monthLength_le d.year d.month
  omega

theorem encodedLength_isoChars (d : Day) : encodedLength d.isoChars = 10 := by
  obtain ⟨hy, hm, hd⟩ := d.fits_padding
  rw [isoChars, Text.padded_four hy, Text.padded_two hm, Text.padded_two hd]
  have hsize {n : Nat} (h : n < 10) := utf8Size_digitChar h
  simp only [encodedLength, List.cons_append, List.nil_append, List.foldr_cons, List.foldr_nil]
  rw [hsize (by omega), hsize (by omega), hsize (by omega), hsize (by omega), hsize (by omega),
    hsize (by omega), hsize (by omega), hsize (by omega)]
  rfl

theorem readParts?_isoChars (d : Day) :
    readParts? d.isoChars = some (.monthDay d.year d.month d.day) := by
  obtain ⟨hy, hm, hd⟩ := d.fits_padding
  have hday := digitsOf?_padded_two hd []
  have hmonth := digitsOf?_padded_two hm ('-' :: Text.padded 2 d.day)
  rw [List.append_nil] at hday
  have hrest : readMonthDay? true (Text.padded 2 d.month ++ '-' :: Text.padded 2 d.day) =
      some (d.month, d.day) := by
    simp only [readMonthDay?, bind, Option.bind, hmonth, hyphen?, ↓reduceIte, hday]
    rfl
  have hstart : (d.month / 10).digitChar ≠ 'W' := by
    intro h
    have hv := Text.asciiDigitValue?_digitChar (d := d.month / 10) (by omega)
    rw [h, show Text.asciiDigitValue? 'W' = none by decide] at hv
    exact absurd hv (by simp)
  have hiso : d.isoChars = Text.padded 4 d.year ++
      '-' :: (Text.padded 2 d.month ++ '-' :: Text.padded 2 d.day) := by
    simp only [isoChars, List.append_assoc, List.cons_append]
  rw [hiso]
  simp only [readParts?, bind, Option.bind, digitsOf?_padded_four hy, List.head?_cons, BEq.rfl,
    ↓reduceIte, List.tail_cons]
  rw [Text.padded_two hm] at hrest ⊢
  simp only [List.cons_append, List.nil_append] at hrest ⊢
  split
  next h => exact absurd (List.cons.inj h).1 hstart
  next => rw [hrest]; rfl

/-- A day is the reading of its standard text. -/
theorem readIsoText_iso (d : Day) : readIsoText d.iso = .ok d := by
  simp only [readIsoText, readIso, iso, String.toList_ofList, encodedLength_isoChars,
    readParts?_isoChars, make_self]
  rfl

end Renewals.Day
