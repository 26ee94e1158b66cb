import Mathlib.Data.List.TakeDrop
import Renewals.Proofs.Calendar.Iso
import Renewals.Proofs.Text.Trim
import Renewals.Subscription.Term
/-! The dates of requests, told by their grammar. A text is a date with the day first or with the
year first, never both, and it is read as the date that it writes. -/
namespace Renewals

namespace Text

theorem digitValue?_digitChar {n : Nat} (h : n < 10) :
    digitValue? n.digitChar = some n := by
  have all : ∀ n : Fin 10, digitValue? n.val.digitChar = some n.val := by decide
  exact all ⟨n, h⟩

theorem isBlank_of_isAsciiDigit {c : Char} (h : isAsciiDigit c = true) :
    isBlank c = false := by
  simp only [isAsciiDigit, Bool.and_eq_true, decide_eq_true_eq] at h
  have hlow : 48 ≤ c.toNat := h.1
  have hhigh : c.toNat ≤ 57 := h.2
  simp only [isBlank, Bool.or_eq_false_iff, Bool.and_eq_false_iff, decide_eq_false_iff_not,
    beq_eq_false_iff_ne]
  omega

theorem isBlank_padded {width n : Nat} : ∀ c ∈ padded width n, isBlank c = false := by
  intro c hc
  refine isBlank_of_isAsciiDigit ?_
  rcases List.mem_append.mp hc with h | h
  · rw [List.eq_of_mem_replicate h]
    rfl
  · exact isAsciiDigit_of_mem_digits h

end Text

namespace Day

/-! Fields -/

/-- A day of the month: one digit other than zero, alone or behind a zero or a space, or a number of
two digits below 32, the second of which may be of any script behind a one or a two. -/
inductive DayField : List Char → Nat → Prop
  | single {n : Nat} (h : 1 ≤ n ∧ n ≤ 9) : DayField [n.digitChar] n
  | filled {n : Nat} {t : Char} (ht : t = '0' ∨ t = ' ') (h : 1 ≤ n ∧ n ≤ 9) :
      DayField [t, n.digitChar] n
  | tens {c : Char} {n : Nat} (h : Text.digitValue? c = some n) : DayField ['1', c] (10 + n)
  | twenties {c : Char} {n : Nat} (h : Text.digitValue? c = some n) : DayField ['2', c] (20 + n)
  | thirties {n : Nat} (h : n ≤ 1) : DayField ['3', n.digitChar] (30 + n)

/-- One digit other than zero, alone or behind a zero, or ten to twelve. -/
inductive MonthField : List Char → Nat → Prop
  | single {n : Nat} (h : 1 ≤ n ∧ n ≤ 9) : MonthField [n.digitChar] n
  | filled {n : Nat} (h : 1 ≤ n ∧ n ≤ 9) : MonthField ['0', n.digitChar] n
  | tens {n : Nat} (h : n ≤ 2) : MonthField ['1', n.digitChar] (10 + n)

/-- Four digits of any script. -/
inductive YearField : List Char → Nat → Prop
  | digits {a b c d : Char} {k l m n : Nat} (ha : Text.digitValue? a = some k)
      (hb : Text.digitValue? b = some l) (hc : Text.digitValue? c = some m)
      (hd : Text.digitValue? d = some n) :
      YearField [a, b, c, d] (1000 * k + 100 * l + 10 * m + n)

theorem nonzeroValue?_eq_some_iff {c : Char} {n : Nat} :
    nonzeroValue? c = some n ↔ (1 ≤ n ∧ n ≤ 9) ∧ c = n.digitChar := by
  have hchar : ∀ n : Fin 10, Char.ofNat (48 + n) = n.val.digitChar := by decide
  have hvalue : ∀ n : Fin 10, 1 ≤ n.val → nonzeroValue? n.val.digitChar = some n.val := by decide
  constructor
  · intro h
    unfold nonzeroValue? at h
    split at h
    next hc =>
      have hlow : 49 ≤ c.toNat := hc.1
      have hhigh : c.toNat ≤ 57 := hc.2
      have hn : c.toNat - 48 = n := Option.some.inj h
      refine ⟨by omega, ?_⟩
      calc
        c = Char.ofNat c.toNat := (Char.ofNat_toNat c).symm
        _ = Char.ofNat (48 + n) := by rw [← hn, Nat.add_sub_cancel' (by omega)]
        _ = n.digitChar := hchar ⟨n, by omega⟩
    next => exact absurd h (by simp)
  · rintro ⟨⟨hlow, hhigh⟩, rfl⟩
    exact hvalue ⟨n, by omega⟩ hlow

theorem dayField?_eq_some_iff {cs : List Char} {n : Nat} :
    dayField? cs = some n ↔ DayField cs n := by
  constructor
  · intro h
    unfold dayField? at h
    split at h
    next =>
      obtain ⟨hn, rfl⟩ := nonzeroValue?_eq_some_iff.mp h
      exact .single hn
    next =>
      split_ifs at h with hfill hten htwenty hthirty hlast
      · obtain ⟨hn, rfl⟩ := nonzeroValue?_eq_some_iff.mp h
        exact .filled hfill hn
      · obtain ⟨m, hm, rfl⟩ := Option.map_eq_some_iff.mp h
        exact hten ▸ .tens hm
      · obtain ⟨m, hm, rfl⟩ := Option.map_eq_some_iff.mp h
        exact htwenty ▸ .twenties hm
      · obtain ⟨rfl, rfl⟩ := hthirty
        exact Option.some.inj h ▸ .thirties (n := 0) (by decide)
      · obtain ⟨rfl, rfl⟩ := hlast
        exact Option.some.inj h ▸ .thirties (n := 1) (by decide)
    next => exact absurd h (by simp)
  · intro h
    cases h with
    | single h => exact nonzeroValue?_eq_some_iff.mpr ⟨h, rfl⟩
    | filled ht h => exact (if_pos ht).trans (nonzeroValue?_eq_some_iff.mpr ⟨h, rfl⟩)
    | tens h => simp [dayField?, h]
    | twenties h => simp [dayField?, h]
    | thirties h =>
      have all : ∀ n : Fin 2, dayField? ['3', n.val.digitChar] = some (30 + n.val) := by decide
      exact all ⟨_, Nat.lt_succ_of_le h⟩

theorem monthField?_eq_some_iff {cs : List Char} {n : Nat} :
    monthField? cs = some n ↔ MonthField cs n := by
  constructor
  · intro h
    unfold monthField? at h
    split at h
    next =>
      obtain ⟨hn, rfl⟩ := nonzeroValue?_eq_some_iff.mp h
      exact .single hn
    next =>
      split_ifs at h with hfill hten heleven htwelve
      · obtain ⟨hn, rfl⟩ := nonzeroValue?_eq_some_iff.mp h
        exact hfill ▸ .filled hn
      · obtain ⟨rfl, rfl⟩ := hten
        exact Option.some.inj h ▸ .tens (n := 0) (by decide)
      · obtain ⟨rfl, rfl⟩ := heleven
        exact Option.some.inj h ▸ .tens (n := 1) (by decide)
      · obtain ⟨rfl, rfl⟩ := htwelve
        exact Option.some.inj h ▸ .tens (n := 2) (by decide)
    next => exact absurd h (by simp)
  · intro h
    cases h with
    | single h => exact nonzeroValue?_eq_some_iff.mpr ⟨h, rfl⟩
    | filled h => exact nonzeroValue?_eq_some_iff.mpr ⟨h, rfl⟩
    | tens h =>
      have all : ∀ n : Fin 3, monthField? ['1', n.val.digitChar] = some (10 + n.val) := by decide
      exact all ⟨_, Nat.lt_succ_of_le h⟩

theorem yearField?_eq_some_iff {cs : List Char} {n : Nat} :
    yearField? cs = some n ↔ YearField cs n := by
  have hsum (k l m n : Nat) :
      Text.ofDigits [k, l, m, n] = 1000 * k + 100 * l + 10 * m + n := by
    simp only [Text.ofDigits, List.foldl_cons, List.foldl_nil]
    omega
  constructor
  · intro h
    unfold yearField? at h
    split at h
    next =>
      simp only [bind, Option.bind_eq_some_iff] at h
      obtain ⟨k, hk, l, hl, m, hm, n, hn, h⟩ := h
      obtain rfl := (hsum k l m n).symm.trans (Option.some.inj h)
      exact .digits hk hl hm hn
    next => exact absurd h (by simp)
  · rintro ⟨ha, hb, hc, hd⟩
    simp only [yearField?, ha, hb, hc, hd, bind, Option.bind_some, hsum]
    rfl

theorem ne_hyphen_of_digitValue? {c : Char} {n : Nat} (h : Text.digitValue? c = some n) :
    '-' ≠ c := by
  rintro rfl
  rw [show Text.digitValue? '-' = none by decide] at h
  exact absurd h (by simp)

theorem DayField.hyphen_notMem {cs : List Char} {n : Nat} (h : DayField cs n) : '-' ∉ cs := by
  cases h with
  | single => simp
  | filled ht => rcases ht with rfl | rfl <;> simp
  | tens h => simpa using ne_hyphen_of_digitValue? h
  | twenties h => simpa using ne_hyphen_of_digitValue? h
  | thirties => simp

theorem MonthField.hyphen_notMem {cs : List Char} {n : Nat} (h : MonthField cs n) : '-' ∉ cs := by
  cases h <;> simp

theorem YearField.hyphen_notMem {cs : List Char} {n : Nat} (h : YearField cs n) : '-' ∉ cs := by
  obtain ⟨ha, hb, hc, hd⟩ := h
  simp only [List.mem_cons, List.not_mem_nil, or_false, not_or]
  exact ⟨ne_hyphen_of_digitValue? ha, ne_hyphen_of_digitValue? hb, ne_hyphen_of_digitValue? hc,
    ne_hyphen_of_digitValue? hd⟩

/-! Three fields -/

theorem span_hyphen_iff {cs a rest : List Char} {x : Char} :
    cs.span (· ≠ '-') = (a, x :: rest) ↔ x = '-' ∧ '-' ∉ a ∧ cs = a ++ '-' :: rest := by
  rw [List.span_eq_takeWhile_dropWhile, Prod.mk.injEq]
  constructor
  · rintro ⟨rfl, hd⟩
    have hx : x = '-' := by
      have hne : cs.dropWhile (· ≠ '-') ≠ [] := hd ▸ List.cons_ne_nil x rest
      have hnot := List.head_dropWhile_not (fun c => decide (c ≠ '-')) hne
      simpa only [hd, List.head_cons, decide_eq_false_iff_not, not_not] using hnot
    subst hx
    refine ⟨rfl, fun hm => ?_, ?_⟩
    · simpa using List.mem_takeWhile_imp hm
    · rw [← hd, List.takeWhile_append_dropWhile]
  · rintro ⟨rfl, ha, rfl⟩
    have hpos : ∀ c ∈ a, decide (c ≠ '-') = true := by
      intro c hc
      simpa using fun h : c = '-' => ha (h ▸ hc)
    rw [List.takeWhile_append_of_pos hpos, List.dropWhile_append_of_pos hpos]
    simp

/-- The first two hyphens are where the fields meet. -/
theorem threeFields?_eq_some_iff {cs a b c : List Char} :
    threeFields? cs = some (a, b, c) ↔
      '-' ∉ a ∧ '-' ∉ b ∧ cs = a ++ '-' :: (b ++ '-' :: c) := by
  constructor
  · intro h
    unfold threeFields? at h
    split at h
    next a' x rest hfirst =>
      obtain ⟨rfl, ha, rfl⟩ := span_hyphen_iff.mp hfirst
      split at h
      next b' y c' hsecond =>
        obtain ⟨rfl, hb, rfl⟩ := span_hyphen_iff.mp hsecond
        obtain ⟨rfl, rfl, rfl⟩ : a' = a ∧ b' = b ∧ c' = c := by simpa using h
        exact ⟨ha, hb, rfl⟩
      next => exact absurd h (by simp)
    next => exact absurd h (by simp)
  · rintro ⟨ha, hb, rfl⟩
    have hfirst : (a ++ '-' :: (b ++ '-' :: c)).span (· ≠ '-') = (a, '-' :: (b ++ '-' :: c)) :=
      span_hyphen_iff.mpr ⟨rfl, ha, rfl⟩
    have hsecond : (b ++ '-' :: c).span (· ≠ '-') = (b, '-' :: c) :=
      span_hyphen_iff.mpr ⟨rfl, hb, rfl⟩
    simp only [threeFields?, hfirst, hsecond]

theorem ofFields?_eq_some_iff {year month day : Option Nat} {d : Day} :
    ofFields? year month day = some d ↔
      year = some d.year ∧ month = some d.month ∧ day = some d.day := by
  constructor
  · intro h
    cases year with
    | none => exact absurd h (by simp [ofFields?])
    | some y =>
      cases month with
      | none => exact absurd h (by simp [ofFields?])
      | some m =>
        cases day with
        | none => exact absurd h (by simp [ofFields?])
        | some n =>
          simp only [ofFields?, make, bind, Option.bind_some] at h
          split_ifs at h with hy hm hd
          · obtain rfl := Option.some.inj h
            exact ⟨rfl, rfl, rfl⟩
          all_goals exact absurd h (by simp [Except.toOption])
  · rintro ⟨rfl, rfl, rfl⟩
    simp only [ofFields?, bind, Option.bind_some, make_self]
    rfl

/-! Texts -/

/-- A text of a day, a month and a year, in this order. -/
def DayFirst (cs : List Char) (year month day : Nat) : Prop :=
  ∃ d m y, DayField d day ∧ MonthField m month ∧ YearField y year ∧
    cs = d ++ '-' :: (m ++ '-' :: y)

/-- A text of a year, a month and a day, in this order. -/
def YearFirst (cs : List Char) (year month day : Nat) : Prop :=
  ∃ y m d, YearField y year ∧ MonthField m month ∧ DayField d day ∧
    cs = y ++ '-' :: (m ++ '-' :: d)

theorem readDayMonthYear?_eq_some_iff {cs : List Char} {d : Day} :
    readDayMonthYear? cs = some d ↔ DayFirst cs d.year d.month d.day := by
  simp only [readDayMonthYear?, Option.bind_eq_some_iff, ofFields?_eq_some_iff,
    yearField?_eq_some_iff, monthField?_eq_some_iff, dayField?_eq_some_iff]
  constructor
  · rintro ⟨⟨a, b, c⟩, hf, hy, hm, hd⟩
    exact ⟨a, b, c, hd, hm, hy, (threeFields?_eq_some_iff.mp hf).2.2⟩
  · rintro ⟨a, b, c, hd, hm, hy, rfl⟩
    exact ⟨(a, b, c), threeFields?_eq_some_iff.mpr ⟨hd.hyphen_notMem, hm.hyphen_notMem, rfl⟩,
      hy, hm, hd⟩

theorem readYearMonthDay?_eq_some_iff {cs : List Char} {d : Day} :
    readYearMonthDay? cs = some d ↔ YearFirst cs d.year d.month d.day := by
  simp only [readYearMonthDay?, Option.bind_eq_some_iff, ofFields?_eq_some_iff,
    yearField?_eq_some_iff, monthField?_eq_some_iff, dayField?_eq_some_iff]
  constructor
  · rintro ⟨⟨a, b, c⟩, hf, hy, hm, hd⟩
    exact ⟨a, b, c, hy, hm, hd, (threeFields?_eq_some_iff.mp hf).2.2⟩
  · rintro ⟨a, b, c, hy, hm, hd, rfl⟩
    exact ⟨(a, b, c), threeFields?_eq_some_iff.mpr ⟨hy.hyphen_notMem, hm.hyphen_notMem, rfl⟩,
      hy, hm, hd⟩

/-- The field before the first hyphen has at most two characters or four. -/
theorem not_yearFirst_of_dayFirst {cs : List Char} {year month day year' month' day' : Nat}
    (h : DayFirst cs year month day) : ¬ YearFirst cs year' month' day' := by
  rintro ⟨a', b', c', hy, hm', -, hcs'⟩
  obtain ⟨a, b, c, hd, hm, -, hcs⟩ := h
  have hfields := threeFields?_eq_some_iff.mpr ⟨hd.hyphen_notMem, hm.hyphen_notMem, hcs⟩
  have hfields' := threeFields?_eq_some_iff.mpr ⟨hy.hyphen_notMem, hm'.hyphen_notMem, hcs'⟩
  obtain rfl : a = a' := by
    rw [hfields] at hfields'
    exact (Prod.mk.inj (Option.some.inj hfields')).1
  cases hy
  cases hd

theorem readWritten?_eq_some_iff {s : String} {d : Day} :
    readWritten? s = some d ↔ DayFirst (Text.trim s.toList) d.year d.month d.day ∨
      YearFirst (Text.trim s.toList) d.year d.month d.day := by
  rw [← readDayMonthYear?_eq_some_iff, ← readYearMonthDay?_eq_some_iff]
  simp only [readWritten?]
  cases hfirst : readDayMonthYear? (Text.trim s.toList) with
  | none => simp
  | some e =>
    have hnot : readYearMonthDay? (Text.trim s.toList) ≠ some d := by
      intro hsecond
      exact not_yearFirst_of_dayFirst (readDayMonthYear?_eq_some_iff.mp hfirst)
        (readYearMonthDay?_eq_some_iff.mp hsecond)
    simp [hnot]

/-- Either reader may come first. -/
theorem orElse_readers_comm (cs : List Char) :
    ((readDayMonthYear? cs).orElse fun _ => readYearMonthDay? cs) =
      (readYearMonthDay? cs).orElse fun _ => readDayMonthYear? cs := by
  cases hfirst : readDayMonthYear? cs with
  | none => cases readYearMonthDay? cs <;> rfl
  | some d =>
    cases hsecond : readYearMonthDay? cs with
    | none => rfl
    | some e =>
      exact absurd (readYearMonthDay?_eq_some_iff.mp hsecond)
        (not_yearFirst_of_dayFirst (readDayMonthYear?_eq_some_iff.mp hfirst))

/-- The text, blanks around it aside, is the day in one of both orders. -/
def WrittenAs (d : Day) (t : LooseText) : Prop :=
  ∃ s : String, t.strip = s ∧
    (DayFirst s.toList d.year d.month d.day ∨ YearFirst s.toList d.year d.month d.day)

theorem readWrittenText?_eq_some_iff {t : LooseText} {d : Day} :
    readWrittenText? t = some d ↔ d.WrittenAs t := by
  constructor
  · intro h
    cases t with
    | torn ps hps => exact absurd h (by simp [readWrittenText?, LooseText.whole?])
    | whole s =>
      refine ⟨Text.strip s, rfl, ?_⟩
      rw [Text.toList_strip]
      exact readWritten?_eq_some_iff.mp h
  · rintro ⟨s, hs, hd⟩
    obtain ⟨u, rfl⟩ := LooseText.exists_whole_of_strip hs
    obtain rfl : Text.strip u = s := LooseText.whole.inj hs
    rw [Text.toList_strip] at hd
    exact readWritten?_eq_some_iff.mpr hd

/-! Days as texts -/

/-- Day, month and year with hyphens. -/
def dayFirstChars (d : Day) : List Char :=
  Text.padded 2 d.day ++ '-' :: (Text.padded 2 d.month ++ '-' :: Text.padded 4 d.year)

def dayFirst (d : Day) : String := String.ofList d.dayFirstChars

theorem dayField_padded {n : Nat} (h : 1 ≤ n ∧ n ≤ 31) : DayField (Text.padded 2 n) n := by
  have all : ∀ n : Fin 32, 1 ≤ n.val → dayField? (Text.padded 2 n) = some n.val := by
    decide +kernel
  exact dayField?_eq_some_iff.mp (all ⟨n, by omega⟩ h.1)

theorem monthField_padded {n : Nat} (h : 1 ≤ n ∧ n ≤ 12) : MonthField (Text.padded 2 n) n := by
  have all : ∀ n : Fin 13, 1 ≤ n.val → monthField? (Text.padded 2 n) = some n.val := by
    decide +kernel
  exact monthField?_eq_some_iff.mp (all ⟨n, by omega⟩ h.1)

theorem yearField_padded {n : Nat} (h : n < 10000) : YearField (Text.padded 4 n) n := by
  rw [Text.padded_four h]
  have hfield := YearField.digits (Text.digitValue?_digitChar (n := n / 10 / 10 / 10) (by omega))
    (Text.digitValue?_digitChar (n := n / 10 / 10 % 10) (by omega))
    (Text.digitValue?_digitChar (n := n / 10 % 10) (by omega))
    (Text.digitValue?_digitChar (n := n % 10) (by omega))
  have hn : 1000 * (n / 10 / 10 / 10) + 100 * (n / 10 / 10 % 10) + 10 * (n / 10 % 10) + n % 10 =
      n := by omega
  rwa [hn] at hfield

variable (d : Day)

theorem dayFirst_dayFirstChars : DayFirst d.dayFirstChars d.year d.month d.day := by
  have hday := d.day_range
  have hspan := monthLength_le d.year d.month
  exact ⟨_, _, _, dayField_padded (by omega), monthField_padded d.month_range,
    yearField_padded d.fits_padding.1, rfl⟩

theorem yearFirst_isoChars : YearFirst d.isoChars d.year d.month d.day := by
  have hday := d.day_range
  have hspan := monthLength_le d.year d.month
  refine ⟨_, _, _, yearField_padded d.fits_padding.1, monthField_padded d.month_range,
    dayField_padded (by omega), ?_⟩
  simp only [isoChars, List.append_assoc, List.cons_append]

theorem strip_dayFirst : LooseText.strip d.dayFirst = d.dayFirst := by
  refine LooseText.strip_eq_self ?_
  simp only [dayFirst, dayFirstChars, String.toList_ofList, List.forall_mem_append,
    List.forall_mem_cons]
  exact ⟨Text.isBlank_padded, rfl, Text.isBlank_padded, rfl, Text.isBlank_padded⟩

theorem strip_iso : LooseText.strip d.iso = d.iso := by
  refine LooseText.strip_eq_self ?_
  simp only [iso, isoChars, String.toList_ofList, List.forall_mem_append, List.forall_mem_cons]
  exact ⟨⟨Text.isBlank_padded, rfl, Text.isBlank_padded⟩, rfl, Text.isBlank_padded⟩

variable {d : Day} {t : LooseText}

theorem writtenAs_of_padded (h : LooseText.Padded d.dayFirst t ∨ LooseText.Padded d.iso t) :
    d.WrittenAs t := by
  rcases h with h | h
  · refine ⟨d.dayFirst, h.strip_eq.trans d.strip_dayFirst, .inl ?_⟩
    rw [dayFirst, String.toList_ofList]
    exact d.dayFirst_dayFirstChars
  · refine ⟨d.iso, h.strip_eq.trans d.strip_iso, .inr ?_⟩
    rw [iso, String.toList_ofList]
    exact d.yearFirst_isoChars

end Day

namespace Term
variable {t : LooseText}

theorem readStart_eq_ok_iff {d : Day} : readStart t = .ok d ↔ d.WrittenAs t := by
  rw [← Day.readWrittenText?_eq_some_iff, readStart]
  cases Day.readWrittenText? t <;> simp

/-- A start is read as a day exactly if its text, blanks around it aside, writes that day with the
day or with the year in front. No text has both forms, not even for a day that does not exist, so
that either form could be tried first; every other text is refused. A day's own texts are read as
the day. -/
theorem readStart_unambiguous (t : LooseText) :
    (∀ d, readStart t = .ok d ↔ d.WrittenAs t) ∧
      (∀ s : String, t.strip = s → ∀ year month day year' month' day',
        Day.DayFirst s.toList year month day → ¬ Day.YearFirst s.toList year' month' day') ∧
      (∀ s : String, t = s → Day.readWrittenText? t =
        (Day.readYearMonthDay? (Text.strip s).toList).orElse fun _ =>
          Day.readDayMonthYear? (Text.strip s).toList) ∧
      ((∀ d : Day, ¬ d.WrittenAs t) → readStart t = .error (.unreadableStart t.quoted)) ∧
      ∀ d : Day, LooseText.Padded d.dayFirst t ∨ LooseText.Padded d.iso t →
        readStart t = .ok d := by
  refine ⟨fun d => readStart_eq_ok_iff, fun s _ _ _ _ _ _ _ h => Day.not_yearFirst_of_dayFirst h,
    ?_, ?_, fun d h => readStart_eq_ok_iff.mpr (Day.writtenAs_of_padded h)⟩
  · rintro s rfl
    rw [Text.toList_strip, ← Day.orElse_readers_comm]
    rfl
  · intro hnone
    have hread : Day.readWrittenText? t = none := by
      rw [Option.eq_none_iff_forall_not_mem]
      exact fun d hd => hnone d (Day.readWrittenText?_eq_some_iff.mp hd)
    simp only [readStart, hread]

/-- A day of a leap year between blanks of other scripts, with the year first; and one day later,
which does not exist. -/
theorem readStart_unambiguous_leap :
    LooseText.Padded (Day.iso ⟨2024, 2, 29, by decide, by decide, by decide⟩)
        "　	2024-02-29 " ∧
      readStart "　	2024-02-29 " =
        .ok ⟨2024, 2, 29, by decide, by decide, by decide⟩ ∧
      (∀ d : Day, ¬ d.WrittenAs "30-02-2024") ∧
      readStart "30-02-2024" = .error (.unreadableStart (LooseText.quoted "30-02-2024")) := by
  have hpadded : LooseText.Padded (Day.iso ⟨2024, 2, 29, by decide, by decide, by decide⟩)
      "　	2024-02-29 " :=
    ⟨[.char '　', .char '	'], [.char ' '], by decide, by decide, by decide +kernel⟩
  have hnone : ∀ d : Day, ¬ d.WrittenAs "30-02-2024" := by
    intro d hd
    have hread : Day.readWrittenText? "30-02-2024" = none := by decide +kernel
    exact absurd (hread.symm.trans (Day.readWrittenText?_eq_some_iff.mpr hd)) (by simp)
  exact ⟨hpadded, (readStart_unambiguous _).2.2.2.2 _ (.inr hpadded), hnone,
    (readStart_unambiguous _).2.2.2.1 hnone⟩

end Term
end Renewals
