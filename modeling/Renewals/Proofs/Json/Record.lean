import Renewals.Proofs.Json.Text
/-! Records of plain values are read back as they were written. -/
namespace Renewals.Json

/-- Values that hold no others and have one reading: no fractions and no torn text. -/
inductive Scalar : Json → Prop
  | null : Scalar .null
  | bool (b : Bool) : Scalar (.bool b)
  | int (n : Int) (h : (Text.digits n.natAbs).length ≤ Numeral.longest) : Scalar (.int n)
  | str (s : String) : Scalar (.str s)

/-- What may stand behind a member of a record: a comma or the closing bracket. -/
inductive Ends : List CodePoint → Prop
  | comma (cs : List CodePoint) : Ends (.char ',' :: cs)
  | close (cs : List CodePoint) : Ends (.char '\x7d' :: cs)

theorem renderText_whole (s : String) :
    renderText s = '"' :: s.toList.flatMap escaped ++ ['"'] := by
  simp only [renderText, LooseText.points, List.flatMap_map]
  rfl

theorem skipSpace_cons {p : CodePoint} (h : isSpace p = false) (cs : List CodePoint) :
    skipSpace (p :: cs) = p :: cs := by
  simp only [skipSpace, List.dropWhile_cons, h, Bool.false_eq_true, ↓reduceIte]

theorem skipSpace_blank (cs : List CodePoint) : skipSpace (.char ' ' :: cs) = skipSpace cs := rfl

theorem isSpace_of_isAsciiDigit {c : Char} (h : Text.isAsciiDigit c = true) :
    isSpace (.char c) = false := by
  simp only [isSpace, CodePoint.passes, Bool.or_eq_false_iff, beq_eq_false_iff_ne]
  refine ⟨⟨⟨?_, ?_⟩, ?_⟩, ?_⟩ <;> (rintro rfl; exact absurd h (by decide))

/-! Whole numbers -/

theorem digits_cons {n : Nat} (hn : n ≠ 0) :
    ∃ c cs, Text.digits n = c :: cs ∧ Text.isAsciiDigit c = true ∧ c ≠ '0' := by
  induction n using Nat.strongRecOn with
  | ind n ih =>
    by_cases h : n < 10
    · refine ⟨n.digitChar, [], Nat.toDigits_of_lt_base h, ?_, fun h0 => ?_⟩
      · exact Text.isAsciiDigit_of_mem_digits (n := n)
          (by simp [Text.digits, Nat.toDigits_of_lt_base h])
      · exact hn (Nat.digitChar_eq_zero.mp h0)
    · obtain ⟨c, cs, hd, hc⟩ := ih (n / 10) (by omega) (by omega)
      refine ⟨c, cs ++ [(n % 10).digitChar], ?_, hc⟩
      rw [Text.digits, Nat.toDigits_of_base_le (by decide) (by omega)]
      exact congrArg (· ++ _) hd

theorem readDigits_append {ds : List Char} (hd : ∀ c ∈ ds, Text.isAsciiDigit c = true)
    {rest : List CodePoint} (hr : Ends rest) :
    readDigits (ds.map .char ++ rest) = (ds.filterMap Text.asciiDigitValue?, rest) := by
  have hall : ∀ p ∈ ds.map CodePoint.char, isDigit p = true := by
    intro p hp
    obtain ⟨c, hc, rfl⟩ := List.mem_map.mp hp
    exact hd c hc
  have hrest : rest.takeWhile isDigit = [] ∧ rest.dropWhile isDigit = rest := by
    cases hr <;> exact ⟨rfl, rfl⟩
  rw [readDigits, List.takeWhile_append_of_pos hall, List.dropWhile_append_of_pos hall, hrest.1,
    hrest.2, List.append_nil, List.filterMap_map]
  rfl

theorem readWhole?_digits (n : Nat) {rest : List CodePoint} (hr : Ends rest) :
    readWhole? ((Text.digits n).map .char ++ rest) =
      some ((Text.digits n).filterMap Text.asciiDigitValue?, rest) := by
  by_cases hn : n = 0
  · subst hn
    rfl
  · obtain ⟨c, cs, hd, hc, h0⟩ := digits_cons hn
    have hread := readDigits_append (fun _ => Text.isAsciiDigit_of_mem_digits (n := n)) hr
    rw [hd] at hread ⊢
    have hv : Text.asciiDigitValue? c = some (c.toNat - '0'.toNat) := if_pos hc
    rw [List.filterMap_cons_some hv] at hread ⊢
    unfold readWhole?
    split
    next h =>
      rw [List.map_cons, List.cons_append, List.cons.injEq, CodePoint.char.injEq] at h
      exact absurd h.1 h0
    next => rw [hread]

theorem readNumber_digits (negative : Bool) (start n : Nat)
    (h : (Text.digits n).length ≤ Numeral.longest) {rest : List CodePoint} (hr : Ends rest) :
    readNumber negative start ((Text.digits n).map .char ++ rest) =
      .ok (.int (if negative then -n else n), rest) := by
  have hlen : ¬ ((Text.digits n).filterMap Text.asciiDigitValue?).length > Numeral.longest := by
    rw [Text.filterMap_asciiDigitValue? fun _ => Text.isAsciiDigit_of_mem_digits, List.length_map]
    exact Nat.not_lt.mpr h
  have hf : readFraction rest = ([], rest) := by cases hr <;> rfl
  have he : readExponent? rest = none := by cases hr <;> rfl
  simp only [readNumber, readWhole?_digits n hr, hf, he, if_neg hlen, Text.ofDigits_digits]

/-! Values -/

theorem readValue_scalar {c : Char} (hq : c ≠ '"') (ha : c ≠ '[') (ho : c ≠ '\x7b')
    (fuel depth : Nat) (cs : List CodePoint) :
    readValue (fuel + 1) depth (.char c :: cs) = readScalar (.char c :: cs) := by
  rw [readValue]
  · exact fun _ h => hq (CodePoint.char.inj (List.cons.inj h).1)
  · exact fun _ h => ha (CodePoint.char.inj (List.cons.inj h).1)
  · exact fun _ h => ho (CodePoint.char.inj (List.cons.inj h).1)

/-- No fixed word starts with a digit, nor a minus in front of one. -/
theorem readWord?_digit {c : Char} (hc : Text.isAsciiDigit c = true) (cs : List CodePoint) :
    readWord? (.char c :: cs) = none ∧ readWord? (.char '-' :: .char c :: cs) = none := by
  have hne {d : Char} (hd : Text.isAsciiDigit d = false) : d ≠ c := by
    rintro rfl
    rw [hc] at hd
    exact Bool.noConfusion hd
  constructor <;>
    simp [readWord?, words, dropWord?, hne (d := 'n') rfl, hne (d := 't') rfl, hne (d := 'f') rfl,
      hne (d := 'N') rfl, hne (d := 'I') rfl, hne (d := '-') rfl]

theorem integer_cons (n : Int) :
    ∃ c cs, Text.integer n = c :: cs ∧ (c = '-' ∨ Text.isAsciiDigit c = true) := by
  unfold Text.integer
  split
  · exact ⟨'-', _, rfl, .inl rfl⟩
  · obtain ⟨c, cs, hd⟩ := List.exists_cons_of_ne_nil (Text.digits_ne_nil n.natAbs)
    exact ⟨c, cs, hd, .inr (Text.isAsciiDigit_of_mem_digits (hd ▸ List.mem_cons_self))⟩

theorem readScalar_integer (n : Int) (h : (Text.digits n.natAbs).length ≤ Numeral.longest)
    {rest : List CodePoint} (hr : Ends rest) :
    readScalar ((Text.integer n).map .char ++ rest) = .ok (.int n, rest) := by
  obtain ⟨c, cs, hd⟩ := List.exists_cons_of_ne_nil (Text.digits_ne_nil n.natAbs)
  have hc : Text.isAsciiDigit c = true :=
    Text.isAsciiDigit_of_mem_digits (hd ▸ List.mem_cons_self)
  have hm : c ≠ '-' := by
    rintro rfl
    exact absurd hc (by decide)
  unfold Text.integer
  split
  next hn =>
    have hv : (if true = true then -(n.natAbs : Int) else n.natAbs) = n := by
      simp only [↓reduceIte]
      omega
    have hread (start : Nat) := readNumber_digits true start n.natAbs h hr
    rw [hv, hd] at hread
    rw [hd]
    simp only [List.map_cons, List.cons_append, readScalar, (readWord?_digit hc _).2]
    exact hread _
  next hn =>
    have hv : (if false = true then -(n.natAbs : Int) else n.natAbs) = n := by
      simp only [Bool.false_eq_true, ↓reduceIte]
      omega
    have hread (start : Nat) := readNumber_digits false start n.natAbs h hr
    rw [hv, hd] at hread
    rw [hd]
    simp only [List.map_cons, List.cons_append, readScalar, (readWord?_digit hc _).1]
    split
    next h => exact absurd (CodePoint.char.inj (List.cons.inj h).1) hm
    next => exact hread _

/-- The writing of a plain value starts with a visible character. -/
theorem render_cons {v : Json} (hv : Scalar v) :
    ∃ c cs, render v = c :: cs ∧ isSpace (.char c) = false := by
  cases hv with
  | null => exact ⟨'n', _, rfl, rfl⟩
  | bool b => cases b <;> exact ⟨_, _, rfl, rfl⟩
  | int n h =>
    obtain ⟨c, cs, hd, rfl | hc⟩ := integer_cons n
    · exact ⟨'-', cs, hd, rfl⟩
    · exact ⟨c, cs, hd, isSpace_of_isAsciiDigit hc⟩
  | str s => exact ⟨'"', _, rfl, rfl⟩

/-- A plain value is read back in front of a comma or a closing bracket. -/
theorem readValue_render {v : Json} (hv : Scalar v) (fuel depth : Nat) {rest : List CodePoint}
    (hr : Ends rest) :
    readValue (fuel + 1) depth ((render v).map .char ++ rest) = .ok (v, rest) := by
  cases hv with
  | null => exact readValue_scalar (by decide) (by decide) (by decide) fuel depth _
  | bool b =>
    cases b <;> exact readValue_scalar (by decide) (by decide) (by decide) fuel depth _
  | int n h =>
    obtain ⟨c, cs, hd, hc⟩ := integer_cons n
    have hread := readScalar_integer n h hr
    have hne {d : Char} (hm : d ≠ '-') (hd : Text.isAsciiDigit d = false) : c ≠ d := by
      rintro rfl
      rcases hc with hc | hc
      · exact hm hc
      · exact Bool.noConfusion (hd.symm.trans hc)
    simp only [render]
    rw [hd, List.map_cons, List.cons_append] at hread ⊢
    rw [readValue_scalar (hne (by decide) rfl) (hne (by decide) rfl) (hne (by decide) rfl)]
    exact hread
  | str s =>
    have hs := LooseText.ofPoints_points s
    simp only [LooseText.points] at hs
    simp only [render, renderText_whole, List.map_cons, List.map_append, List.cons_append,
      List.append_assoc, List.map_nil, List.nil_append]
    rw [readValue, readText_quoted]
    simp only [bind, Except.bind, pure, Except.pure, hs]

/-! Records -/

/-- A member whose name is whole and whose value is plain. -/
structure PlainMember (m : LooseText × Json) : Prop where
  name : ∃ s : String, m.1 = s
  value : Scalar m.2

/-- A member is taken in; then the record is closed, or another member follows. -/
theorem readMembers_member {m : LooseText × Json} (hm : PlainMember m) (fuel depth : Nat)
    (ms : Members) (rest : List CodePoint) :
    readMembers (fuel + 2) depth ms
        ((renderText m.1 ++ ':' :: ' ' :: render m.2).map .char ++ .char '\x7d' :: rest) =
      .ok (ms.put m.1 m.2, rest) ∧
    readMembers (fuel + 2) depth ms
        ((renderText m.1 ++ ':' :: ' ' :: render m.2).map .char ++ .char ',' :: rest) =
      readMembers (fuel + 1) depth (ms.put m.1 m.2) (skipSpace rest) := by
  obtain ⟨name, v⟩ := m
  obtain ⟨⟨s, rfl⟩, hv⟩ := hm
  have hs := LooseText.ofPoints_points s
  simp only [LooseText.points] at hs
  obtain ⟨c, cs, hc, hspace⟩ := render_cons hv
  have hclose := readValue_render hv fuel depth (.close rest)
  have hcomma := readValue_render hv fuel depth (.comma rest)
  simp only at hc hclose hcomma ⊢
  rw [hc, List.map_cons, List.cons_append] at hclose hcomma
  have hcolon : isSpace (.char ':') = false := rfl
  simp only [hc, renderText_whole, List.map_cons, List.map_append, List.cons_append,
    List.append_assoc, List.nil_append]
  constructor
  · rw [readMembers, readText_quoted]
    simp only [bind, Except.bind, pure, Except.pure, skipSpace_cons hcolon, skipSpace_blank,
      skipSpace_cons hspace, hclose, hs]
    rfl
  · rw [readMembers, readText_quoted]
    simp only [bind, Except.bind, pure, Except.pure, skipSpace_cons hcolon, skipSpace_blank,
      skipSpace_cons hspace, hcomma, hs]
    rfl

theorem skipSpace_renderText (t : LooseText) (cs : List Char) (rest : List CodePoint) :
    skipSpace ((renderText t ++ cs).map .char ++ rest) = (renderText t ++ cs).map .char ++ rest :=
  skipSpace_cons rfl _

/-- Members are added in the order of their writing; each uses up a unit of fuel. -/
theorem readMembers_render {m : LooseText × Json} {ms : Members} (hm : ∀ n ∈ m :: ms, PlainMember n)
    {fuel : Nat} (hf : ms.length < fuel) (depth : Nat) (acc : Members) (rest : List CodePoint) :
    readMembers (fuel + 1) depth acc
        ((renderText m.1 ++ (':' :: ' ' :: render m.2 ++ renderMembers ms)).map .char ++ rest) =
      .ok ((m :: ms).foldl (fun a n => a.put n.1 n.2) acc, rest) := by
  obtain ⟨fuel, rfl⟩ := Nat.exists_eq_succ_of_ne_zero (Nat.ne_of_gt (Nat.zero_lt_of_lt hf))
  rw [← List.append_assoc, List.map_append, List.append_assoc]
  induction ms generalizing m fuel acc with
  | nil => exact (readMembers_member (hm m List.mem_cons_self) fuel depth acc rest).1
  | cons n ms ih =>
    obtain ⟨fuel, rfl⟩ := Nat.exists_eq_succ_of_ne_zero (n := fuel) (by simp at hf; omega)
    have htail := ih (fun k hk => hm k (List.mem_cons_of_mem m hk)) (acc.put m.1 m.2)
      fuel (Nat.lt_of_succ_lt_succ hf)
    rw [← List.append_assoc, ← List.map_append, List.append_assoc, ← skipSpace_renderText,
      ← skipSpace_blank] at htail
    have hnext : (renderMembers (n :: ms)).map CodePoint.char ++ rest = .char ',' :: .char ' ' ::
        ((renderText n.1 ++ (':' :: ' ' :: render n.2 ++ renderMembers ms)).map .char ++ rest) := by
      simp only [renderMembers, List.cons_append, List.append_assoc, List.map_cons]
    rw [hnext]
    exact (readMembers_member (hm m List.mem_cons_self) (fuel + 1) depth acc _).2.trans htail

theorem put_of_forall_ne {name : LooseText} {ms : Members} (h : ∀ m ∈ ms, m.1 ≠ name) (v : Json) :
    ms.put name v = ms ++ [(name, v)] := by
  induction ms with
  | nil => rfl
  | cons m ms ih =>
    rw [Members.put, if_neg (h m List.mem_cons_self),
      ih fun k hk => h k (List.mem_cons_of_mem m hk), List.cons_append]

/-- Members with names of their own stay as they are. -/
theorem foldl_put {acc ms : Members} (h : (acc ++ ms).Pairwise fun a b => a.1 ≠ b.1) :
    ms.foldl (fun a n => a.put n.1 n.2) acc = acc ++ ms := by
  induction ms generalizing acc with
  | nil => exact (List.append_nil acc).symm
  | cons m ms ih =>
    have hacc : ∀ n ∈ acc, n.1 ≠ m.1 := fun n hn =>
      (List.pairwise_append.mp h).2.2 n hn m List.mem_cons_self
    rw [List.append_cons] at h
    rw [List.foldl_cons, put_of_forall_ne hacc, ih h, ← List.append_cons]

theorem length_le_renderMembers (ms : Members) : ms.length ≤ (renderMembers ms).length := by
  induction ms with
  | nil => exact Nat.zero_le _
  | cons m ms ih =>
    simp only [renderMembers, List.length_cons, List.length_append]
    omega

/-- A record of plain values under names of their own is the reading of its text. -/
theorem read_text_record {m : LooseText × Json} {ms : Members}
    (hm : ∀ n ∈ m :: ms, PlainMember n) (hd : (m :: ms).Pairwise fun a b => a.1 ≠ b.1) :
    read (text (.obj (m :: ms))) = .ok (.obj (m :: ms)) := by
  let body := renderText m.1 ++ (':' :: ' ' :: render m.2 ++ renderMembers ms)
  have hpoints : LooseText.points (text (.obj (m :: ms))) =
      .char '\x7b' :: body.map CodePoint.char := by
    simp only [LooseText.points, text, render, String.toList_ofList, List.map_cons, body,
      List.cons_append, List.append_assoc]
  have hlen : ms.length < 2 * (body.length + 1) := by
    have := length_le_renderMembers ms
    simp only [body, List.length_append, List.length_cons]
    omega
  have hread : readMembers (2 * (body.length + 1) + 1) 979 [] (body.map CodePoint.char) =
      .ok (m :: ms, []) := by
    have := readMembers_render hm hlen 979 [] []
    rw [List.append_nil, foldl_put (by exact hd), List.nil_append] at this
    exact this
  have hskip : skipSpace (body.map CodePoint.char) = body.map CodePoint.char := skipSpace_cons rfl _
  have hbrace : isSpace (.char '\x7b') = false := rfl
  have hvalue : readValue (2 * (body.length + 1) + 2) deepest
      (.char '\x7b' :: body.map CodePoint.char) = .ok (.obj (m :: ms), []) := by
    rw [readValue]
    simp only [descend, deepest, bind, Except.bind, pure, Except.pure, hskip]
    split
    next h => exact absurd h (by simp [body, renderText])
    next => rw [hread]
  have hall : readAll (.char '\x7b' :: body.map CodePoint.char) = .ok (.obj (m :: ms)) := by
    simp only [readAll, skipSpace_cons hbrace, List.length_cons, List.length_map, hvalue]
    rfl
  simp only [read, hpoints, hall]
  rfl

end Renewals.Json
