import Mathlib.Data.List.DropRight
import Renewals.Text.Loose
/-! Text without the blanks at its ends. Blanks that are put around a text go away again, and what
has been trimmed once stays as it is. -/
namespace Renewals

namespace Text
variable {α : Type} {p : α → Bool} {left right xs : List α}

theorem dropBoth_append (hl : ∀ a ∈ left, p a = true) (hr : ∀ a ∈ right, p a = true) :
    ((left ++ xs ++ right).dropWhile p).rdropWhile p = (xs.dropWhile p).rdropWhile p := by
  have hright : right.dropWhile p = [] := List.dropWhile_eq_nil_iff.mpr hr
  have hback (ys : List α) : (ys ++ right).rdropWhile p = ys.rdropWhile p := by
    unfold List.rdropWhile
    rw [List.reverse_append, List.dropWhile_append_of_pos]
    intro a ha
    exact hr a (List.mem_reverse.mp ha)
  rw [List.append_assoc, List.dropWhile_append_of_pos hl, List.dropWhile_append]
  split
  next hnil =>
    rw [hright, List.isEmpty_iff.mp hnil]
  next => exact hback _

theorem eq_append_dropBoth (p : α → Bool) (xs : List α) : xs =
    xs.takeWhile p ++ (xs.dropWhile p).rdropWhile p ++ (xs.dropWhile p).rtakeWhile p := by
  rw [List.append_assoc, List.rdropWhile_append_rtakeWhile, List.takeWhile_append_dropWhile]

/-- Only what is dropped at an end is lost. -/
theorem mem_dropBoth {a : α} (ha : a ∈ xs) (hp : p a = false) :
    a ∈ (xs.dropWhile p).rdropWhile p := by
  rw [eq_append_dropBoth p xs] at ha
  rcases List.mem_append.mp ha with ha | ha
  · rcases List.mem_append.mp ha with ha | ha
    · exact Bool.noConfusion (hp.symm.trans (List.mem_takeWhile_imp ha))
    · exact ha
  · exact Bool.noConfusion (hp.symm.trans (List.mem_rtakeWhile_imp ha))

theorem dropBoth_eq_self (h : ∀ a ∈ xs, p a = false) : (xs.dropWhile p).rdropWhile p = xs := by
  have hfront : xs.dropWhile p = xs := by
    refine List.dropWhile_eq_self_iff.mpr fun hl => ?_
    simp [h _ (List.getElem_mem hl)]
  rw [hfront]
  refine List.rdropWhile_eq_self_iff.mpr fun hl => ?_
  simp [h _ (List.getLast_mem hl)]

theorem dropBoth_dropBoth (p : α → Bool) (xs : List α) :
    (((xs.dropWhile p).rdropWhile p).dropWhile p).rdropWhile p =
      (xs.dropWhile p).rdropWhile p := by
  have hsplit := eq_append_dropBoth p xs
  have hboth : ((xs.takeWhile p ++ (xs.dropWhile p).rdropWhile p ++
      (xs.dropWhile p).rtakeWhile p).dropWhile p).rdropWhile p = _ :=
    dropBoth_append (fun _ ha => List.mem_takeWhile_imp ha) fun _ ha => List.mem_rtakeWhile_imp ha
  rw [← hsplit] at hboth
  exact hboth.symm

end Text

namespace LooseText

theorem points_injective {s t : LooseText} (h : s.points = t.points) : s = t := by
  rw [← ofPoints_points s, h, ofPoints_points]

theorem eq_map_of_wholeChars? {ps : List CodePoint} {cs : List Char}
    (h : wholeChars? ps = some cs) : ps = cs.map .char := by
  induction ps generalizing cs with
  | nil =>
    obtain rfl : [] = cs := Option.some.inj h
    rfl
  | cons p ps ih =>
    unfold wholeChars? at h ih
    rw [List.mapM_cons] at h
    cases p with
    | half n => exact absurd h (by simp [CodePoint.char?])
    | char c =>
      cases hps : ps.mapM CodePoint.char? with
      | none => exact absurd h (by simp [CodePoint.char?, hps])
      | some ds =>
        obtain rfl : c :: ds = cs := by simpa [CodePoint.char?, hps] using h
        rw [ih hps, List.map_cons]

@[simp] theorem points_ofPoints (ps : List CodePoint) : (ofPoints ps).points = ps := by
  unfold ofPoints
  split
  next cs h =>
    rw [eq_map_of_wholeChars? h, points, String.toList_ofList]
  next => rfl

theorem points_strip (t : LooseText) :
    t.strip.points = (t.points.dropWhile CodePoint.isBlank).rdropWhile CodePoint.isBlank := by
  cases t with
  | torn ps h => exact points_ofPoints _
  | whole s =>
    have hblank : CodePoint.isBlank ∘ CodePoint.char = Text.isBlank := rfl
    simp only [strip, points, Text.toList_strip, Text.trim, Text.trimLeft, Text.trimRight,
      List.rdropWhile, List.dropWhile_map, hblank, ← List.map_reverse]

/-- What has been trimmed has no blanks at its ends. -/
theorem strip_strip (t : LooseText) : t.strip.strip = t.strip := by
  refine points_injective ?_
  rw [points_strip t.strip, points_strip t, Text.dropBoth_dropBoth]

theorem strip_eq_self {s : String} (h : ∀ c ∈ s.toList, Text.isBlank c = false) :
    strip s = s := by
  refine points_injective ?_
  rw [points_strip, Text.dropBoth_eq_self]
  intro p hp
  obtain ⟨c, hc, rfl⟩ := List.mem_map.mp hp
  exact h c hc

theorem exists_half {ps : List CodePoint} (h : wholeChars? ps = none) :
    ∃ n, .half n ∈ ps := by
  by_contra hnone
  have hchars : ∀ ps : List CodePoint, (∀ n, .half n ∉ ps) → wholeChars? ps ≠ none := by
    intro ps hps
    induction ps with
    | nil => exact Option.some_ne_none _
    | cons p ps ih =>
      cases p with
      | half n => exact absurd List.mem_cons_self (hps n)
      | char c =>
        have htail := ih fun n hn => hps n (List.mem_cons_of_mem _ hn)
        obtain ⟨cs, hcs⟩ := Option.ne_none_iff_exists'.mp htail
        unfold wholeChars? at hcs ⊢
        simp [List.mapM_cons, CodePoint.char?, hcs]
  exact hchars ps (fun n hn => hnone ⟨n, hn⟩) h

/-- A half is no blank and stays where it is. -/
theorem exists_whole_of_strip {t : LooseText} {s : String} (h : t.strip = s) :
    ∃ u : String, t = u := by
  cases t with
  | whole u => exact ⟨u, rfl⟩
  | torn ps hps =>
    obtain ⟨n, hn⟩ := exists_half hps
    have hmem := Text.mem_dropBoth (p := CodePoint.isBlank) hn rfl
    have hpoints : (ps.dropWhile CodePoint.isBlank).rdropWhile CodePoint.isBlank =
        s.toList.map .char := by
      rw [show s.toList.map .char = (LooseText.whole s).points from rfl, ← h, points_strip]
      rfl
    rw [hpoints] at hmem
    obtain ⟨c, -, hc⟩ := List.mem_map.mp hmem
    exact absurd hc (by simp)

/-- Nothing but blanks. -/
def Blank (t : LooseText) : Prop := ∀ c ∈ t.points, c.isBlank = true

/-- A text with any blanks before and behind it. -/
def Padded (t padded : LooseText) : Prop :=
  ∃ left right, (∀ c ∈ left, c.isBlank = true) ∧ (∀ c ∈ right, c.isBlank = true) ∧
    padded.points = left ++ t.points ++ right

theorem Padded.strip_eq {t padded : LooseText} (h : t.Padded padded) : padded.strip = t.strip := by
  obtain ⟨left, right, hl, hr, he⟩ := h
  refine points_injective ?_
  rw [points_strip, points_strip, he, Text.dropBoth_append hl hr]

theorem Blank.isEmpty_strip {t : LooseText} (h : t.Blank) : t.strip.isEmpty = true := by
  unfold isEmpty
  rw [points_strip, List.dropWhile_eq_nil_iff.mpr h]
  rfl

/-- One character that can be seen keeps a text from being trimmed away. -/
theorem isEmpty_strip_eq_false_iff {t : LooseText} :
    t.strip.isEmpty = false ↔ ∃ c ∈ t.points, c.isBlank = false := by
  constructor
  · intro h
    by_contra hnone
    have hblank : t.Blank := by
      intro c hc
      by_contra hvisible
      exact hnone ⟨c, hc, by simpa using hvisible⟩
    exact Bool.noConfusion (h.symm.trans hblank.isEmpty_strip)
  · rintro ⟨c, hc, hvisible⟩
    have hne : t.points.dropWhile CodePoint.isBlank ≠ [] := by
      rw [Ne, List.dropWhile_eq_nil_iff]
      intro hblank
      exact Bool.noConfusion (hvisible.symm.trans (hblank c hc))
    have hhead := List.head_dropWhile_not CodePoint.isBlank hne
    unfold isEmpty
    rw [points_strip, List.isEmpty_eq_false_iff, Ne, List.rdropWhile_eq_nil_iff]
    intro hblank
    rw [hblank _ (List.head_mem hne)] at hhead
    exact absurd hhead (by simp)

end LooseText
end Renewals
