import Renewals.Migration.Address
import Renewals.Proofs.Basic
import Renewals.Settings.Basic
/-! Which addresses come out of the migration's configuration as they went in: those without a
percent sign. A sign that is doubled comes out single, a reference gives way to what it refers to,
and an address that refers to itself never comes out. -/
namespace Renewals.Migration

/-! Addresses without a percent sign -/

theorem reference?_of_ne {c : Char} (hc : c ≠ '%') (cs : List Char) : reference? (c :: cs) = none :=
  reference?.eq_2 _ fun _ h => hc (List.cons.inj h).1

theorem dropDoubled_of_notMem {cs : List Char} (h : '%' ∉ cs) : dropDoubled cs = cs := by
  induction cs with
  | nil => rfl
  | cons c cs ih =>
    obtain ⟨hc, hcs⟩ := not_or.mp (mt List.mem_cons.mpr h)
    rw [dropDoubled.eq_2 _ _ fun _ he _ => hc he.symm, ih hcs]

theorem dropReferences_of_notMem {cs : List Char} (h : '%' ∉ cs) (fuel : Nat) :
    dropReferences fuel cs = cs := by
  induction fuel generalizing cs with
  | zero => rfl
  | succ fuel ih =>
    cases cs with
    | nil => rfl
    | cons c cs =>
      obtain ⟨hc, hcs⟩ := not_or.mp (mt List.mem_cons.mpr h)
      simp only [dropReferences, reference?_of_ne (Ne.symm hc), ih hcs]

theorem expand_plain {c : Char} (hc : c ≠ '%') (options : List (String × String)) (value : String)
    (depth fuel : Nat) (cs : List Char) :
    expand options value (depth + 1) (fuel + 1) (c :: cs) =
      (expand options value (depth + 1) fuel cs).map (c :: ·) := by
  rw [expand.eq_6 options value depth fuel c cs (fun _ h _ => hc h) hc]
  cases expand options value (depth + 1) fuel cs <;> rfl

theorem expand_of_notMem {cs : List Char} (h : '%' ∉ cs) (options : List (String × String))
    (value : String) (depth : Nat) {fuel : Nat} (hfuel : cs.length < fuel) :
    expand options value (depth + 1) fuel cs = .ok cs := by
  induction cs generalizing fuel with
  | nil =>
    cases fuel with
    | zero => exact absurd hfuel (Nat.not_lt_zero _)
    | succ fuel => exact expand.eq_3 ..
  | cons c cs ih =>
    obtain ⟨hc, hcs⟩ := not_or.mp (mt List.mem_cons.mpr h)
    cases fuel with
    | zero => exact absurd hfuel (Nat.not_lt_zero _)
    | succ fuel =>
      rw [expand_plain (Ne.symm hc), ih hcs (Nat.lt_of_succ_lt_succ hfuel)]
      rfl

theorem configured_eq (value : String) : configured value = (accept value).bind fun _ =>
    (expand (options value) value 10 (value.length + 1) value.toList).map String.ofList := by
  cases h : accept value with
  | error f => simp only [configured, h, bind, Except.bind]
  | ok u =>
    simp only [configured, h, bind, Except.bind]
    cases expand (options value) value 10 (value.length + 1) value.toList <;> rfl

theorem configured_of_notMem {value : String} (h : '%' ∉ value.toList) :
    configured value = .ok value := by
  have haccept : accept value = .ok () := by
    simp only [accept, dropDoubled_of_notMem h, dropReferences_of_notMem h]
    exact if_neg (by simpa using h)
  have hlength : value.toList.length < value.length + 1 := by
    rw [String.length_toList]
    exact Nat.lt_succ_self _
  rw [configured_eq, haccept, expand_of_notMem h _ _ _ hlength]
  exact congrArg Except.ok String.ofList_toList

/-! Addresses with one -/

/-- The address comes out as long as references go no deeper than this. -/
def Comes (value : String) (depth : Nat) : Prop :=
  ∃ out, expand (options value) value depth (value.length + 1) value.toList = .ok out

/-- A text does not come out unless the address itself does, one level deeper. -/
def Circular (value : String) (fuel : Nat) (cs : List Char) : Prop :=
  ∀ depth out, expand (options value) value (depth + 1) fuel cs = .ok out → Comes value depth

/-- What comes out is not the text with more percent signs in front of it, and not the text itself
if it has any. Signs that are doubled turn the second into the first. -/
structure Altered (cs out : List Char) : Prop where
  ne_marked : ∀ n, out ≠ List.replicate (n + 1) '%' ++ cs
  ne_self : '%' ∈ cs → out ≠ cs

namespace Altered
variable {cs out : List Char}

theorem nil : Altered cs [] where
  ne_marked n := by simp [List.replicate_succ]
  ne_self hm he := absurd (he ▸ hm) List.not_mem_nil

theorem doubled (h : Altered cs out) : Altered ('%' :: '%' :: cs) ('%' :: out) where
  ne_marked n he := by
    refine h.ne_marked (n + 1) ((List.cons.inj he).2.trans ?_)
    simp [List.replicate_succ']
  ne_self _ he := h.ne_marked 0 (List.cons.inj he).2

theorem plain {c : Char} (hc : c ≠ '%') (h : Altered cs out) : Altered (c :: cs) (c :: out) where
  ne_marked _ he := hc (List.cons.inj he).1
  ne_self hm he :=
    h.ne_self ((List.mem_cons.mp hm).resolve_left (Ne.symm hc)) (List.cons.inj he).2

/-- Something else stands where a percent sign was. -/
theorem of_head {c : Char} (hc : c ≠ '%') : Altered ('%' :: cs) (c :: out) where
  ne_marked _ he := hc (List.cons.inj he).1
  ne_self _ he := hc (List.cons.inj he).1

end Altered

/-- An option is the address itself, or it has no percent sign. -/
theorem lookup_options {value key v : String} (h : (options value).lookup key = some v) :
    v = value ∨ ∃ c cs, v.toList = c :: cs ∧ '%' ∉ c :: cs := by
  obtain ⟨before, behind, hsplit, -⟩ := List.lookup_eq_some_iff.mp h
  have hmem : (key, v) ∈ options value := by
    rw [hsplit]
    exact List.mem_append_right _ List.mem_cons_self
  rcases List.mem_cons.mp hmem with h | hmem
  · exact .inr ⟨'.', [], by cases h; rfl, by decide⟩
  · rcases List.mem_cons.mp hmem with h | hmem
    · exact .inr ⟨'m', "igrations".toList, by cases h; rfl, by decide⟩
    · exact .inl (Prod.mk.inj (List.mem_singleton.mp hmem)).2

section
variable {value : String} {depth fuel : Nat} {cs out : List Char}

theorem expand_doubled
    (h : expand (options value) value (depth + 1) (fuel + 1) ('%' :: '%' :: cs) = .ok out) :
    ∃ late, expand (options value) value (depth + 1) fuel cs = .ok late ∧ out = '%' :: late := by
  rw [expand.eq_4] at h
  obtain ⟨late, hlate, h⟩ := exists_of_bind_eq_ok h
  exact ⟨late, hlate, (Except.ok.inj h).symm⟩

/-- A percent sign that is not doubled starts a reference to an option. -/
theorem expand_reference (hcs : ∀ cs', cs ≠ '%' :: cs')
    (h : expand (options value) value (depth + 1) (fuel + 1) ('%' :: cs) = .ok out) :
    ∃ key rest v inner late, reference? ('%' :: cs) = some (key, rest) ∧
      (options value).lookup (String.ofList (Text.lower key)) = some v ∧
      expand (options value) value depth (v.length + 1) v.toList = .ok inner ∧
      out = inner ++ late := by
  rw [expand.eq_5 _ _ _ _ _ hcs] at h
  split at h
  · cases h
  next key rest hreference =>
    dsimp only at h
    split at h
    · cases h
    next v hv =>
      obtain ⟨inner, hinner, h⟩ := exists_of_bind_eq_ok h
      obtain ⟨late, -, h⟩ := exists_of_bind_eq_ok h
      exact ⟨key, rest, v, inner, late, hreference, hv, hinner, (Except.ok.inj h).symm⟩

/-- An option without a percent sign comes out as it is. -/
theorem eq_of_expand_option {v : String} (hv : '%' ∉ v.toList)
    (h : expand (options value) value depth (v.length + 1) v.toList = .ok out) :
    out = v.toList := by
  cases depth with
  | zero => cases (expand.eq_1 _ _ _ _).symm.trans h
  | succ depth =>
    have hlength : v.toList.length < v.length + 1 := by
      rw [String.length_toList]
      exact Nat.lt_succ_self _
    exact (Except.ok.inj ((expand_of_notMem hv _ _ _ hlength).symm.trans h)).symm

end

theorem circular_or_altered_reference (value : String) (fuel : Nat) {cs : List Char}
    (hcs : ∀ cs', cs ≠ '%' :: cs') : Circular value (fuel + 1) ('%' :: cs) ∨ ∀ depth out,
      expand (options value) value (depth + 1) (fuel + 1) ('%' :: cs) = .ok out →
        Altered ('%' :: cs) out := by
  by_cases hself : ∃ key rest, reference? ('%' :: cs) = some (key, rest) ∧
      (options value).lookup (String.ofList (Text.lower key)) = some value
  · obtain ⟨key, rest, hreference, hvalue⟩ := hself
    refine .inl fun depth out h => ?_
    obtain ⟨key', rest', v, inner, late, hreference', hv, hinner, -⟩ := expand_reference hcs h
    cases hreference.symm.trans hreference'
    cases hvalue.symm.trans hv
    exact ⟨inner, hinner⟩
  · refine .inr fun depth out h => ?_
    obtain ⟨key, rest, v, inner, late, hreference, hv, hinner, rfl⟩ := expand_reference hcs h
    rcases lookup_options hv with rfl | ⟨c, v', hchars, hplain⟩
    · exact absurd ⟨key, rest, hreference, hv⟩ hself
    · rw [eq_of_expand_option (hchars ▸ hplain) hinner, hchars]
      exact .of_head fun hc => hplain (hc ▸ List.mem_cons_self)

/-- Unless it goes round in a circle, a text comes out altered. -/
theorem circular_or_altered (value : String) (fuel : Nat) (cs : List Char) :
    Circular value fuel cs ∨ ∀ depth out,
      expand (options value) value (depth + 1) fuel cs = .ok out → Altered cs out := by
  induction fuel generalizing cs with
  | zero =>
    refine .inr fun depth out h => ?_
    cases (expand.eq_2 ..).symm.trans h
    exact .nil
  | succ fuel ih =>
    cases cs with
    | nil =>
      refine .inr fun depth out h => ?_
      cases (expand.eq_3 ..).symm.trans h
      exact .nil
    | cons c cs =>
      by_cases hc : c = '%'
      · subst hc
        by_cases hcs : ∃ cs', cs = '%' :: cs'
        · obtain ⟨cs', rfl⟩ := hcs
          refine (ih cs').imp (fun hcircle depth out h => ?_) fun haltered depth out h => ?_
          · obtain ⟨late, hlate, -⟩ := expand_doubled h
            exact hcircle depth late hlate
          · obtain ⟨late, hlate, rfl⟩ := expand_doubled h
            exact (haltered depth late hlate).doubled
        · exact circular_or_altered_reference value fuel fun cs' h => hcs ⟨cs', h⟩
      · refine (ih cs).imp (fun hcircle depth out h => ?_) fun haltered depth out h => ?_
        · rw [expand_plain hc] at h
          obtain ⟨late, hlate, -⟩ := exists_of_map_eq_ok h
          exact hcircle depth late hlate
        · rw [expand_plain hc] at h
          obtain ⟨late, hlate, rfl⟩ := exists_of_map_eq_ok h
          exact (haltered depth late hlate).plain hc

/-- An address that refers to itself does not come out at any depth. -/
theorem not_comes_of_circular {value : String}
    (h : Circular value (value.length + 1) value.toList) (depth : Nat) : ¬Comes value depth := by
  induction depth with
  | zero =>
    rintro ⟨out, hout⟩
    cases (expand.eq_1 _ _ _ _).symm.trans hout
  | succ depth ih =>
    rintro ⟨out, hout⟩
    exact ih (h depth out hout)

theorem configured_eq_self_iff {value : String} :
    configured value = .ok value ↔ '%' ∉ value.toList := by
  refine ⟨fun h hm => ?_, configured_of_notMem⟩
  rw [configured_eq] at h
  obtain ⟨_, -, h⟩ := exists_of_bind_eq_ok h
  obtain ⟨out, hout, h⟩ := exists_of_map_eq_ok h
  rcases circular_or_altered value (value.length + 1) value.toList with hcircle | haltered
  · exact not_comes_of_circular hcircle 10 ⟨out, hout⟩
  · refine (haltered 9 out hout).ne_self hm ?_
    rw [← h, String.toList_ofList]

/-- Naming the driver brings no percent sign in and takes none away. -/
theorem mem_storeUrl (s : Settings) : '%' ∈ s.storeUrl.toList ↔ '%' ∈ s.databaseUrl.toList := by
  unfold Settings.storeUrl
  dsimp only
  split
  next h =>
    obtain ⟨rest, hrest⟩ := List.isPrefixOf_iff_prefix.mp h
    rw [← hrest, List.drop_left, String.toList_ofList]
    simp
  next => rfl

/-- The migration works with the address that the store is opened at if, and only if, the address
has no percent sign; one that has any is refused, or another comes out of it. -/
theorem configured_storeUrl_iff (s : Settings) :
    configured s.storeUrl = .ok s.storeUrl ↔ '%' ∉ s.databaseUrl.toList :=
  configured_eq_self_iff.trans (not_congr (mem_storeUrl s))

/-- An at sign in a password, written as it has to be in an address. -/
def encodedPassword : Settings :=
  { Settings.standard with databaseUrl := "postgresql://u:p%40ss@h/d" }

/-- The store can be opened there, and the migration refuses the address. -/
theorem configured_encodedPassword :
    (∃ a, Store.Address.usable encodedPassword.storeUrl = .ok a ∧ a.password = some "p@ss") ∧
    configured encodedPassword.storeUrl =
      .error (.syntaxAt "postgresql+psycopg://u:p%40ss@h/d" 24) :=
  ⟨⟨_, rfl, rfl⟩, rfl⟩

end Renewals.Migration
