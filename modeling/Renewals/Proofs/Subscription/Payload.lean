import Mathlib.Data.List.TakeWhile
import Renewals.Cache.Basic
import Renewals.Proofs.Calendar.Iso
import Renewals.Proofs.Json.Record
import Renewals.Store.Basic
/-! A row that the store takes is read back from its cached text as it was, and no two rows are
cached under one key. -/
namespace Renewals

/-! What the store takes -/

theorem holds_of_gap? {ps : List CodePoint} (h : Charset.unicode.gap? ps = none) :
    ∀ p ∈ ps, Charset.unicode.holds p = true := by
  rw [← List.dropWhile_eq_nil_iff]
  cases hd : ps.dropWhile Charset.unicode.holds with
  | nil => rfl
  | cons p qs => simp [Charset.gap?, hd] at h

theorem wholeChars?_ne_none {ps : List CodePoint}
    (h : ∀ p ∈ ps, Charset.unicode.holds p = true) : wholeChars? ps ≠ none := by
  induction ps with
  | nil => exact Option.some_ne_none _
  | cons p ps ih =>
    obtain ⟨c, hc⟩ := Option.isSome_iff_exists.mp (h p List.mem_cons_self)
    obtain ⟨cs, hcs⟩ :=
      Option.ne_none_iff_exists'.mp (ih fun q hq => h q (List.mem_cons_of_mem p hq))
    simp only [wholeChars?] at hcs ⊢
    simp [List.mapM_cons, hc, hcs]

theorem exists_whole_of_take {t : LooseText} (h : Store.take (.text t) = .ok ()) :
    ∃ s : String, t = s := by
  simp only [Store.take] at h
  split at h
  next hg =>
    cases t with
    | whole s => exact ⟨s, rfl⟩
    | torn ps hh => exact absurd hh (wholeChars?_ne_none (holds_of_gap? hg))
  next => exact absurd h (by simp)

theorem Store.take_whole (t : String) : take (.text t) = .ok () := by
  have hgap : Charset.unicode.gap? (LooseText.points t) = none := by
    have hholds : (LooseText.points t).dropWhile Charset.unicode.holds = [] := by
      rw [List.dropWhile_eq_nil_iff]
      intro p hp
      obtain ⟨c, -, rfl⟩ := List.mem_map.mp hp
      rfl
    simp only [Charset.gap?, hholds]
  simp only [take, hgap]

theorem fitsWord_of_take {n : Int} (h : Store.take (.number n) = .ok ()) : fitsWord n = true := by
  simp only [Store.take] at h
  split at h
  next hn => exact hn
  next => exact absurd h (by simp)

theorem take_of_forM {ps : List Parameter} (h : ps.forM Store.take = .ok ()) :
    ∀ p ∈ ps, Store.take p = .ok () := by
  induction ps with
  | nil => exact fun p hp => absurd hp List.not_mem_nil
  | cons q ps ih =>
    simp only [List.forM, bind, Except.bind] at h
    split at h
    next => exact absurd h (by simp)
    next hq =>
      intro p hp
      rcases List.mem_cons.mp hp with rfl | hp
      · exact hq
      · exact ih h p hp

/-- Whole texts, and numbers that fit a word. -/
structure Subscription.Storable (s : Subscription) : Prop where
  serviceName : ∃ t : String, s.serviceName = t
  price : fitsWord s.price = true
  username : ∃ t : String, s.username = t
  userUid : ∀ t ∈ s.userUid, ∃ u : String, t = u
  counterMonths : fitsWord s.counterMonths = true

structure Row.Storable (r : Row) : Prop extends r.toSubscription.Storable where
  id : fitsWord r.id = true

theorem Subscription.storable_of_take {s : Subscription}
    (h : ∀ p ∈ Query.columns s, Store.take p = .ok ()) : s.Storable where
  serviceName := exists_whole_of_take (h _ (by simp [Query.columns]))
  price := fitsWord_of_take (h _ (by simp [Query.columns]))
  username := exists_whole_of_take (h _ (by simp [Query.columns]))
  userUid t ht := exists_whole_of_take (h _ (by simp [Query.columns, Option.mem_def.mp ht]))
  counterMonths := fitsWord_of_take (h _ (by simp [Query.columns]))

theorem Subscription.Storable.take {s : Subscription} (h : s.Storable) :
    ∀ p ∈ Query.columns s, Store.take p = .ok () := by
  have hnumber {n : Int} (hn : fitsWord n = true) : Store.take (.number n) = .ok () := by
    simp [Store.take, hn]
  have htext {t : LooseText} (ht : ∃ u : String, t = u) : Store.take (.text t) = .ok () := by
    obtain ⟨u, rfl⟩ := ht
    exact Store.take_whole u
  intro p hp
  simp only [Query.columns, List.mem_append, List.mem_cons, List.not_mem_nil, or_false,
    Option.mem_toList, Option.map_eq_some_iff] at hp
  rcases hp with ((rfl | rfl | rfl) | ⟨t, ht, rfl⟩) | rfl
  · exact htext h.serviceName
  · exact hnumber h.price
  · exact htext h.username
  · exact htext (h.userUid t ht)
  · exact hnumber h.counterMonths

/-! Cached texts -/

theorem length_digits_of_fitsWord {n : Int} (h : fitsWord n = true) :
    (Text.digits n.natAbs).length ≤ Numeral.longest := by
  have hn : n.natAbs < 10 ^ 19 := by
    simp only [fitsWord, Bool.and_eq_true, decide_eq_true_eq] at h
    omega
  have := (Nat.length_toDigits_le_iff (by decide) (by decide)).mpr hn
  simp only [Numeral.longest, Text.digits]
  omega

theorem Day.truthy_toJson (d : Day) : d.toJson.truthy = true := by
  have h := d.encodedLength_isoChars
  simp only [toJson, Json.truthy, LooseText.isEmpty, LooseText.points, iso, String.toList_ofList,
    List.isEmpty_map]
  cases hc : d.isoChars with
  | nil =>
    rw [hc] at h
    exact absurd h (by decide)
  | cons c cs => rfl

theorem Snapshot.readDate_toJson (d : Day) : readDate d.toJson = .ok d := by
  simp only [Day.toJson, readDate, Day.readIsoText_iso]
  rfl

theorem Snapshot.ofJson_toJson (s : Snapshot) : ofJson s.toJson = .ok s := by
  obtain ⟨name, price, user, start, months, next, active, uid, id⟩ := s
  cases next with
  | none =>
    simp [ofJson, toJson, member, orNull, Json.get?, Json.Members.get?, readWhole, bind,
      Except.bind, pure, Except.pure, readDate_toJson, Json.optional, Json.truthy]
  | some d =>
    simp [ofJson, toJson, member, orNull, Json.get?, Json.Members.get?, readWhole, bind,
      Except.bind, pure, Except.pure, readDate_toJson, Json.optional, Day.truthy_toJson]
    simp [Json.truthy]

theorem Json.Scalar.ofText {t : LooseText} (h : ∃ s : String, t = s) : Json.Scalar (.str t) := by
  obtain ⟨s, rfl⟩ := h
  exact .str s

theorem Json.Scalar.ofWord {n : Int} (h : fitsWord n = true) : Json.Scalar (.int n) :=
  .int n (length_digits_of_fitsWord h)

theorem Json.Scalar.ofOptionalText {t? : Option LooseText} (h : ∀ t ∈ t?, ∃ s : String, t = s) :
    Json.Scalar (Json.optional .str t?) := by
  cases t? with
  | none => exact .null
  | some t => exact .ofText (h t rfl)

/-- Whole texts, and numbers that are not too long to be read again. -/
structure Entry.Writable (e : Entry) : Prop where
  serviceName : ∃ t : String, e.serviceName = t
  price : (Text.digits e.price.natAbs).length ≤ Numeral.longest
  username : ∃ t : String, e.username = t
  counterMonths : (Text.digits e.counterMonths.natAbs).length ≤ Numeral.longest
  userUid : ∀ t ∈ e.userUid, ∃ u : String, t = u
  id : ∀ n ∈ e.id, (Text.digits n.natAbs).length ≤ Numeral.longest

theorem Row.Storable.writable {r : Row} (h : r.Storable) : r.entry.Writable where
  serviceName := h.serviceName
  price := length_digits_of_fitsWord h.price
  username := h.username
  counterMonths := length_digits_of_fitsWord h.counterMonths
  userUid := h.userUid
  id n hn := by
    obtain rfl := Option.some.inj hn
    exact length_digits_of_fitsWord h.id

theorem Entry.read_text_toJson {e : Entry} (h : e.Writable) :
    Json.read e.toJson.text = .ok e.toJson := by
  have hnext : Json.Scalar (Json.optional Day.toJson e.nextPayment) := by
    cases e.nextPayment with
    | none => exact .null
    | some d => exact .str d.iso
  have hid : Json.Scalar (Json.optional .int e.id) := by
    cases hn : e.id with
    | none => exact .null
    | some n => exact .int n (h.id n hn)
  refine Json.read_text_record ?_ (by simp)
  simp only [List.forall_mem_cons]
  exact ⟨⟨⟨_, rfl⟩, .ofText h.serviceName⟩, ⟨⟨_, rfl⟩, .int _ h.price⟩,
    ⟨⟨_, rfl⟩, .ofText h.username⟩, ⟨⟨_, rfl⟩, .str e.startDate.iso⟩,
    ⟨⟨_, rfl⟩, .int _ h.counterMonths⟩, ⟨⟨_, rfl⟩, hnext⟩, ⟨⟨_, rfl⟩, .bool e.isActive⟩,
    ⟨⟨_, rfl⟩, .ofOptionalText h.userUid⟩, ⟨⟨_, rfl⟩, hid⟩, fun _ hm => absurd hm List.not_mem_nil⟩

/-- The cached text of an entry gives the entry's values again. -/
theorem Entry.decode_toJson {e : Entry} (h : e.Writable) (key : LooseText) :
    Cache.decode Snapshot.ofJson key e.toJson.text = .ok e.snapshot := by
  simp only [Cache.decode, e.read_text_toJson h]
  rw [show e.toJson = e.snapshot.toJson from rfl, Snapshot.ofJson_toJson]
  rfl

/-- Absence is told from every value. -/
theorem Json.optional_injective {α : Type} {f : α → Json} (hf : ∀ a, f a ≠ .null)
    (hinj : Function.Injective f) : Function.Injective (Json.optional f) := by
  intro a b h
  cases a with
  | none =>
    cases b with
    | none => rfl
    | some b => exact absurd h.symm (hf b)
  | some a =>
    cases b with
    | none => exact absurd h (hf a)
    | some b => exact congrArg some (hinj h)

/-- The values that are read back belong to one entry only. -/
theorem Entry.snapshot_injective {e e' : Entry} (h : e.snapshot = e'.snapshot) : e = e' := by
  obtain ⟨⟨name, price, user, uid, start, months, next, active⟩, id⟩ := e
  obtain ⟨⟨name', price', user', uid', start', months', next', active'⟩, id'⟩ := e'
  simp only [snapshot, Snapshot.mk.injEq, Json.str.injEq] at h
  obtain ⟨rfl, rfl, rfl, rfl, rfl, rfl, rfl, huid, hid⟩ := h
  obtain rfl := Json.optional_injective (f := .str) (fun _ => nofun) (fun _ _ => Json.str.inj) huid
  obtain rfl := Json.optional_injective (f := .int) (fun _ => nofun) (fun _ _ => Json.int.inj) hid
  rfl

/-- The cached text of a row gives the row's values again. -/
theorem Row.decode_toJson {r : Row} (h : r.Storable) (key : LooseText) :
    Cache.decode Snapshot.ofJson key r.toJson.text = .ok r.snapshot :=
  Entry.decode_toJson h.writable key

theorem cacheKey_injective {i j : Int} (h : cacheKey i = cacheKey j) : i = j := by
  have hchars := congrArg String.toList h
  simp only [cacheKey, String.toList_append, List.append_cancel_left_eq, Json.shown,
    Json.shownChars, String.toList_ofList] at hchars
  exact Text.integer_injective hchars

end Renewals
