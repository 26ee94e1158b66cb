import Renewals.Proofs.Deployment.Calls
import Renewals.Proofs.Subscription.Payload
/-! An entry that is cached comes back as it was, whatever characters its texts hold, until it
expires. Its numbers may be as long as a payload can spell. -/
namespace Renewals

namespace Deployment

/-- The next call of the cache goes well. Without a client no call fails. -/
def AnswersNext (d : Deployment) : Prop :=
  d.cache.size? = none → d.cachePlan.headD .sound = .sound

theorem SoundCache.answersNext {d : Deployment} (h : d.SoundCache) : d.AnswersNext :=
  fun _ => headD_eq h.plan

theorem AnswersNext.fetch {d : Deployment} (h : d.AnswersNext) (key : LooseText) :
    (answer (.fetch key) d).1 = .ok (d.cache.live? d.clock key) := by
  cases hc : d.cache with
  | memory c =>
    simp only [answer, throughClient, hc]
    exact Cache.fetch_sound d.clock key (.memory c)
  | remote c =>
    have ho : d.cachePlan.headD .sound = .sound := h (by rw [hc]; rfl)
    simp only [answer, throughClient, hc, ho]
    exact Cache.fetch_sound d.clock key (.remote c)

end Deployment

namespace Entry
variable {e : Entry}

/-- The text that was put stays until it expires. -/
theorem live?_putCached {d : Deployment} {key : LooseText} {ttl : Int} {expires later : Binary64}
    (hexp : expiry? d.clock ttl = some expires) (hnow : d.clock.UpTo later)
    (hlater : later.below expires = true)
    (hput : (d.run (Task.putCached key (.ok e.toJson) ttl)).1 = .ok ()) :
    (d.run (Task.putCached key (.ok e.toJson) ttl)).2.cache.live? later key =
      some e.toJson.text := by
  rw [Deployment.run_putCached] at hput ⊢
  cases ha : (Deployment.answer (.put key e.toJson.text ttl) d).1 with
  | ok u => exact Deployment.live?_put_until ha (LifeLimit.expiry?_of_some hexp) hnow hlater
  | error f =>
    rw [ha] at hput
    exact absurd hput (by simp [Except.mapError])

/-- A reader of the entry's text is handed the entry. -/
theorem run_getCached_of_live? (he : e.Writable) {d : Deployment} {key : LooseText}
    (hlive : d.cache.live? d.clock key = some e.toJson.text) (hnext : d.AnswersNext) :
    (d.run (Task.getCached Snapshot.ofJson key)).1 = .ok (some e.snapshot) := by
  have hfetch := hnext.fetch key
  rw [hlive] at hfetch
  rw [Deployment.run_getCached_some hfetch (e.decode_toJson he key)]

/-- The text of an entry stands for the entry's record, and the record for the entry and for no
other one. A cache that has taken the entry holds its text and hands the entry out until it
expires, and a sound cache takes it. -/
theorem cached_comes_back (he : e.Writable) {d : Deployment} (key : String) {ttl : Int}
    {expires later : Binary64} (hexp : expiry? d.clock ttl = some expires)
    (hnow : d.clock.UpTo later) (hlater : later.below expires = true) :
    let put := d.run (Task.putCached key (.ok e.toJson) ttl)
    let got := Deployment.run (Task.getCached Snapshot.ofJson key) { put.2 with clock := later }
    Json.read e.toJson.text = .ok e.toJson ∧
      Snapshot.ofJson e.toJson = .ok e.snapshot ∧
      (∀ e' : Entry, e'.snapshot = e.snapshot → e' = e) ∧
      (put.1 = .ok () → put.2.cache.live? later key = some e.toJson.text ∧
        (put.2.AnswersNext → got.1 = .ok (some e.snapshot))) ∧
      (d.SoundCache → (d.cache.size? = none → 0 < ttl) →
        put.1 = .ok () ∧ got.1 = .ok (some e.snapshot)) := by
  intro put got
  have hback (hput : put.1 = .ok ()) : put.2.cache.live? later key = some e.toJson.text ∧
      (put.2.AnswersNext → got.1 = .ok (some e.snapshot)) := by
    have hlive := live?_putCached hexp hnow hlater hput
    exact ⟨hlive, run_getCached_of_live? (d := { put.2 with clock := later }) he hlive⟩
  refine ⟨e.read_text_toJson he, e.snapshot.ofJson_toJson, fun _ => snapshot_injective, hback,
    fun hd hpos => ?_⟩
  have hrun : put = _ := Deployment.run_putCached key e.toJson ttl d
  have hput : put.1 = .ok () := by
    have hsound := Cache.put_sound hpos (Cache.isSome_of_expiry? hexp) hd.room d.clock key
      e.toJson.text
    rw [hrun, (hd.put key e.toJson.text ttl).1, hsound]
    rfl
  have hnext : put.2.AnswersNext := by
    rw [hrun]
    exact (hd.answer _).answersNext
  exact ⟨hput, (hback hput).2 hnext⟩

/-- Quotes, backslashes, a control character and one beyond the first plane, a price beyond every
machine word, a day of the first year, and no number yet. -/
def elaborate : Entry where
  serviceName := "\"\\\x07 😀"
  price := -1000000000000000000000000000000
  username := "é"
  userUid := some ""
  startDate := ⟨1, 9, 8, by decide, by decide, by decide⟩
  counterMonths := 12
  nextPayment := none
  isActive := false
  id := none

theorem writable_elaborate : elaborate.Writable where
  serviceName := ⟨_, rfl⟩
  price := by decide +kernel
  username := ⟨_, rfl⟩
  counterMonths := by decide +kernel
  userUid t ht := ⟨"", (Option.some.inj ht).symm⟩
  id _ hn := absurd hn (by simp [elaborate])

theorem cached_comes_back_elaborate :
    elaborate.Writable ∧ expiry? .zero 60 = some (.ofInt 60) ∧
      Binary64.zero.UpTo (.ofInt 59) ∧ (Binary64.ofInt 59).below (.ofInt 60) = true ∧
      (let put := (Deployment.small (.memory (.empty 1))).run
          (Task.putCached "k" (.ok elaborate.toJson) 60)
        let got := Deployment.run (Task.getCached Snapshot.ofJson "k")
          { put.2 with clock := .ofInt 59 }
        put.1 = .ok () ∧ got.1 = .ok (some elaborate.snapshot)) := by
  have hexp : expiry? .zero 60 = some (.ofInt 60) := by decide +kernel
  have hnow : Binary64.zero.UpTo (.ofInt 59) := .inr (by decide +kernel)
  have hlater : (Binary64.ofInt 59).below (.ofInt 60) = true := by decide +kernel
  have hsound : (Deployment.small (.memory (.empty 1))).SoundCache :=
    (Deployment.steady_small (by simp [Cache.HasRoom, Cache.size?, MemoryCache.empty])).soundCache
  have hback := cached_comes_back writable_elaborate "k"
    (d := .small (.memory (.empty 1))) hexp hnow hlater
  exact ⟨writable_elaborate, hexp, hnow, hlater, hback.2.2.2.2 hsound fun _ => by decide⟩

end Entry
end Renewals
