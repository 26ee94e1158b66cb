import Renewals.Proofs.Broker.Setup
/-! What connecting leaves behind: failed attempts have given their connections back, and whatever
happens to the one that is made, it alone is concerned. -/
namespace Renewals.Broker
open Renewals.Task (rounds paced)

/-- The connections that have got a channel. -/
def withChannel (h : List Answered) : List Connection :=
  (calls h).filterMap fun
    | (.channel c, .ok _) => some c
    | _ => none

theorem mem_withChannel {c : Connection} {h : List Answered} :
    c ∈ withChannel h ↔ (.channel c, .ok ()) ∈ calls h := by
  refine List.mem_filterMap.trans ⟨?_, fun hc => ⟨_, hc, rfl⟩⟩
  rintro ⟨⟨b, a⟩, hx, hb⟩
  split at hb
  next heq =>
    cases heq
    cases hb
    exact hx
  next => cases hb

/-- All that was acquired of a connection was given back, once: its channel, and then itself. -/
def GivenBack (h : List Answered) (c : Connection) : Prop :=
  closings c h = if c ∈ withChannel h then [.closeChannel c, .release c] else [.release c]

instance (h : List Answered) (c : Connection) : Decidable (GivenBack h c) :=
  inferInstanceAs (Decidable (_ = _))

theorem closings_eq_nil {c : Connection} {h : List Answered}
    (hc : ∀ x ∈ calls h, x.1.isClosing = true → x.1.connection ≠ c) : closings c h = [] := by
  refine List.filter_eq_nil_iff.mpr fun b hb => ?_
  obtain ⟨x, hx, rfl⟩ := List.mem_map.mp hb
  simpa using hc x hx

variable {url : String} {attempts : Int} {pause : Seconds} {h early late : List Answered}
  {c : Connection} {r : Except Failure Connection}

/-- Failed attempts, and at most one more. It is the only one that can succeed. -/
theorem Connecting.exists_final (hc : Connecting url attempts pause h r) :
    ∃ failed final, h = paced pause (rounds (missed url attempts) 1 failed ++ final) ∧
      (∀ x ∈ final.flatMap calls, x.1.isSetup = false) ∧
      ∀ c, (.connect c, .ok ()) ∈ final.flatMap calls ↔ r = .ok c := by
  cases hc with
  | @gaveUp failed => exact ⟨failed, [], by rw [List.append_nil], by simp⟩
  | @made failed _ _ c =>
    have hcalls : [Broker.made url c].flatMap calls = [(.connect c, .ok ())] := rfl
    refine ⟨failed, _, rfl, ?_, fun c' => ?_⟩
    · rw [hcalls]
      exact List.forall_mem_singleton.mpr rfl
    · rw [hcalls]
      simp [eq_comm]
  | @stuck failed _ _ x _ cause =>
    have hcalls : [missedBut url attempts (failed.length + 1) x ++
        [.broker (.release x.1) (.error cause)]].flatMap calls =
        [(.connect x.1, .error x.2), (.release x.1, .error cause)] := rfl
    refine ⟨failed, _, rfl, ?_, fun c' => ?_⟩
    · rw [hcalls]
      exact List.forall_mem_cons.mpr ⟨rfl, List.forall_mem_singleton.mpr rfl⟩
    · rw [hcalls]
      simp
  | @crashed failed _ _ c cause =>
    have hcalls : [[.opened url c, .broker (.connect c) (.error cause)]].flatMap calls =
        [(.connect c, .error cause)] := rfl
    refine ⟨failed, _, rfl, ?_, fun c' => ?_⟩
    · rw [hcalls]
      exact List.forall_mem_singleton.mpr rfl
    · rw [hcalls]
      simp

/-- Connecting declares nothing. -/
theorem Connecting.not_setup (hc : Connecting url attempts pause h r) :
    ∀ x ∈ calls h, x.1.isSetup = false := by
  obtain ⟨failed, final, rfl, hfinal, -⟩ := hc.exists_final
  rw [calls_attempts]
  refine List.forall_mem_append.mpr ⟨fun x hx => ?_, hfinal⟩
  obtain ⟨y, -, hx⟩ := List.mem_flatMap.mp hx
  simp only [List.mem_cons, List.not_mem_nil, or_false] at hx
  rcases hx with rfl | rfl <;> rfl

theorem Connecting.connected_iff (hc : Connecting url attempts pause h r) :
    (.connect c, .ok ()) ∈ calls h ↔ r = .ok c := by
  obtain ⟨failed, final, rfl, -, hfinal⟩ := hc.exists_final
  rw [calls_attempts, List.mem_append]
  refine (or_iff_right fun hmem => ?_).trans (hfinal c)
  obtain ⟨y, -, hx⟩ := List.mem_flatMap.mp hmem
  simp at hx

/-- Whatever happens behind a connection that concerns it alone, the connections before it have been
given back. -/
theorem Connecting.opened_connected (hc : Connecting url attempts pause early (.ok c))
    (hnew : (opened (early ++ late)).Nodup) (hopened : opened late = [])
    (habout : ∀ x ∈ calls late, x.1.connection = c) :
    (∀ c' ∈ opened (early ++ late), c' ≠ c → GivenBack (early ++ late) c') ∧
      closings c (early ++ late) = closings c late ∧
      (c ∈ withChannel (early ++ late) ↔ c ∈ withChannel late) := by
  have hchannel (c' : Connection) :
      c' ∈ withChannel (early ++ late) ↔ c' ∈ withChannel late := by
    rw [mem_withChannel, mem_withChannel, calls_append, List.mem_append]
    exact or_iff_right fun h => absurd (hc.not_setup _ h) (by simp [BrokerCall.isSetup])
  cases hc with
  | @made failed hf hlen =>
    have hclosings (c' : Connection) : closings c'
        (paced pause (rounds (missed url attempts) 1 failed ++ [Broker.made url c]) ++ late) =
        failed.flatMap (givenBack c') ++ closings c' late := by
      have hmade : closings c' (Broker.made url c) = [] := rfl
      rw [closings_append, closings_attempts, List.flatMap_singleton, hmade, List.append_nil]
    have hone : [Broker.made url c].flatMap opened = [c] := rfl
    rw [opened_append, opened_attempts, hopened, hone, List.append_nil] at hnew ⊢
    obtain ⟨hfailed, -, hdisjoint⟩ := List.nodup_append.mp hnew
    refine ⟨fun c' hc' hne => ?_, ?_, hchannel c⟩
    · have hmem : c' ∈ failed.map Prod.fst :=
        (List.mem_append.mp hc').resolve_right fun h => hne (List.mem_singleton.mp h)
      have hnone : c' ∉ withChannel late := fun h =>
        hne (habout _ (mem_withChannel.mp h))
      have hlate : closings c' late = [] :=
        closings_eq_nil fun x hx _ heq => hne (heq.symm.trans (habout x hx))
      rw [GivenBack, hclosings, hlate, if_neg fun h => hnone ((hchannel c').mp h), List.append_nil]
      exact flatMap_givenBack hfailed hmem
    · rw [hclosings, flatMap_givenBack_of_notMem fun hmem =>
        hdisjoint c hmem c (List.mem_singleton_self c) rfl, List.nil_append]

/-- Where connecting gives up, all connections have been given back. -/
theorem Connecting.givenBack {f : Failure} (hc : Connecting url attempts pause h (.error f))
    (hnew : (opened h).Nodup)
    (hmild : ∀ b cause, (b, .error cause) ∈ calls h → cause.isBroker = true)
    (hreleased : ∀ c cause, (.release c, .error cause) ∈ calls h → (.connect c, .ok ()) ∈ calls h) :
    (∀ c ∈ opened h, GivenBack h c) ∧ ∃ last, f = .broker (.unreachable attempts last) := by
  have hnone (c : Connection) : c ∉ withChannel h := fun hmem => by
    simpa [BrokerCall.isSetup] using hc.not_setup _ (mem_withChannel.mp hmem)
  have hunconnected (c : Connection) : (.connect c, .ok ()) ∉ calls h := by
    rw [hc.connected_iff]
    simp
  cases hc with
  | @gaveUp failed hf hlen =>
    rw [← List.append_nil (rounds _ _ failed)] at hnew hnone ⊢
    rw [opened_attempts, List.flatMap_nil, List.append_nil] at hnew ⊢
    refine ⟨fun c hmem => ?_, _, rfl⟩
    rw [GivenBack, if_neg (hnone c), closings_attempts, List.flatMap_nil, List.append_nil]
    exact flatMap_givenBack hnew hmem
  | @stuck failed _ _ x _ cause =>
    refine absurd (hreleased x.1 cause ?_) (hunconnected _)
    rw [calls_attempts, List.flatMap_singleton, calls_append]
    exact List.mem_append_right _ (List.mem_append_right _ (List.mem_singleton_self _))
  | @crashed failed _ _ c cause hc =>
    refine absurd (hmild (.connect c) cause ?_) (by simp [hc])
    rw [calls_attempts]
    exact List.mem_append_right _ (List.mem_singleton_self _)

end Renewals.Broker
