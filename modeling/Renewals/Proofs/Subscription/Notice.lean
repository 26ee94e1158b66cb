import Renewals.Broker.Call
import Renewals.Proofs.Subscription.Payload
import Renewals.Subscription.Notice
/-! A message tells its readers which subscription it is about. -/
namespace Renewals

/-- The number of the subscription that a message is about, as a reader finds it in the body. -/
def Message.subject? (m : Message) : Option Int :=
  match (Json.read m.body).toOption.bind (Json.get? "subscription_id") with
  | some (.int id) => some id
  | _ => none

section
variable {r : Row} {horizon : Horizon} {n : Notice}

theorem Row.exists_notice {due : Day} (h : r.nextPayment = some due) (horizon : Horizon) :
    ∃ n, r.entry.notice horizon.name = .ok n := by
  have hdue : r.entry.nextPayment = some due := h
  exact ⟨_, by rw [Entry.notice, hdue]⟩

theorem Notice.read_text_toJson (hr : r.Storable) (h : r.entry.notice horizon.name = .ok n) :
    Json.read n.toJson.text = .ok n.toJson ∧ n.subscriptionId = some r.id := by
  obtain ⟨⟨hname, hprice, huser, huid, -⟩, hid⟩ := hr
  unfold Entry.notice at h
  split at h
  next => exact absurd h (by simp)
  next due _ =>
    obtain rfl := Except.ok.inj h
    refine ⟨Json.read_text_record ?_ (by simp), rfl⟩
    simp only [List.forall_mem_cons]
    exact ⟨⟨⟨_, rfl⟩, .ofWord hid⟩, ⟨⟨_, rfl⟩, .ofText huser⟩, ⟨⟨_, rfl⟩, .ofText hname⟩,
      ⟨⟨_, rfl⟩, .ofWord hprice⟩, ⟨⟨_, rfl⟩, .str due.iso⟩, ⟨⟨_, rfl⟩, .str horizon.name⟩,
      ⟨⟨_, rfl⟩, .ofOptionalText huid⟩, fun _ hm => absurd hm List.not_mem_nil⟩

/-- The message about a row names the row. -/
theorem subject?_notice (hr : r.Storable) (h : r.entry.notice horizon.name = .ok n)
    (exchange key : String) : Message.subject? ⟨n.toJson.text, exchange, key⟩ = some r.id := by
  obtain ⟨hread, hid⟩ := Notice.read_text_toJson hr h
  have hget : n.toJson.get? "subscription_id" = some (.int r.id) := by
    simp [Notice.toJson, Json.get?, Json.Members.get?, hid, Json.optional]
  simp only [Message.subject?, hread, Except.toOption, Option.bind_some, hget]

end

end Renewals
