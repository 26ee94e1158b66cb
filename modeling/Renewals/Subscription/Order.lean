import Renewals.Subscription.Entry
/-! What a request for a subscription must fulfil, and the subscription it asks for. -/
namespace Renewals

namespace Order

/-- A name with a visible character, and a price that is not negative. -/
def checkCommercial (o : Order) : Except Refusal Unit :=
  if o.serviceName.strip.isEmpty then .error .nameless
  else if o.price < 0 then .error .negativePrice
  else .ok ()

/-- The first payment is due a month after the start. -/
def accept (o : Order) (username : LooseText) (userUid : Option LooseText) (today : Day)
    (isActive : Bool) : Except TermFault Subscription := do
  o.checkCommercial.mapError .refused
  let startDate ← (Term.readStart o.startDate).mapError .refused
  let _ ← Term.validate startDate o.counterMonths today
  let nextPayment ← (startDate.addMonths 1).mapError .date
  pure {
    serviceName := o.serviceName.strip
    price := o.price
    username, userUid, startDate
    counterMonths := o.counterMonths
    nextPayment := some nextPayment
    isActive }

end Order

namespace SumOrder

/-- A blank service name selects all services. -/
def accept (o : SumOrder) (username : LooseText) : Except TermFault Window := do
  let startDate ← (Term.readStart o.startDate).mapError .refused
  if o.counterMonths ≤ 0 then throw (.refused .noMonths)
  pure {
    username, startDate
    serviceName := (o.serviceName.map (·.strip)).filter (!·.isEmpty)
    counterMonths := o.counterMonths }

end SumOrder

/-- The free month of a new owner. -/
def Subscription.aggregator (username : LooseText) (userUid : Option LooseText) (today : Day) :
    Except Day.Fault Subscription := do
  let nextPayment ← today.addMonths 1
  pure {
    serviceName := aggregatorName
    price := 0
    username, userUid
    startDate := today
    counterMonths := 1
    nextPayment := some nextPayment
    isActive := true }

end Renewals
