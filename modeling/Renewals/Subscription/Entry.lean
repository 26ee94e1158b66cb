import Renewals.Subscription.Term
/-! Subscriptions, the requests that make them, and the window of a price sum. -/
namespace Renewals

/-- What one owner pays for. The price is in the smallest unit of the currency. -/
structure Subscription where
  serviceName : LooseText
  price : Int
  username : LooseText
  userUid : Option LooseText
  startDate : Day
  counterMonths : Int
  nextPayment : Option Day
  isActive : Bool
  deriving DecidableEq

/-- A stored subscription under its number. -/
structure Row extends Subscription where
  id : Int
  deriving DecidableEq

/-- A subscription whose number may not be known yet. -/
structure Entry extends Subscription where
  id : Option Int
  deriving DecidableEq

def Row.entry (r : Row) : Entry := ⟨r.toSubscription, some r.id⟩

def Subscription.endDate (s : Subscription) : Except Day.Fault Day :=
  Term.endDate s.startDate s.counterMonths

/-- The contents of a request to create or to replace a subscription. -/
structure Order where
  serviceName : LooseText
  price : Int
  startDate : LooseText
  counterMonths : Int
  isActive : Bool
  deriving DecidableEq

structure SumOrder where
  startDate : LooseText
  counterMonths : Int
  serviceName : Option LooseText
  deriving DecidableEq

/-- A window of months over the subscriptions of an owner, maybe of one service only. -/
structure Window where
  username : LooseText
  serviceName : Option LooseText
  startDate : Day
  counterMonths : Int
  deriving DecidableEq

def Window.endDate (w : Window) : Except Day.Fault Day :=
  Term.endDate w.startDate w.counterMonths

def aggregatorName : String := "Subscription-Aggregator"

end Renewals
