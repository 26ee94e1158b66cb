import Renewals.Subscription.Entry
import Renewals.Text.Charset
/-! What can be asked of the store, and how it can fail. -/
namespace Renewals

/-- A value that is handed to the store. -/
inductive Parameter
  | number (n : Int)
  | text (t : LooseText)
  deriving DecidableEq, Repr

inductive Query
  | create (s : Subscription)
  | read (id : Int)
  | update (id : Option Int) (s : Subscription)
  | remove (id : Int)
  | list (username : LooseText) (limit offset : Int)
  | listAll (limit offset : Int)
  | sum (w : Window)
  | dueOn (day : Day)
  | overdue (day : Day)
  | setNextPayment (id : Int) (day : Option Day)
  | ready
  deriving DecidableEq

namespace Query

/-- The new number, a row, a count of rows, or rows. -/
def Answer : Query → Type
  | create _ => Int
  | read _ => Row
  | update _ _ => Nat
  | remove _ => Nat
  | list .. => List Row
  | listAll .. => List Row
  | sum _ => Int
  | dueOn _ => List Row
  | overdue _ => List Row
  | setNextPayment .. => Nat
  | ready => Unit

def name : Query → String
  | create _ => "create"
  | read _ => "read"
  | update .. => "update"
  | remove _ => "remove"
  | list .. => "list"
  | listAll .. => "list_all"
  | sum _ => "count_sum"
  | dueOn _ => "find_due_on"
  | overdue _ => "find_overdue"
  | setNextPayment .. => "update_next_payment_date"
  | ready => "check_ready"

/-- Whether changes are to be kept at the end. -/
def writes : Query → Bool
  | create _ | update .. | remove _ | setNextPayment .. => true
  | _ => false

/-- The columns of a subscription that can hold what the store does not take. -/
def columns (s : Subscription) : List Parameter :=
  [.text s.serviceName, .number s.price, .text s.username] ++ (s.userUid.map .text).toList ++
    [.number s.counterMonths]

/-- What is handed to the store, in this order. -/
def parameters : Query → List Parameter
  | create s => columns s
  | read id => [.number id]
  | update id s => columns s ++ (id.map .number).toList
  | remove id => [.number id]
  | list username limit offset => [.text username, .number limit, .number offset]
  | listAll limit offset => [.number limit, .number offset]
  | setNextPayment id _ => [.number id]
  | sum w => .text w.username :: (w.serviceName.map .text).toList
  | dueOn _ | overdue _ | ready => []

end Query

/-- What went wrong in the store behind a failed query. -/
inductive StoreCause
  | statement
  | commit
  | unreachable
  | noTable
  | check (constraint : String)
  deriving DecidableEq, Repr

def StoreCause.message : StoreCause → String
  | .statement => "store down"
  | .commit => "commit failed"
  | .unreachable => "(sqlite3.OperationalError) unable to open database file"
  | .noTable => "(sqlite3.OperationalError) no such table: subscriptions"
  | .check c => "(sqlite3.IntegrityError) CHECK constraint failed: " ++ c

inductive StoreFault
  | unavailable (query : String) (cause : StoreCause)
  | unopened
  | crash
  | notFound (id : Int)
  | tooWide
  | torn (gap : Gap)
  | date (f : Day.Fault)
  deriving DecidableEq, Repr

/-- A session whose store fails undoes what it did. -/
def StoreFault.rollsBack : StoreFault → Bool
  | .unavailable .. => true
  | _ => false

def StoreFault.message : StoreFault → String
  | .unavailable q c => s!"storage.{q}: {c.message}"
  | .unopened => "store down"
  | .crash => "store crash"
  | .notFound id => s!"subscription {id} not found"
  | .tooWide => "Python int too large to convert to SQLite INTEGER"
  | .torn gap => gap.message
  | .date f => f.message

end Renewals
