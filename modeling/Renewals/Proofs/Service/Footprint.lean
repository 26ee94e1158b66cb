import Renewals.Proofs.Task.Calls
import Renewals.Service.Basic
/-! Which calls the service makes at all, whatever they are answered. -/
namespace Renewals.Service

/-- A call of the store with such a query, or a call of the cache or the log. What is put into the
cache is to live for so long. -/
def Asks (ttl : Int) (Q : Query → Prop) : Call → Prop
  | .ask q => Q q
  | .put _ _ life => life = ttl
  | .fetch _ | .drop _ | .log _ => True
  | _ => False

section
variable {p : Policy} {α : Type}

/-! Calls of any kind, as long as there may be log lines -/

section
variable {P : Call → Prop} (hlog : ∀ line, P (.log line))
include hlog

theorem only_tolerate (what key : String) (r : Except CacheFault Unit) :
    Task.Only P (tolerate what key r) := by
  unfold tolerate
  split
  · exact .pure ()
  · split
    · exact .perform (hlog _)
    · exact .throw _

theorem only_keep_of {r : Row} (hput : ∀ payload, P (.put (cacheKey r.id) payload p.ttl)) :
    Task.Only P (keep p r) :=
  .bind (.perform (hput _)) fun _ => only_tolerate hlog _ _ _

theorem only_forget_of {id : Int} (hdrop : P (.drop (cacheKey id))) : Task.Only P (forget id) :=
  .bind (.perform hdrop) fun _ => only_tolerate hlog _ _ _

omit hlog in
/-- A subscription that is not refused is written. -/
theorem only_accepted {ε : Type} {f : ε → Failure} {x : Except ε Subscription}
    {next : Subscription → Task α} (h : ∀ s, x = .ok s → Task.Only P (next s)) :
    Task.Only P (Task.lift f x >>= next) := by
  cases x with
  | error e => exact fun _ _ hc => absurd hc List.not_mem_nil
  | ok s => exact h s rfl

omit hlog in
theorem only_getCached_of {read : Json → Except DecodeFault α} {key : LooseText}
    (hfetch : P (.fetch key)) : Task.Only P (Task.getCached read key) := by
  refine .bind (.perform hfetch) fun _ => .bind (.lift _ _) fun payload? => ?_
  cases payload? with
  | none => exact .pure none
  | some payload => exact .bind (.lift _ _) fun a => .pure (some a)

theorem only_update_of {today : Day} {id : Int} {username : LooseText} {o : Order}
    {userUid : Option LooseText} (hput : ∀ payload, P (.put (cacheKey id) payload p.ttl))
    (hask : ∀ s, o.accept username userUid today o.isActive = .ok s →
      P (.ask (.update (some id) s))) :
    Task.Only P (update p today id username o userUid) := by
  refine only_accepted fun s hs => .bind (.ask (.update (some id) s) (hask s hs)) fun n => ?_
  by_cases hn : n = (0 : Nat)
  · rw [if_neg (not_not_intro hn)]
    exact .pure n
  · rw [if_pos hn]
    exact .bind (only_keep_of hlog hput) fun _ => .pure n

theorem only_remove_of {id : Int} (hdrop : P (.drop (cacheKey id)))
    (hask : P (.ask (.remove id))) : Task.Only P (remove id) :=
  .bind (only_forget_of hlog hdrop) fun _ => .bind (.ask (.remove id) hask) fun _ =>
    .bind (only_forget_of hlog hdrop) fun _ => .pure _

end

/-! Calls with such queries -/

variable {Q : Query → Prop} {ttl : Int}

theorem only_keep (r : Row) : Task.Only (Asks p.ttl Q) (keep p r) :=
  only_keep_of (fun _ => trivial) fun _ => rfl

theorem only_forget (id : Int) : Task.Only (Asks ttl Q) (forget id) :=
  only_forget_of (fun _ => trivial) trivial

theorem only_store {s : Subscription} (h : Q (.create s)) : Task.Only (Asks p.ttl Q) (store p s) :=
  .bind (.ask _ h) fun _ => .bind (only_keep _) fun _ => .pure _

theorem only_update (today : Day) (id : Int) (username : LooseText) (o : Order)
    (userUid : Option LooseText)
    (hQ : ∀ s, o.accept username userUid today o.isActive = .ok s → Q (.update (some id) s)) :
    Task.Only (Asks p.ttl Q) (update p today id username o userUid) :=
  only_update_of (fun _ => trivial) (fun _ => rfl) hQ

theorem only_remove {id : Int} (h : Q (.remove id)) : Task.Only (Asks ttl Q) (remove id) :=
  only_remove_of (fun _ => trivial) trivial h

theorem only_read {id : Int} (h : Q (.read id)) : Task.Only (Asks p.ttl Q) (read p id) := by
  refine .bind (only_getCached_of trivial) fun found => ?_
  cases found with
  | some s => exact .pure s
  | none => exact .bind (.ask (.read id) h) fun row => .bind (only_keep row) fun _ => .pure _

theorem only_list (username role : LooseText) {limit offset : Int}
    (hall : Q (.listAll limit offset)) (hown : Q (.list username limit offset)) :
    Task.Only (Asks p.ttl Q) (list p username role limit offset) :=
  iteInduction (motive := Task.Only (Asks p.ttl Q)) (fun _ => .ask _ hall) fun _ => .ask _ hown

theorem only_sum (username : LooseText) (o : SumOrder) (h : ∀ w, Q (.sum w)) :
    Task.Only (Asks ttl Q) (sum username o) :=
  .bind (.lift _ _) fun w => .ask (.sum w) (h w)

theorem only_moveRow (hQ : ∀ id day, Q (.setNextPayment id day)) (today : Day) (r : Row) :
    Task.Only (Asks p.ttl Q) (moveRow p today r) := by
  unfold moveRow
  split
  · exact .pure 0
  · refine .bind (.lift _ _) fun next => .bind (.perform (hQ r.id (some next))) fun a => ?_
    cases a with
    | ok n => exact .bind (only_keep _) fun _ => .pure 1
    | error f =>
      cases f with
      | unavailable => exact .bind (.perform (c := .log _) trivial) fun _ => .pure 0
      | _ => exact .throw _

theorem only_rollover {today : Day} (hover : Q (.overdue today))
    (hset : ∀ id day, Q (.setNextPayment id day)) :
    Task.Only (Asks p.ttl Q) (rollover p today) := by
  refine .bind (.ask (.overdue today) hover) fun rs => ?_
  induction (rs : List Row) with
  | nil => exact .pure 0
  | cons r rs ih =>
    exact .bind (only_moveRow hset today r) fun _ => .bind ih fun _ => .pure _

end

end Renewals.Service
