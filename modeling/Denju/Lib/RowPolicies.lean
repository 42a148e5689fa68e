import Denju.Lib.ReadCommitted

/-!
# Scripts under row policies

A database may filter the rows of a table by the role that runs a statement.
Whether a row may be read or written is judged on the rows before the
statement.  A row that a statement may not touch does not exist for it, without
an error; a row that it may not leave behind ends the transaction.  A locking
read needs the authority to read the row and the authority to update it.
-/

namespace Lib

/-- The rows that a role may touch, judged on the rows before a statement. -/
structure Policies {κ : Type} (ν : κ -> Type) (ε : Type) where
  reads : View ν -> (k : κ) -> ν k -> Bool
  inserts : View ν -> (k : κ) -> ν k -> Bool
  updates : View ν -> (k : κ) -> ν k -> Bool
  leaves : View ν -> (k : κ) -> ν k -> Bool
  deletes : View ν -> (k : κ) -> ν k -> Bool
  refusal : ε

namespace View

variable {κ : Type} {ν : κ -> Type}

/-- The rows that a predicate keeps. -/
def filter (view : View ν) (keep : (k : κ) -> ν k -> Bool) : View ν where
  keys := view.keys
  rows := fun k => (view.rows k).filter (keep k)
  covers := by
    intro k hk
    rw [view.covers k hk]
    rfl

theorem rows_filter (view : View ν) (keep : (k : κ) -> ν k -> Bool) (k : κ) :
    (view.filter keep).rows k = (view.rows k).filter (keep k) :=
  rfl

/-- A row that survives is a row. -/
theorem rows_of_filter {view : View ν} {keep : (k : κ) -> ν k -> Bool} {k : κ}
    {row : ν k} (h : (view.filter keep).rows k = some row) :
    view.rows k = some row ∧ keep k row = true :=
  Option.filter_eq_some_iff.mp h

def set [DecidableEq κ] (view : View ν) (k : κ) (row : Option (ν k)) :
    View ν where
  keys := if k ∈ view.keys then view.keys else view.keys ++ [k]
  rows := Function.update view.rows k row
  covers := by
    intro j hj
    have hkeys : j ∉ view.keys ∧ j ≠ k := by
      split at hj
      · rename_i hk
        exact ⟨hj, fun h => hj (h ▸ hk)⟩
      · simpa using hj
    rw [Function.update_of_ne hkeys.2]
    exact view.covers j hkeys.1

end View

/-!
## Execution

The rows that are committed, and the rows as the transaction has left them.
-/

structure Session {κ : Type} (ν : κ -> Type) where
  committed : View ν
  current : View ν

namespace Session

variable {κ : Type} {ν : κ -> Type}

/-- No transaction is open. -/
def idle (view : View ν) : Session ν :=
  ⟨view, view⟩

def rollback (session : Session ν) : Session ν :=
  idle session.committed

def commit (session : Session ν) : Session ν :=
  idle session.current

def set [DecidableEq κ] (session : Session ν) (k : κ) (row : Option (ν k)) :
    Session ν :=
  { session with current := session.current.set k row }

end Session

namespace Policies

variable {κ : Type} {ν : κ -> Type} {η ε α β : Type}

/-- What a plain read sees. -/
def visible (policies : Policies ν ε) (view : View ν) : View ν :=
  view.filter (policies.reads view)

/-- The row, if a locking read sees it. -/
def lockable (policies : Policies ν ε) (view : View ν) (k : κ) :
    Option (ν k) :=
  (view.rows k).filter fun row =>
    policies.reads view k row && policies.updates view k row

/-- The row, if a statement that replaces it or deletes it sees it. -/
def writable (policies : Policies ν ε) (view : View ν) (k : κ)
    (set : ν k -> Option (ν k)) : Option (ν k) :=
  (view.rows k).filter fun row =>
    policies.reads view k row &&
      match set row with
      | some _ => policies.updates view k row
      | none => policies.deletes view k row

/-- The row may stay behind after an update. -/
def accepted (policies : Policies ν ε) (view : View ν) (k : κ) :
    Option (ν k) -> Bool
  | none => true
  | some row => policies.reads view k row && policies.leaves view k row

variable [DecidableEq κ]

/-- `UPDATE` or `DELETE` of one row. -/
def updateOne (policies : Policies ν ε) (session : Session ν) (k : κ)
    (set : ν k -> Option (ν k)) : Except ε (Session ν × Bool) :=
  match policies.writable session.current k set with
  | none => .ok (session, false)
  | some row =>
      if policies.accepted session.current k (set row) then
        .ok (session.set k (set row), true)
      else .error policies.refusal

/-- `INSERT … ON CONFLICT DO NOTHING`. -/
def insertOne (policies : Policies ν ε) (session : Session ν) (k : κ)
    (row : ν k) : Except ε (Session ν × Bool) :=
  if policies.inserts session.current k row then
    match session.current.rows k with
    | some _ => .ok (session, false)
    | none => .ok (session.set k (some row), true)
  else .error policies.refusal

/-- `INSERT … ON CONFLICT DO UPDATE`, which may not pass over a row that it
does not see. -/
def upsertOne (policies : Policies ν ε) (session : Session ν) (k : κ)
    (set : Option (ν k) -> ν k) : Except ε (Session ν × Bool) :=
  if policies.inserts session.current k (set none) then
    match session.current.rows k with
    | none => .ok (session.set k (some (set none)), true)
    | some row =>
        if (policies.lockable session.current k).isSome &&
            policies.accepted session.current k (some (set (some row))) then
          .ok (session.set k (some (set (some row))), false)
        else .error policies.refusal
  else .error policies.refusal

/-- The script of a role that runs alone. -/
def exec (policies : Policies ν ε) :
    Script ν η ε α -> Session ν -> Except ε α × Session ν
  | .done value, session => (.ok value, session)
  | .fail error, session => (.error error, session.rollback)
  | .commit next, session => exec policies next session.commit
  | .select _ next, session =>
      exec policies (next (policies.visible session.current)) session
  | .forUpdate k next, session =>
      exec policies (next (policies.lockable session.current k)) session
  | .forShare k next, session =>
      exec policies (next (policies.lockable session.current k)) session
  | .update k set next, session =>
      match policies.updateOne session k set with
      | .error error => (.error error, session.rollback)
      | .ok after => exec policies (next after.2) after.1
  | .insert k row next, session =>
      match policies.insertOne session k row with
      | .error error => (.error error, session.rollback)
      | .ok after => exec policies (next after.2) after.1
  | .upsert k set next, session =>
      match policies.upsertOne session k set with
      | .error error => (.error error, session.rollback)
      | .ok after => exec policies (next after.2) after.1
  | .outside k row next, session =>
      exec policies next ⟨session.committed.set k row,
        session.current.set k row⟩

/-- The result of a script that starts without a transaction, and the rows that
it leaves. -/
def run (policies : Policies ν ε) (script : Script ν η ε α)
    (view : View ν) : Except ε α × View ν :=
  ((policies.exec script (Session.idle view)).1,
    (policies.exec script (Session.idle view)).2.committed)

/-!
## How a script ends
-/

def Ends (policies : Policies ν ε) (script : Script ν η ε α)
    (session : Session ν) (post : Except ε α -> Session ν -> Prop) : Prop :=
  post (policies.exec script session).1 (policies.exec script session).2

namespace Ends

variable {policies : Policies ν ε} {session : Session ν} {k : κ}
  {post : Except ε β -> Session ν -> Prop}

theorem mono {script : Script ν η ε β}
    {weaker : Except ε β -> Session ν -> Prop}
    (h : policies.Ends script session post)
    (hpost : forall result after, post result after -> weaker result after) :
    policies.Ends script session weaker :=
  hpost _ _ h

theorem done {value : β} (h : post (.ok value) session) :
    policies.Ends (Script.done value : Script ν η ε β) session post :=
  h

theorem commit {next : Script ν η ε β}
    (h : policies.Ends next session.commit post) :
    policies.Ends (.commit next) session post :=
  h

theorem bind {script : Script ν η ε α} {f : α -> Script ν η ε β} :
    forall {session : Session ν},
      policies.Ends script session (fun result after =>
        match result with
        | .ok value => policies.Ends (f value) after post
        | .error error => post (.error error) after) ->
      policies.Ends (script >>= f) session post := by
  induction script with
  | done value =>
      intro session h
      exact h
  | fail error =>
      intro session h
      exact h
  | commit next ih =>
      intro session h
      exact ih h
  | select note next ih =>
      intro session h
      exact ih _ h
  | forUpdate k next ih =>
      intro session h
      exact ih _ h
  | forShare k next ih =>
      intro session h
      exact ih _ h
  | update k set next ih =>
      intro session h
      show policies.Ends (.update k set fun found => next found >>= f) session
        post
      simp only [Ends, exec] at h ih ⊢
      cases hone : policies.updateOne session k set with
      | error error =>
          simp only [hone] at h
          exact h
      | ok after =>
          simp only [hone] at h
          exact ih _ h
  | insert k row next ih =>
      intro session h
      show policies.Ends (.insert k row fun found => next found >>= f) session
        post
      simp only [Ends, exec] at h ih ⊢
      cases hone : policies.insertOne session k row with
      | error error =>
          simp only [hone] at h
          exact h
      | ok after =>
          simp only [hone] at h
          exact ih _ h
  | upsert k set next ih =>
      intro session h
      show policies.Ends (.upsert k set fun found => next found >>= f) session
        post
      simp only [Ends, exec] at h ih ⊢
      cases hone : policies.upsertOne session k set with
      | error error =>
          simp only [hone] at h
          exact h
      | ok after =>
          simp only [hone] at h
          exact ih _ h
  | outside k row next ih =>
      intro session h
      exact ih h

theorem lift_bind {result : Except ε α} {f : α -> Script ν η ε β}
    (hok : forall value, result = .ok value ->
      policies.Ends (f value) session post)
    (herror : forall error, result = .error error ->
      post (.error error) session.rollback) :
    policies.Ends
      ((MonadLift.monadLift result : Script ν η ε α) >>= f) session post := by
  cases result with
  | ok value => exact hok value rfl
  | error error => exact herror error rfl

theorem rows_bind {f : View ν -> Script ν η ε β}
    (h : policies.Ends (f (policies.visible session.current)) session post) :
    policies.Ends ((Script.rows : Script ν η ε (View ν)) >>= f) session post :=
  h

theorem lockRow_bind {f : Option (ν k) -> Script ν η ε β}
    (h : policies.Ends (f (policies.lockable session.current k)) session
      post) :
    policies.Ends ((Script.lockRow k : Script ν η ε (Option (ν k))) >>= f)
      session post :=
  h

end Ends
end Policies
end Lib
