import Denju.Lib.Runs
import Mathlib.Logic.Function.Basic

/-!
# Transactions under read committed

Rows are stored under keys, and every key has a type of rows of its own.  A
transaction is a script of statements.  A statement sees what is committed when
it runs, and what its own transaction has written.  A row that a transaction
has locked or written is held until the transaction ends; the statements of
others that need it wait.  Between two statements of a transaction any number
of statements of others may run.
-/

namespace Lib

/-- What is stored under each key. -/
abbrev Rows {κ : Type} (ν : κ -> Type) := (k : κ) -> Option (ν k)

/-- A row, with the transaction that holds it and those that share it. -/
structure Cell (τ ν : Type) where
  committed : Option ν
  draft : Option ν
  holder : Option τ
  written : Bool
  sharers : List τ

namespace Cell

/-- A row that nobody holds or shares. -/
def vacant {τ ν : Type} (row : Option ν) : Cell τ ν where
  committed := row
  draft := none
  holder := none
  written := false
  sharers := []

variable {τ ν : Type} [DecidableEq τ]

/-- The row as a transaction sees it. -/
def view (cell : Cell τ ν) (tx : τ) : Option ν :=
  if cell.holder = some tx then cell.draft else cell.committed

/-- No other transaction has locked the row. -/
def free (cell : Cell τ ν) (tx : τ) : Bool :=
  (decide (cell.holder = none) || decide (cell.holder = some tx)) &&
    cell.sharers.all fun sharer => decide (sharer = tx)

/-- Another transaction has written the row and has not ended. -/
def contested (cell : Cell τ ν) (tx : τ) : Bool :=
  cell.written && !decide (cell.holder = some tx)

/-- Lock the row for a transaction. -/
def lock (cell : Cell τ ν) (tx : τ) : Cell τ ν :=
  { cell with draft := cell.view tx, holder := some tx }

def write (cell : Cell τ ν) (tx : τ) (draft : Option ν) : Cell τ ν :=
  { cell with draft, holder := some tx, written := true }

def share (cell : Cell τ ν) (tx : τ) : Cell τ ν :=
  { cell with sharers := tx :: cell.sharers }

/-- End the locks of a transaction. -/
def release (cell : Cell τ ν) (tx : τ) : Cell τ ν :=
  if cell.holder = some tx then
    { vacant cell.committed with
      sharers := cell.sharers.filter fun sharer => sharer ≠ tx }
  else
    { cell with sharers := cell.sharers.filter fun sharer => sharer ≠ tx }

/-- Make the row of a transaction the committed one, and end its locks. -/
def commit (cell : Cell τ ν) (tx : τ) : Cell τ ν :=
  { cell.release tx with committed := cell.view tx }

@[simp] theorem view_vacant (row : Option ν) (tx : τ) :
    (vacant row).view tx = row :=
  rfl

@[simp] theorem release_vacant (row : Option ν) (tx : τ) :
    (vacant row).release tx = vacant row :=
  rfl

@[simp] theorem commit_vacant (row : Option ν) (tx : τ) :
    (vacant row).commit tx = vacant row :=
  rfl

end Cell

/-- What a statement sees: the rows, and the keys that may have one. -/
structure View {κ : Type} (ν : κ -> Type) where
  keys : List κ
  rows : Rows ν
  covers : forall k, k ∉ keys -> rows k = none

/-- The rows of a list. -/
def View.ofList {κ : Type} {ν : κ -> Type} [DecidableEq κ]
    (entries : List (Sigma ν)) : View ν where
  keys := entries.map Sigma.fst
  rows := fun k => entries.findSome? fun entry =>
    if h : entry.1 = k then some (h ▸ entry.2) else none
  covers := by
    intro k hk
    rw [List.findSome?_eq_none_iff]
    intro entry hentry
    rw [dif_neg]
    rintro rfl
    exact hk (List.mem_map_of_mem hentry)

theorem View.mem_of_rows_ofList {κ : Type} {ν : κ -> Type} [DecidableEq κ]
    {entries : List (Sigma ν)} {k : κ} {row : ν k}
    (h : (View.ofList entries).rows k = some row) : ⟨k, row⟩ ∈ entries := by
  rcases List.exists_of_findSome?_eq_some h with ⟨entry, hentry, hrow⟩
  split at hrow
  · rename_i hk
    subst hk
    cases hrow
    exact hentry
  · cases hrow

structure Store (τ : Type) {κ : Type} (ν : κ -> Type) where
  keys : List κ
  cell : (k : κ) -> Cell τ (ν k)
  covers : forall k, k ∉ keys -> cell k = Cell.vacant none

/-!
## Scripts

The statements of a transaction, one after the other.  What a script does next
depends on what its statements have returned.  A script may run several
transactions after each other, and act on objects outside of the database,
where an action takes effect at once.  Notes say what a script has seen and
relies on; they have no effect.
-/

inductive Script {κ : Type} (ν : κ -> Type) (η ε α : Type) where
  | done (value : α)
  /-- Roll the transaction back. -/
  | fail (error : ε)
  | commit (next : Script ν η ε α)
  /-- `SELECT`, and take notes of what is there. -/
  | select (note : View ν -> List η) (next : View ν -> Script ν η ε α)
  /-- `SELECT … FOR UPDATE` of one row. -/
  | forUpdate (k : κ) (next : Option (ν k) -> Script ν η ε α)
  /-- `SELECT … FOR SHARE` of one row. -/
  | forShare (k : κ) (next : Option (ν k) -> Script ν η ε α)
  /-- `UPDATE` or `DELETE` of one row, if there is one. -/
  | update (k : κ) (set : ν k -> Option (ν k))
      (next : Bool -> Script ν η ε α)
  /-- `INSERT … ON CONFLICT DO NOTHING`. -/
  | insert (k : κ) (row : ν k) (next : Bool -> Script ν η ε α)
  /-- `INSERT … ON CONFLICT DO UPDATE`. -/
  | upsert (k : κ) (set : Option (ν k) -> ν k)
      (next : Bool -> Script ν η ε α)
  /-- Replace an object outside of the database. -/
  | outside (k : κ) (row : Option (ν k)) (next : Script ν η ε α)

namespace Script

variable {κ : Type} {ν : κ -> Type} {η ε α β : Type}

def bind : Script ν η ε α -> (α -> Script ν η ε β) -> Script ν η ε β
  | done value, f => f value
  | fail error, _ => fail error
  | commit next, f => commit (bind next f)
  | select note next, f => select note fun view => bind (next view) f
  | forUpdate k next, f => forUpdate k fun row => bind (next row) f
  | forShare k next, f => forShare k fun row => bind (next row) f
  | update k set next, f => update k set fun found => bind (next found) f
  | insert k row next, f =>
      insert k row fun inserted => bind (next inserted) f
  | upsert k set next, f => upsert k set fun inserted => bind (next inserted) f
  | outside k row next, f => outside k row (bind next f)

instance : Monad (Script ν η ε) where
  pure := done
  bind := bind

def lift : Except ε α -> Script ν η ε α
  | .ok value => done value
  | .error error => fail error

instance : MonadLift (Except ε) (Script ν η ε) where
  monadLift := lift

/-- What is there, without notes. -/
def rows : Script ν η ε (View ν) :=
  select (fun _ => []) done

/-- Rely on something until the next commit. -/
def rely (notes : List η) : Script ν η ε Unit :=
  select (fun _ => notes) fun _ => done ()

def lockRow (k : κ) : Script ν η ε (Option (ν k)) :=
  forUpdate k done

def shareRow (k : κ) : Script ν η ε (Option (ν k)) :=
  forShare k done

def updateRow (k : κ) (set : ν k -> ν k) : Script ν η ε Bool :=
  update k (fun row => some (set row)) done

def deleteRow (k : κ) : Script ν η ε Bool :=
  update k (fun _ => none) done

def insertRow (k : κ) (row : ν k) : Script ν η ε Bool :=
  insert k row done

/-- True if the row is new. -/
def upsertRow (k : κ) (set : Option (ν k) -> ν k) : Script ν η ε Bool :=
  upsert k set done

def putObject (k : κ) (row : Option (ν k)) : Script ν η ε Unit :=
  outside k row (done ())

/-- The same statements for each element of a list. -/
def each {γ : Type} (f : γ -> Script ν η ε Unit) :
    List γ -> Script ν η ε Unit
  | [] => done ()
  | a :: rest => bind (f a) fun _ => each f rest

/-- The elements of a list for which the statements succeed. -/
def filterEach {γ : Type} (f : γ -> Script ν η ε Bool) :
    List γ -> Script ν η ε (List γ)
  | [] => done []
  | a :: rest =>
      bind (f a) fun found =>
        bind (filterEach f rest) fun others =>
          done (if found then a :: others else others)

/-- The script as one transaction. -/
def transaction (body : Script ν η ε α) : Script ν η ε α :=
  bind body fun value => commit (done value)

end Script

/-!
## Steps
-/

namespace Store

variable {κ τ : Type} {ν : κ -> Type} [DecidableEq κ] [DecidableEq τ]

def committed (store : Store τ ν) : Rows ν :=
  fun k => (store.cell k).committed

def committedView (store : Store τ ν) : View ν where
  keys := store.keys
  rows := store.committed
  covers := by
    intro k hk
    unfold committed
    rw [store.covers k hk]
    rfl

def view (store : Store τ ν) (tx : τ) : View ν where
  keys := store.keys
  rows := fun k => (store.cell k).view tx
  covers := by
    intro k hk
    rw [store.covers k hk]
    rfl

def set (store : Store τ ν) (k : κ) (cell : Cell τ (ν k)) : Store τ ν where
  keys := if k ∈ store.keys then store.keys else store.keys ++ [k]
  cell := Function.update store.cell k cell
  covers := by
    intro j hj
    have hkeys : j ∉ store.keys ∧ j ≠ k := by
      split at hj
      · rename_i hk
        exact ⟨hj, fun h => hj (h ▸ hk)⟩
      · simpa using hj
    rw [Function.update_of_ne hkeys.2]
    exact store.covers j hkeys.1

def commit (store : Store τ ν) (tx : τ) : Store τ ν where
  keys := store.keys
  cell := fun k => (store.cell k).commit tx
  covers := by
    intro k hk
    rw [store.covers k hk]
    rfl

def release (store : Store τ ν) (tx : τ) : Store τ ν where
  keys := store.keys
  cell := fun k => (store.cell k).release tx
  covers := by
    intro k hk
    rw [store.covers k hk]
    rfl

end Store

/-- A script on its way, and what it relies on. -/
structure Process {κ : Type} (ν : κ -> Type) (η ε α : Type) where
  script : Script ν η ε α
  notes : List η

namespace Process

variable {κ τ : Type} {ν : κ -> Type} {η ε α : Type} [DecidableEq κ]
  [DecidableEq τ]

def finished (process : Process ν η ε α) : Bool :=
  match process.script with
  | .done _ => true
  | _ => false

/-- The next statement of a script, unless it has to wait. -/
def step (store : Store τ ν) (tx : τ) (process : Process ν η ε α) :
    Option (Store τ ν × Process ν η ε α) :=
  let next := fun script => { process with script }
  match process.script with
  | .done _ => none
  | .fail _ => none
  | .commit script => some (store.commit tx, ⟨script, []⟩)
  | .select note script =>
      let view := store.view tx
      some (store, ⟨script view, process.notes ++ note view⟩)
  | .forUpdate k script =>
      let cell := store.cell k
      match cell.view tx with
      | none => some (store, next (script none))
      | some row =>
          if cell.free tx then
            some (store.set k (cell.lock tx), next (script (some row)))
          else none
  | .forShare k script =>
      let cell := store.cell k
      match cell.view tx with
      | none => some (store, next (script none))
      | some row =>
          if cell.holder = none ∨ cell.holder = some tx then
            some (store.set k (cell.share tx), next (script (some row)))
          else none
  | .update k set script =>
      let cell := store.cell k
      match cell.view tx with
      | none => some (store, next (script false))
      | some row =>
          if cell.free tx then
            some (store.set k (cell.write tx (set row)), next (script true))
          else none
  | .insert k row script =>
      let cell := store.cell k
      match cell.view tx with
      | none =>
          if cell.free tx then
            some (store.set k (cell.write tx (some row)), next (script true))
          else none
      | some _ =>
          if cell.contested tx then none
          else some (store, next (script false))
  | .upsert k set script =>
      let cell := store.cell k
      if cell.free tx then
        some (store.set k (cell.write tx (some (set (cell.view tx)))),
          next (script (cell.view tx).isNone))
      else none
  | .outside k row script =>
      let cell := store.cell k
      if cell.holder = none ∧ cell.sharers = [] then
        some (store.set k { cell with committed := row }, next script)
      else none

end Process

/-- All scripts that are on their way, each under a name of its own. -/
structure Schedule (τ : Type) {κ : Type} (ν : κ -> Type) (η ε α : Type) where
  store : Store τ ν
  running : τ -> Option (Process ν η ε α)

/-- A script starts, runs one statement, or is cut off. -/
inductive Turn (τ : Type) {κ : Type} (ν : κ -> Type) (η ε α : Type) where
  | start (tx : τ) (script : Script ν η ε α)
  | step (tx : τ)
  | abort (tx : τ)

namespace Schedule

variable {κ τ : Type} {ν : κ -> Type} {η ε α : Type} [DecidableEq κ]
  [DecidableEq τ]

def take (schedule : Schedule τ ν η ε α) :
    Turn τ ν η ε α -> Option (Schedule τ ν η ε α)
  | .start tx script =>
      match schedule.running tx with
      | some _ => none
      | none =>
          some { schedule with
            running :=
              Function.update schedule.running tx (some ⟨script, []⟩) }
  | .step tx => do
      let process <- schedule.running tx
      let (store, process) <- process.step schedule.store tx
      return { store, running :=
        Function.update schedule.running tx (some process) }
  | .abort tx =>
      match schedule.running tx with
      | none => none
      | some _ =>
          some {
            store := schedule.store.release tx
            running := Function.update schedule.running tx none }

/-- Take turn after turn, as long as every state is allowed. -/
def takeAll (allowed : Schedule τ ν η ε α -> Bool)
    (schedule : Schedule τ ν η ε α) :
    List (Turn τ ν η ε α) -> Option (Schedule τ ν η ε α)
  | [] => some schedule
  | turn :: rest => do
      let schedule <- schedule.take turn
      if allowed schedule then schedule.takeAll allowed rest else none

/-- One turn, allowed by a condition on it and the states around it. -/
def Step (allows : Schedule τ ν η ε α -> Turn τ ν η ε α ->
      Schedule τ ν η ε α -> Prop)
    (schedule : Schedule τ ν η ε α) (turn : Turn τ ν η ε α)
    (schedule' : Schedule τ ν η ε α) : Prop :=
  schedule.take turn = some schedule' ∧ allows schedule turn schedule'

/-- Only scripts of a kind start. -/
def Starting (programs : Script ν η ε α -> Prop)
    (_ : Schedule τ ν η ε α) (turn : Turn τ ν η ε α)
    (_ : Schedule τ ν η ε α) : Prop :=
  forall tx script, turn = .start tx script -> programs script

/-- No transaction is in progress. -/
def Quiet (schedule : Schedule τ ν η ε α) : Prop :=
  forall tx, (schedule.running tx).all Process.finished

/-- Nothing but committed rows. -/
def idle (view : View ν) : Schedule τ ν η ε α where
  store := {
    keys := view.keys
    cell := fun k => Cell.vacant (view.rows k)
    covers := by
      intro k hk
      rw [view.covers k hk] }
  running := fun _ => none

variable {allows : Schedule τ ν η ε α -> Turn τ ν η ε α ->
  Schedule τ ν η ε α -> Prop}

/-- Turns that are all taken make a run. -/
theorem run_takeAll {allowed : Schedule τ ν η ε α -> Bool}
    {init schedule schedule' : Schedule τ ν η ε α}
    {past turns : List (Turn τ ν η ε α)}
    (hrun : Run (Step allows) init past schedule)
    (hallows : forall before turn after, turn ∈ turns ->
      allowed after = true -> allows before turn after)
    (h : schedule.takeAll allowed turns = some schedule') :
    Run (Step allows) init (past ++ turns) schedule' := by
  induction turns generalizing past schedule with
  | nil =>
      cases h
      rw [List.append_nil]
      exact hrun
  | cons turn rest ih =>
      rcases Option.bind_eq_some_iff.mp h with ⟨next, hnext, hrest⟩
      split at hrest
      · rename_i hallowed
        have hstep : Step allows schedule turn next :=
          ⟨hnext, hallows schedule turn next List.mem_cons_self hallowed⟩
        have hlast := ih (hrun.snoc hstep)
          (fun before later after hlater =>
            hallows before later after (List.mem_cons_of_mem turn hlater))
          hrest
        rw [List.append_assoc] at hlast
        exact hlast
      · cases hrest

end Schedule
end Lib
