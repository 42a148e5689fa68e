import Mathlib.Data.List.Infix
import Denju.Lib.Receipts
import Denju.Registry.Operations
import Denju.Registry.PackChanges

/-!
# Requests that are answered once

Most requests that change something carry an operation identifier, and the
registry records the answer under it in the transaction of the change.  A call
looks for the record first.  Each table of such records is a table of receipts,
and every call that records its answer leaves one.
-/

namespace Denju

open Lib

/-!
## The tables of recorded requests
-/

inductive RequestTable where
  | release
  | restore
  | lifecycle
  | transfer
  | proposal
  | pack
  | share
  | admin
  | team
deriving DecidableEq

abbrev RequestTable.Outcome : RequestTable -> Type
  | .release => PublishSkillResponse
  | .restore => PrivateRevisionResponse
  | .lifecycle => LifecycleOutcome
  | .transfer => ResourceTransferResponse
  | .proposal => ProposalAction × SkillProposal
  | .pack => PackOutcome
  | .share => ShareSkillResponse
  | .admin => AdminOutcome
  | .team => TeamOperationOutcome

/-- A recorded answer, with the table that it is recorded in. -/
abbrev RecordedAnswer : Type :=
  (table : RequestTable) × table.Outcome

structure RequestKey where
  table : RequestTable
  userId : Uuid
  operationId : OperationId
deriving DecidableEq

/-- What a record says about its request: the hash and the target. -/
structure RequestReceipt where
  requestHash : RequestHash
  target : Uuid

namespace Db

def operations (db : Db) :
    (table : RequestTable) -> List (OperationRow table.Outcome)
  | .release => db.releaseOperations
  | .restore => db.restoreOperations
  | .lifecycle => db.lifecycleOperations
  | .transfer => db.transferOperations
  | .proposal => db.proposalOperations
  | .pack => db.packOperations
  | .share => db.shareOperations
  | .admin => db.adminOperations
  | .team => db.teamOperations

/-- The record under a key. -/
def receiptAt (db : Db) (key : RequestKey) :
    Option (RequestReceipt × RecordedAnswer) :=
  (findOperation (db.operations key.table) key.userId key.operationId).map
    fun row => (⟨row.requestHash, row.target⟩, ⟨key.table, row.outcome⟩)

/-- The users, their namespaces and their teams are the same. -/
def SameDirectory (db db' : Db) : Prop :=
  db'.directory = db.directory

/-- The tables of the recorded requests only grow at their ends. -/
def KeepsRecords (db db' : Db) : Prop :=
  forall table, db.operations table <+: db'.operations table

/-- One request is recorded, under a key that is new. -/
structure Records (db db' : Db) (table : RequestTable)
    (row : OperationRow table.Outcome) : Prop where
  tables : db'.operations = Function.update db.operations table
    (db.operations table ++ [row])
  fresh : findOperation (db.operations table) row.userId row.operationId = none

variable {db db' db'' : Db}

theorem KeepsRecords.ofSame (h : db'.operations = db.operations) :
    KeepsRecords db db' := by
  intro table
  rw [h]

theorem KeepsRecords.refl (db : Db) : KeepsRecords db db :=
  .ofSame rfl

theorem KeepsRecords.trans (h : KeepsRecords db db')
    (h' : KeepsRecords db' db'') : KeepsRecords db db'' :=
  fun table => (h table).trans (h' table)

theorem Records.keeps {table : RequestTable}
    {row : OperationRow table.Outcome} (h : Records db db' table row) :
    KeepsRecords db db' := by
  intro other
  rw [h.tables]
  by_cases hother : other = table
  · subst hother
    rw [Function.update_self]
    exact List.prefix_append _ _
  · rw [Function.update_of_ne hother]

/-- A record is found as long as its table only grows at its end. -/
theorem keepsReceipt_of_prefix {key : RequestKey}
    (h : db.operations key.table <+: db'.operations key.table) :
    KeepsReceipt receiptAt key db db' := by
  intro found hfound
  rcases Option.map_eq_some_iff.mp hfound with ⟨row, hrow, rfl⟩
  have hkept := h.find?_eq_some hrow
  exact Option.map_eq_some_iff.mpr ⟨row, hkept, rfl⟩

theorem receiptAt_eq_some {key : RequestKey} {receipt : RequestReceipt}
    {answer : RecordedAnswer}
    (h : db.receiptAt key = some (receipt, answer)) :
    exists row, findOperation (db.operations key.table) key.userId
        key.operationId = some row ∧
      receipt = ⟨row.requestHash, row.target⟩ ∧
        answer = ⟨key.table, row.outcome⟩ := by
  rcases Option.map_eq_some_iff.mp h with ⟨row, hrow, hsame⟩
  cases hsame
  exact ⟨row, hrow, rfl, rfl⟩

/-- A recorded request is found under its key. -/
theorem Records.found {table : RequestTable}
    {row : OperationRow table.Outcome} (h : Records db db' table row) :
    findOperation (db'.operations table) row.userId row.operationId =
      some row := by
  rw [h.tables, Function.update_self]
  unfold findOperation
  rw [List.find?_append, show List.find? _ (db.operations table) = none from
    h.fresh]
  simp

end Db

/-!
## Calls that record their answer
-/

/-- What looking for a record may find: nothing, the answer of the same
request, or a record that does not fit. -/
structure LooksUp {table : RequestTable} {β : Type}
    (found : Option (OperationRow table.Outcome))
    (fits : RequestReceipt -> Prop) (select : table.Outcome -> Option β)
    (replay : Except ApiError (Option β)) : Prop where
  fresh : found = none -> replay = .ok none
  hit : forall row outcome, found = some row ->
    fits ⟨row.requestHash, row.target⟩ -> select row.outcome = some outcome ->
      replay = .ok (some outcome)
  miss : forall row answer, found = some row -> replay = .ok answer ->
    fits ⟨row.requestHash, row.target⟩ ∧ exists outcome,
      select row.outcome = some outcome ∧ answer = some outcome

/-- A call that checks its request, looks for the record, and otherwise goes on
with the change, for which it may draw an identifier. -/
structure RecordedCall (table : RequestTable) (β κ : Type) where
  userId : Uuid
  operationId : OperationId
  fits : RequestReceipt -> Prop
  select : table.Outcome -> Option β
  outcome : β -> table.Outcome
  check : Directory -> Except ApiError κ
  replay : Db -> κ -> Except ApiError (Option β)
  change : Uuid -> κ -> Db -> Except ApiError (Except ApiError β × Db)

/-- The answer of a call whose errors roll back. -/
def answered {β : Type} (result : Except ApiError (β × Db)) :
    Except ApiError (Except ApiError β × Db) :=
  result.map fun (outcome, db) => (.ok outcome, db)

namespace RecordedCall

variable {table : RequestTable} {β κ : Type}

def run (call : RecordedCall table β κ) (draw : Uuid) (db : Db) :
    Except ApiError (Except ApiError β × Db) := do
  let checked <- call.check db.directory
  let replay <- call.replay db checked
  match replay with
  | some outcome => return (.ok outcome, db)
  | none => call.change draw checked db

def key (call : RecordedCall table β κ) : RequestKey :=
  ⟨table, call.userId, call.operationId⟩

def receipt (call : RecordedCall table β κ) :
    ReceiptCall Db RequestKey RequestReceipt RecordedAnswer ApiError
      Uuid where
  key := call.key
  fits := call.fits
  run := fun draw db => (call.run draw db).map fun (answer, db) =>
    (answer.map fun outcome => ⟨table, call.outcome outcome⟩, db)

/-- What a change does to the records: an answer is recorded, and an error is
not. -/
def Leaves (call : RecordedCall table β κ) (db db' : Db)
    (answer : Except ApiError β) : Prop :=
  match answer with
  | .ok outcome => exists row, Db.Records db db' table row ∧
      row.userId = call.userId ∧ row.operationId = call.operationId ∧
        call.fits ⟨row.requestHash, row.target⟩ ∧
          row.outcome = call.outcome outcome ∧
            call.select row.outcome = some outcome
  | .error _ => db'.operations = db.operations

/-- The call reads its records as it writes them. -/
structure Lawful (call : RecordedCall table β κ) : Prop where
  selects : forall {found outcome}, call.select found = some outcome ->
    found = call.outcome outcome
  replays : forall {db checked}, call.check db.directory = .ok checked ->
    LooksUp (Db.findOperation (db.operations table) call.userId
      call.operationId) call.fits call.select (call.replay db checked)
  leaves : forall {draw db db' checked answer},
    call.check db.directory = .ok checked ->
      call.change draw checked db = .ok (answer, db') ->
        call.Leaves db db' answer

variable {call : RecordedCall table β κ} {draw : Uuid} {db db' : Db}
  {answer : Except ApiError β}

/-- A call that is not refused repeats a recorded answer, or goes on where
there is none. -/
theorem Lawful.run_eq_ok (hcall : call.Lawful)
    (h : call.run draw db = .ok (answer, db')) :
    (exists row outcome, Db.findOperation (db.operations table) call.userId
          call.operationId = some row ∧
        call.fits ⟨row.requestHash, row.target⟩ ∧
          call.select row.outcome = some outcome ∧ answer = .ok outcome ∧
            db' = db) ∨
      (Db.findOperation (db.operations table) call.userId call.operationId =
          none ∧ call.Leaves db db' answer) := by
  rcases bind_eq_ok.mp h with ⟨checked, hchecked, h⟩
  rcases bind_eq_ok.mp h with ⟨replay, hreplay, h⟩
  have hreplays := hcall.replays hchecked
  cases hfound : Db.findOperation (db.operations table) call.userId
      call.operationId with
  | none =>
      rw [hreplays.fresh hfound] at hreplay
      cases hreplay
      exact .inr ⟨rfl, hcall.leaves hchecked h⟩
  | some row =>
      rcases hreplays.miss row replay hfound hreplay with
        ⟨hfits, outcome, hselected, rfl⟩
      cases h
      exact .inl ⟨row, outcome, rfl, hfits, hselected, rfl, rfl⟩

theorem Lawful.keeps (hcall : call.Lawful)
    (h : call.run draw db = .ok (answer, db')) : Db.KeepsRecords db db' := by
  rcases hcall.run_eq_ok h with ⟨_, _, _, _, _, _, rfl⟩ | ⟨_, hleaves⟩
  · exact .refl _
  · cases answer with
    | ok outcome =>
        rcases hleaves with ⟨row, hrecords, _⟩
        exact hrecords.keeps
    | error error => exact .ofSame hleaves

theorem receipt_run_eq_ok {found : Except ApiError RecordedAnswer}
    (h : call.receipt.run draw db = .ok (found, db')) :
    exists answer, call.run draw db = .ok (answer, db') ∧
      found = answer.map fun outcome => ⟨table, call.outcome outcome⟩ := by
  rcases map_eq_ok.mp h with ⟨⟨answer, after⟩, hrun, hsame⟩
  cases hsame
  exact ⟨answer, hrun, rfl⟩

theorem Lawful.receipt_keeps (hcall : call.Lawful)
    {found : Except ApiError RecordedAnswer}
    (h : call.receipt.run draw db = .ok (found, db')) :
    Db.KeepsRecords db db' := by
  rcases receipt_run_eq_ok h with ⟨answer, hrun, _⟩
  exact hcall.keeps hrun

/-- Every call that reads its records as it writes them leaves a receipt. -/
theorem Lawful.receipted (hcall : call.Lawful) :
    Receipted Db.receiptAt Db.SameDirectory call.receipt where
  records := by
    intro draw before after found h
    rcases receipt_run_eq_ok h with ⟨answer, hrun, hfound⟩
    rcases map_eq_ok.mp hfound.symm with ⟨outcome, rfl, rfl⟩
    rcases hcall.run_eq_ok hrun with
      ⟨row, repeated, hrow, hfits, hselected, hsame, rfl⟩ | ⟨_, hleaves⟩
    · cases hsame
      refine ⟨_, hfits, Option.map_eq_some_iff.mpr ⟨row, hrow, ?_⟩⟩
      rw [hcall.selects hselected]
      rfl
    · rcases hleaves with
        ⟨row, hrecords, huser, hoperation, hfits, houtcome, _⟩
      have hrow := hrecords.found
      rw [huser, hoperation] at hrow
      refine ⟨_, hfits, Option.map_eq_some_iff.mpr ⟨row, hrow, ?_⟩⟩
      rw [houtcome]
      rfl
  settled := by
    intro draw before after receipt found answer hrecalled h
    rcases Db.receiptAt_eq_some hrecalled with ⟨row, hrow, rfl, rfl⟩
    rcases receipt_run_eq_ok h with ⟨given, hrun, rfl⟩
    rcases hcall.run_eq_ok hrun with
      ⟨other, outcome, hother, hfits, hselected, rfl, rfl⟩ | ⟨hnone, _⟩
    · have hsame : other = row := Option.some.inj (hother.symm.trans hrow)
      rw [hsame] at hfits hselected
      refine ⟨hfits, ?_, rfl⟩
      rw [hcall.selects hselected]
      rfl
    · have habsent : none = some row := hnone.symm.trans hrow
      cases habsent
  replays := by
    intro draw draw' before after later receipt found h hagree hrecalled
      hfits
    rcases receipt_run_eq_ok h with ⟨given, hrun, hfound⟩
    rcases map_eq_ok.mp hfound.symm with ⟨outcome, rfl, rfl⟩
    rcases Db.receiptAt_eq_some hrecalled with ⟨row, hrow, rfl, hanswer⟩
    have houtcome : call.outcome outcome = row.outcome :=
      eq_of_heq (Sigma.mk.inj hanswer).2
    have hselected : call.select row.outcome = some outcome := by
      rcases hcall.run_eq_ok hrun with
        ⟨stored, _, _, _, hselects, hsame, _⟩ | ⟨_, hleaves⟩
      · cases hsame
        rw [← houtcome, ← hcall.selects hselects]
        exact hselects
      · rcases hleaves with ⟨stored, _, _, _, _, hstored, hselects⟩
        rw [← houtcome, ← hstored]
        exact hselects
    rcases bind_eq_ok.mp hrun with ⟨checked, hchecked, _⟩
    have hchecks : call.check later.directory = .ok checked := by
      rw [show later.directory = before.directory from hagree]
      exact hchecked
    have hreplay := (hcall.replays hchecks).hit row outcome hrow hfits hselected
    apply map_eq_ok.mpr
    refine ⟨(.ok outcome, later), ?_, rfl⟩
    exact bind_eq_ok.mpr ⟨checked, hchecks,
      bind_eq_ok.mpr ⟨some outcome, hreplay, rfl⟩⟩

end RecordedCall
end Denju
