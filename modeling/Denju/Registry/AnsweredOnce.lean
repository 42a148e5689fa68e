import Denju.Registry.CatalogRuns
import Denju.Registry.RecordKeeping

/-!
# Every request takes effect once

A client that hears no answer sends its request again, under the same operation
identifier.  However many calls of others fall in between, a request that was
answered changes nothing when it comes again.
-/

namespace Denju

open Lib

/-- A request that is recorded with its answer. -/
inductive RecordedRequest where
  | publishSkill (userId : Uuid) (request : PublishSkillRequest)
  | unpublishSkill (userId : Uuid) (request : ResourceLifecycleRequest)
  | pruneHistory (userId : Uuid) (request : ResourceLifecycleRequest)
  | deleteSkill (userId : Uuid) (request : ResourceLifecycleRequest)
  | deprecateSkill (userId : Uuid) (request : DeprecateSkillRequest)
  | transferSkill (userId : Uuid) (request : ResourceTransferRequest)
  | share (kind : ShareMutationKind) (userId : Uuid)
      (request : ShareSkillRequest)
  | quarantine (kind : AdminQuarantineMutationKind) (operator : Uuid)
      (request : AdminQuarantineRequest)
  | createProposal (userId : Uuid) (request : ProposalCreateRequest)
  | acceptProposal (userId : Uuid) (request : ProposalAcceptRequest)
  | createPack (userId : Uuid) (request : PackCreateRequest)
  | mutatePack (kind : PackMutationKind) (userId : Uuid)
      (request : PackMutationRequest)
  | publishPack (userId : Uuid) (request : PackPublishRequest)
  | renamePack (userId : Uuid) (request : PackRenameRequest)
  | unpublishPack (userId : Uuid) (request : ResourceLifecycleRequest)
  | deletePack (userId : Uuid) (request : ResourceLifecycleRequest)
  | transferPack (userId : Uuid) (request : ResourceTransferRequest)
  | assignPack (kind : TeamPackAssignmentMutationKind) (userId : Uuid)
      (request : TeamPackAssignmentRequest)

namespace RecordedRequest

def key : RecordedRequest -> RequestKey
  | .publishSkill userId request => ⟨.release, userId, request.operationId⟩
  | .unpublishSkill userId request => ⟨.lifecycle, userId, request.operationId⟩
  | .pruneHistory userId request => ⟨.lifecycle, userId, request.operationId⟩
  | .deleteSkill userId request => ⟨.lifecycle, userId, request.operationId⟩
  | .deprecateSkill userId request => ⟨.lifecycle, userId, request.operationId⟩
  | .transferSkill userId request => ⟨.transfer, userId, request.operationId⟩
  | .share _ userId request => ⟨.share, userId, request.operationId⟩
  | .quarantine _ operator request => ⟨.admin, operator, request.operationId⟩
  | .createProposal userId request => ⟨.proposal, userId, request.operationId⟩
  | .acceptProposal userId request => ⟨.proposal, userId, request.operationId⟩
  | .createPack userId request => ⟨.pack, userId, request.operationId⟩
  | .mutatePack _ userId request => ⟨.pack, userId, request.operationId⟩
  | .publishPack userId request => ⟨.pack, userId, request.operationId⟩
  | .renamePack userId request => ⟨.pack, userId, request.operationId⟩
  | .unpublishPack userId request => ⟨.pack, userId, request.operationId⟩
  | .deletePack userId request => ⟨.pack, userId, request.operationId⟩
  | .transferPack userId request => ⟨.transfer, userId, request.operationId⟩
  | .assignPack _ userId request => ⟨.team, userId, request.operationId⟩

def requestHash : RecordedRequest -> RequestHash
  | .publishSkill _ request => request.requestHash
  | .unpublishSkill _ request => request.requestHash
  | .pruneHistory _ request => request.requestHash
  | .deleteSkill _ request => request.requestHash
  | .deprecateSkill _ request => request.requestHash
  | .transferSkill _ request => request.requestHash
  | .share _ _ request => request.requestHash
  | .quarantine _ _ request => request.requestHash
  | .createProposal _ request => request.requestHash
  | .acceptProposal _ request => request.requestHash
  | .createPack _ request => request.requestHash
  | .mutatePack _ _ request => request.requestHash
  | .publishPack _ request => request.requestHash
  | .renamePack _ request => request.requestHash
  | .unpublishPack _ request => request.requestHash
  | .deletePack _ request => request.requestHash
  | .transferPack _ request => request.requestHash
  | .assignPack _ _ request => request.requestHash

/-- The operation that a request asks for, with the identifier that is drawn
for it. -/
def mutation (draw : Uuid) : RecordedRequest -> Mutation
  | .publishSkill userId request =>
      .activity (.call (.publish draw userId request))
  | .unpublishSkill userId request => .activity (.unpublish userId request)
  | .pruneHistory userId request => .activity (.prune userId request)
  | .deleteSkill userId request => .deleteSkill userId request
  | .deprecateSkill userId request => .deprecateSkill userId request
  | .transferSkill userId request => .activity (.transfer userId request)
  | .share kind userId request => .share kind userId request
  | .quarantine kind operator request =>
      .quarantine kind draw operator request
  | .createProposal userId request =>
      .activity (.call (.createProposal draw userId request))
  | .acceptProposal userId request =>
      .activity (.call (.acceptProposal userId request))
  | .createPack userId request => .createPack draw userId request
  | .mutatePack kind userId request => .mutatePack kind userId request
  | .publishPack userId request => .publishPack userId request
  | .renamePack userId request => .renamePack userId request
  | .unpublishPack userId request => .unpublishPack userId request
  | .deletePack userId request => .deletePack userId request
  | .transferPack userId request => .transferPack userId request
  | .assignPack kind userId request => .assignPack kind userId request

end RecordedRequest

/-- An answer with the table that it is recorded in. -/
def recordedIn {β : Type} (table : RequestTable) (outcome : β -> table.Outcome)
    (result : Except ApiError (Except ApiError β × Db)) :
    Except ApiError (Except ApiError RecordedAnswer × Db) :=
  result.map fun (answer, db) =>
    (answer.map fun given => ⟨table, outcome given⟩, db)

namespace Registry

variable (self : Registry)

/-- The answer of the endpoint that a request is for. -/
def submit (draw : Uuid) (request : RecordedRequest) (db : Db) :
    Except ApiError (Except ApiError RecordedAnswer × Db) :=
  match request with
  | .publishSkill userId request =>
      recordedIn .release id (self.publishSkill draw userId request db)
  | .unpublishSkill userId request =>
      recordedIn .lifecycle .unpublish
        (answered (self.unpublishSkill userId request db))
  | .pruneHistory userId request =>
      recordedIn .lifecycle .historyPrune
        (answered (self.pruneSkillHistory userId request db))
  | .deleteSkill userId request =>
      recordedIn .lifecycle .delete
        (answered (self.deleteSkill userId request db))
  | .deprecateSkill userId request =>
      recordedIn .lifecycle .deprecate
        (answered (self.deprecateSkill userId request db))
  | .transferSkill userId request =>
      recordedIn .transfer id
        (answered (self.transferResource userId request db))
  | .share kind userId request =>
      recordedIn .share id
        (answered (self.mutatePrivateShare kind userId request db))
  | .quarantine kind operator request =>
      recordedIn .admin kind.outcome
        (answered (self.mutateQuarantine kind draw operator request db))
  | .createProposal userId request =>
      recordedIn .proposal (fun proposal => (.create, proposal))
        (answered (self.createProposal draw userId request db))
  | .acceptProposal userId request =>
      recordedIn .proposal (fun proposal => (.accept, proposal))
        (answered (self.acceptProposal userId request db))
  | .createPack userId request =>
      recordedIn .pack .create (answered (self.createPack draw userId request db))
  | .mutatePack kind userId request =>
      recordedIn .pack kind.outcome (self.mutatePack kind userId request db)
  | .publishPack userId request =>
      recordedIn .pack .publish (self.publishPack userId request db)
  | .renamePack userId request =>
      recordedIn .pack .rename (self.renamePack userId request db)
  | .unpublishPack userId request =>
      recordedIn .pack .unpublish (self.unpublishPack userId request db)
  | .deletePack userId request =>
      recordedIn .pack .delete (self.deletePack userId request db)
  | .transferPack userId request =>
      recordedIn .transfer id (answered (self.transferPack userId request db))
  | .assignPack kind userId request =>
      recordedIn .team .assignment
        (answered (self.mutateTeamPackAssignment kind userId request db))

/-- The same request as a call that leaves a receipt. -/
def receiptCall : RecordedRequest ->
    ReceiptCall Db RequestKey RequestReceipt RecordedAnswer ApiError Uuid
  | .publishSkill userId request => (self.publishCall userId request).receipt
  | .unpublishSkill userId request =>
      (self.unpublishCall userId request).receipt
  | .pruneHistory userId request => (self.pruneCall userId request).receipt
  | .deleteSkill userId request => (self.deleteCall userId request).receipt
  | .deprecateSkill userId request =>
      (self.deprecateCall userId request).receipt
  | .transferSkill userId request =>
      (self.transferCall userId request fun authority =>
        self.moveResource authority request).receipt
  | .share kind userId request => (self.shareCall kind userId request).receipt
  | .quarantine kind operator request =>
      (self.quarantineCall kind operator request).receipt
  | .createProposal userId request =>
      (self.createProposalCall userId request).receipt
  | .acceptProposal userId request =>
      (self.acceptProposalCall userId request).receipt
  | .createPack userId request => (self.createPackCall userId request).receipt
  | .mutatePack kind userId request =>
      (self.mutatePackCall kind userId request).receipt
  | .publishPack userId request =>
      (self.publishPackCall userId request).receipt
  | .renamePack userId request => (self.renamePackCall userId request).receipt
  | .unpublishPack userId request =>
      (self.unpublishPackCall userId request).receipt
  | .deletePack userId request => (self.deletePackCall userId request).receipt
  | .transferPack userId request =>
      (self.transferCall userId request fun authority =>
        self.movePackToTeam authority request).receipt
  | .assignPack kind userId request =>
      (self.assignPackCall kind userId request).receipt

variable {self} {request : RecordedRequest} {draw : Uuid} {db db' : Db}

theorem recordedIn_receipt {table : RequestTable} {β κ : Type}
    {call : RecordedCall table β κ}
    {result : Except ApiError (Except ApiError β × Db)}
    (h : call.run draw db = result) :
    recordedIn table call.outcome result = call.receipt.run draw db :=
  congrArg (recordedIn table call.outcome) h.symm

theorem submit_eq :
    self.submit draw request db = (self.receiptCall request).run draw db := by
  cases request with
  | publishSkill => exact recordedIn_receipt publishCall_run
  | unpublishSkill => exact recordedIn_receipt unpublishCall_run
  | pruneHistory => exact recordedIn_receipt pruneCall_run
  | deleteSkill => exact recordedIn_receipt deleteCall_run
  | deprecateSkill => exact recordedIn_receipt deprecateCall_run
  | transferSkill => exact recordedIn_receipt transferCall_run
  | share => exact recordedIn_receipt shareCall_run
  | quarantine => exact recordedIn_receipt quarantineCall_run
  | createProposal => exact recordedIn_receipt createProposalCall_run
  | acceptProposal => exact recordedIn_receipt acceptProposalCall_run
  | createPack => exact recordedIn_receipt createPackCall_run
  | mutatePack => exact recordedIn_receipt mutatePackCall_run
  | publishPack => exact recordedIn_receipt publishPackCall_run
  | renamePack => exact recordedIn_receipt renamePackCall_run
  | unpublishPack => exact recordedIn_receipt unpublishPackCall_run
  | deletePack => exact recordedIn_receipt deletePackCall_run
  | transferPack => exact recordedIn_receipt transferPackCall_run
  | assignPack => exact recordedIn_receipt assignPackCall_run

theorem receiptCall_key : (self.receiptCall request).key = request.key := by
  cases request <;> rfl

theorem receiptCall_fits {receipt : RequestReceipt}
    (h : (self.receiptCall request).fits receipt) :
    receipt.requestHash = request.requestHash := by
  cases request with
  | publishSkill => exact h.1
  | unpublishSkill => exact h.1
  | pruneHistory => exact h.1
  | deleteSkill => exact h.1
  | deprecateSkill => exact h.1
  | transferSkill => exact h.1
  | share => exact h.1
  | transferPack => exact h.1
  | _ => exact h

theorem receiptCall_receipted (request : RecordedRequest) :
    Receipted Db.receiptAt Db.SameDirectory (self.receiptCall request) := by
  cases request with
  | publishSkill => exact publishCall_lawful.receipted
  | unpublishSkill => exact unpublishCall_lawful.receipted
  | pruneHistory => exact pruneCall_lawful.receipted
  | deleteSkill => exact deleteCall_lawful.receipted
  | deprecateSkill => exact deprecateCall_lawful.receipted
  | transferSkill =>
      exact (transferCall_lawful fun _ _ _ _ =>
        moveResource_records).receipted
  | share => exact shareCall_lawful.receipted
  | quarantine => exact quarantineCall_lawful.receipted
  | createProposal => exact createProposalCall_lawful.receipted
  | acceptProposal => exact acceptProposalCall_lawful.receipted
  | createPack => exact createPackCall_lawful.receipted
  | mutatePack => exact mutatePackCall_lawful.receipted
  | publishPack => exact publishPackCall_lawful.receipted
  | renamePack => exact renamePackCall_lawful.receipted
  | unpublishPack => exact unpublishPackCall_lawful.receipted
  | deletePack => exact deletePackCall_lawful.receipted
  | transferPack =>
      exact (transferCall_lawful fun _ _ _ _ =>
        movePackToTeam_records).receipted
  | assignPack => exact assignPackCall_lawful.receipted

theorem submit_keeps {answer : Except ApiError RecordedAnswer}
    (h : self.submit draw request db = .ok (answer, db')) :
    Db.KeepsRecords db db' := by
  rw [submit_eq] at h
  cases request with
  | publishSkill => exact publishCall_lawful.receipt_keeps h
  | unpublishSkill => exact unpublishCall_lawful.receipt_keeps h
  | pruneHistory => exact pruneCall_lawful.receipt_keeps h
  | deleteSkill => exact deleteCall_lawful.receipt_keeps h
  | deprecateSkill => exact deprecateCall_lawful.receipt_keeps h
  | transferSkill =>
      exact (transferCall_lawful fun _ _ _ _ =>
        moveResource_records).receipt_keeps h
  | share => exact shareCall_lawful.receipt_keeps h
  | quarantine => exact quarantineCall_lawful.receipt_keeps h
  | createProposal => exact createProposalCall_lawful.receipt_keeps h
  | acceptProposal => exact acceptProposalCall_lawful.receipt_keeps h
  | createPack => exact createPackCall_lawful.receipt_keeps h
  | mutatePack => exact mutatePackCall_lawful.receipt_keeps h
  | publishPack => exact publishPackCall_lawful.receipt_keeps h
  | renamePack => exact renamePackCall_lawful.receipt_keeps h
  | unpublishPack => exact unpublishPackCall_lawful.receipt_keeps h
  | deletePack => exact deletePackCall_lawful.receipt_keeps h
  | transferPack =>
      exact (transferCall_lawful fun _ _ _ _ =>
        movePackToTeam_records).receipt_keeps h
  | assignPack => exact assignPackCall_lawful.receipt_keeps h

end Registry

/-- The key of the record that the last transaction of a call writes. -/
def Plan.key {ext : Externals} : Plan ext -> Option RequestKey
  | .importing _ => none
  | .save _ => none
  | .restore plan =>
      some ⟨.restore, plan.authority.userId, plan.request.operationId⟩
  | .rename plan =>
      some ⟨.lifecycle, plan.request.1.userId, plan.request.2.operationId⟩

/-!
## What every event keeps
-/

namespace Service

variable {registry : Registry} {service : Service registry}

theorem settle_recordedIn {β : Type} {table : RequestTable}
    {outcome : β -> table.Outcome}
    {result : Except ApiError (Except ApiError β × Db)} :
    service.settle (recordedIn table outcome result) =
      service.settle result := by
  cases result with
  | error error => rfl
  | ok found => rfl

theorem settle_answered {β : Type} {result : Except ApiError (β × Db)} :
    service.settle (answered result) = service.settle result := by
  cases result with
  | error error => rfl
  | ok found => rfl

/-- The operation that a request asks for is what its endpoint does. -/
theorem mutate_request (draw : Uuid) (request : RecordedRequest) :
    service.mutate (request.mutation draw) =
      service.settle (registry.submit draw request service.db) := by
  cases request <;>
    simp only [Registry.submit, settle_recordedIn, settle_answered] <;> rfl

theorem request_keeps (draw : Uuid) (request : RecordedRequest) :
    Db.KeepsRecords service.db (service.mutate (request.mutation draw)).db := by
  rw [mutate_request]
  exact settle_of (P := fun next => Db.KeepsRecords service.db next.db)
    (.refl _) fun _ _ => Registry.submit_keeps

theorem settle_keeps {α : Type} {result : Except ApiError (α × Db)}
    (hok : forall value db, result = .ok (value, db) ->
      Db.KeepsRecords service.db db) :
    Db.KeepsRecords service.db (service.settle result).db :=
  settle_of (P := fun next => Db.KeepsRecords service.db next.db)
    (.refl _) hok

theorem await_keeps {α β : Type} {plan : β -> Plan registry.ext}
    {result : Except ApiError (α ⊕ β)} :
    Db.KeepsRecords service.db (service.await plan result).db :=
  await_of (P := fun next => Db.KeepsRecords service.db next.db)
    (.refl _) fun _ _ => .refl _

theorem writePlan_keeps (newConflictId : Uuid) (plan : Plan registry.ext) :
    Db.KeepsRecords service.db (service.writePlan newConflictId plan).db := by
  cases plan with
  | importing plan =>
      exact settle_keeps fun _ _ h =>
        .ofSame (Registry.operations_writePrivateSkillImport h)
  | save plan =>
      exact settle_keeps fun _ _ h =>
        .ofSame (Registry.operations_writePrivateRevision h)
  | restore plan =>
      exact settle_keeps fun _ _ h => (Registry.writeRestore_records h).keeps
  | rename plan =>
      exact settle_keeps fun _ _ h => (Registry.writeRename_records h).keeps

/-- A call that waits is refused when its key is recorded before it writes. -/
theorem writePlan_recorded {newConflictId : Uuid} {plan : Plan registry.ext}
    {key : RequestKey} (hkey : plan.key = some key)
    (hrecorded : service.db.receiptAt key ≠ none) :
    (service.writePlan newConflictId plan).db = service.db := by
  have hmissing : Db.findOperation (service.db.operations key.table)
      key.userId key.operationId ≠ none := by
    intro hnone
    apply hrecorded
    unfold Db.receiptAt
    rw [hnone]
    rfl
  cases plan with
  | importing plan => cases hkey
  | save plan => cases hkey
  | restore plan =>
      cases hkey
      refine settle_of (P := fun next => next.db = service.db) rfl ?_
      intro outcome db h
      exact absurd (Registry.writeRestore_records h).fresh hmissing
  | rename plan =>
      cases hkey
      refine settle_of (P := fun next => next.db = service.db) rfl ?_
      intro outcome db h
      exact absurd (Registry.writeRename_records h).fresh hmissing

theorem serve_keeps (call : ServiceCall) :
    Db.KeepsRecords service.db (service.serve call).db := by
  cases call with
  | prepareImport =>
      exact settle_keeps fun _ _ h =>
        .ofSame (Registry.operations_preparePrivateSkillImport h)
  | commitImport => exact await_keeps
  | prepare =>
      exact settle_keeps fun _ _ h =>
        .ofSame (Registry.operations_preparePrivateRevision h)
  | commit => exact await_keeps
  | publish newConflictId userId request =>
      exact request_keeps newConflictId (.publishSkill userId request)
  | restore => exact await_keeps
  | rename => exact await_keeps
  | createProposal proposalId userId request =>
      exact request_keeps proposalId (.createProposal userId request)
  | acceptProposal userId request =>
      exact request_keeps userId (.acceptProposal userId request)
  | write index newConflictId =>
      refine writeAt_of (P := fun next => Db.KeepsRecords service.db next.db)
        (.refl _) ?_
      intro plan _
      exact @writePlan_keeps registry
        { service with plans := service.plans.eraseIdx index } newConflictId plan

theorem subscribed_keeps {db db' : Db} (h : Registry.Subscribed db db') :
    Db.KeepsRecords db db' := by
  rcases h with ⟨_, _, _, _, rfl⟩
  apply Db.KeepsRecords.ofSame
  funext table
  cases table <;> rfl

theorem mutate_keeps (mutation : Mutation) :
    Db.KeepsRecords service.db (service.mutate mutation).db := by
  cases mutation with
  | activity activity =>
      cases activity with
      | call call => exact serve_keeps call
      | unpublish userId request =>
          exact request_keeps userId (.unpublishSkill userId request)
      | prune userId request =>
          exact request_keeps userId (.pruneHistory userId request)
      | transfer userId request =>
          exact request_keeps userId (.transferSkill userId request)
      | collect blob =>
          refine settle_keeps fun _ _ h => ?_
          rcases Registry.drainBlobGc_eq_ok h with ⟨_, _, rfl, _⟩
          apply Db.KeepsRecords.ofSame
          funext table
          cases table <;> rfl
  | deleteSkill userId request =>
      exact request_keeps userId (.deleteSkill userId request)
  | deprecateSkill userId request =>
      exact request_keeps userId (.deprecateSkill userId request)
  | share kind userId request =>
      exact request_keeps userId (.share kind userId request)
  | quarantine kind newQuarantineId operator request =>
      exact request_keeps newQuarantineId (.quarantine kind operator request)
  | createPack newResourceId userId request =>
      exact request_keeps newResourceId (.createPack userId request)
  | mutatePack kind userId request =>
      exact request_keeps userId (.mutatePack kind userId request)
  | publishPack userId request =>
      exact request_keeps userId (.publishPack userId request)
  | renamePack userId request =>
      exact request_keeps userId (.renamePack userId request)
  | unpublishPack userId request =>
      exact request_keeps userId (.unpublishPack userId request)
  | deletePack userId request =>
      exact request_keeps userId (.deletePack userId request)
  | transferPack userId request =>
      exact request_keeps userId (.transferPack userId request)
  | subscribe =>
      exact settle_keeps fun _ _ h =>
        subscribed_keeps (Registry.mutateSubscription_eq_ok h)
  | subscribePack =>
      exact settle_keeps fun _ _ h =>
        subscribed_keeps (Registry.mutatePackSubscription_eq_ok h)
  | assignPack kind userId request =>
      exact request_keeps userId (.assignPack kind userId request)

theorem changeAccount_keeps {change : AccountChange} {table : RequestTable}
    (hteam : forall userId slug, change = .deleteTeam userId slug ->
      table ≠ .team)
    (haccount : forall userId, change = .deleteAccount userId ->
      table ≠ .team) :
    service.db.operations table <+:
      (service.changeAccount change).db.operations table := by
  have hsettle : forall {α : Type} {result : Except ApiError (α × Db)},
      (forall value db, result = .ok (value, db) ->
        Db.KeepsRecords service.db db) ->
      service.db.operations table <+:
        (service.settle result).db.operations table :=
    fun hok => settle_keeps hok table
  have hdelete : forall {α : Type} {result : Except ApiError (α × Db)},
      (forall value db, result = .ok (value, db) ->
        db.operations table = service.db.operations table) ->
      service.db.operations table <+:
        (service.settle result).db.operations table := by
    intro α result hok
    refine settle_of (P := fun next => service.db.operations table <+:
      next.db.operations table) (List.prefix_refl _) ?_
    intro value db h
    rw [hok value db h]
  cases change with
  | createInstallation =>
      refine hsettle fun _ _ h => ?_
      rcases bind_eq_ok.mp h with ⟨_, _, h⟩
      cases h
      apply Db.KeepsRecords.ofSame
      funext table
      cases table <;> rfl
  | claimIdentity =>
      exact hsettle fun _ _ h =>
        .ofSame (Registry.operations_claimIdentity h)
  | login =>
      exact hsettle fun _ _ h => .ofSame (Registry.operations_login h)
  | provision userId =>
      exact Db.KeepsRecords.ofSame
        (Registry.operations_provisionTeamWorkspaces userId) table
  | createTeam =>
      exact hsettle fun _ _ h => .ofSame (Registry.operations_createTeam h)
  | joinTeam =>
      exact hsettle fun _ _ h => .ofSame (Registry.operations_joinTeam h)
  | changeRole =>
      exact hsettle fun _ _ h =>
        .ofSame (Registry.operations_changeTeamMemberRole h)
  | updateSettings =>
      exact hsettle fun _ _ h =>
        .ofSame (Registry.operations_updateTeamSettings h)
  | removeMember =>
      exact hsettle fun _ _ => Registry.removeTeamMember_keepsRecords
  | leaveTeam => exact hsettle fun _ _ => Registry.leaveTeam_keepsRecords
  | deleteTeam userId slug =>
      exact hdelete fun _ _ =>
        Registry.deleteTeam_keeps (hteam userId slug rfl)
  | deleteAccount userId =>
      exact hdelete fun _ _ =>
        Registry.deleteAccount_keeps (haccount userId rfl)
  | setTopics =>
      exact hsettle fun _ _ h =>
        .ofSame (Registry.operations_setResourceTopics h)

end Service

/-!
## Repeated requests
-/

namespace Site

variable {registry : Registry} {site later : Site registry}

theorem operate_keeps (operation : Operation) :
    Db.KeepsRecords site.db (site.operate operation).db := by
  cases operation with
  | mutation mutation => exact Service.mutate_keeps mutation
  | drain =>
      unfold operate
      dsimp only
      split
      · exact .refl _
      · exact .refl _
  | work index =>
      show Db.KeepsRecords site.db (site.work index).db
      unfold work
      split
      · exact .refl _
      · rename_i task _
        cases task with
        | search event => exact .refl _
        | advance packId event =>
            refine Service.settle_keeps fun _ _ h => ?_
            rcases bind_eq_ok.mp h with ⟨⟨advanced, stored⟩, hstored, h⟩
            have hsame := Db.operations_advancePackEvent hstored
            cases advanced with
            | none =>
                cases h
                exact .ofSame hsame
            | some pack =>
                cases h
                exact .ofSame (Registry.operations_wake.trans hsame)
        | complete event =>
            show Db.KeepsRecords site.db
              (site.db.completeReleaseEvent event.id)
            unfold Db.completeReleaseEvent
            split
            · exact .refl _
            · apply Db.KeepsRecords.ofSame
              funext table
              cases table <;> rfl

/-- An event after which the records of a table are still there: calls that are
no part of this development may add records, and requests for a team are
forgotten with it. -/
def SparesRecords (table : RequestTable) (site : Site registry) : Event -> Prop
  | .beside db => site.db.operations table <+: db.operations table
  | .account (.deleteTeam _ _) => table ≠ .team
  | .account (.deleteAccount _) => table ≠ .team
  | _ => True

/-- One event that spares the records of a table. -/
abbrev EvolvesSparing (table : RequestTable) :
    Site registry -> Event -> Site registry -> Prop :=
  Guarded (SparesRecords table) evolve

theorem evolve_keeps {table : RequestTable} {event : Event}
    (h : site.SparesRecords table event) :
    site.db.operations table <+: (site.evolve event).db.operations table := by
  cases event with
  | operation operation => exact operate_keeps operation table
  | account change =>
      apply Service.changeAccount_keeps
      · intro userId slug hchange
        rw [hchange] at h
        exact h
      · intro userId hchange
        rw [hchange] at h
        exact h
  | beside db => exact h

/-- What is recorded stays recorded. -/
theorem keepsReceipt_of_run {key : RequestKey} {events : List Event}
    (hrun : Run (EvolvesSparing key.table) site events later) :
    KeepsReceipt Db.receiptAt key site.db later.db := by
  refine hrun.invariant (P := fun later : Site registry =>
    KeepsReceipt Db.receiptAt key site.db later.db) (.refl _ _ _) ?_
  intro before event after hbefore hstep
  rw [hstep.2]
  exact hbefore.trans (Db.keepsReceipt_of_prefix (evolve_keeps hstep.1))

theorem operate_request {draw : Uuid} {request : RecordedRequest}
    {answer : Except ApiError RecordedAnswer} {db : Db}
    (h : registry.submit draw request site.db = .ok (answer, db)) :
    site.operate (.mutation (request.mutation draw)) =
      { site with service := { site.service with db } } := by
  show { site with service := site.service.mutate (request.mutation draw) } = _
  rw [Service.mutate_request]
  rw [show registry.submit draw request site.service.db = _ from h]
  rfl

/-- A request whose key is recorded changes nothing. -/
theorem operate_recorded {request : RecordedRequest} {again : Uuid}
    (hrecorded : site.db.receiptAt request.key ≠ none) :
    site.operate (.mutation (request.mutation again)) = site := by
  cases hagain : registry.submit again request site.db with
  | error error =>
      show { site with
        service := site.service.mutate (request.mutation again) } = site
      rw [Service.mutate_request]
      rw [show registry.submit again request site.service.db = _ from hagain]
      rfl
  | ok found =>
      rw [operate_request hagain]
      rw [Registry.submit_eq] at hagain
      rw [← @Registry.receiptCall_key registry] at hrecorded
      rcases Option.ne_none_iff_exists'.mp hrecorded with
        ⟨⟨receipt, answer⟩, hfound⟩
      have hsettled := (Registry.receiptCall_receipted request).settled hfound
        hagain
      rw [hsettled.2.2]
      rfl

end Site
/-!
## A repeated rename

One pack leaves a name, another one takes it, and then the rename of the first
one comes again.
-/

namespace Sample

def renameRequest : RecordedRequest :=
  .renamePack amy.id
    { operationId := operationId 52
      resourceId := uuid 4
      expectedGeneration := 1
      newName := "b".toList
      requestHash := namingHashOf 52 }

theorem renameRequest_answered :
    exists answer db, naming.submit (uuid 1) renameRequest
      (namingSite [packCreation 51 4 "a"]).db = .ok (.ok answer, db) := by
  have hanswered : ((naming.submit (uuid 1) renameRequest
      (namingSite [packCreation 51 4 "a"]).db).toOption.bind fun found =>
        found.1.toOption).isSome = true := by
    decide +kernel
  rcases Option.isSome_iff_exists.mp hanswered with ⟨answer, hsome⟩
  rcases Option.bind_eq_some_iff.mp hsome with ⟨⟨result, db⟩, hfound, hresult⟩
  refine ⟨answer, db, ?_⟩
  cases hsubmit : naming.submit (uuid 1) renameRequest
      (namingSite [packCreation 51 4 "a"]).db with
  | error error =>
      rw [hsubmit] at hfound
      cases hfound
  | ok found =>
      rw [hsubmit] at hfound
      cases hfound
      cases result with
      | error error => cases hresult
      | ok given =>
          cases hresult
          rfl

end Sample

end Denju
