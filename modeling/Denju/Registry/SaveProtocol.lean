import Denju.Registry.Import
import Denju.Lib.Runs

/-!
# The protocol of private saves

Devices import skills, prepare saves and commit them, in any order and as often
as they like.  A commit holds no lock between its two transactions: the server
keeps every commit that has read and not yet written.  An answer may be lost,
and a device may repeat any call.
-/

namespace Denju

open Lib

structure Server (registry : Registry) where
  db : Db
  inFlight : List (PendingCommit registry.ext)

/-- A call of a device, or the second transaction of a commit in flight.  The
values that the registry draws at random are part of the call. -/
inductive SaveCall where
  | prepareImport (newResourceId : Uuid) (fresh : BlobId -> Uuid)
      (userId : Uuid) (request : PrivateSkillImportRequest)
  | commitImport (store : ObjectStore) (userId : Uuid)
      (request : CommitRequest)
  | prepare (fresh : BlobId -> Uuid) (userId : Uuid)
      (request : PrivateRevisionRequest)
  | commit (store : ObjectStore) (userId : Uuid) (request : CommitRequest)
  | write (index : Nat) (newConflictId : Uuid)

inductive SaveAnswer where
  | importPrepared
      (result : Except ApiError PrivateSkillImportPrepareResponse)
  | imported (result : Except ApiError PrivateSkillImportResponse)
  | prepared (result : Except ApiError PrivateRevisionPrepareResponse)
  | verified
  | committed (userId : Uuid) (request : CommitRequest)
      (result : Except ApiError PrivateRevisionCommitResponse)
  | idle

abbrev SaveEvent := SaveCall × SaveAnswer

namespace Server

variable {registry : Registry}

/-- A refused transaction is rolled back. -/
def answer {α : Type} (server : Server registry)
    (reply : Except ApiError α -> SaveAnswer) :
    Except ApiError (α × Db) -> SaveAnswer × Server registry
  | .error error => (reply (.error error), server)
  | .ok (value, db) => (reply (.ok value), { server with db })

def save (server : Server registry) :
    SaveCall -> SaveAnswer × Server registry
  | .prepareImport newResourceId fresh userId request =>
      server.answer .importPrepared
        (registry.preparePrivateSkillImport newResourceId fresh userId request
          server.db)
  | .commitImport store userId request =>
      server.answer .imported
        (registry.commitPrivateSkillImport store userId request server.db)
  | .prepare fresh userId request =>
      server.answer .prepared
        (registry.preparePrivateRevision fresh userId request server.db)
  | .commit store userId request =>
      match registry.readPrivateRevision store userId request server.db with
      | .error error => (.committed userId request (.error error), server)
      | .ok (.inl outcome) => (.committed userId request (.ok outcome), server)
      | .ok (.inr plan) =>
          (.verified, { server with inFlight := server.inFlight ++ [plan] })
  | .write index newConflictId =>
      match server.inFlight[index]? with
      | none => (.idle, server)
      | some plan =>
          answer { server with inFlight := server.inFlight.eraseIdx index }
            (.committed plan.authority.userId plan.request)
            (Registry.writePrivateRevision newConflictId plan server.db)

def Step (server : Server registry) (event : SaveEvent)
    (server' : Server registry) : Prop :=
  server.save event.1 = (event.2, server')

/-- The events and the server after a list of calls. -/
def play (server : Server registry) : List SaveCall ->
    List SaveEvent × Server registry
  | [] => ([], server)
  | call :: rest =>
      let answered := server.save call
      let played := answered.2.play rest
      ((call, answered.1) :: played.1, played.2)

variable (registry) in
/-- A registry with its users and nothing else. -/
def empty (directory : Directory) : Server registry where
  db := { directory }
  inFlight := []

end Server

/-!
## The hashed revisions

The revisions whose identifiers the registry computes in a run.
-/

def hashedRevision (directory : Directory) (userId : Uuid)
    (author : Option AuthorPrincipalId) (root : TreeId)
    (parents : List RevisionId) (operationId : OperationId) :
    Option Revision :=
  match directory.userAuthority userId with
  | .error _ => none
  | .ok authority =>
      match directory.revisionAuthorForUser authority author with
      | .error _ => none
      | .ok author =>
          (Revision.new root parents author operationId).toOption

def SaveEvent.revision (directory : Directory) : SaveEvent -> Option Revision
  | (.prepareImport _ _ userId request, .importPrepared (.ok _)) =>
      hashedRevision directory userId request.revisionAuthorPrincipalId
        request.manifest.rootTree (Registry.importParents request.fork)
        request.operationId
  | (.prepare _ userId request, .prepared (.ok _)) =>
      hashedRevision directory userId request.revisionAuthorPrincipalId
        request.manifest.rootTree request.parentRevisionIds
        request.operationId
  | _ => none

def hashedRevisions (directory : Directory) (events : List SaveEvent) :
    List Revision :=
  events.filterMap (SaveEvent.revision directory)

/-!
## What each call reads and leaves
-/

namespace Registry

variable {registry : Registry} {db db' : Db} {userId : Uuid}
  {fresh : BlobId -> Uuid}

theorem hashedRevision_of {directory : Directory} {authority : UserAuthority}
    {requested : Option AuthorPrincipalId} {author : AuthorPrincipalId}
    {root : TreeId} {parents : List RevisionId} {operationId : OperationId}
    {revision : Revision}
    (hauthority : directory.userAuthority userId = .ok authority)
    (hauthor : directory.revisionAuthorForUser authority requested =
      .ok author)
    (hrevision : Revision.new root parents author operationId =
      .ok revision) :
    hashedRevision directory userId requested root parents operationId =
      some revision := by
  unfold hashedRevision
  rw [hauthority]
  dsimp only
  rw [hauthor]
  dsimp only
  rw [hrevision]
  rfl

theorem preparePrivateRevision_eq_ok {request : PrivateRevisionRequest}
    {answer : PrivateRevisionPrepareResponse}
    (h : registry.preparePrivateRevision fresh userId request db =
      .ok (answer, db')) :
    exists authority author revision blobs,
      db.directory.userAuthority userId = .ok authority ∧
      hashedRevision db.directory userId request.revisionAuthorPrincipalId
        request.manifest.rootTree request.parentRevisionIds
        request.operationId = some revision ∧
      revision.parents = request.parentRevisionIds ∧
      request.expectedHeadRevisionId ∈ request.parentRevisionIds ∧
      (db' = db ∨
        (db.findRevisionOperation authority.userId request.operationId =
            none ∧
          storePrivateRevision fresh authority request blobs author
            (revision.id registry.ext) db = .ok (answer, db'))) := by
  rcases bind_eq_ok.mp h with ⟨authority, hauthority, h⟩
  rcases bind_eq_ok.mp h with ⟨blobs, hvalid, h⟩
  rcases bind_eq_ok.mp h with ⟨author, hauthor, h⟩
  rcases bind_eq_ok.mp h with ⟨revision, hrevision, h⟩
  have hnew := mapError_eq_ok.mp hrevision
  have hchecked := validatePrivateRevisionRequest_eq_ok hvalid
  have hparents : revision.parents = request.parentRevisionIds := by
    rw [(Revision.new_eq_ok hnew).2.1, hchecked.1]
  refine ⟨authority, author, revision, blobs, hauthority,
    hashedRevision_of hauthority hauthor hnew, hparents, hchecked.2, ?_⟩
  split at h
  · rcases bind_eq_ok.mp h with ⟨_, _, h⟩
    cases h
    exact .inl rfl
  · rename_i hnone
    exact .inr ⟨hnone, h⟩

theorem preparePrivateSkillImport_eq_ok {newResourceId : Uuid}
    {request : PrivateSkillImportRequest}
    {answer : PrivateSkillImportPrepareResponse}
    (h : registry.preparePrivateSkillImport newResourceId fresh userId request
      db = .ok (answer, db')) :
    exists revision,
      hashedRevision db.directory userId request.revisionAuthorPrincipalId
        request.manifest.rootTree (importParents request.fork)
        request.operationId = some revision ∧
      revision.parents = importParents request.fork ∧
      (db' = db ∨ exists row : ImportOperationRow,
        row.revisionId = revision.id registry.ext ∧
          row.fork = request.fork ∧
            db' = { db with
              importOperations := db.importOperations ++ [row] }) := by
  rcases bind_eq_ok.mp h with ⟨authority, hauthority, h⟩
  rcases bind_eq_ok.mp h with ⟨blobs, _, h⟩
  rcases bind_eq_ok.mp h with ⟨author, hauthor, h⟩
  rcases bind_eq_ok.mp h with ⟨revision, hrevision, h⟩
  rcases bind_eq_ok.mp h with ⟨target, _, h⟩
  have hnew := mapError_eq_ok.mp hrevision
  have hparents : revision.parents = importParents request.fork := by
    rw [(Revision.new_eq_ok hnew).2.1]
    unfold importParents
    cases request.fork with
    | none => exact sortByKey_eq_self List.Pairwise.nil
    | some fork => exact sortByKey_eq_self (List.pairwise_singleton _ _)
  refine ⟨revision, hashedRevision_of hauthority hauthor hnew, hparents, ?_⟩
  split at h
  · rcases bind_eq_ok.mp h with ⟨_, _, h⟩
    cases h
    exact .inl rfl
  · rcases bind_eq_ok.mp h with ⟨_, _, h⟩
    rcases bind_eq_ok.mp h with ⟨_, _, h⟩
    rcases bind_eq_ok.mp h with ⟨_, _, h⟩
    rcases bind_eq_ok.mp h with ⟨_, _, h⟩
    rcases bind_eq_ok.mp h with ⟨_, _, h⟩
    rcases bind_eq_ok.mp h with ⟨staging, _, h⟩
    cases h
    exact .inr ⟨_, rfl, rfl, rfl⟩

/-- A commit that goes on to write holds the operation it has read. -/
structure Verified (plan : PendingCommit registry.ext) (userId : Uuid)
    (request : CommitRequest) (db : Db) : Prop where
  authority : db.directory.userAuthority userId = .ok plan.authority
  requested : plan.request = request
  operation : db.findRevisionOperation plan.authority.userId
    request.operationId = some plan.operation
  requestHash : plan.operation.requestHash = request.requestHash
  parents : plan.parents = plan.operation.parents
  target : exists target,
    db.authorizeResourcePublish plan.authority plan.operation.resourceId =
        .ok target ∧ target.namespaceId = plan.operation.namespaceId

theorem readPrivateRevision_eq_ok {store : ObjectStore}
    {request : CommitRequest} {plan : PendingCommit registry.ext}
    (h : registry.readPrivateRevision store userId request db =
      .ok (.inr plan)) : Verified plan userId request db := by
  rcases bind_eq_ok.mp h with ⟨authority, hauthority, h⟩
  rcases bind_eq_ok.mp h with ⟨operation, hoperation, h⟩
  rcases bind_eq_ok.mp h with ⟨_, hhash, h⟩
  split at h
  · rcases bind_eq_ok.mp h with ⟨verified, hverified, h⟩
    cases h
    rcases bind_eq_ok.mp hverified with ⟨target, htarget, h⟩
    rcases bind_eq_ok.mp h with ⟨_, hspace, h⟩
    rcases bind_eq_ok.mp h with ⟨_, _, h⟩
    rcases bind_eq_ok.mp h with ⟨_, _, h⟩
    rcases bind_eq_ok.mp h with ⟨_, _, h⟩
    rcases bind_eq_ok.mp h with ⟨_, _, h⟩
    rcases bind_eq_ok.mp h with ⟨_, _, h⟩
    rcases bind_eq_ok.mp h with ⟨_, _, h⟩
    rcases bind_eq_ok.mp h with ⟨_, _, h⟩
    rcases bind_eq_ok.mp h with ⟨_, _, h⟩
    rcases bind_eq_ok.mp h with ⟨_, _, h⟩
    cases h
    have hname := beq_iff_eq.mp (ensure_eq_ok.mp hspace)
    exact ⟨hauthority, rfl, okOr_eq_ok.mp hoperation,
      beq_iff_eq.mp (ensure_eq_ok.mp hhash), rfl, target, htarget,
      hname.symm⟩
  · rcases bind_eq_ok.mp h with ⟨_, _, h⟩
    cases h

/-- An answer without a second transaction is the stored one. -/
theorem readPrivateRevision_replay {store : ObjectStore}
    {request : CommitRequest} {outcome : PrivateRevisionCommitResponse}
    (h : registry.readPrivateRevision store userId request db =
      .ok (.inl outcome)) :
    exists authority operation,
      db.directory.userAuthority userId = .ok authority ∧
      db.findRevisionOperation authority.userId request.operationId =
        some operation ∧
      operation.requestHash = request.requestHash ∧
      operation.state ≠ .prepared ∧ operation.outcome = some outcome := by
  rcases bind_eq_ok.mp h with ⟨authority, hauthority, h⟩
  rcases bind_eq_ok.mp h with ⟨operation, hoperation, h⟩
  rcases bind_eq_ok.mp h with ⟨_, hhash, h⟩
  split at h
  · rcases bind_eq_ok.mp h with ⟨_, _, h⟩
    cases h
  · rename_i hstate
    rcases bind_eq_ok.mp h with ⟨stored, hstored, h⟩
    cases h
    exact ⟨authority, operation, hauthority, okOr_eq_ok.mp hoperation,
      beq_iff_eq.mp (ensure_eq_ok.mp hhash), hstate, okOr_eq_ok.mp hstored⟩

/-- A second transaction answers what is stored, or writes a prepared save. -/
theorem writePrivateRevision_eq_ok {newConflictId : Uuid}
    {plan : PendingCommit registry.ext}
    {outcome : PrivateRevisionCommitResponse}
    (h : writePrivateRevision newConflictId plan db = .ok (outcome, db')) :
    exists locked workspace,
      db.workspace plan.operation.resourceId plan.authority.userId =
        some workspace ∧
      db.findRevisionOperation plan.authority.userId
        plan.request.operationId = some locked ∧
      locked.requestHash = plan.request.requestHash ∧
      (locked.state ≠ .prepared ∧ locked.outcome = some outcome ∧ db' = db ∨
        locked.state = .prepared ∧
          CommitWritten newConflictId plan workspace outcome db db') := by
  rcases bind_eq_ok.mp h with ⟨target, _, h⟩
  rcases bind_eq_ok.mp h with ⟨_, _, h⟩
  rcases bind_eq_ok.mp h with ⟨⟨resource, workspace⟩, hcurrent, h⟩
  rcases bind_eq_ok.mp h with ⟨_, _, h⟩
  rcases bind_eq_ok.mp h with ⟨locked, hlocked, h⟩
  rcases bind_eq_ok.mp h with ⟨_, hhash, h⟩
  rcases bind_eq_ok.mp hcurrent with ⟨_, _, hcurrent⟩
  rcases bind_eq_ok.mp hcurrent with ⟨_, hworkspace, hcurrent⟩
  cases hcurrent
  refine ⟨locked, workspace, okOr_eq_ok.mp hworkspace,
    okOr_eq_ok.mp hlocked, beq_iff_eq.mp (ensure_eq_ok.mp hhash), ?_⟩
  split at h
  · rename_i hstate
    exact .inr ⟨hstate, writePreparedRevision_eq_ok h⟩
  · rename_i hstate
    rcases bind_eq_ok.mp h with ⟨stored, hstored, h⟩
    cases h
    exact .inl ⟨hstate, okOr_eq_ok.mp hstored, rfl⟩

end Registry

/-!
## What a call can do
-/

/-- The answer of a commit is stored with its operation. -/
def Recorded (db : Db) (userId : Uuid) (request : CommitRequest)
    (outcome : PrivateRevisionCommitResponse) : Prop :=
  exists row, row ∈ db.revisionOperations ∧ row.userId = userId ∧
    row.operationId = request.operationId ∧
      row.requestHash = request.requestHash ∧ row.state ≠ .prepared ∧
        row.outcome = some outcome

section Steps

variable {registry : Registry} {event : SaveEvent}
  {server server' : Server registry}

/-- Every call answers without a change, goes on to verify a commit, or makes
one of the four writes. -/
inductive StepCase (server : Server registry) (event : SaveEvent)
    (server' : Server registry) : Prop where
  | quiet : server'.db = server.db ->
      (forall plan, plan ∈ server'.inFlight -> plan ∈ server.inFlight) ->
      (forall userId request outcome,
        event.2 = .committed userId request (.ok outcome) ->
          Recorded server.db userId request outcome) ->
        StepCase server event server'
  | verified (plan : PendingCommit registry.ext) (userId : Uuid)
      (request : CommitRequest) : event.2 = .verified ->
      server' = { server with inFlight := server.inFlight ++ [plan] } ->
      Registry.Verified plan userId request server.db ->
        StepCase server event server'
  | importPrepared (row : ImportOperationRow) (revision : Revision)
      (answer : PrivateSkillImportPrepareResponse) :
      event.2 = .importPrepared (.ok answer) ->
      event.revision server.db.directory = some revision ->
      revision.id registry.ext = row.revisionId ->
      revision.parents = Registry.importParents row.fork ->
      server' = { server with
        db := { server.db with
          importOperations := server.db.importOperations ++ [row] } } ->
        StepCase server event server'
  | imported (plan : PendingImport registry.ext)
      (answer : PrivateSkillImportResponse) :
      event.2 = .imported (.ok answer) ->
      plan.operation ∈ server.db.importOperations ->
      Registry.ImportWritten plan plan.operation.fork server.db server'.db ->
      server'.inFlight = server.inFlight ->
        StepCase server event server'
  | prepared (authority : UserAuthority) (request : PrivateRevisionRequest)
      (author : AuthorPrincipalId) (revision : Revision) (blobs : Blobs)
      (fresh : BlobId -> Uuid) (answer : PrivateRevisionPrepareResponse) :
      event.2 = .prepared (.ok answer) ->
      server.db.directory.userAuthority authority.userId = .ok authority ->
      event.revision server.db.directory = some revision ->
      revision.parents = request.parentRevisionIds ->
      request.expectedHeadRevisionId ∈ request.parentRevisionIds ->
      server.db.findRevisionOperation authority.userId request.operationId =
        none ->
      Registry.storePrivateRevision fresh authority request blobs author
        (revision.id registry.ext) server.db = .ok (answer, server'.db) ->
      server'.inFlight = server.inFlight ->
        StepCase server event server'
  | written (plan : PendingCommit registry.ext) (newConflictId : Uuid)
      (locked : RevisionOperationRow) (workspace : WorkspaceRow)
      (outcome : PrivateRevisionCommitResponse) :
      plan ∈ server.inFlight ->
      event.2 = .committed plan.authority.userId plan.request (.ok outcome) ->
      server.db.workspace plan.operation.resourceId plan.authority.userId =
        some workspace ->
      server.db.findRevisionOperation plan.authority.userId
        plan.request.operationId = some locked ->
      locked.requestHash = plan.request.requestHash ->
      locked.state = .prepared ->
      Registry.CommitWritten newConflictId plan workspace outcome server.db
        server'.db ->
      (forall other, other ∈ server'.inFlight -> other ∈ server.inFlight) ->
        StepCase server event server'

theorem findRevisionOperation_eq_some {db : Db} {userId : Uuid}
    {operationId : OperationId} {row : RevisionOperationRow}
    (h : db.findRevisionOperation userId operationId = some row) :
    row ∈ db.revisionOperations ∧ row.userId = userId ∧
      row.operationId = operationId := by
  refine ⟨List.mem_of_find?_eq_some h, ?_⟩
  simpa using List.find?_some h

theorem stepCase_prepareImport {newResourceId userId : Uuid}
    {fresh : BlobId -> Uuid} {request : PrivateSkillImportRequest}
    (hcall : event.1 = .prepareImport newResourceId fresh userId request)
    (hstep : Server.Step server event server') :
    StepCase server event server' := by
  rcases event with ⟨call, reply⟩
  cases hcall
  unfold Server.Step Server.save Server.answer at hstep
  dsimp only at hstep
  split at hstep
  · cases hstep
    exact .quiet rfl (fun _ hplan => hplan) (by simp)
  · rename_i answer db' hresult
    cases hstep
    rcases Registry.preparePrivateSkillImport_eq_ok hresult with
      ⟨revision, hhashed, hparents, rfl | ⟨row, hid, hfork, rfl⟩⟩
    · exact .quiet rfl (fun _ hplan => hplan) (by simp)
    · refine .importPrepared row revision answer rfl hhashed hid.symm ?_ rfl
      rw [hparents, hfork]

theorem stepCase_commitImport {store : ObjectStore} {userId : Uuid}
    {request : CommitRequest}
    (hcall : event.1 = .commitImport store userId request)
    (hstep : Server.Step server event server') :
    StepCase server event server' := by
  rcases event with ⟨call, reply⟩
  cases hcall
  unfold Server.Step Server.save Server.answer at hstep
  dsimp only at hstep
  split at hstep
  · cases hstep
    exact .quiet rfl (fun _ hplan => hplan) (by simp)
  · rename_i answer db' hresult
    cases hstep
    rcases Registry.commitPrivateSkillImport_eq_ok hresult with
      rfl | ⟨plan, _, hoperation, hw⟩
    · exact .quiet rfl (fun _ hplan => hplan) (by simp)
    · exact .imported plan answer rfl
        (List.mem_of_find?_eq_some hoperation) hw rfl

theorem stepCase_prepare {fresh : BlobId -> Uuid} {userId : Uuid}
    {request : PrivateRevisionRequest}
    (hcall : event.1 = .prepare fresh userId request)
    (hstep : Server.Step server event server') :
    StepCase server event server' := by
  rcases event with ⟨call, reply⟩
  cases hcall
  unfold Server.Step Server.save Server.answer at hstep
  dsimp only at hstep
  split at hstep
  · cases hstep
    exact .quiet rfl (fun _ hplan => hplan) (by simp)
  · rename_i answer db' hresult
    cases hstep
    rcases Registry.preparePrivateRevision_eq_ok hresult with
      ⟨authority, author, revision, blobs, hauthority, hhashed, hparents,
        hexpected, rfl | ⟨hnone, hstore⟩⟩
    · exact .quiet rfl (fun _ hplan => hplan) (by simp)
    · rcases Directory.userAuthority_eq_ok hauthority with ⟨_, _, _, hid, _⟩
      exact .prepared authority request author revision blobs fresh answer
        rfl (by rw [hid]; exact hauthority) hhashed hparents hexpected hnone
        hstore rfl

theorem stepCase_commit {store : ObjectStore} {userId : Uuid}
    {request : CommitRequest} (hcall : event.1 = .commit store userId request)
    (hstep : Server.Step server event server') :
    StepCase server event server' := by
  rcases event with ⟨call, reply⟩
  cases hcall
  unfold Server.Step Server.save at hstep
  dsimp only at hstep
  split at hstep
  · cases hstep
    exact .quiet rfl (fun _ hplan => hplan) (by simp)
  · rename_i stored hread
    cases hstep
    refine .quiet rfl (fun _ hplan => hplan) ?_
    intro user other outcome hanswer
    cases hanswer
    rcases Registry.readPrivateRevision_replay hread with
      ⟨authority, row, hauthority, hrow, hhash, hstate, houtcome⟩
    rcases findRevisionOperation_eq_some hrow with ⟨hmem, huser, hoperation⟩
    rcases Directory.userAuthority_eq_ok hauthority with ⟨_, _, _, hid, _⟩
    exact ⟨row, hmem, huser.trans hid, hoperation, hhash, hstate, houtcome⟩
  · rename_i plan hread
    cases hstep
    exact .verified plan userId request rfl rfl
      (Registry.readPrivateRevision_eq_ok hread)

theorem stepCase_write {index : Nat} {newConflictId : Uuid}
    (hcall : event.1 = .write index newConflictId)
    (hstep : Server.Step server event server') :
    StepCase server event server' := by
  rcases event with ⟨call, reply⟩
  cases hcall
  unfold Server.Step Server.save at hstep
  dsimp only at hstep
  split at hstep
  · cases hstep
    exact .quiet rfl (fun _ hplan => hplan) (by simp)
  · rename_i plan hplan
    have hrest : forall other,
        other ∈ server.inFlight.eraseIdx index -> other ∈ server.inFlight :=
      fun other hother => List.mem_of_mem_eraseIdx hother
    unfold Server.answer at hstep
    split at hstep
    · cases hstep
      exact .quiet rfl hrest (by simp)
    · rename_i outcome db' hresult
      cases hstep
      rcases Registry.writePrivateRevision_eq_ok hresult with
        ⟨locked, workspace, hworkspace, hlocked, hhash,
          ⟨hstate, houtcome, rfl⟩ | ⟨hstate, hw⟩⟩
      · refine .quiet rfl hrest ?_
        intro user other stored hanswer
        cases hanswer
        rcases findRevisionOperation_eq_some hlocked with
          ⟨hmem, huser, hoperation⟩
        exact ⟨locked, hmem, huser, hoperation, hhash, hstate, houtcome⟩
      · exact .written plan newConflictId locked workspace outcome
          (List.mem_of_getElem? hplan) rfl hworkspace hlocked hhash hstate hw
          hrest

theorem step_cases (hstep : Server.Step server event server') :
    StepCase server event server' := by
  cases hcall : event.1 with
  | prepareImport newResourceId fresh userId request =>
      exact stepCase_prepareImport hcall hstep
  | commitImport store userId request =>
      exact stepCase_commitImport hcall hstep
  | prepare fresh userId request =>
      exact stepCase_prepare hcall hstep
  | commit store userId request =>
      exact stepCase_commit hcall hstep
  | write index newConflictId =>
      exact stepCase_write hcall hstep

end Steps

end Denju
