import Denju.Registry.TeamRename
import Denju.Registry.Proposals
import Denju.Registry.SaveProtocol

/-!
# The service

Clients call the endpoints of the registry in any order.  A commit, a restore
and a rename first read, verify and store objects; their last transaction comes
later, and the calls of other clients fall in between.  The service keeps what
every such call has read.
-/

namespace Denju

open Lib

/-- A call between its transactions. -/
inductive Plan (ext : Externals) where
  | importing (plan : PendingImport ext)
  | save (plan : PendingCommit ext)
  | restore (plan : PendingRestore)
  | rename (plan : Registry.RenamePlan ext)

structure Service (registry : Registry) where
  db : Db
  plans : List (Plan registry.ext)

/-- A call of a client, or the last transaction of a call that has read.  The
values that the registry draws at random are part of the call. -/
inductive ServiceCall where
  | prepareImport (newResourceId : Uuid) (fresh : BlobId -> Uuid)
      (userId : Uuid) (request : PrivateSkillImportRequest)
  | commitImport (store : ObjectStore) (userId : Uuid)
      (request : CommitRequest)
  | prepare (fresh : BlobId -> Uuid) (userId : Uuid)
      (request : PrivateRevisionRequest)
  | commit (store : ObjectStore) (userId : Uuid) (request : CommitRequest)
  | publish (newConflictId userId : Uuid) (request : PublishSkillRequest)
  | restore (store : ObjectStore) (userId : Uuid)
      (request : RestoreSkillRequest)
  | rename (store : ObjectStore) (userId : Uuid)
      (request : RenameSkillRequest)
  | createProposal (proposalId userId : Uuid)
      (request : ProposalCreateRequest)
  | acceptProposal (userId : Uuid) (request : ProposalAcceptRequest)
  | write (index : Nat) (newConflictId : Uuid)

namespace Service

variable {registry : Registry}

/-- The database after a transaction.  A refused one is rolled back. -/
def settle {α : Type} (service : Service registry) :
    Except ApiError (α × Db) -> Service registry
  | .error _ => service
  | .ok (_, db) => { service with db }

/-- Keep what a call has read, unless it is already answered. -/
def await {α β : Type} (service : Service registry)
    (plan : β -> Plan registry.ext) :
    Except ApiError (α ⊕ β) -> Service registry
  | .ok (.inr read) => { service with plans := service.plans ++ [plan read] }
  | _ => service

/-- The last transaction of a call. -/
def writePlan (service : Service registry) (newConflictId : Uuid) :
    Plan registry.ext -> Service registry
  | .importing plan =>
      service.settle (Registry.writePrivateSkillImport plan service.db)
  | .save plan =>
      service.settle
        (Registry.writePrivateRevision newConflictId plan service.db)
  | .restore plan => service.settle (registry.writeRestore plan service.db)
  | .rename plan => service.settle (registry.writeRename plan service.db)

/-- The last transaction of one of the calls that have read. -/
def writeAt (service : Service registry) (index : Nat)
    (newConflictId : Uuid) : Service registry :=
  match service.plans[index]? with
  | none => service
  | some plan =>
      writePlan { service with plans := service.plans.eraseIdx index }
        newConflictId plan

def serve (service : Service registry) : ServiceCall -> Service registry
  | .prepareImport newResourceId fresh userId request =>
      service.settle (registry.preparePrivateSkillImport newResourceId fresh
        userId request service.db)
  | .commitImport store userId request =>
      service.await .importing
        (registry.readPrivateSkillImport store userId request service.db)
  | .prepare fresh userId request =>
      service.settle
        (registry.preparePrivateRevision fresh userId request service.db)
  | .commit store userId request =>
      service.await .save
        (registry.readPrivateRevision store userId request service.db)
  | .publish newConflictId userId request =>
      service.settle
        (registry.publishSkill newConflictId userId request service.db)
  | .restore store userId request =>
      service.await .restore
        (registry.readRestore store userId request service.db)
  | .rename store userId request =>
      service.await .rename
        (registry.readRename store userId request service.db)
  | .createProposal proposalId userId request =>
      service.settle
        (registry.createProposal proposalId userId request service.db)
  | .acceptProposal userId request =>
      service.settle (registry.acceptProposal userId request service.db)
  | .write index newConflictId => service.writeAt index newConflictId

/-- The service after a list of calls. -/
def play (service : Service registry) (calls : List ServiceCall) :
    Service registry :=
  calls.foldl serve service

variable (registry) in
/-- A registry with its users and nothing else. -/
def empty (directory : Directory) : Service registry where
  db := { directory }
  plans := []

/-- One call, allowed by a condition on the state before it. -/
def Step (allows : Service registry -> ServiceCall -> Prop)
    (service : Service registry) (call : ServiceCall)
    (service' : Service registry) : Prop :=
  allows service call ∧ service' = service.serve call

/-!
## What a call does to the service
-/

section Serve

variable {service : Service registry} {P : Service registry -> Prop}

/-- A property of a settled transaction holds if it holds of both ends. -/
theorem settle_of {α : Type} {result : Except ApiError (α × Db)}
    (hstart : P service)
    (hok : forall value db, result = .ok (value, db) ->
      P { service with db }) : P (service.settle result) := by
  unfold settle
  split
  · exact hstart
  · exact hok _ _ rfl

theorem await_of {α β : Type} {plan : β -> Plan registry.ext}
    {result : Except ApiError (α ⊕ β)} (hstart : P service)
    (hok : forall read, result = .ok (.inr read) ->
      P { service with plans := service.plans ++ [plan read] }) :
    P (service.await plan result) := by
  unfold await
  split
  · exact hok _ rfl
  · exact hstart

theorem writeAt_of {index : Nat} {newConflictId : Uuid} (hstart : P service)
    (hok : forall plan, service.plans[index]? = some plan ->
      P (writePlan { service with plans := service.plans.eraseIdx index }
        newConflictId plan)) : P (service.writeAt index newConflictId) := by
  unfold writeAt
  split
  · exact hstart
  · exact hok _ ‹_›

/-- Every call of a list is allowed where it is made. -/
def AllowsAll (allows : Service registry -> ServiceCall -> Prop) :
    Service registry -> List ServiceCall -> Prop
  | _, [] => True
  | service, call :: rest =>
      allows service call ∧ AllowsAll allows (service.serve call) rest

instance decidableAllowsAll (allows : Service registry -> ServiceCall -> Prop)
    [forall service call, Decidable (allows service call)] :
    forall service calls, Decidable (AllowsAll allows service calls)
  | _, [] => .isTrue trivial
  | service, call :: rest =>
      have := decidableAllowsAll allows (service.serve call) rest
      inferInstanceAs (Decidable (_ ∧ _))

theorem run_play {allows : Service registry -> ServiceCall -> Prop}
    {init service : Service registry} {past : List ServiceCall}
    (hrun : Run (Step allows) init past service) {calls : List ServiceCall}
    (hallows : AllowsAll allows service calls) :
    Run (Step allows) init (past ++ calls) (service.play calls) := by
  induction calls generalizing past service with
  | nil =>
      rw [List.append_nil]
      exact hrun
  | cons call rest ih =>
      have hplayed := ih (hrun.snoc ⟨hallows.1, rfl⟩) hallows.2
      rw [List.append_assoc] at hplayed
      exact hplayed

end Serve
/-!
## The directory

No call changes the users, the namespaces and the teams.
-/

section Directory

variable {service : Service registry} {db db' : Db} {userId : Uuid}

theorem ensured_directory {resourceId user : Uuid} {start : Db}
    (hstart : start = db ∨
      start = db.ensurePrivateWorkspaceForUser resourceId user) :
    start.directory = db.directory := by
  rcases hstart with rfl | rfl
  · rfl
  · unfold Db.ensurePrivateWorkspaceForUser
    repeat' split
    all_goals rfl

theorem preparePrivateRevision_directory {fresh : BlobId -> Uuid}
    {request : PrivateRevisionRequest}
    {answer : PrivateRevisionPrepareResponse}
    (h : registry.preparePrivateRevision fresh userId request db =
      .ok (answer, db')) : db'.directory = db.directory := by
  rcases Registry.preparePrivateRevision_eq_ok h with
    ⟨_, _, _, _, _, _, _, _, rfl | ⟨_, hstore⟩⟩
  · rfl
  · rcases Registry.storePrivateRevision_eq_ok hstore with
      ⟨_, start, _, _, _, _, hstart, _, _, rfl⟩
    have hsame := ensured_directory hstart
    exact hsame

theorem publishSkill_directory {newConflictId : Uuid}
    {request : PublishSkillRequest}
    {answer : Except ApiError PublishSkillResponse}
    (h : registry.publishSkill newConflictId userId request db =
      .ok (answer, db')) : db'.directory = db.directory := by
  rcases Registry.publishSkill_eq_ok h with rfl | ⟨_, _, _, hw⟩
  · rfl
  · cases hw with
    | kept hdb' => rw [hdb']
    | madePublic _ _ _ hdb' =>
        rw [hdb']
        rfl
    | released _ _ _ _ _ _ hdb' =>
        rw [hdb']
        rfl
    | raised _ _ _ _ hdb' _ => rw [hdb']

theorem acceptProposal_directory {request : ProposalAcceptRequest}
    {outcome : SkillProposal}
    (h : registry.acceptProposal userId request db = .ok (outcome, db')) :
    db'.directory = db.directory := by
  rcases Registry.acceptProposal_eq_ok h with
    rfl | ⟨_, _, _, start, _, _, _, _, _, hstart, _, hw⟩
  · rfl
  · rcases hw.tables with ⟨_, _, _, _, _, _, _, _, hattached, hdb'⟩
    rcases Registry.attachProposalRevision_frame hattached with
      ⟨_, _, _, _, hframe⟩
    have hsame := ensured_directory hstart
    rw [hdb', hframe]
    exact hsame

theorem writeRestore_directory {plan : PendingRestore}
    {outcome : PrivateRevisionResponse}
    (h : registry.writeRestore plan db = .ok (outcome, db')) :
    db'.directory = db.directory := by
  rcases Registry.writeRestore_eq_ok h with
    ⟨_, start, _, _, _, _, hstart, _, hw⟩
  rcases hw.tables with ⟨_, _, _, _, _, _, hstored, hdb'⟩
  rcases Registry.storeRestored_frame hstored with ⟨_, _, _, _, _, hframe⟩
  have hsame := ensured_directory hstart
  rw [hdb', hframe]
  exact hsame

theorem writeRename_directory {plan : Registry.RenamePlan registry.ext}
    {outcome : RenameSkillResponse}
    (h : registry.writeRename plan db = .ok (outcome, db')) :
    db'.directory = db.directory := by
  cases plan with
  | personal plan =>
      rcases Registry.writePersonalRename_eq_ok h with ⟨_, _, hw⟩
      rcases hw.tables with ⟨_, _, _, _, _, _, _, hstored, _, _, _, hdb'⟩
      rcases Registry.storeRenamed_frame hstored with
        ⟨_, _, _, _, _, _, _, _, _, hframe⟩
      rw [hdb', hframe]
      rfl
  | team plan =>
      rcases Registry.writeTeamRename_eq_ok h with ⟨_, hw⟩
      rcases hw.tables with
        ⟨_, _, _, _, _, _, _, _, _, hstored, hmoved, _, _, _, hdb'⟩
      rcases Registry.persistContents_frame hstored with
        ⟨_, _, _, _, _, _, _, _, _, _, hstoredFrame⟩
      rcases Registry.moveTeamWorkspaces_frame hmoved with
        ⟨_, hmovedFrame, _⟩
      dsimp only at hstoredFrame
      rw [hdb', hmovedFrame, hstoredFrame]
      rfl

theorem writePlan_directory (newConflictId : Uuid)
    (plan : Plan registry.ext) :
    (service.writePlan newConflictId plan).db.directory =
      service.db.directory := by
  cases plan with
  | importing plan =>
      refine settle_of (P := fun next =>
        next.db.directory = service.db.directory) rfl ?_
      intro outcome db h
      rcases Registry.writePrivateSkillImport_eq_ok h with rfl | ⟨_, _, hw⟩
      · rfl
      · exact hw.savesOnly.directory
  | save plan =>
      refine settle_of (P := fun next =>
        next.db.directory = service.db.directory) rfl ?_
      intro outcome db h
      rcases Registry.writePrivateRevision_eq_ok h with
        ⟨_, _, _, _, _, ⟨_, _, rfl⟩ | ⟨_, hw⟩⟩
      · rfl
      · exact hw.savesOnly.directory
  | restore plan =>
      exact settle_of (P := fun next =>
        next.db.directory = service.db.directory) rfl
        fun _ _ => writeRestore_directory
  | rename plan =>
      exact settle_of (P := fun next =>
        next.db.directory = service.db.directory) rfl
        fun _ _ => writeRename_directory

theorem serve_directory (call : ServiceCall) :
    (service.serve call).db.directory = service.db.directory := by
  have hsettle : forall {α : Type} {result : Except ApiError (α × Db)},
      (forall value db, result = .ok (value, db) ->
        db.directory = service.db.directory) ->
      (service.settle result).db.directory = service.db.directory :=
    fun hok => settle_of (P := fun next =>
      next.db.directory = service.db.directory) rfl hok
  have hawait : forall {α β : Type} {plan : β -> Plan registry.ext}
      {result : Except ApiError (α ⊕ β)},
      (service.await plan result).db.directory = service.db.directory :=
    await_of (P := fun next =>
      next.db.directory = service.db.directory) rfl fun _ _ => rfl
  cases call with
  | prepareImport =>
      refine hsettle fun _ _ h => ?_
      rcases Registry.preparePrivateSkillImport_eq_ok h with
        ⟨_, _, _, rfl | ⟨_, _, _, rfl⟩⟩
      · rfl
      · rfl
  | commitImport => exact hawait
  | prepare => exact hsettle fun _ _ => preparePrivateRevision_directory
  | commit => exact hawait
  | publish => exact hsettle fun _ _ => publishSkill_directory
  | restore => exact hawait
  | rename => exact hawait
  | createProposal =>
      refine hsettle fun _ _ h => ?_
      rcases Registry.createProposal_eq_ok h with rfl | ⟨_, _, rfl, _⟩
      · rfl
      · rfl
  | acceptProposal => exact hsettle fun _ _ => acceptProposal_directory
  | write index newConflictId =>
      refine writeAt_of (P := fun next =>
        next.db.directory = service.db.directory) rfl ?_
      intro plan _
      exact writePlan_directory newConflictId plan

end Directory
end Service
end Denju
