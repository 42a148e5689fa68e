import Denju.Registry.Conflicts
import Denju.Registry.Service
import Denju.Registry.SaveRuns

/-!
# Runs with conflicts

A restore, a personal rename and the acceptance of a proposal move a head
without a look at its conflict.  As long as they spare the workspaces with an
unresolved conflict, every conflict can be merged.
-/

namespace Denju

open Lib

namespace Service

variable {registry : Registry}

/-- No unresolved conflict stands in the way of the write. -/
def SparesPlan (db : Db) : Plan registry.ext -> Prop
  | .restore plan =>
      db.activeConflict plan.request.resourceId plan.authority.userId = none
  | .rename (.personal plan) =>
      db.activeConflict plan.request.resourceId plan.authority.userId = none
  | _ => True

/-- A call does not move the head of an unresolved conflict. -/
def SparesConflicts (service : Service registry) : ServiceCall -> Prop
  | .write index _ =>
      forall plan, plan ∈ service.plans[index]? ->
        SparesPlan service.db plan
  | .acceptProposal userId request =>
      forall proposal, proposal ∈ service.db.proposals ->
        proposal.id = request.proposalId ->
          service.db.activeConflict proposal.targetResourceId userId = none
  | _ => True

instance decidableSparesPlan (db : Db) :
    forall plan : Plan registry.ext, Decidable (SparesPlan db plan)
  | .importing _ => .isTrue trivial
  | .save _ => .isTrue trivial
  | .restore _ => inferInstanceAs (Decidable (_ = none))
  | .rename (.personal _) => inferInstanceAs (Decidable (_ = none))
  | .rename (.team _) => .isTrue trivial

instance decidableSparesConflicts (service : Service registry) :
    forall call, Decidable (service.SparesConflicts call)
  | .write _ _ => inferInstanceAs (Decidable (forall _, _ -> _))
  | .acceptProposal _ _ =>
      inferInstanceAs (Decidable (forall _, _ -> _ -> _))
  | .prepareImport .. => .isTrue trivial
  | .commitImport .. => .isTrue trivial
  | .prepare .. => .isTrue trivial
  | .commit .. => .isTrue trivial
  | .publish .. => .isTrue trivial
  | .restore .. => .isTrue trivial
  | .rename .. => .isTrue trivial
  | .createProposal .. => .isTrue trivial

/-- A save in flight acts for a user of the directory. -/
def PlanAuthorized (directory : Directory) : Plan registry.ext -> Prop
  | .save plan =>
      directory.userAuthority plan.authority.userId = .ok plan.authority
  | _ => True

/-- What every call that spares conflicts keeps. -/
structure ConflictInvariant (directory : Directory)
    (service : Service registry) : Prop where
  users : service.db.directory = directory
  conflicts : service.db.ConflictsSound
  plans : forall plan, plan ∈ service.plans -> PlanAuthorized directory plan

section Steps

variable {directory : Directory} {service service' : Service registry}

theorem ConflictInvariant.settle {α : Type}
    {result : Except ApiError (α × Db)}
    (h : ConflictInvariant directory service)
    (hok : forall value db, result = .ok (value, db) -> db.ConflictsSound) :
    (service.settle result).db.ConflictsSound ∧
      (forall plan, plan ∈ (service.settle result).plans ->
        PlanAuthorized directory plan) := by
  refine settle_of (P := fun next => next.db.ConflictsSound ∧
    (forall plan, plan ∈ next.plans -> PlanAuthorized directory plan))
    ⟨h.conflicts, h.plans⟩ ?_
  intro value db hresult
  exact ⟨hok value db hresult, h.plans⟩

theorem ConflictInvariant.await {α β : Type} {plan : β -> Plan registry.ext}
    {result : Except ApiError (α ⊕ β)}
    (h : ConflictInvariant directory service)
    (hok : forall read, result = .ok (.inr read) ->
      PlanAuthorized directory (plan read)) :
    (service.await plan result).db.ConflictsSound ∧
      (forall other, other ∈ (service.await plan result).plans ->
        PlanAuthorized directory other) := by
  refine await_of (P := fun next => next.db.ConflictsSound ∧
    (forall plan, plan ∈ next.plans -> PlanAuthorized directory plan))
    ⟨h.conflicts, h.plans⟩ ?_
  intro read hread
  refine ⟨h.conflicts, ?_⟩
  intro other hother
  rcases List.mem_append.mp hother with hold | hnew
  · exact h.plans other hold
  · rw [List.mem_singleton.mp hnew]
    exact hok read hread

theorem ConflictInvariant.writePlan (h : ConflictInvariant directory service)
    (newConflictId : Uuid) {plan : Plan registry.ext}
    (hplan : PlanAuthorized directory plan)
    (hspares : SparesPlan service.db plan) :
    (service.writePlan newConflictId plan).db.ConflictsSound ∧
      (forall other, other ∈ (service.writePlan newConflictId plan).plans ->
        PlanAuthorized directory other) := by
  cases plan with
  | importing plan =>
      exact h.settle fun _ _ => conflictsSound_import h.conflicts
  | save plan =>
      have hauthority : service.db.directory.userAuthority
          plan.authority.userId = .ok plan.authority := by
        rw [h.users]
        exact hplan
      exact h.settle fun _ _ => conflictsSound_commit h.conflicts hauthority
  | restore plan =>
      exact h.settle fun _ _ => conflictsSound_restore h.conflicts hspares
  | rename plan =>
      cases plan with
      | personal plan =>
          exact h.settle fun _ _ =>
            conflictsSound_personalRename h.conflicts hspares
      | team plan =>
          exact h.settle fun _ _ => conflictsSound_teamRename h.conflicts

theorem readPrivateRevision_authorized {store : ObjectStore} {userId : Uuid}
    {request : CommitRequest} {plan : PendingCommit registry.ext}
    (h : registry.readPrivateRevision store userId request service.db =
      .ok (.inr plan)) :
    service.db.directory.userAuthority plan.authority.userId =
      .ok plan.authority := by
  have hauthority := (Registry.readPrivateRevision_eq_ok h).authority
  rcases Directory.userAuthority_eq_ok hauthority with ⟨_, _, _, huser, _⟩
  rw [huser]
  exact hauthority

theorem ConflictInvariant.serve (h : ConflictInvariant directory service)
    {call : ServiceCall} (hspares : service.SparesConflicts call) :
    ConflictInvariant directory (service.serve call) := by
  suffices hkept : (service.serve call).db.ConflictsSound ∧
      (forall plan, plan ∈ (service.serve call).plans ->
        PlanAuthorized directory plan) from
    ⟨(serve_directory call).trans h.users, hkept.1, hkept.2⟩
  cases call with
  | prepareImport =>
      exact h.settle fun _ _ => conflictsSound_prepareImport h.conflicts
  | commitImport => exact h.await fun _ _ => trivial
  | prepare => exact h.settle fun _ _ => conflictsSound_prepare h.conflicts
  | commit =>
      refine h.await fun read hread => ?_
      have hauthority := readPrivateRevision_authorized hread
      rw [h.users] at hauthority
      exact hauthority
  | publish => exact h.settle fun _ _ => conflictsSound_publish h.conflicts
  | restore => exact h.await fun _ _ => trivial
  | rename => exact h.await fun _ _ => trivial
  | createProposal =>
      exact h.settle fun _ _ => conflictsSound_createProposal h.conflicts
  | acceptProposal =>
      exact h.settle fun _ _ => conflictsSound_accept h.conflicts hspares
  | write index newConflictId =>
      refine writeAt_of (P := fun next => next.db.ConflictsSound ∧
        (forall plan, plan ∈ next.plans -> PlanAuthorized directory plan))
        ⟨h.conflicts, h.plans⟩ ?_
      intro plan hplan
      have hrest : ConflictInvariant directory
          { service with plans := service.plans.eraseIdx index } :=
        ⟨h.users, h.conflicts, fun other hother =>
          h.plans other (List.mem_of_mem_eraseIdx hother)⟩
      exact hrest.writePlan newConflictId
        (h.plans plan (List.mem_of_getElem? hplan)) (hspares plan hplan)

theorem ConflictInvariant.empty (directory : Directory) :
    ConflictInvariant directory (Service.empty registry directory) where
  users := rfl
  conflicts := Db.ConflictsSound.empty directory
  plans := by
    intro plan hplan
    cases hplan

end Steps

/-!
## Every conflict can be merged
-/

/-- The head of every unresolved conflict is one of its two heads, and a merge
of them is refused only if its identifier is recorded with another request. -/
theorem conflicts_mergeable (registry : Registry) (directory : Directory)
    (calls : List ServiceCall) (service : Service registry)
    (hrun : Run (Step SparesConflicts) (Service.empty registry directory)
      calls service)
    (row : WorkspaceConflictRow) (hrow : row ∈ service.db.conflicts)
    (hopen : row.resolutionRevisionId = none) :
    exists workspace,
      service.db.workspace row.resourceId row.workspaceUserId =
          some workspace ∧
        (workspace.revisionId = row.headARevisionId ∨
          workspace.revisionId = row.headBRevisionId) ∧
        forall (fresh : BlobId -> Uuid) (request : PrivateRevisionRequest),
          IsMerge request row workspace ->
          WellFormedSave registry service.db.directory row.workspaceUserId
            request ->
          ((exists answer db', registry.preparePrivateRevision fresh
              row.workspaceUserId request service.db = .ok (answer, db')) <->
            forall existing, service.db.findRevisionOperation
                row.workspaceUserId request.operationId = some existing ->
              existing.requestHash = request.requestHash) := by
  have h : ConflictInvariant directory service := by
    refine Run.invariant (ConflictInvariant.empty directory) ?_ hrun
    rintro s call t hs ⟨hspares, rfl⟩
    exact hs.serve hspares
  rcases (h.conflicts.sound row hrow hopen).head with
    ⟨workspace, hworkspace, hhead⟩
  refine ⟨workspace, hworkspace, hhead, ?_⟩
  intro fresh request hmerge hvalid
  exact prepare_merge_iff h.conflicts hrow hopen hworkspace hmerge hvalid fresh

end Service

/-!
## A restore over a conflict

Two devices save from the same head, and the second save diverges.  As long as
nothing else moves the head, the conflict can be merged.  After a restore of the
first revision the head has left the two heads of the conflict, and no merge can
be prepared any more.
-/

namespace Sample

def restored : RevisionId :=
  ⟨digestOfNat
    0x48671173e78ced3306fc9eab5978708346aeb79b87495674a01bd1b42453d69e⟩

def restoreHashes : List (Uuid × RequestHash) :=
  [ (uuid 8, digestOfNat
      0x69c5ac10c0f7c65d1cae243ed73df0002431e35c7c6ff77955b9c586f23cb116),
    (uuid 10, digestOfNat
      0xc4daebc24a84fbcceceafdba32eb3288cb548c440833f536a3302319a342be61) ]

def restoring : Registry :=
  registryOf
    ((revisionTranscript [savedFirst] 10, restored.bytes) :: saveDigests)
    (restoreHashes ++ saveHashes)

/-- Two saves from the same head; the second one diverges. -/
def divergingCalls : List ServiceCall :=
  [ .prepareImport (uuid 4) (fun _ => uuid 9) amy.id importRequest,
    .commitImport store amy.id (commitOf 5), .write 0 (uuid 8),
    .prepare (fun _ => uuid 9) amy.id (saveRequest 6 1 imported [imported]),
    .prepare (fun _ => uuid 9) amy.id (saveRequest 7 1 imported [imported]),
    .commit store amy.id (commitOf 6), .commit store amy.id (commitOf 7),
    .write 0 (uuid 8), .write 0 (uuid 8) ]

def restoreRequest : RestoreSkillRequest where
  operationId := operationId 10
  resourceId := uuid 4
  expectedGeneration := 2
  targetRevisionId := imported
  requestHash := digestOfNat
    0xc4daebc24a84fbcceceafdba32eb3288cb548c440833f536a3302319a342be61

def restoreCalls : List ServiceCall :=
  divergingCalls ++
    [.restore store amy.id restoreRequest, .write 0 (uuid 8)]

def diverged : Service registry :=
  (Service.empty registry directory).play divergingCalls

def overwritten : Service restoring :=
  (Service.empty restoring directory).play restoreCalls

/-- The conflict of the two saves. -/
def openConflict : WorkspaceConflictRow where
  conflictId := uuid 8
  resourceId := uuid 4
  workspaceUserId := amy.id
  baseRevisionId := imported
  headARevisionId := savedSecond
  headBRevisionId := savedFirst
  activeRevisionId := savedFirst
  detectedGeneration := secondGeneration
  resolutionRevisionId := none

def divergedMerge : PrivateRevisionRequest :=
  saveRequest 8 2 savedFirst [savedSecond, savedFirst]

/-- The merge of both heads on top of the restored revision. -/
def overwrittenMerge : PrivateRevisionRequest :=
  { saveRequest 8 3 restored [savedSecond, savedFirst] with
    requestHash := digestOfNat
      0x69c5ac10c0f7c65d1cae243ed73df0002431e35c7c6ff77955b9c586f23cb116 }

theorem wellFormedSave_of {registry : Registry}
    {request : PrivateRevisionRequest}
    (hhash : registry.hashes.privateRevision
      request.toPrivateRevisionRequestHashInput = .ok request.requestHash)
    (hmanifest : (validateDeclaredSkillManifest registry.ext
      request.manifest).isOk = true)
    (hblobs : manifestBlobs request.manifest = .ok [(⟨skillMdDigest⟩, 31)])
    (hlimit : 31 ≤ registry.limits.maxObjectBytes)
    (hauthor : request.revisionAuthorPrincipalId = none) :
    WellFormedSave registry directory amy.id request where
  hash := hhash
  manifest := by
    cases hresult : validateDeclaredSkillManifest registry.ext
        request.manifest with
    | error error =>
        rw [hresult] at hmanifest
        cases hmanifest
    | ok trees => exact ⟨trees, rfl⟩
  blobs := by
    refine ⟨_, hblobs, ?_⟩
    intro blob hblob
    rw [List.mem_singleton.mp hblob]
    exact ⟨hlimit, by decide⟩
  author := by
    refine ⟨⟨amy.id, amy.namespaceId, "amy".toList, amy.authorPrincipalId⟩,
      amy.authorPrincipalId, by decide +kernel, ?_⟩
    rw [hauthor]
    rfl

theorem isMerge_of {request : PrivateRevisionRequest}
    {workspace : WorkspaceRow} {head : RevisionId} {generation : Nat}
    (hworkspace : workspace.revisionId = head ∧
      workspace.generation.value = generation)
    (hrequest : request.operationId.asUuid = openConflict.conflictId ∧
      request.resourceId = openConflict.resourceId ∧
      request.parentRevisionIds =
        [openConflict.headARevisionId, openConflict.headBRevisionId] ∧
      request.expectedHeadRevisionId = head ∧
      request.expectedGeneration.toNat = generation ∧
      request.forkSync = none ∧ request.historicalSkillName = none) :
    IsMerge request openConflict workspace := by
  rcases hrequest with
    ⟨hoperation, hresource, hparents, hhead, hgeneration, hplain⟩
  exact ⟨hoperation, hresource, hparents, hhead.trans hworkspace.1.symm,
    hgeneration.trans hworkspace.2.symm, hplain⟩

end Sample

theorem Service.conflicts_mergeable_diverged :
    Sample.diverged.db.conflicts = [Sample.openConflict] ∧
      exists answer db', Sample.registry.preparePrivateRevision
        (fun _ => Sample.uuid 9) Sample.amy.id Sample.divergedMerge
        Sample.diverged.db = .ok (answer, db') := by
  have hconflicts : Sample.diverged.db.conflicts = [Sample.openConflict] := by
    decide +kernel
  refine ⟨hconflicts, ?_⟩
  have hrun : Run (Step SparesConflicts)
      (Service.empty Sample.registry Sample.directory) Sample.divergingCalls
      Sample.diverged :=
    run_play .nil (by decide +kernel)
  rcases conflicts_mergeable Sample.registry Sample.directory
    Sample.divergingCalls Sample.diverged hrun Sample.openConflict
    (by rw [hconflicts]; exact List.mem_singleton.mpr rfl) rfl with
    ⟨workspace, hworkspace, _, hmergeable⟩
  have hhead : (Sample.diverged.db.workspace (Sample.uuid 4)
      Sample.amy.id).map (fun row => (row.revisionId, row.generation.value)) =
        some (Sample.savedFirst, 2) := by
    decide +kernel
  have hfound : Sample.diverged.db.workspace (Sample.uuid 4) Sample.amy.id =
      some workspace := hworkspace
  rw [hfound] at hhead
  have hrow := Prod.mk.inj (Option.some.inj hhead)
  refine (hmergeable (fun _ => Sample.uuid 9) Sample.divergedMerge
    (Sample.isMerge_of hrow (by decide +kernel)) ?_).mpr ?_
  · have husers : Sample.diverged.db.directory = Sample.directory := by
      refine Run.invariant (P := fun service =>
        service.db.directory = Sample.directory) rfl ?_ hrun
      rintro s call t hs ⟨_, rfl⟩
      exact (serve_directory call).trans hs
    rw [husers]
    exact Sample.wellFormedSave_of (by decide +kernel) (by decide +kernel)
      (by decide +kernel) (by decide) rfl
  · have hnone : Sample.diverged.db.findRevisionOperation Sample.amy.id
        Sample.divergedMerge.operationId = none := by
      decide +kernel
    intro existing hexisting
    have hrecorded : Sample.diverged.db.findRevisionOperation Sample.amy.id
        Sample.divergedMerge.operationId = some existing := hexisting
    rw [hnone] at hrecorded
    cases hrecorded

/-- A restore moves the head away from an unresolved conflict.  The merge of
the two heads on top of the new head is then refused. -/
theorem Service.restore_locks_conflict :
    Run (Step fun _ _ => True)
        (Service.empty Sample.restoring Sample.directory) Sample.restoreCalls
        Sample.overwritten ∧
      Sample.openConflict ∈ Sample.overwritten.db.conflicts ∧
      Sample.openConflict.resolutionRevisionId = none ∧
      exists workspace,
        Sample.overwritten.db.workspace Sample.openConflict.resourceId
            Sample.openConflict.workspaceUserId = some workspace ∧
          workspace.revisionId ≠ Sample.openConflict.headARevisionId ∧
          workspace.revisionId ≠ Sample.openConflict.headBRevisionId ∧
          IsMerge Sample.overwrittenMerge Sample.openConflict workspace ∧
          WellFormedSave Sample.restoring Sample.directory
            Sample.openConflict.workspaceUserId Sample.overwrittenMerge ∧
          forall fresh answer db', Sample.restoring.preparePrivateRevision
              fresh Sample.openConflict.workspaceUserId
              Sample.overwrittenMerge Sample.overwritten.db ≠
            .ok (answer, db') := by
  refine ⟨run_play .nil (by decide +kernel), by decide +kernel, rfl, ?_⟩
  have hhead : (Sample.overwritten.db.workspace
      Sample.openConflict.resourceId
      Sample.openConflict.workspaceUserId).map
        (fun row => (row.revisionId, row.generation.value)) =
          some (Sample.restored, 3) := by
    decide +kernel
  rcases Option.map_eq_some_iff.mp hhead with ⟨workspace, hworkspace, hrow⟩
  have hrow := Prod.mk.inj hrow
  refine ⟨workspace, hworkspace, ?_, ?_,
    Sample.isMerge_of hrow (by decide +kernel),
    Sample.wellFormedSave_of (by decide +kernel) (by decide +kernel)
      (by decide +kernel) (by decide) rfl, ?_⟩
  · rw [hrow.1]
    decide +kernel
  · rw [hrow.1]
    decide +kernel
  · intro fresh answer db' hprepare
    rcases Registry.preparePrivateRevision_eq_ok hprepare with
      ⟨_, _, _, _, _, _, _, hmember, _⟩
    have habsent : Sample.overwrittenMerge.expectedHeadRevisionId ∉
        Sample.overwrittenMerge.parentRevisionIds := by
      decide +kernel
    exact habsent hmember

end Denju
