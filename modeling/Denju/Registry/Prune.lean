import Denju.Registry.Lifecycle

/-!
# Pruning the history of a skill

The owner of a personal skill drops the revisions that nothing needs any more:
neither a workspace, a release, a conflict or a proposal, nor a version of a
pack.  Every statement sees the rows that its user may read.  Blobs that become
unreachable are marked, and a worker collects them later.
-/

namespace Denju

open Lib

namespace Db

/-!
## The revisions to drop
-/

def conflictNeeds (resourceId user : Uuid) (revision : RevisionId)
    (row : WorkspaceConflictRow) : Bool :=
  decide (row.resourceId = resourceId ∧ row.workspaceUserId = user) &&
    decide (row.baseRevisionId = revision ∨ row.headARevisionId = revision ∨
      row.headBRevisionId = revision ∨
        row.resolutionRevisionId = some revision)

def proposalVisible (db : Db) (user : Uuid) (row : ProposalRow) : Bool :=
  decide (row.proposerUserId = user) ||
    db.canManageResource user row.targetResourceId

/-- Something that the user may read still needs the revision. -/
def needed (db : Db) (user resourceId : Uuid) (revision : RevisionId) :
    Bool :=
  (db.releases.any fun row =>
    decide (row.resourceId = resourceId ∧ row.revisionId = revision) &&
      db.releaseVisible user row) ||
    db.conflicts.any (conflictNeeds resourceId user revision) ||
    (db.proposals.any fun row =>
      decide (row.sourceResourceId = resourceId ∧
        row.closed.map ClosedProposal.revisionId = some revision) &&
        db.proposalVisible user row) ||
    (db.packRevisionMembers.any fun row =>
      decide (row.skillResourceId = resourceId ∧
        row.resolvedRevisionId = revision) &&
        db.canReadResource user row.packResourceId)

/-- The snapshots of the skill, joined with its workspaces. -/
def prunableRevisions (db : Db) (user resourceId : Uuid) : List RevisionId :=
  (db.snapshots.filter fun row =>
    decide (row.resourceId = resourceId) &&
      db.snapshotVisible user row).flatMap fun row =>
    ((db.workspaces.filter fun workspace =>
      decide (workspace.resourceId = resourceId) &&
        db.canReadWorkspace user workspace &&
          workspace.revisionId != row.revisionId &&
            !db.needed user resourceId row.revisionId)).map
      fun _ => row.revisionId

/-- How many of the revisions reach each blob. -/
def pruneRefs (db : Db) (user : Uuid) (revisions : List RevisionId) :
    CountTable BlobId :=
  revisions.foldl
    (fun refs revision =>
      (db.revisionBlobs.filter fun row =>
        decide (row.revisionId = revision) &&
          db.canReadRevision user revision).foldl
        (fun refs row => refs.add row.blobId 1) refs)
    []

/-- The references that a prune drops, in the order of the blobs. -/
def prunedReferences (db : Db) (user resourceId : Uuid) : CountTable BlobId :=
  sortByKey (fun row => BlobId.key row.1)
    (db.pruneRefs user (db.prunableRevisions user resourceId))

/-!
## Dropping references and snapshots
-/

def dropReferences (db : Db) (resourceId namespaceId : Uuid) (blob : BlobId)
    (refs : Nat) : Db :=
  { db with
    resourceBlobs := db.resourceBlobs.drop (resourceId, blob) refs
    namespaceBlobs := db.namespaceBlobs.drop (namespaceId, blob) refs }

/-- A resource or a namespace of the user still reaches the blob. -/
def stillReachable (db : Db) (user : Uuid) (blob : BlobId) : Bool :=
  (db.resourceBlobs.any fun row =>
    decide (row.1.2 = blob) && db.canManageResource user row.1.1) ||
    db.namespaceBlobs.any fun row =>
      decide (row.1.2 = blob) &&
        db.directory.hasNamespaceAccess user row.1.1

def markBlobGc (db : Db) (blob : BlobId) : Db :=
  if blob ∈ db.canonicalBlobGc then db
  else { db with canonicalBlobGc := db.canonicalBlobGc ++ [blob] }

structure PruneTotals where
  reclaimedBytes : Nat
  gcCandidates : Nat

def reclaim (totals : PruneTotals) (namespaceRefs refs size : Nat) :
    Except ApiError PruneTotals :=
  if namespaceRefs ≤ refs then do
    ensure (totals.reclaimedBytes + size < 2 ^ 64)
      (ApiError.new .internal "usage overflow")
    return { totals with reclaimedBytes := totals.reclaimedBytes + size }
  else .ok totals

def markUnreachable (user : Uuid) (blob : BlobId)
    (state : PruneTotals × Db) : PruneTotals × Db :=
  if state.2.stillReachable user blob then state
  else
    ({ state.1 with gcCandidates := state.1.gcCandidates + 1 },
      state.2.markBlobGc blob)

/-- Drop the references of the pruned revisions to one blob. -/
def pruneBlob (user resourceId namespaceId : Uuid)
    (state : PruneTotals × Db) (entry : BlobId × Nat) :
    Except ApiError (PruneTotals × Db) := do
  let (totals, db) := state
  let missing := internalApiError
    "no rows returned by a query that expected to return at least one row"
  let _ <- okOr (db.resourceBlobs.get? (resourceId, entry.1)) missing
  let namespaceRefs <-
    okOr (db.namespaceBlobs.get? (namespaceId, entry.1)) missing
  let size <- okOr (db.blobSize entry.1) missing
  let totals <- reclaim totals namespaceRefs entry.2 size
  return markUnreachable user entry.1
    (totals, db.dropReferences resourceId namespaceId entry.1 entry.2)

/-- Drop one snapshot, and the blobs of a revision that nobody keeps. -/
def pruneSnapshot (user resourceId : Uuid) (db : Db) (revision : RevisionId) :
    Db :=
  let db := { db with
    snapshots := deleteWhere
      (fun row => row.resourceId = resourceId ∧ row.revisionId = revision)
      db.snapshots }
  let stillSnapshot :=
    (db.snapshots.any fun row =>
      decide (row.revisionId = revision) && db.snapshotVisible user row) ||
      db.releases.any fun row =>
        decide (row.revisionId = revision) && db.releaseVisible user row
  if stillSnapshot then db
  else
    { db with
      revisionBlobs := deleteWhere (fun row => row.revisionId = revision)
        db.revisionBlobs }

/-- Forget the prepared saves, and move the generations. -/
def finishPrune (db : Db) (user resourceId : Uuid) (generation : Generation) :
    Db :=
  { db with
    revisionOperations := deleteWhere
      (fun row => row.resourceId = resourceId ∧ row.state = .prepared ∧
        row.userId = user)
      db.revisionOperations
    resources := updateWhere (fun row => row.id = resourceId)
      (fun row => { row with generation }) db.resources
    workspaces := updateWhere
      (fun row => row.resourceId = resourceId ∧ row.workspaceUserId = user)
      (fun row => { row with generation }) db.workspaces }

/-!
## What a prune writes
-/

variable {db db' : Db}

theorem pruneRefs_exact (db : Db) (user : Uuid)
    (revisions : List RevisionId) :
    CountTable.Exact (db.pruneRefs user revisions) := by
  have hrows : forall (rows : List RevisionBlobRow)
      (refs : CountTable BlobId), refs.Exact ->
      (rows.foldl (fun refs row => refs.add row.blobId 1) refs).Exact := by
    intro rows
    induction rows with
    | nil => exact fun refs hrefs => hrefs
    | cons row rest ih =>
        exact fun refs hrefs => ih _ (hrefs.add (by decide))
  have hrevisions : forall (revisions : List RevisionId)
      (refs : CountTable BlobId), refs.Exact ->
      (revisions.foldl
        (fun refs revision =>
          (db.revisionBlobs.filter fun row =>
            decide (row.revisionId = revision) &&
              db.canReadRevision user revision).foldl
            (fun refs row => refs.add row.blobId 1) refs) refs).Exact := by
    intro revisions
    induction revisions with
    | nil => exact fun refs hrefs => hrefs
    | cons revision rest ih =>
        exact fun refs hrefs => ih _ (hrows _ _ hrefs)
  exact hrevisions revisions [] CountTable.Exact.nil

theorem prunedReferences_unique (db : Db) (user resourceId : Uuid) :
    ((db.prunedReferences user resourceId).map Prod.fst).Nodup := by
  have hperm := (sortByKey_perm (fun row => BlobId.key row.1)
    (db.pruneRefs user (db.prunableRevisions user resourceId))).map Prod.fst
  exact hperm.nodup_iff.mpr (pruneRefs_exact db user _).unique

theorem pruneBlob_eq_ok {user resourceId namespaceId : Uuid}
    {totals totals' : PruneTotals} {entry : BlobId × Nat}
    (h : pruneBlob user resourceId namespaceId (totals, db) entry =
      .ok (totals', db')) :
    exists canonicalBlobGc, db' =
      { db.dropReferences resourceId namespaceId entry.1 entry.2 with
        canonicalBlobGc } := by
  rcases bind_eq_ok.mp h with ⟨_, _, h⟩
  rcases bind_eq_ok.mp h with ⟨_, _, h⟩
  rcases bind_eq_ok.mp h with ⟨_, _, h⟩
  rcases bind_eq_ok.mp h with ⟨reclaimed, _, h⟩
  have hdb : (markUnreachable user entry.1 (reclaimed,
      db.dropReferences resourceId namespaceId entry.1 entry.2)).2 = db' :=
    congrArg Prod.snd (Except.ok.inj h)
  rw [← hdb]
  unfold markUnreachable
  split
  · exact ⟨_, rfl⟩
  · unfold markBlobGc
    split
    · exact ⟨_, rfl⟩
    · exact ⟨_, rfl⟩

theorem pruneBlobs_eq_ok {user resourceId namespaceId : Uuid}
    {totals totals' : PruneTotals} {refs : CountTable BlobId}
    (h : refs.foldlM (pruneBlob user resourceId namespaceId) (totals, db) =
      .ok (totals', db')) :
    exists canonicalBlobGc, db' =
      { db with
        resourceBlobs :=
          db.resourceBlobs.dropAll refs fun blob => (resourceId, blob)
        namespaceBlobs :=
          db.namespaceBlobs.dropAll refs fun blob => (namespaceId, blob)
        canonicalBlobGc } := by
  induction refs generalizing db totals with
  | nil =>
      cases h
      exact ⟨_, rfl⟩
  | cons entry rest ih =>
      rw [List.foldlM_cons] at h
      rcases bind_eq_ok.mp h with ⟨⟨next, middle⟩, hfirst, hrest⟩
      rcases pruneBlob_eq_ok hfirst with ⟨_, rfl⟩
      rcases ih hrest with ⟨marked, hdb'⟩
      exact ⟨marked, hdb'⟩

theorem pruneSnapshot_eq (user resourceId : Uuid) (revision : RevisionId)
    (db : Db) :
    exists revisionBlobs,
      pruneSnapshot user resourceId db revision =
          { db with
            snapshots := deleteWhere
              (fun row => row.resourceId = resourceId ∧
                row.revisionId = revision) db.snapshots
            revisionBlobs } ∧
        (forall row, row ∈ revisionBlobs -> row ∈ db.revisionBlobs) := by
  unfold pruneSnapshot
  dsimp only
  split
  · exact ⟨_, rfl, fun row hrow => hrow⟩
  · exact ⟨_, rfl, fun row hrow => (mem_deleteWhere.mp hrow).1⟩

theorem deleteWhere_mem_cons (resourceId : Uuid) (revision : RevisionId)
    (rest : List RevisionId) (rows : List SnapshotRow) :
    deleteWhere
        (fun row => row.resourceId = resourceId ∧ row.revisionId ∈ rest)
        (deleteWhere
          (fun row => row.resourceId = resourceId ∧ row.revisionId = revision)
          rows) =
      deleteWhere
        (fun row => row.resourceId = resourceId ∧
          row.revisionId ∈ revision :: rest) rows := by
  unfold deleteWhere
  rw [List.filter_filter]
  apply List.filter_congr
  intro row _
  by_cases hresource : row.resourceId = resourceId
  · by_cases hrevision : row.revisionId = revision
    · simp [hresource, hrevision]
    · simp [hresource, hrevision]
  · simp [hresource]

/-- Dropping snapshots reaches no blob anew. -/
theorem pruneSnapshots_eq (user resourceId : Uuid)
    (revisions : List RevisionId) (db : Db) :
    exists revisionBlobs,
      revisions.foldl (pruneSnapshot user resourceId) db =
          { db with
            snapshots := deleteWhere
              (fun row => row.resourceId = resourceId ∧
                row.revisionId ∈ revisions) db.snapshots
            revisionBlobs } ∧
        (forall row, row ∈ revisionBlobs -> row ∈ db.revisionBlobs) := by
  induction revisions generalizing db with
  | nil =>
      refine ⟨db.revisionBlobs, ?_, fun row hrow => hrow⟩
      simp [deleteWhere]
  | cons revision rest ih =>
      rcases pruneSnapshot_eq user resourceId revision db with
        ⟨first, hfirst, hfewer⟩
      rcases ih (pruneSnapshot user resourceId db revision) with
        ⟨revisionBlobs, hrest, hkept⟩
      rw [hfirst] at hkept
      refine ⟨revisionBlobs, ?_, fun row hrow => hfewer row (hkept row hrow)⟩
      rw [List.foldl_cons, hrest, hfirst]
      dsimp only
      rw [deleteWhere_mem_cons]

end Db

def LifecycleOutcome.historyPrune? :
    LifecycleOutcome -> Option HistoryPruneResponse
  | .historyPrune outcome => some outcome
  | _ => none

namespace Registry

variable (self : Registry)

/-- Drop the history of the skill that its owner has locked. -/
def pruneOwnedSkill (authority : UserAuthority)
    (request : ResourceLifecycleRequest) (db : Db) :
    Except ApiError (HistoryPruneResponse × Db) := do
  let user := authority.userId
  let (resource, owner) <- db.lockActiveOwnedSkill user request.resourceId
  ensure (resource.ownerNamespaceId == authority.namespaceId)
    ownedSkillUnavailable
  let expectedGeneration <- i64TryFrom request.expectedGeneration
    generationOutOfRange
  ensure (resource.generation.value == expectedGeneration)
    (resourceAdvanced resource.generation)
  let revisions := db.prunableRevisions user request.resourceId
  let (totals, db) <- (db.prunedReferences user request.resourceId).foldlM
    (Db.pruneBlob user request.resourceId authority.namespaceId) (⟨0, 0⟩, db)
  let db := revisions.foldl (Db.pruneSnapshot user request.resourceId) db
  let generation <- nextGeneration resource.generation
  let db := db.finishPrune user request.resourceId generation
  let outcome : HistoryPruneResponse :=
    { resourceId := request.resourceId
      locator := locator owner resource.slug
      generation := generation.value
      prunedRevisions := revisions.length
      reclaimedBytes := totals.reclaimedBytes
      gcCandidates := totals.gcCandidates }
  let db <- db.recordLifecycleOperation
    { userId := user
      operationId := request.operationId
      requestHash := request.requestHash
      target := request.resourceId
      outcome := .historyPrune outcome }
  return (outcome,
    db.enqueueResourceWake request.resourceId generation.value)

def pruneSkillHistory (userId : Uuid) (request : ResourceLifecycleRequest)
    (db : Db) : Except ApiError (HistoryPruneResponse × Db) := do
  let authority <- db.directory.userAuthority userId
  checkLifecycleHash request.requestHash
    (self.hashes.historyPrune request.toResourceLifecycleRequestHashInput)
  let replay <- db.replayLifecycleOperation LifecycleOutcome.historyPrune?
    authority.userId request.operationId request.requestHash
    request.resourceId
  match replay with
  | some outcome => return (outcome, db)
  | none => pruneOwnedSkill authority request db

variable {self} {db db' : Db}

/-- A prune that is not a replay. -/
structure Pruned (authority : UserAuthority)
    (request : ResourceLifecycleRequest) (db db' : Db) : Prop where
  tables : exists resource generation canonicalBlobGc revisionBlobs
      lifecycleOperations,
    db.findResource request.resourceId = some resource ∧
      resource.kind = .skill ∧ resource.deleted = false ∧
      resource.ownerNamespaceId = authority.namespaceId ∧
      generation.value = resource.generation.value + 1 ∧
      (forall row, row ∈ revisionBlobs -> row ∈ db.revisionBlobs) ∧
      db' = ({ db with
          resourceBlobs := db.resourceBlobs.dropAll
            (db.prunedReferences authority.userId request.resourceId)
            fun blob => (request.resourceId, blob)
          namespaceBlobs := db.namespaceBlobs.dropAll
            (db.prunedReferences authority.userId request.resourceId)
            fun blob => (authority.namespaceId, blob)
          canonicalBlobGc
          snapshots := deleteWhere
            (fun row => row.resourceId = request.resourceId ∧
              row.revisionId ∈
                db.prunableRevisions authority.userId request.resourceId)
            db.snapshots
          revisionBlobs
          revisionOperations := deleteWhere
            (fun row => row.resourceId = request.resourceId ∧
              row.state = .prepared ∧ row.userId = authority.userId)
            db.revisionOperations
          resources := updateWhere (fun row => row.id = request.resourceId)
            (fun row => { row with generation }) db.resources
          workspaces := updateWhere
            (fun row => row.resourceId = request.resourceId ∧
              row.workspaceUserId = authority.userId)
            (fun row => { row with generation }) db.workspaces
          lifecycleOperations } : Db).enqueueResourceWake request.resourceId
            generation.value

theorem pruneOwnedSkill_eq_ok {authority : UserAuthority}
    {request : ResourceLifecycleRequest} {outcome : HistoryPruneResponse}
    (h : pruneOwnedSkill authority request db = .ok (outcome, db')) :
    Pruned authority request db db' := by
  rcases bind_eq_ok.mp h with ⟨⟨resource, owner⟩, hlocked, h⟩
  rcases bind_eq_ok.mp h with ⟨_, howner, h⟩
  rcases bind_eq_ok.mp h with ⟨_, _, h⟩
  rcases bind_eq_ok.mp h with ⟨_, _, h⟩
  rcases bind_eq_ok.mp h with ⟨⟨totals, dropped⟩, hdropped, h⟩
  rcases bind_eq_ok.mp h with ⟨generation, hgeneration, h⟩
  rcases bind_eq_ok.mp h with ⟨recorded, hrecorded, h⟩
  rcases bind_eq_ok.mp hrecorded with ⟨operations, _, hrecorded⟩
  cases hrecorded
  cases h
  rcases Db.pruneBlobs_eq_ok hdropped with ⟨marked, hmarked⟩
  rcases Db.pruneSnapshots_eq authority.userId request.resourceId
      (db.prunableRevisions authority.userId request.resourceId) dropped with
    ⟨revisionBlobs, hpruned, hfewer⟩
  rcases lockActiveOwnedSkill_eq_ok hlocked with
    ⟨hfound, hkind, hlive, _⟩
  rw [hmarked] at hfewer
  refine ⟨resource, generation, marked, revisionBlobs, operations, hfound,
    hkind, hlive, by simpa using howner, ?_, hfewer, ?_⟩
  · exact Generation.checkedSucc_eq_some (okOr_eq_ok.mp hgeneration)
  · rw [hpruned, hmarked]
    rfl

/-- A prune changes nothing, or drops the history of the skill. -/
theorem pruneSkillHistory_eq_ok {userId : Uuid}
    {request : ResourceLifecycleRequest} {outcome : HistoryPruneResponse}
    (h : self.pruneSkillHistory userId request db = .ok (outcome, db')) :
    db' = db ∨ exists authority,
      db.directory.userAuthority userId = .ok authority ∧
        Db.findOperation db.lifecycleOperations authority.userId
          request.operationId = none ∧
        Pruned authority request db db' := by
  rcases bind_eq_ok.mp h with ⟨authority, hauthority, h⟩
  rcases bind_eq_ok.mp h with ⟨_, _, h⟩
  rcases bind_eq_ok.mp h with ⟨replay, hreplay, h⟩
  split at h
  · cases h
    exact .inl rfl
  · exact .inr ⟨authority, hauthority,
      Db.replayLifecycleOperation_eq_none hreplay, pruneOwnedSkill_eq_ok h⟩

/-!
## Collecting blobs
-/

/-- Some resource or namespace reaches the blob. -/
def blobReachable (db : Db) (blob : BlobId) : Bool :=
  (db.resourceBlobs.any fun row => row.1.2 = blob) ||
    db.namespaceBlobs.any fun row => row.1.2 = blob

/-- One round of the collector: the marked blob loses its mark if it is
reachable, and its row and its object if not.  The answer is the key of the
object that was deleted. -/
def drainBlobGc (blob : BlobId) (db : Db) :
    Except ApiError (Option Text × Db) :=
  match db.canonicalBlobs.find? fun row => row.blobId = blob with
  | none => .ok (none, db)
  | some row =>
      if blob ∉ db.canonicalBlobGc then .ok (none, db)
      else
        let unmarked := { db with
          canonicalBlobGc :=
            deleteWhere (fun row => row = blob) db.canonicalBlobGc }
        if blobReachable db blob then .ok (none, unmarked)
        else do
          ensure (!db.revisionBlobs.any fun row => row.blobId = blob)
            (internalApiError "revision_blob_reachability_blob_id_fkey")
          return (some row.objectKey,
            { unmarked with
              canonicalBlobs := deleteWhere (fun row => row.blobId = blob)
                db.canonicalBlobs })

/-- A round of the collector deletes no blob that something reaches. -/
theorem drainBlobGc_eq_ok {blob : BlobId} {key : Option Text}
    (h : drainBlobGc blob db = .ok (key, db')) :
    exists canonicalBlobGc canonicalBlobs,
      db' = { db with canonicalBlobGc, canonicalBlobs } ∧
        (canonicalBlobs = db.canonicalBlobs ∨
          canonicalBlobs =
              deleteWhere (fun row => row.blobId = blob) db.canonicalBlobs ∧
            blobReachable db blob = false ∧
              forall row, row ∈ db.revisionBlobs -> row.blobId ≠ blob) := by
  unfold drainBlobGc at h
  split at h
  · cases h
    exact ⟨_, _, rfl, .inl rfl⟩
  · split at h
    · cases h
      exact ⟨_, _, rfl, .inl rfl⟩
    · dsimp only at h
      split at h
      · cases h
        exact ⟨_, _, rfl, .inl rfl⟩
      · rename_i hunreachable
        rcases bind_eq_ok.mp h with ⟨_, hfree, h⟩
        cases h
        have hnone := ensure_eq_ok.mp hfree
        simp only [Bool.not_eq_true', List.any_eq_false,
          decide_eq_true_eq] at hnone
        exact ⟨_, _, rfl, .inr ⟨rfl, by simpa using hunreachable, hnone⟩⟩

end Registry
end Denju
