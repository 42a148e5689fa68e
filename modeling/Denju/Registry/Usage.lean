import Denju.Lib.FreedCounts
import Denju.Registry.Audience
import Denju.Registry.Prune
import Denju.Registry.SaveRuns

/-!
# Usage of a personal namespace

A user asks how much of the namespace could be pruned, and prunes the skills
one after another.  One query over the whole namespace stands against a
sequence of transactions that lower the shared counts of the namespace.
-/

namespace Denju

open Lib

structure UsageResponse where
  storageLimitBytes : Nat
  storageUsedBytes : Nat
  storageAvailableBytes : Nat
  activeResources : Nat
  privateRevisions : Nat
  prunablePrivateRevisions : Nat
  prunableBytes : Nat
deriving DecidableEq

namespace Db

/-- The resources of a namespace that its user may read. -/
def namespaceResources (db : Db) (user namespaceId : Uuid) : List ResourceRow :=
  db.resources.filter fun row =>
    decide (row.ownerNamespaceId = namespaceId) &&
      db.canReadResource user row.id

/-- The snapshots of a resource without a release. -/
def privateSnapshots (db : Db) (user resourceId : Uuid) : List SnapshotRow :=
  db.snapshots.filter fun row =>
    decide (row.resourceId = resourceId) && db.snapshotVisible user row &&
      !db.releases.any fun release =>
        decide (release.resourceId = resourceId ∧
          release.revisionId = row.revisionId) &&
            db.releaseVisible user release

/-- The revisions that nothing needs, over all resources of a namespace. -/
def prunableInNamespace (db : Db) (user namespaceId : Uuid) :
    List RevisionId :=
  (db.namespaceResources user namespaceId).flatMap fun row =>
    db.prunableRevisions user row.id

/-- The bytes of the blobs whose references in a namespace the given revisions
use up. -/
def reclaimable (db : Db) (user namespaceId : Uuid)
    (revisions : List RevisionId) : Nat :=
  CountTable.freed db.namespaceBlobs (fun blob => (namespaceId, blob))
    (fun blob => (db.blobSize blob).getD 0) (db.pruneRefs user revisions)

end Db

namespace Registry

variable (self : Registry)

def usage (userId : Uuid) (db : Db) : Except ApiError UsageResponse := do
  let authority <- db.directory.userAuthority userId
  let user := authority.userId
  let owned := db.namespaceResources user authority.namespaceId
  let used <- db.namespaceUsage authority.namespaceId
  let prunable := db.prunableInNamespace user authority.namespaceId
  let bytes := db.reclaimable user authority.namespaceId prunable
  ensure (bytes < 2 ^ 63) (internalApiError "bigint out of range")
  let limit := self.limits.namespaceStorageBytes
  return {
    storageLimitBytes := limit
    storageUsedBytes := used
    storageAvailableBytes := limit - used
    activeResources := (owned.filter fun row => !row.deleted).length
    privateRevisions :=
      (owned.flatMap fun row => db.privateSnapshots user row.id).length
    prunablePrivateRevisions := prunable.length
    prunableBytes := bytes }

/-- The rounds of the collector after a prune, up to the first that fails. -/
def collectBlobs : List BlobId -> Db -> Db
  | [], db => db
  | blob :: rest, db =>
      match drainBlobGc blob db with
      | .ok (_, db) => collectBlobs rest db
      | .error _ => db

/-- A prune, and the blobs that the collector looks at after it. -/
structure PruneCall where
  request : ResourceLifecycleRequest
  collected : List BlobId

/-- Prunes that follow each other. -/
def pruneEach (userId : Uuid) : List PruneCall -> Db ->
    Except ApiError (List HistoryPruneResponse × Db)
  | [], db => .ok ([], db)
  | call :: rest, db => do
      let (answer, db) <- self.pruneSkillHistory userId call.request db
      let (answers, db) <- pruneEach userId rest
        (collectBlobs call.collected db)
      return (answer :: answers, db)

end Registry

/-!
## What readers see

No answer of a row policy depends on a generation.
-/

def ResourceRow.undated (row : ResourceRow) : ResourceRow :=
  { row with generation := .one }

def WorkspaceRow.undated (row : WorkspaceRow) : WorkspaceRow :=
  { row with generation := .one }

/-- The same rows for every policy, up to generations. -/
structure SameRows (db db' : Db) : Prop where
  directory : db'.directory = db.directory
  quarantines : db'.quarantines = db.quarantines
  shares : db'.shares = db.shares
  subscriptions : db'.subscriptions = db.subscriptions
  releases : db'.releases = db.releases
  proposals : db'.proposals = db.proposals
  conflicts : db'.conflicts = db.conflicts
  packRevisionMembers : db'.packRevisionMembers = db.packRevisionMembers
  revisionParents : db'.revisionParents = db.revisionParents
  revisions : db'.revisions = db.revisions
  resources : db'.resources.map ResourceRow.undated =
    db.resources.map ResourceRow.undated
  workspaces : db'.workspaces.map WorkspaceRow.undated =
    db.workspaces.map WorkspaceRow.undated

namespace SameRows

variable {db db' : Db}

theorem findResource (h : SameRows db db') (id : Uuid) :
    (db'.findResource id).map ResourceRow.undated =
      (db.findResource id).map ResourceRow.undated := by
  have hfind := congrArg (List.find? fun row => decide (row.id = id))
    h.resources
  rw [List.find?_map, List.find?_map] at hfind
  exact hfind

/-- What is said of a found row without its generation stays. -/
theorem any_findResource (h : SameRows db db') {p p' : ResourceRow -> Bool}
    (hundated : forall row, p row.undated = p row)
    (hsame : forall row, p' row = p row) (id : Uuid) :
    (db'.findResource id).any p' = (db.findResource id).any p := by
  have hp : p' = p := funext hsame
  have hany := congrArg (Option.any p) (h.findResource id)
  simp only [Option.any_map, hundated] at hany
  rw [hp]
  exact hany

theorem any_resources (h : SameRows db db') {p p' : ResourceRow -> Bool}
    (hundated : forall row, p row.undated = p row)
    (hsame : forall row, p' row = p row) :
    db'.resources.any p' = db.resources.any p := by
  have hp : p' = p := funext hsame
  have hcomp : p ∘ ResourceRow.undated = p := funext hundated
  have hany := congrArg (fun rows => List.any rows p) h.resources
  simp only [List.any_map, hcomp] at hany
  rw [hp]
  exact hany

theorem quarantined (h : SameRows db db') (id : Uuid) :
    db'.quarantined id = db.quarantined id := by
  unfold Db.quarantined
  rw [h.quarantines]

theorem sharedWith (h : SameRows db db') (id user : Uuid) :
    db'.sharedWith id user = db.sharedWith id user := by
  unfold Db.sharedWith
  rw [h.shares]

theorem releaseQuarantined (h : SameRows db db') (id : Uuid)
    (version : Generation) :
    db'.releaseQuarantined id version = db.releaseQuarantined id version := by
  unfold Db.releaseQuarantined
  rw [h.quarantines]

theorem canManageResource (h : SameRows db db') (user id : Uuid) :
    db'.canManageResource user id = db.canManageResource user id := by
  unfold Db.canManageResource
  rw [h.quarantined, h.directory]
  congr 1
  exact h.any_resources (fun _ => rfl) fun _ => rfl

theorem canReviewSourceResource (h : SameRows db db') (user id : Uuid) :
    db'.canReviewSourceResource user id =
      db.canReviewSourceResource user id := by
  unfold Db.canReviewSourceResource
  rw [h.proposals, h.directory]
  congr 1
  funext proposal
  congr 1
  · congr 1
    refine h.any_findResource (fun _ => rfl) ?_ _
    intro row
    rw [h.quarantined]
  · exact h.any_findResource (fun _ => rfl) (fun _ => rfl) _

theorem canReadResource (h : SameRows db db') (user id : Uuid) :
    db'.canReadResource user id = db.canReadResource user id := by
  unfold Db.canReadResource Db.keepsDeleted
  rw [h.subscriptions, h.directory]
  congr 1
  · refine h.any_findResource (fun _ => rfl) ?_ _
    intro row
    rw [h.sharedWith, h.canReviewSourceResource]
  · congr 1
    exact h.any_findResource (fun _ => rfl) (fun _ => rfl) _

theorem workspaceAncestry (h : SameRows db db') (id user : Uuid) :
    db'.workspaceAncestry db'.edges id user =
      db.workspaceAncestry db.edges id user := by
  have hfind := congrArg (List.find? fun row : WorkspaceRow =>
    decide (row.resourceId = id ∧ row.workspaceUserId = user)) h.workspaces
  rw [List.find?_map, List.find?_map] at hfind
  have hsame : (db'.workspace id user).map WorkspaceRow.revisionId =
      (db.workspace id user).map WorkspaceRow.revisionId := by
    have hrevisions := congrArg (Option.map WorkspaceRow.revisionId) hfind
    rw [Option.map_map, Option.map_map] at hrevisions
    exact hrevisions
  unfold Db.workspaceAncestry Db.edges
  rw [h.revisionParents]
  cases hnew : db'.workspace id user with
  | none =>
      cases hold : db.workspace id user with
      | none => rfl
      | some row => simp [hnew, hold] at hsame
  | some row =>
      cases hold : db.workspace id user with
      | none => simp [hnew, hold] at hsame
      | some other =>
          rw [hnew, hold] at hsame
          simp only [Option.map_some, Option.some.injEq] at hsame
          simp only [hsame]

theorem canReadRevisionSnapshot (h : SameRows db db') (user id : Uuid)
    (revision : RevisionId) :
    db'.canReadRevisionSnapshot user id revision =
      db.canReadRevisionSnapshot user id revision := by
  unfold Db.canReadRevisionSnapshot Db.canReadTombstone
  congr 1
  · refine h.any_findResource (fun _ => rfl) ?_ _
    intro row
    simp only [h.quarantined, h.releases, h.releaseQuarantined, h.directory,
      h.sharedWith, h.workspaceAncestry, h.canReviewSourceResource,
      Db.ownerKind]
    rfl
  · refine h.any_findResource (fun _ => rfl) ?_ _
    intro row
    simp only [h.releases, h.releaseQuarantined, h.subscriptions]

theorem snapshotVisible (h : SameRows db db') (user : Uuid)
    (row : SnapshotRow) :
    db'.snapshotVisible user row = db.snapshotVisible user row := by
  unfold Db.snapshotVisible
  rw [h.canReadRevisionSnapshot, h.canManageResource]

theorem releaseVisible (h : SameRows db db') (user : Uuid)
    (row : ReleaseRow) :
    db'.releaseVisible user row = db.releaseVisible user row :=
  h.canReadRevisionSnapshot user row.resourceId row.revisionId

theorem canReadWorkspace (h : SameRows db db') (user : Uuid)
    (row : WorkspaceRow) :
    db'.canReadWorkspace user row = db.canReadWorkspace user row := by
  unfold Db.canReadWorkspace
  rw [h.quarantined, h.canReviewSourceResource]
  congr 3
  refine h.any_findResource (fun _ => rfl) ?_ _
  intro resource
  simp only [h.directory, h.sharedWith, Db.ownerKind]
  rfl

theorem needed (h : SameRows db db') (user id : Uuid)
    (revision : RevisionId) :
    db'.needed user id revision = db.needed user id revision := by
  unfold Db.needed Db.proposalVisible
  simp only [h.releases, h.releaseVisible, h.conflicts, h.proposals,
    h.canManageResource, h.packRevisionMembers, h.canReadResource]

end SameRows

/-!
## The references of a set of revisions
-/

namespace Db

/-- The blobs of a revision that its reader sees. -/
def readableBlobs (db : Db) (user : Uuid) (revision : RevisionId) :
    List BlobId :=
  (db.revisionBlobs.filter fun row =>
    decide (row.revisionId = revision) &&
      db.canReadRevision user revision).map RevisionBlobRow.blobId

section References

variable {db db' : Db} {user namespaceId : Uuid}

/-- Every revision counts once for each of its blobs. -/
theorem count_pruneRefs (db : Db) (user : Uuid) (revisions : List RevisionId)
    (blob : BlobId) :
    CountTable.count (db.pruneRefs user revisions) blob =
      (revisions.flatMap (db.readableBlobs user)).count blob := by
  have hrows : forall (rows : List RevisionBlobRow)
      (refs : CountTable BlobId),
      CountTable.count
          (rows.foldl (fun refs row => refs.add row.blobId 1) refs) blob =
        CountTable.count refs blob +
          (rows.map RevisionBlobRow.blobId).count blob := by
    intro rows
    induction rows with
    | nil => intro refs; rfl
    | cons row rest ih =>
        intro refs
        rw [List.foldl_cons, ih, CountTable.count_add, List.map_cons,
          List.count_cons]
        by_cases hsame : blob = row.blobId
        · subst hsame
          simp only [if_pos rfl, beq_self_eq_true]
          omega
        · simp [hsame, Ne.symm hsame]
  have hrevisions : forall (revisions : List RevisionId)
      (refs : CountTable BlobId),
      CountTable.count (revisions.foldl
          (fun refs revision =>
            (db.revisionBlobs.filter fun row =>
              decide (row.revisionId = revision) &&
                db.canReadRevision user revision).foldl
              (fun refs row => refs.add row.blobId 1) refs) refs) blob =
        CountTable.count refs blob +
          (revisions.flatMap (db.readableBlobs user)).count blob := by
    intro revisions
    induction revisions with
    | nil => intro refs; rfl
    | cons revision rest ih =>
        intro refs
        rw [List.foldl_cons, ih, hrows, List.flatMap_cons, List.count_append,
          Nat.add_assoc]
        rfl
  have hstart := hrevisions revisions []
  unfold pruneRefs
  rw [hstart]
  exact Nat.zero_add _

/-- What is reclaimable only depends on the counts of the blobs, and on the
sizes of those that the namespace reaches. -/
theorem reclaimable_congr {revisions others : List RevisionId}
    (hnamespace : db'.namespaceBlobs = db.namespaceBlobs)
    (hsizes : forall blob,
      (db.namespaceBlobs.get? (namespaceId, blob)).isSome ->
        db'.blobSize blob = db.blobSize blob)
    (hcount : forall blob,
      (others.flatMap (db'.readableBlobs user)).count blob =
        (revisions.flatMap (db.readableBlobs user)).count blob) :
    db'.reclaimable user namespaceId others =
      db.reclaimable user namespaceId revisions := by
  unfold reclaimable
  rw [hnamespace]
  refine CountTable.freed_congr (pruneRefs_exact db' user others)
    (pruneRefs_exact db user revisions) ?_ ?_
  · intro blob
    rw [count_pruneRefs, count_pruneRefs]
    exact hcount blob
  · intro blob hblob
    rw [hsizes blob hblob]

theorem reclaimable_nil : db.reclaimable user namespaceId [] = 0 :=
  rfl

theorem prunedReferences_exact (db : Db) (user resourceId : Uuid) :
    CountTable.Exact (db.prunedReferences user resourceId) where
  unique := prunedReferences_unique db user resourceId
  positive := by
    intro row hrow
    exact (pruneRefs_exact db user
      (db.prunableRevisions user resourceId)).positive row
        (mem_sortByKey.mp hrow)

theorem count_prunedReferences (db : Db) (user resourceId : Uuid)
    (blob : BlobId) :
    CountTable.count (db.prunedReferences user resourceId) blob =
      CountTable.count
        (db.pruneRefs user (db.prunableRevisions user resourceId)) blob :=
  (prunedReferences_exact db user resourceId).count_of_perm
    (sortByKey_perm _ _) blob

/-- The loop over the blobs reclaims what dropping the references frees. -/
theorem pruneBlobs_reclaimed {resourceId : Uuid}
    {totals totals' : PruneTotals} {refs : CountTable BlobId}
    (hrefs : CountTable.Exact refs)
    (h : refs.foldlM (pruneBlob user resourceId namespaceId) (totals, db) =
      .ok (totals', db')) :
    totals'.reclaimedBytes = totals.reclaimedBytes +
      CountTable.freed db.namespaceBlobs (fun blob => (namespaceId, blob))
        (fun blob => (db.blobSize blob).getD 0) refs := by
  induction refs generalizing db totals with
  | nil =>
      cases h
      rfl
  | cons entry rest ih =>
      have hkeys := List.nodup_cons.mp hrefs.unique
      have hpositive := hrefs.positive entry List.mem_cons_self
      have hrest : CountTable.Exact rest :=
        ⟨hkeys.2, fun row hrow =>
          hrefs.positive row (List.mem_cons_of_mem _ hrow)⟩
      rw [List.foldlM_cons] at h
      rcases bind_eq_ok.mp h with ⟨⟨next, middle⟩, hfirst, htail⟩
      rcases pruneBlob_eq_ok hfirst with ⟨marked, hmiddle⟩
      have hsum := ih hrest htail
      rcases bind_eq_ok.mp hfirst with ⟨_, _, hfirst⟩
      rcases bind_eq_ok.mp hfirst with ⟨n, hn, hfirst⟩
      rcases bind_eq_ok.mp hfirst with ⟨size, hsize, hfirst⟩
      rcases bind_eq_ok.mp hfirst with ⟨reclaimed, hreclaimed, hfirst⟩
      have hnext : next.reclaimedBytes = reclaimed.reclaimedBytes := by
        have htotals : (markUnreachable user entry.1 (reclaimed,
            db.dropReferences resourceId namespaceId entry.1 entry.2)).1 =
              next :=
          congrArg Prod.fst (Except.ok.inj hfirst)
        rw [← htotals]
        unfold markUnreachable
        split
        · rfl
        · rfl
      have hfreed : reclaimed.reclaimedBytes = totals.reclaimedBytes +
          CountTable.freedAt (db.namespaceBlobs.get? (namespaceId, entry.1))
            ((db.blobSize entry.1).getD 0) entry.2 := by
        rw [okOr_eq_ok.mp hn, okOr_eq_ok.mp hsize]
        unfold reclaim at hreclaimed
        split at hreclaimed
        · rename_i hused
          rcases bind_eq_ok.mp hreclaimed with ⟨_, _, hreclaimed⟩
          cases hreclaimed
          simp [CountTable.freedAt, hpositive, hused]
        · rename_i hused
          cases hreclaimed
          simp [CountTable.freedAt, hused]
      have hothers : CountTable.freed middle.namespaceBlobs
            (fun blob => (namespaceId, blob))
            (fun blob => (middle.blobSize blob).getD 0) rest =
          CountTable.freed db.namespaceBlobs (fun blob => (namespaceId, blob))
            (fun blob => (db.blobSize blob).getD 0) rest := by
        unfold CountTable.freed
        refine congrArg List.sum (List.map_congr_left ?_)
        intro row hrow
        have hne : (namespaceId, row.1) ≠ (namespaceId, entry.1) := by
          intro hsame
          apply hkeys.1
          rw [← (Prod.mk.inj hsame).2]
          exact List.mem_map_of_mem hrow
        rw [hmiddle]
        show CountTable.freedAt
          (CountTable.get? (db.namespaceBlobs.drop _ _) _) _ _ = _
        rw [CountTable.get?_drop_other hne]
        rfl
      rw [hsum, hnext, hfreed, hothers]
      unfold CountTable.freed
      rw [List.map_cons, List.sum_cons, Nat.add_assoc]

end References

end Db

/-!
## One prune
-/

/-- What the answer of a prune is, and what the prune leaves of the rows that
another prune reads. -/
structure PruneAnswered (authority : UserAuthority)
    (request : ResourceLifecycleRequest) (answer : HistoryPruneResponse)
    (db db' : Db) : Prop where
  revisions : answer.prunedRevisions =
    (db.prunableRevisions authority.userId request.resourceId).length
  bytes : answer.reclaimedBytes =
    db.reclaimable authority.userId authority.namespaceId
      (db.prunableRevisions authority.userId request.resourceId)
  same : SameRows db db'
  namespaceBlobs : db'.namespaceBlobs =
    db.namespaceBlobs.dropAll
      (db.prunedReferences authority.userId request.resourceId)
        fun blob => (authority.namespaceId, blob)
  canonicalBlobs : db'.canonicalBlobs = db.canonicalBlobs
  others : forall resourceId, resourceId ≠ request.resourceId ->
    db'.snapshots.filter (fun row => decide (row.resourceId = resourceId)) =
      db.snapshots.filter fun row => decide (row.resourceId = resourceId)
  kept : forall row, row ∈ db.snapshots ->
    row.resourceId ≠ request.resourceId ->
    db.snapshotVisible authority.userId row = true ->
      db'.revisionBlobs.filter
          (fun reached => decide (reached.revisionId = row.revisionId)) =
        db.revisionBlobs.filter fun reached =>
          decide (reached.revisionId = row.revisionId)
  operations : exists operation : OperationRow LifecycleOutcome,
    db'.lifecycleOperations = db.lifecycleOperations ++ [operation] ∧
      operation.operationId = request.operationId

namespace Db

/-- The blobs of a revision stay while a visible snapshot of another skill
keeps it. -/
theorem pruneSnapshot_keeps {user resourceId : Uuid} (revision : RevisionId)
    {db : Db} {row : SnapshotRow} (hrow : row ∈ db.snapshots)
    (hother : row.resourceId ≠ resourceId)
    (hvisible : db.snapshotVisible user row = true) :
    row ∈ (pruneSnapshot user resourceId db revision).snapshots ∧
      (pruneSnapshot user resourceId db revision).revisionBlobs.filter
          (fun reached => decide (reached.revisionId = row.revisionId)) =
        db.revisionBlobs.filter fun reached =>
          decide (reached.revisionId = row.revisionId) := by
  have hmem : row ∈ deleteWhere (fun row => row.resourceId = resourceId ∧
      row.revisionId = revision) db.snapshots :=
    mem_deleteWhere.mpr ⟨hrow, by simp [hother]⟩
  unfold pruneSnapshot
  dsimp only
  split
  · exact ⟨hmem, rfl⟩
  · rename_i hgone
    refine ⟨hmem, ?_⟩
    have hne : row.revisionId ≠ revision := by
      intro hsame
      apply hgone
      rw [Bool.or_eq_true]
      refine .inl (List.any_eq_true.mpr ⟨row, hmem, ?_⟩)
      rw [Bool.and_eq_true]
      exact ⟨decide_eq_true hsame, hvisible⟩
    unfold deleteWhere
    rw [List.filter_filter]
    apply List.filter_congr
    intro reached _
    by_cases hreached : reached.revisionId = row.revisionId
    · simp [hreached, hne]
    · simp [hreached]

theorem pruneSnapshots_keep {user resourceId : Uuid}
    {revisions : List RevisionId} {db : Db} {row : SnapshotRow}
    (hrow : row ∈ db.snapshots) (hother : row.resourceId ≠ resourceId)
    (hvisible : db.snapshotVisible user row = true) :
    (revisions.foldl (pruneSnapshot user resourceId) db).revisionBlobs.filter
        (fun reached => decide (reached.revisionId = row.revisionId)) =
      db.revisionBlobs.filter fun reached =>
        decide (reached.revisionId = row.revisionId) := by
  induction revisions generalizing db with
  | nil => rfl
  | cons revision rest ih =>
      rcases pruneSnapshot_keeps revision hrow hother hvisible with
        ⟨hmem, hblobs⟩
      rcases pruneSnapshot_eq user resourceId revision db with
        ⟨revisionBlobs, hdb, _⟩
      have hstill : (pruneSnapshot user resourceId db revision).snapshotVisible
          user row = true := by
        rw [hdb]
        exact hvisible
      rw [List.foldl_cons, ih hmem hstill, hblobs]

end Db

theorem map_undated_resources (resourceId : Uuid) (generation : Generation)
    (rows : List ResourceRow) :
    (updateWhere (fun row => row.id = resourceId)
        (fun row => { row with generation }) rows).map ResourceRow.undated =
      rows.map ResourceRow.undated := by
  unfold updateWhere
  rw [List.map_map]
  apply List.map_congr_left
  intro row _
  show (if _ then _ else _ : ResourceRow).undated = _
  split
  · rfl
  · rfl

theorem map_undated_workspaces (p : WorkspaceRow -> Bool)
    (generation : Generation) (rows : List WorkspaceRow) :
    (updateWhere p (fun row => { row with generation }) rows).map
        WorkspaceRow.undated =
      rows.map WorkspaceRow.undated := by
  unfold updateWhere
  rw [List.map_map]
  apply List.map_congr_left
  intro row _
  show (if _ then _ else _ : WorkspaceRow).undated = _
  split
  · rfl
  · rfl

namespace Registry

theorem pruneOwnedSkill_answered {db db' : Db} {authority : UserAuthority}
    {request : ResourceLifecycleRequest} {answer : HistoryPruneResponse}
    (h : pruneOwnedSkill authority request db = .ok (answer, db')) :
    PruneAnswered authority request answer db db' := by
  rcases bind_eq_ok.mp h with ⟨⟨resource, owner⟩, _, h⟩
  rcases bind_eq_ok.mp h with ⟨_, _, h⟩
  rcases bind_eq_ok.mp h with ⟨_, _, h⟩
  rcases bind_eq_ok.mp h with ⟨_, _, h⟩
  rcases bind_eq_ok.mp h with ⟨⟨totals, dropped⟩, hdropped, h⟩
  rcases bind_eq_ok.mp h with ⟨generation, _, h⟩
  rcases bind_eq_ok.mp h with ⟨recorded, hrecorded, h⟩
  rcases bind_eq_ok.mp hrecorded with ⟨operations, hoperations, hrecorded⟩
  cases hrecorded
  cases h
  have hbytes := Db.pruneBlobs_reclaimed
    (Db.prunedReferences_exact db authority.userId request.resourceId)
    hdropped
  rcases Db.pruneBlobs_eq_ok hdropped with ⟨marked, hmarked⟩
  have hkept : forall row, row ∈ dropped.snapshots ->
      row.resourceId ≠ request.resourceId ->
      dropped.snapshotVisible authority.userId row = true ->
        ((db.prunableRevisions authority.userId request.resourceId).foldl
            (Db.pruneSnapshot authority.userId request.resourceId)
            dropped).revisionBlobs.filter
            (fun reached => decide (reached.revisionId = row.revisionId)) =
          dropped.revisionBlobs.filter fun reached =>
            decide (reached.revisionId = row.revisionId) :=
    fun row => Db.pruneSnapshots_keep
  rcases Db.pruneSnapshots_eq authority.userId request.resourceId
      (db.prunableRevisions authority.userId request.resourceId) dropped with
    ⟨revisionBlobs, hpruned, _⟩
  rw [hpruned, hmarked] at hkept hoperations
  rw [hpruned, hmarked]
  constructor
  · rfl
  · show totals.reclaimedBytes = _
    rw [hbytes]
    refine (Nat.zero_add _).trans ?_
    exact CountTable.freed_congr (Db.prunedReferences_exact _ _ _)
      (Db.pruneRefs_exact _ _ _) (Db.count_prunedReferences _ _ _)
      fun _ _ => rfl
  · constructor
    · rfl
    · rfl
    · rfl
    · rfl
    · rfl
    · rfl
    · rfl
    · rfl
    · rfl
    · rfl
    · exact map_undated_resources _ _ _
    · exact map_undated_workspaces _ _ _
  · rfl
  · rfl
  · intro resourceId hother
    show List.filter _ (deleteWhere _ db.snapshots) = _
    unfold deleteWhere
    rw [List.filter_filter]
    apply List.filter_congr
    intro row _
    by_cases hrow : row.resourceId = resourceId
    · simp [hrow, hother]
    · simp [hrow]
  · intro row hrow hother hvisible
    exact hkept row hrow hother hvisible
  · exact ⟨_, (Db.recordOperation_eq_ok hoperations).1, rfl⟩

end Registry

/-!
## What one prune leaves to the others
-/

namespace Db

/-- The skills of a namespace that can be pruned. -/
def isActiveSkill (db : Db) (namespaceId : Uuid) (row : ResourceRow) : Bool :=
  decide (row.ownerNamespaceId = namespaceId) && decide (row.kind = .skill) &&
    !row.deleted && !db.quarantined row.id

def activeSkills (db : Db) (namespaceId : Uuid) : List Uuid :=
  (db.resources.filter (db.isActiveSkill namespaceId)).map ResourceRow.id

section Owners

variable {db db' : Db} {authority : UserAuthority} {row : ResourceRow}

/-- The user of an authority owns its namespace. -/
theorem ownsNamespace_of_authority
    (h : db.directory.userAuthority authority.userId = .ok authority) :
    db.directory.ownsNamespace authority.userId authority.namespaceId =
      true := by
  rcases Directory.userAuthority_eq_ok h with
    ⟨user, huser, hid, _, hspace, _⟩
  unfold Directory.ownsNamespace
  rw [List.any_eq_true]
  exact ⟨user, huser, decide_eq_true ⟨hid, hspace.symm⟩⟩

theorem hasNamespaceAccess_of_authority
    (h : db.directory.userAuthority authority.userId = .ok authority) :
    db.directory.hasNamespaceAccess authority.userId authority.namespaceId =
      true := by
  unfold Directory.hasNamespaceAccess
  rw [ownsNamespace_of_authority h, Bool.true_or]

theorem ownerKind_of_authority
    (h : db.directory.userAuthority authority.userId = .ok authority)
    (howner : row.ownerNamespaceId = authority.namespaceId) :
    db.ownerKind row = some .user := by
  rcases Directory.userAuthority_eq_ok h with
    ⟨user, huser, _, _, hspace, _⟩
  rcases db.directory.usersPersonal user huser with
    ⟨space, hmem, hid, hkind⟩
  have hfind := find?_key_eq_some db.directory.namespaceKey hmem
  rw [hid, ← hspace] at hfind
  unfold ownerKind Directory.namespaceById
  rw [howner, hfind, Option.map_some, hkind]

/-- The owner reads every snapshot of an active skill. -/
theorem canReadRevisionSnapshot_of_active
    (hkeys : (db.resources.map ResourceRow.id).Nodup)
    (h : db.directory.userAuthority authority.userId = .ok authority)
    (hrow : row ∈ db.resources)
    (hactive : db.isActiveSkill authority.namespaceId row = true)
    (revision : RevisionId) :
    db.canReadRevisionSnapshot authority.userId row.id revision = true := by
  have hfind : db.findResource row.id = some row :=
    find?_key_eq_some hkeys hrow
  simp only [isActiveSkill, Bool.and_eq_true, decide_eq_true_eq,
    Bool.not_eq_true'] at hactive
  unfold canReadRevisionSnapshot
  rw [hfind, Option.any_some, hactive.1.2, hactive.2,
    ownerKind_of_authority h hactive.1.1.1, hactive.1.1.1,
    hasNamespaceAccess_of_authority h]
  simp

/-- The reader of a skill in the namespace is its owner. -/
theorem canReadResource_of_owned
    (hkeys : (db.resources.map ResourceRow.id).Nodup)
    (h : db.directory.userAuthority authority.userId = .ok authority)
    (hrow : row ∈ db.resources)
    (howner : row.ownerNamespaceId = authority.namespaceId) :
    db.canReadResource authority.userId row.id = true := by
  have hfind : db.findResource row.id = some row :=
    find?_key_eq_some hkeys hrow
  unfold canReadResource
  rw [hfind, Option.any_some, howner, hasNamespaceAccess_of_authority h]
  simp

end Owners

end Db

section Others

variable {db db' : Db} {user id : Uuid}

theorem filter_and {α : Type} (p q : α -> Bool) (rows : List α) :
    rows.filter (fun row => p row && q row) = (rows.filter p).filter q := by
  rw [List.filter_filter]
  apply List.filter_congr
  intro row _
  exact Bool.and_comm _ _

/-- A skill keeps its prunable revisions while its snapshots stay. -/
theorem SameRows.prunableRevisions (h : SameRows db db')
    (hsnapshots :
      db'.snapshots.filter (fun row => decide (row.resourceId = id)) =
        db.snapshots.filter fun row => decide (row.resourceId = id)) :
    db'.prunableRevisions user id = db.prunableRevisions user id := by
  unfold Db.prunableRevisions
  rw [filter_and, filter_and, hsnapshots]
  have hvisible : db'.snapshotVisible user = db.snapshotVisible user :=
    funext (h.snapshotVisible user)
  rw [hvisible]
  congr 1
  funext row
  have hworkspaces : forall (p : WorkspaceRow -> Bool),
      (forall workspace, p workspace.undated = p workspace) ->
        (db'.workspaces.filter p).map (fun _ => row.revisionId) =
          (db.workspaces.filter p).map fun _ => row.revisionId := by
    intro p hp
    have hcomp : p ∘ WorkspaceRow.undated = p := funext hp
    have hrows := congrArg (fun rows => (List.filter p rows).map
      fun _ => row.revisionId) h.workspaces
    simp only [List.filter_map, hcomp, List.map_map] at hrows
    exact hrows
  have hsame := hworkspaces (fun workspace =>
    decide (workspace.resourceId = id) &&
      db.canReadWorkspace user workspace &&
        workspace.revisionId != row.revisionId &&
          !db.needed user id row.revisionId) fun _ => rfl
  rw [← hsame]
  congr 1
  apply List.filter_congr
  intro workspace _
  rw [h.canReadWorkspace, h.needed]

/-- A prunable revision has a snapshot. -/
theorem Db.snapshot_of_prunable {revision : RevisionId}
    (h : revision ∈ db.prunableRevisions user id) :
    exists row, row ∈ db.snapshots ∧ row.resourceId = id ∧
      row.revisionId = revision ∧ db.snapshotVisible user row = true := by
  rcases List.mem_flatMap.mp h with ⟨row, hrow, hmem⟩
  rcases List.mem_map.mp hmem with ⟨workspace, _, hrevision⟩
  rcases List.mem_filter.mp hrow with ⟨hsnapshot, hkeys⟩
  rw [Bool.and_eq_true, decide_eq_true_eq] at hkeys
  exact ⟨row, hsnapshot, hkeys.1, hrevision, hkeys.2⟩

theorem Db.canReadRevision_of_snapshot {row : SnapshotRow}
    (hrow : row ∈ db.snapshots)
    (hread : db.canReadRevisionSnapshot user row.resourceId row.revisionId =
      true) : db.canReadRevision user row.revisionId = true := by
  unfold Db.canReadRevision
  rw [Bool.or_eq_true]
  refine .inl (List.any_eq_true.mpr ⟨row, hrow, ?_⟩)
  rw [hread, decide_eq_true rfl]
  rfl

/-- The prunable revisions of one skill reach the same blobs after another
skill is pruned. -/
theorem PruneAnswered.readableBlobs {authority : UserAuthority}
    {request : ResourceLifecycleRequest} {answer : HistoryPruneResponse}
    (h : PruneAnswered authority request answer db db')
    (hother : id ≠ request.resourceId)
    (hread : forall revision,
      db.canReadRevisionSnapshot authority.userId id revision = true)
    {revision : RevisionId}
    (hrevision : revision ∈ db.prunableRevisions authority.userId id) :
    db'.readableBlobs authority.userId revision =
      db.readableBlobs authority.userId revision := by
  rcases Db.snapshot_of_prunable hrevision with
    ⟨row, hrow, rfl, rfl, hvisible⟩
  have hbefore := Db.canReadRevision_of_snapshot hrow (hread row.revisionId)
  have hstill : row ∈ db'.snapshots := by
    have hmem : row ∈ db'.snapshots.filter fun other =>
        decide (other.resourceId = row.resourceId) := by
      rw [h.others row.resourceId hother]
      exact List.mem_filter.mpr ⟨hrow, decide_eq_true rfl⟩
    exact (List.mem_filter.mp hmem).1
  have hafter := Db.canReadRevision_of_snapshot hstill
    ((h.same.canReadRevisionSnapshot _ _ _).trans (hread row.revisionId))
  unfold Db.readableBlobs
  simp only [hbefore, hafter, Bool.and_true]
  rw [h.kept row hrow hother hvisible]

end Others

namespace Registry

/-- The collector only drops blobs that nothing reaches. -/
theorem collectBlobs_eq (blobs : List BlobId) (db : Db) :
    exists canonicalBlobGc canonicalBlobs,
      collectBlobs blobs db = { db with canonicalBlobGc, canonicalBlobs } ∧
        forall blob, blobReachable db blob = true ->
          (collectBlobs blobs db).blobSize blob = db.blobSize blob := by
  induction blobs generalizing db with
  | nil => exact ⟨_, _, rfl, fun _ _ => rfl⟩
  | cons blob rest ih =>
      unfold collectBlobs
      cases hround : drainBlobGc blob db with
      | error error => exact ⟨_, _, rfl, fun _ _ => rfl⟩
      | ok result =>
          rcases result with ⟨key, middle⟩
          rcases drainBlobGc_eq_ok hround with
            ⟨marked, canonical, rfl, hcanonical⟩
          rcases ih { db with
            canonicalBlobGc := marked, canonicalBlobs := canonical } with
            ⟨marked', canonical', hrest, hsizes⟩
          refine ⟨marked', canonical', hrest, ?_⟩
          intro other hreachable
          refine (hsizes other hreachable).trans ?_
          rcases hcanonical with rfl | ⟨rfl, hgone, _⟩
          · rfl
          · have hne : other ≠ blob := by
              rintro rfl
              rw [hgone] at hreachable
              cases hreachable
            unfold Db.blobSize deleteWhere
            congr 1
            rw [List.find?_filter]
            congr 1
            funext row
            by_cases hrow : row.blobId = other
            · simp [hrow, hne]
            · simp [hrow]

end Registry

/-!
## Prunes in turn
-/

section Turns

variable {registry : Registry} {db db' : Db} {authority : UserAuthority}

/-- A prune under a new operation identifier prunes. -/
theorem pruneSkillHistory_answered {userId : Uuid}
    {request : ResourceLifecycleRequest} {answer : HistoryPruneResponse}
    (hauthority : db.directory.userAuthority userId = .ok authority)
    (hnew : Db.findOperation db.lifecycleOperations authority.userId
      request.operationId = none)
    (h : registry.pruneSkillHistory userId request db = .ok (answer, db')) :
    PruneAnswered authority request answer db db' := by
  rcases bind_eq_ok.mp h with ⟨found, hfound, h⟩
  rw [hauthority] at hfound
  cases hfound
  rcases bind_eq_ok.mp h with ⟨_, _, h⟩
  rcases bind_eq_ok.mp h with ⟨replay, hreplay, h⟩
  unfold Db.replayLifecycleOperation at hreplay
  rw [hnew] at hreplay
  cases hreplay
  exact Registry.pruneOwnedSkill_answered h

/-- What one prune reclaims and what is reclaimable after it make up what was
reclaimable before it. -/
theorem PruneAnswered.reclaimable_append {request : ResourceLifecycleRequest}
    {answer : HistoryPruneResponse} {after : Db} {rest : List RevisionId}
    (h : PruneAnswered authority request answer db db')
    (hafter : after.namespaceBlobs = db'.namespaceBlobs)
    (hsizes : forall blob,
      (after.namespaceBlobs.get? (authority.namespaceId, blob)).isSome ->
        after.blobSize blob = db.blobSize blob)
    (hblobs : forall revision, revision ∈ rest ->
      after.readableBlobs authority.userId revision =
        db.readableBlobs authority.userId revision) :
    db.reclaimable authority.userId authority.namespaceId
        (db.prunableRevisions authority.userId request.resourceId ++ rest) =
      answer.reclaimedBytes +
        after.reclaimable authority.userId authority.namespaceId rest := by
  have hinjective : Function.Injective fun blob : BlobId =>
      (authority.namespaceId, blob) := by
    intro a b hab
    exact (Prod.mk.inj hab).2
  have hrest : rest.flatMap (after.readableBlobs authority.userId) =
      rest.flatMap (db.readableBlobs authority.userId) :=
    List.flatMap_congr hblobs
  have hcount : forall blob,
      CountTable.count (db.pruneRefs authority.userId
          (db.prunableRevisions authority.userId request.resourceId ++
            rest)) blob =
        CountTable.count
            (db.prunedReferences authority.userId request.resourceId) blob +
          CountTable.count (after.pruneRefs authority.userId rest) blob := by
    intro blob
    rw [Db.count_prunedReferences, Db.count_pruneRefs, Db.count_pruneRefs,
      Db.count_pruneRefs, hrest, List.flatMap_append, List.count_append]
  have hsplit := CountTable.freed_add db.namespaceBlobs
    (fun blob => (db.blobSize blob).getD 0)
    (Db.pruneRefs_exact db authority.userId _)
    (Db.prunedReferences_exact db authority.userId request.resourceId)
    (Db.pruneRefs_exact after authority.userId rest) hcount hinjective
  rw [h.bytes]
  unfold Db.reclaimable
  rw [hsplit]
  congr 1
  · exact CountTable.freed_congr (Db.prunedReferences_exact _ _ _)
      (Db.pruneRefs_exact _ _ _) (Db.count_prunedReferences _ _ _)
      fun _ _ => rfl
  · rw [← h.namespaceBlobs, ← hafter]
    refine CountTable.freed_congr (Db.pruneRefs_exact _ _ _)
      (Db.pruneRefs_exact _ _ _) (fun _ => rfl) ?_
    intro blob hblob
    rw [hsizes blob hblob]

/-- Prunes of different skills under new operation identifiers answer, summed
up, what their revisions were and what was reclaimable with them. -/
theorem pruneEach_sums {calls : List Registry.PruneCall}
    {answers : List HistoryPruneResponse}
    (hauthority : db.directory.userAuthority authority.userId =
      .ok authority)
    (hskills : (calls.map fun call => call.request.resourceId).Nodup)
    (hoperations : (calls.map fun call => call.request.operationId).Nodup)
    (hread : forall call, call ∈ calls -> forall revision,
      db.canReadRevisionSnapshot authority.userId call.request.resourceId
        revision = true)
    (hnew : forall call, call ∈ calls ->
      Db.findOperation db.lifecycleOperations authority.userId
        call.request.operationId = none)
    (h : registry.pruneEach authority.userId calls db = .ok (answers, db')) :
    (answers.map HistoryPruneResponse.prunedRevisions).sum =
        (calls.flatMap fun call => db.prunableRevisions authority.userId
          call.request.resourceId).length ∧
      (answers.map HistoryPruneResponse.reclaimedBytes).sum =
        db.reclaimable authority.userId authority.namespaceId
          (calls.flatMap fun call => db.prunableRevisions authority.userId
            call.request.resourceId) := by
  induction calls generalizing db answers with
  | nil =>
      cases h
      exact ⟨rfl, rfl⟩
  | cons call rest ih =>
      rcases bind_eq_ok.mp h with ⟨⟨answer, pruned⟩, hprune, h⟩
      rcases bind_eq_ok.mp h with ⟨⟨others, last⟩, hrest, h⟩
      cases h
      have hanswered := pruneSkillHistory_answered hauthority
        (hnew call List.mem_cons_self) hprune
      rcases Registry.collectBlobs_eq call.collected pruned with
        ⟨marked, canonical, hcollected, hsizes⟩
      rcases List.nodup_cons.mp hskills with ⟨hskill, hskills⟩
      rcases List.nodup_cons.mp hoperations with ⟨hoperation, hoperations⟩
      have hother : forall other, other ∈ rest ->
          other.request.resourceId ≠ call.request.resourceId := by
        intro other hmem hsame
        exact hskill (List.mem_map.mpr ⟨other, hmem, hsame⟩)
      have hsame : SameRows db
          (Registry.collectBlobs call.collected pruned) := by
        rw [hcollected]
        exact ⟨hanswered.same.directory, hanswered.same.quarantines,
          hanswered.same.shares, hanswered.same.subscriptions,
          hanswered.same.releases, hanswered.same.proposals,
          hanswered.same.conflicts, hanswered.same.packRevisionMembers,
          hanswered.same.revisionParents, hanswered.same.revisions,
          hanswered.same.resources, hanswered.same.workspaces⟩
      have hprunable : forall other, other ∈ rest ->
          (Registry.collectBlobs call.collected pruned).prunableRevisions
              authority.userId other.request.resourceId =
            db.prunableRevisions authority.userId
              other.request.resourceId := by
        intro other hmem
        apply hsame.prunableRevisions
        rw [hcollected]
        exact hanswered.others _ (hother other hmem)
      have hrevisions : rest.flatMap (fun other =>
            (Registry.collectBlobs call.collected pruned).prunableRevisions
              authority.userId other.request.resourceId) =
          rest.flatMap fun other =>
            db.prunableRevisions authority.userId other.request.resourceId :=
        List.flatMap_congr hprunable
      have hknown : (Registry.collectBlobs call.collected
          pruned).directory.userAuthority authority.userId =
            .ok authority := by
        rw [hsame.directory]
        exact hauthority
      have hsums := ih hknown hskills hoperations ?_ ?_ hrest
      · rw [hrevisions] at hsums
        rw [List.map_cons, List.map_cons, List.sum_cons, List.sum_cons,
          hsums.1, hsums.2, hanswered.revisions, List.flatMap_cons,
          List.length_append]
        refine ⟨rfl, (hanswered.reclaimable_append ?_ ?_ ?_).symm⟩
        · rw [hcollected]
        · intro blob hblob
          rw [hsizes blob ?_]
          · unfold Db.blobSize
            rw [hanswered.canonicalBlobs]
          · rw [hcollected] at hblob
            rcases Option.isSome_iff_exists.mp hblob with ⟨n, hn⟩
            unfold Registry.blobReachable
            rw [Bool.or_eq_true]
            exact .inr (List.any_eq_true.mpr
              ⟨_, CountTable.mem_of_get?_eq_some hn, decide_eq_true rfl⟩)
        · intro revision hrevision
          rcases List.mem_flatMap.mp hrevision with ⟨other, hmem, hmember⟩
          have hsaw := hanswered.readableBlobs (hother other hmem)
            (hread other (List.mem_cons_of_mem _ hmem)) hmember
          rw [hcollected]
          exact hsaw
      · intro other hmem revision
        rw [hsame.canReadRevisionSnapshot]
        exact hread other (List.mem_cons_of_mem _ hmem) revision
      · intro other hmem
        rcases hanswered.operations with ⟨operation, hrows, hid⟩
        rw [hcollected]
        show Db.findOperation pruned.lifecycleOperations _ _ = none
        rw [hrows]
        unfold Db.findOperation
        rw [find?_concat]
        · exact hnew other (List.mem_cons_of_mem _ hmem)
        · have hne : call.request.operationId ≠
              other.request.operationId := by
            intro hsame
            exact hoperation (List.mem_map.mpr ⟨other, hmem, hsame.symm⟩)
          simp [hid, hne]

end Turns

/-!
## When usage predicts the prunes
-/

/-- Every active skill of the user is pruned once, in some order, under new
operation identifiers, and every prune is answered. -/
structure PrunesAll (registry : Registry) (authority : UserAuthority)
    (calls : List Registry.PruneCall) (answers : List HistoryPruneResponse)
    (db db' : Db) : Prop where
  every : (calls.map fun call => call.request.resourceId).Perm
    (db.activeSkills authority.namespaceId)
  operations : (calls.map fun call => call.request.operationId).Nodup
  fresh : forall call, call ∈ calls ->
    Db.findOperation db.lifecycleOperations authority.userId
      call.request.operationId = none
  answered : registry.pruneEach authority.userId calls db =
    .ok (answers, db')

/-- The report of the usage is what the prunes then do. -/
def PredictsPrunes (report : UsageResponse)
    (answers : List HistoryPruneResponse) : Prop :=
  report.prunablePrivateRevisions =
      (answers.map HistoryPruneResponse.prunedRevisions).sum ∧
    report.prunableBytes =
      (answers.map HistoryPruneResponse.reclaimedBytes).sum

section Prediction

variable {registry : Registry} {db db' : Db} {authority : UserAuthority}

/-- The owner of a quarantined skill sees none of its snapshots. -/
theorem Db.prunableRevisions_of_quarantined {user : Uuid} {row : ResourceRow}
    (hkeys : (db.resources.map ResourceRow.id).Nodup)
    (hrow : row ∈ db.resources) (hlive : row.deleted = false)
    (hquarantined : db.quarantined row.id = true) :
    db.prunableRevisions user row.id = [] := by
  have hfind : db.findResource row.id = some row :=
    find?_key_eq_some hkeys hrow
  have hhidden : forall revision,
      db.canReadRevisionSnapshot user row.id revision = false := by
    intro revision
    unfold Db.canReadRevisionSnapshot Db.canReadTombstone
    rw [hfind, Option.any_some, Option.any_some, hquarantined, hlive]
    simp
  have hunmanaged : db.canManageResource user row.id = false := by
    unfold Db.canManageResource
    rw [hquarantined]
    simp
  refine List.eq_nil_iff_forall_not_mem.mpr ?_
  intro revision hrevision
  rcases Db.snapshot_of_prunable hrevision with
    ⟨snapshot, _, hsnapshot, _, hvisible⟩
  unfold Db.snapshotVisible at hvisible
  rw [hsnapshot, hhidden, hunmanaged] at hvisible
  cases hvisible

/-- The rows of a namespace: those that can be pruned, and the others. -/
theorem Db.namespaceResources_perm
    (hkeys : (db.resources.map ResourceRow.id).Nodup)
    (hauthority : db.directory.userAuthority authority.userId =
      .ok authority) :
    (db.namespaceResources authority.userId authority.namespaceId).Perm
      (db.resources.filter (db.isActiveSkill authority.namespaceId) ++
        db.resources.filter fun row =>
          decide (row.ownerNamespaceId = authority.namespaceId) &&
            !db.isActiveSkill authority.namespaceId row) := by
  have howned : db.namespaceResources authority.userId
        authority.namespaceId =
      db.resources.filter fun row =>
        decide (row.ownerNamespaceId = authority.namespaceId) := by
    unfold Db.namespaceResources
    apply List.filter_congr
    intro row hrow
    by_cases howner : row.ownerNamespaceId = authority.namespaceId
    · rw [Db.canReadResource_of_owned hkeys hauthority hrow howner,
        Bool.and_true]
    · simp [howner]
  have hactive : db.resources.filter
        (db.isActiveSkill authority.namespaceId) =
      (db.resources.filter fun row =>
        decide (row.ownerNamespaceId = authority.namespaceId)).filter
          (db.isActiveSkill authority.namespaceId) := by
    rw [List.filter_filter]
    apply List.filter_congr
    intro row _
    unfold Db.isActiveSkill
    by_cases howner : row.ownerNamespaceId = authority.namespaceId
    · simp [howner]
    · simp [howner]
  rw [howned, hactive, filter_and]
  exact (List.filter_append_perm _ _).symm

theorem Db.canReadRevisionSnapshot_of_activeSkills
    (hkeys : (db.resources.map ResourceRow.id).Nodup)
    (hauthority : db.directory.userAuthority authority.userId =
      .ok authority) {id : Uuid}
    (hid : id ∈ db.activeSkills authority.namespaceId)
    (revision : RevisionId) :
    db.canReadRevisionSnapshot authority.userId id revision = true := by
  rcases List.mem_map.mp hid with ⟨row, hrow, rfl⟩
  rcases List.mem_filter.mp hrow with ⟨hmem, hactive⟩
  exact Db.canReadRevisionSnapshot_of_active hkeys hauthority hmem hactive
    revision

end Prediction

/-!
## A deleted skill

A user imports a skill and saves it once, so that the imported revision can be
pruned.  Then the user deletes the skill.
-/

namespace Sample

def deletionHash : RequestHash :=
  digestOfNat
    0x033eabd27877cf7de6aacf03af45693acb705735804de1e0ec81593fe8dd0a86

def pruneHash : RequestHash :=
  digestOfNat
    0xdd51ed85592e9f3693288a8141b79dc0d15fd371fb5892fce0145f03b2f58fb5

def measured : Registry :=
  registryOf saveDigests
    ((uuid 17, deletionHash) :: (uuid 18, pruneHash) :: saveHashes)

/-- The import and the save that follows it. -/
def measuredCalls : List SaveCall :=
  [ importCall, .commitImport store amy.id (commitOf 5),
    saveCall 6 1 imported [imported], commitCall 6, .write 0 (uuid 8) ]

def savedOnce : Db :=
  ((Server.empty measured directory).play measuredCalls).2.db

def lifecycleOf (operation : UInt8) (hash : RequestHash) :
    ResourceLifecycleRequest where
  operationId := operationId operation
  resourceId := uuid 4
  expectedGeneration := 2
  requestHash := hash

def amySignedIn : UserAuthority where
  userId := amy.id
  namespaceId := amy.namespaceId
  namespaceSlug := "amy".toList
  authorPrincipalId := amy.authorPrincipalId

def deletedOnce : Db :=
  match measured.deleteSkill amy.id (lifecycleOf 17 deletionHash) savedOnce with
  | .ok (_, db) => db
  | .error _ => savedOnce

end Sample

end Denju
