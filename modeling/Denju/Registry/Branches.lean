import Denju.Registry.Commit
import Denju.Registry.History
import Denju.Lib.Divergence

/-!
# Workspaces as branches

The workspace of a user of a skill is a branch: its head, the snapshots that
the skill retains, and the unresolved conflict.  This module reads back what a
commit does to the database, and shows that it moves the branch.
-/

namespace Denju

open Lib

/-!
## Unresolved conflicts
-/

def WorkspaceConflictRow.conflict (row : WorkspaceConflictRow) :
    Conflict RevisionId where
  base := row.baseRevisionId
  left := row.headARevisionId
  right := row.headBRevisionId

namespace Db

theorem unresolvedFor_eq_true {resourceId user : Uuid}
    {row : WorkspaceConflictRow} :
    unresolvedFor resourceId user row = true <->
      row.resourceId = resourceId ∧ row.workspaceUserId = user ∧
        row.resolutionRevisionId = none := by
  simp [unresolvedFor, and_assoc]

/-- A user has at most one unresolved conflict in a skill. -/
def OneConflict (conflicts : List WorkspaceConflictRow) : Prop :=
  forall resourceId user,
    (conflicts.filter (unresolvedFor resourceId user)).length ≤ 1

variable {db db' : Db} {resourceId user : Uuid}

theorem OneConflict.eq {conflicts : List WorkspaceConflictRow}
    (h : OneConflict conflicts) {a b : WorkspaceConflictRow}
    (ha : a ∈ conflicts) (hb : b ∈ conflicts)
    (hua : unresolvedFor resourceId user a = true)
    (hub : unresolvedFor resourceId user b = true) : a = b := by
  have hmema := List.mem_filter.mpr ⟨ha, hua⟩
  have hmemb := List.mem_filter.mpr ⟨hb, hub⟩
  have hlength := h resourceId user
  match hrows : conflicts.filter (unresolvedFor resourceId user) with
  | [] =>
      rw [hrows] at hmema
      cases hmema
  | [row] =>
      rw [hrows] at hmema hmemb
      rw [List.mem_singleton.mp hmema, List.mem_singleton.mp hmemb]
  | _ :: _ :: _ =>
      rw [hrows] at hlength
      simp at hlength

theorem activeConflict_eq_some {row : WorkspaceConflictRow}
    (h : db.activeConflict resourceId user = some row) :
    row ∈ db.conflicts ∧ unresolvedFor resourceId user row = true :=
  ⟨List.mem_of_find?_eq_some h, List.find?_some h⟩

theorem activeConflict_of_mem (hone : OneConflict db.conflicts)
    {row : WorkspaceConflictRow} (hrow : row ∈ db.conflicts)
    (hunresolved : unresolvedFor resourceId user row = true) :
    db.activeConflict resourceId user = some row := by
  cases hactive : db.activeConflict resourceId user with
  | none =>
      have habsent := List.find?_eq_none.mp hactive row hrow
      exact absurd hunresolved habsent
  | some other =>
      have hother := activeConflict_eq_some hactive
      rw [hone.eq hother.1 hrow hother.2 hunresolved]

theorem validateMergeConflict_eq_ok {conflictId : Uuid}
    {parents : List RevisionId}
    (h : db.validateMergeConflict conflictId resourceId user parents =
      .ok ()) :
    exists row, row ∈ db.conflicts ∧ row.conflictId = conflictId ∧
      unresolvedFor resourceId user row = true ∧
        parents = [row.headARevisionId, row.headBRevisionId] := by
  rcases bind_eq_ok.mp h with ⟨_, _, h⟩
  rcases bind_eq_ok.mp h with ⟨row, hrow, h⟩
  have hfind := okOr_eq_ok.mp hrow
  have hkeys := List.find?_some hfind
  simp only [Bool.and_eq_true, decide_eq_true_eq] at hkeys
  refine ⟨row, List.mem_of_find?_eq_some hfind, hkeys.1, hkeys.2, ?_⟩
  have hparents := ensure_eq_ok.mp h
  exact (beq_iff_eq.mp hparents).symm

/-- A conflict row that a transaction has just recorded. -/
structure Raised (newConflictId resourceId user : Uuid)
    (base detached active : RevisionId)
    (conflicts : List WorkspaceConflictRow) (row : WorkspaceConflictRow) :
    Prop where
  unresolved : unresolvedFor resourceId user row = true
  conflictId : row.conflictId = newConflictId
  fresh : forall other, other ∈ conflicts ->
    other.conflictId ≠ newConflictId
  base : row.baseRevisionId = base
  heads : (row.headARevisionId, row.headBRevisionId) =
    sortedHeads detached active
  distinct : row.headARevisionId ≠ row.headBRevisionId

theorem Raised.head_cases {newConflictId : Uuid}
    {base detached active : RevisionId}
    {conflicts : List WorkspaceConflictRow} {row : WorkspaceConflictRow}
    (h : Raised newConflictId resourceId user base detached active conflicts
      row) :
    row.headARevisionId = detached ∧ row.headBRevisionId = active ∨
      row.headARevisionId = active ∧ row.headBRevisionId = detached := by
  have hheads := h.heads
  unfold sortedHeads at hheads
  split at hheads
  · exact .inl (Prod.mk.inj hheads)
  · exact .inr (Prod.mk.inj hheads)

theorem recordWorkspaceConflict_eq_ok {newConflictId : Uuid}
    {base detached active : RevisionId} {generation : Generation}
    {conflict : PrivateWorkspaceConflict}
    (h : db.recordWorkspaceConflict newConflictId resourceId user base
      detached active generation = .ok (conflict, db'))
    (hnone : db.activeConflict resourceId user = none) :
    exists row, db' = { db with conflicts := db.conflicts ++ [row] } ∧
      Raised newConflictId resourceId user base detached active db.conflicts
        row := by
  unfold recordWorkspaceConflict at h
  dsimp only at h
  split at h
  · rename_i row hrow
    have hpair := List.find?_some hrow
    simp only [Bool.and_eq_true] at hpair
    have habsent := List.find?_eq_none.mp hnone row
      (List.mem_of_find?_eq_some hrow)
    exact absurd hpair.1 habsent
  · rcases bind_eq_ok.mp h with ⟨_, hdistinct, h⟩
    rcases bind_eq_ok.mp h with ⟨_, _, h⟩
    rcases bind_eq_ok.mp h with ⟨_, hfresh, h⟩
    cases h
    refine ⟨_, rfl, ?_⟩
    constructor
    · simp [unresolvedFor]
    · rfl
    · intro row hrow hid
      have hkeys := ensure_eq_ok.mp hfresh
      simp only [Bool.not_eq_true', List.any_eq_false, decide_eq_true_eq]
        at hkeys
      exact hkeys row hrow hid
    · rfl
    · rfl
    · simpa using hdistinct

/-- The head checks of a commit leave three cases: a plain move of the head, a
merge of the unresolved conflict, and a divergence. -/
inductive CommitCase (db : Db) (user : Uuid)
    (operation : RevisionOperationRow) (parents : List RevisionId)
    (forkSync : Option ValidatedForkSync) (workspace : WorkspaceRow) :
    Prop where
  | advance : workspace.revisionId = operation.expectedHeadRevisionId ->
      workspace.generation = operation.expectedGeneration ->
      db.activeConflict operation.resourceId user = none ->
      (parents.length == 2 && forkSync.isNone) = false ->
        CommitCase db user operation parents forkSync workspace
  | merge (row : WorkspaceConflictRow) :
      workspace.revisionId = operation.expectedHeadRevisionId ->
      workspace.generation = operation.expectedGeneration ->
      row ∈ db.conflicts -> row.conflictId = operation.operationId.asUuid ->
      unresolvedFor operation.resourceId user row = true ->
      parents = [row.headARevisionId, row.headBRevisionId] ->
      forkSync = none ->
        CommitCase db user operation parents forkSync workspace
  | diverge : workspace.revisionId ≠ operation.expectedHeadRevisionId ->
      db.activeConflict operation.resourceId user = none ->
      parents.length = 1 -> forkSync = none ->
        CommitCase db user operation parents forkSync workspace

theorem checkActiveConflict_eq_ok {operation : RevisionOperationRow}
    {parents : List RevisionId} {forkSync : Option ValidatedForkSync}
    (h : db.checkActiveConflict user operation parents forkSync = .ok ()) :
    db.activeConflict operation.resourceId user = none ∨
      (forkSync = none ∧ parents.length = 2 ∧
        exists row, db.activeConflict operation.resourceId user = some row ∧
          operation.operationId.asUuid = row.conflictId) := by
  unfold checkActiveConflict at h
  split at h
  · rename_i hnone
    exact .inl hnone
  · rename_i row hrow
    simp only [ensure_eq_ok, Bool.and_eq_true, beq_iff_eq,
      Option.isNone_iff_eq_none] at h
    exact .inr ⟨h.1.1, h.1.2, row, hrow, h.2⟩

theorem checkCommitHead_eq_ok {authority : UserAuthority}
    {operation : RevisionOperationRow} {parents : List RevisionId}
    {forkSync : Option ValidatedForkSync} {workspace : WorkspaceRow}
    (h : db.checkCommitHead authority operation parents forkSync workspace =
      .ok ()) :
    CommitCase db authority.userId operation parents forkSync workspace := by
  unfold checkCommitHead at h
  rcases bind_eq_ok.mp h with ⟨_, hconflict, h⟩
  rcases bind_eq_ok.mp h with ⟨_, hgeneration, h⟩
  rcases bind_eq_ok.mp h with ⟨_, hsync, h⟩
  rcases bind_eq_ok.mp h with ⟨_, hparents, h⟩
  have hactive := checkActiveConflict_eq_ok hconflict
  simp only [ensure_eq_ok, Bool.or_eq_true, Bool.not_eq_true', beq_iff_eq,
    Option.isNone_iff_eq_none] at hgeneration hsync hparents
  by_cases hhead : workspace.revisionId = operation.expectedHeadRevisionId
  · have hmatches : (workspace.revisionId ==
        operation.expectedHeadRevisionId) = true := beq_iff_eq.mpr hhead
    have hsame : workspace.generation = operation.expectedGeneration := by
      rw [hmatches] at hgeneration
      exact hgeneration.resolve_left (by simp)
    cases hlength : parents.length == 2 with
    | false =>
        refine .advance hhead hsame (hactive.resolve_right ?_) (by simp [hlength])
        rintro ⟨_, htwo, _⟩
        simp [htwo] at hlength
    | true =>
        simp only [hmatches, hlength, Bool.and_self, ↓reduceIte] at h
        cases forkSync with
        | some sync =>
            refine .advance hhead hsame (hactive.resolve_right ?_) (by simp)
            rintro ⟨hnone, _, _⟩
            cases hnone
        | none =>
            rcases validateMergeConflict_eq_ok h with
              ⟨row, hrow, hid, hunresolved, hheads⟩
            exact .merge row hhead hsame hrow hid hunresolved hheads rfl
  · have hlength : parents.length = 1 := hparents.resolve_left hhead
    refine .diverge hhead (hactive.resolve_right ?_) hlength
      (hsync.resolve_left hhead)
    rintro ⟨_, htwo, _⟩
    omega

/-!
## Storing a commit
-/

/-- The skill keeps an archive of the revision. -/
def Retains (snapshots : List SnapshotRow) (resourceId : Uuid)
    (revision : RevisionId) : Prop :=
  exists row, row ∈ snapshots ∧ row.resourceId = resourceId ∧
    row.revisionId = revision

theorem insertParents_table {a b : Db}
    (h : a.revisionParents = b.revisionParents) (revision : RevisionId)
    (parents : List RevisionId) :
    (a.insertParents revision parents).revisionParents =
      (b.insertParents revision parents).revisionParents := by
  unfold insertParents
  generalize parentRows revision parents = rows
  induction rows generalizing a b with
  | nil => exact h
  | cons row rest ih =>
      refine ih ?_
      unfold insertParent
      rw [h]
      split
      · exact h
      · rfl

theorem insertSnapshot_retains {row : SnapshotRow}
    (h : db.insertSnapshot row = .ok db') (resourceId : Uuid)
    (revision : RevisionId) :
    Retains db'.snapshots resourceId revision <->
      Retains db.snapshots resourceId revision ∨
        (resourceId = row.resourceId ∧ revision = row.revisionId) := by
  rcases insertSnapshot_eq_ok h with ⟨rows, rfl, ⟨rfl, hsome⟩ | ⟨rfl, _⟩⟩
  · constructor
    · exact .inl
    · rintro (hkept | ⟨rfl, rfl⟩)
      · exact hkept
      · exact findSnapshot_isSome.mp hsome
  · unfold Retains
    constructor
    · rintro ⟨other, hother, rfl, rfl⟩
      rcases List.mem_append.mp hother with hother | hother
      · exact .inl ⟨other, hother, rfl, rfl⟩
      · rw [List.mem_singleton.mp hother]
        exact .inr ⟨rfl, rfl⟩
    · rintro (⟨other, hother, rfl, rfl⟩ | ⟨rfl, rfl⟩)
      · exact ⟨other, List.mem_append_left _ hother, rfl, rfl⟩
      · exact ⟨row, by simp, rfl, rfl⟩

end Db

namespace Registry

variable {registry : Registry} {plan : PendingCommit registry.ext} {db db' : Db}

theorem storeCommit_eq_ok {author : AuthorPrincipalId}
    (h : storeCommit plan author db = .ok db') :
    exists canonicalBlobs merkleTrees treeEntries revisions revisionBlobs
        resourceBlobs namespaceBlobs snapshots,
      db' = { db with
        canonicalBlobs, merkleTrees, treeEntries, revisions, revisionBlobs,
        resourceBlobs, namespaceBlobs, snapshots,
        revisionParents := (db.insertParents plan.operation.revisionId
          plan.parents).revisionParents } ∧
      forall resourceId revision,
        Db.Retains snapshots resourceId revision <->
          Db.Retains db.snapshots resourceId revision ∨
            (resourceId = plan.operation.resourceId ∧
              revision = plan.operation.revisionId) := by
  rcases bind_eq_ok.mp h with ⟨_, _, h⟩
  rcases bind_eq_ok.mp h with ⟨db₁, hblobs, h⟩
  rcases bind_eq_ok.mp h with ⟨db₂, htrees, h⟩
  rcases bind_eq_ok.mp h with ⟨db₃, hrevision, h⟩
  rcases Db.persistCanonicalBlobs_frame hblobs with ⟨blobs, rfl⟩
  rcases Db.persistTrees_frame htrees with ⟨trees, entries, rfl⟩
  rcases Db.persistRevision_frame hrevision with ⟨revisions, rfl⟩
  dsimp only at h
  have hparents := Db.insertParents_table (a := { db with
    canonicalBlobs := blobs, merkleTrees := trees, treeEntries := entries,
    revisions := revisions }) (b := db) rfl plan.operation.revisionId
    plan.parents
  rcases Db.insertParents_frame { db with
    canonicalBlobs := blobs, merkleTrees := trees, treeEntries := entries,
    revisions := revisions } plan.operation.revisionId plan.parents with
    ⟨parents, hframe⟩
  rw [hframe] at h hparents
  rcases Db.reachBlobs_frame { db with
    canonicalBlobs := blobs, merkleTrees := trees, treeEntries := entries,
    revisions := revisions, revisionParents := parents }
    plan.operation.resourceId plan.operation.namespaceId
    plan.operation.revisionId plan.blobs with
    ⟨revisionBlobs, resourceBlobs, namespaceBlobs, hreach⟩
  rw [hreach] at h
  have hretains := Db.insertSnapshot_retains h
  rcases Db.insertSnapshot_eq_ok h with ⟨snapshots, rfl, _⟩
  refine ⟨blobs, trees, entries, revisions, revisionBlobs, resourceBlobs,
    namespaceBlobs, snapshots, ?_, hretains⟩
  rw [← hparents]

/-- A save stores its revision and reaches its blobs. -/
theorem storeCommit_stored {author : AuthorPrincipalId}
    (h : storeCommit plan author db = .ok db') :
    Db.Stored plan.operation.resourceId plan.operation.namespaceId
      plan.operation.revisionId plan.blobs db db' := by
  rcases bind_eq_ok.mp h with ⟨_, _, h⟩
  rcases bind_eq_ok.mp h with ⟨db₁, hblobs, h⟩
  rcases bind_eq_ok.mp h with ⟨db₂, htrees, h⟩
  rcases bind_eq_ok.mp h with ⟨db₃, hrevision, h⟩
  rcases Db.persistCanonicalBlobs_eq_ok hblobs with ⟨blobs, rfl, hstores⟩
  rcases Db.persistTrees_frame htrees with ⟨trees, entries, rfl⟩
  rcases Db.persistRevision_eq_ok hrevision with ⟨revisions, rfl, hrow⟩
  dsimp only at h hrow
  rcases Db.insertParents_frame { db with
    canonicalBlobs := blobs, merkleTrees := trees, treeEntries := entries,
    revisions := revisions } plan.operation.revisionId plan.parents with
    ⟨parents, hframe⟩
  rw [hframe] at h
  rcases Db.reachBlobs_eq plan.operation.resourceId plan.operation.namespaceId
    plan.operation.revisionId plan.blobs { db with
      canonicalBlobs := blobs, merkleTrees := trees, treeEntries := entries,
      revisions := revisions, revisionParents := parents } with
    ⟨revisionBlobs, hreach, hreached⟩
  rw [hreach] at h
  rcases Db.insertSnapshot_eq_ok h with ⟨snapshots, rfl, _⟩
  exact ⟨hstores, hrow, rfl, rfl, hreached⟩

/-!
## Moving a workspace
-/

/-- The table of conflicts after one of them is resolved. -/
def resolvedConflicts (conflictId resourceId user : Uuid)
    (resolution : RevisionId) (conflicts : List WorkspaceConflictRow) :
    List WorkspaceConflictRow :=
  updateWhere
    (fun row => decide (row.conflictId = conflictId) &&
      Db.unresolvedFor resourceId user row)
    (fun row => { row with resolutionRevisionId := some resolution })
    conflicts

/-- What a commit writes when it moves the head. -/
structure Advanced (plan : PendingCommit registry.ext)
    (forkSync : Option ValidatedForkSync) (isTeam : Bool)
    (generation : Generation) (db : Db) (effect : CommitEffect) : Prop where
  state : effect.state = .advanced
  outcome : effect.outcome = .advanced
    { resourceId := plan.operation.resourceId
      generation := generation.value
      revisionId := plan.operation.revisionId
      description := plan.content.metadata.description
      manifest := plan.operation.manifest }
  tables : exists resourceGeneration forks,
    effect.db =
      { db with
        resources :=
          if isTeam then db.resources
          else (db.setResourceMetadata plan.operation.resourceId
            resourceGeneration plan.content.metadata).resources
        workspaces := (db.setWorkspace plan.operation.resourceId
          plan.authority.userId plan.operation.revisionId generation
          plan.content).workspaces
        conflicts :=
          if plan.parents.length == 2 && forkSync.isNone then
            resolvedConflicts plan.operation.operationId.asUuid
              plan.operation.resourceId plan.authority.userId
              plan.operation.revisionId db.conflicts
          else db.conflicts
        forks }

theorem resolveMerge_eq_ok {forkSync : Option ValidatedForkSync}
    (h : resolveMerge plan forkSync db = .ok db') :
    db' = { db with
      conflicts :=
        if plan.parents.length == 2 && forkSync.isNone then
          resolvedConflicts plan.operation.operationId.asUuid
            plan.operation.resourceId plan.authority.userId
            plan.operation.revisionId db.conflicts
        else db.conflicts } := by
  unfold resolveMerge at h
  split at h
  · rename_i hmerge
    rcases bind_eq_ok.mp h with ⟨_, _, h⟩
    cases h
    rw [if_pos hmerge]
    rfl
  · rename_i hmerge
    cases h
    rw [if_neg hmerge]

theorem advanceWorkspace_eq_ok {forkSync : Option ValidatedForkSync}
    {isTeam : Bool} {resource : ResourceRow} {workspace : WorkspaceRow}
    {effect : CommitEffect}
    (h : advanceWorkspace plan forkSync isTeam resource workspace db =
      .ok effect) :
    exists generation, workspace.generation.checkedSucc = some generation ∧
      Advanced plan forkSync isTeam generation db effect := by
  rcases bind_eq_ok.mp h with ⟨nextResource, _, h⟩
  rcases bind_eq_ok.mp h with ⟨generation, hnext, h⟩
  rcases bind_eq_ok.mp h with ⟨resolved, hresolved, h⟩
  cases h
  refine ⟨generation, okOr_eq_ok.mp hnext, rfl, rfl, nextResource, ?_⟩
  rw [resolveMerge_eq_ok hresolved]
  cases isTeam with
  | false =>
      cases forkSync with
      | none => exact ⟨_, rfl⟩
      | some sync => exact ⟨_, rfl⟩
  | true =>
      cases forkSync with
      | none => exact ⟨_, rfl⟩
      | some sync => exact ⟨_, rfl⟩

/-- What a commit writes when it leaves the head where it is. -/
structure Diverged (newConflictId : Uuid) (plan : PendingCommit registry.ext)
    (workspace : WorkspaceRow) (db : Db) (effect : CommitEffect) : Prop where
  state : effect.state = .diverged
  outcome : exists conflict, effect.outcome =
    .diverged plan.operation.resourceId plan.operation.revisionId conflict
  tables : exists row,
    effect.db = { db with conflicts := db.conflicts ++ [row] } ∧
      Db.Raised newConflictId plan.operation.resourceId plan.authority.userId
        plan.operation.expectedHeadRevisionId plan.operation.revisionId
        workspace.revisionId db.conflicts row

theorem divergeWorkspace_eq_ok {newConflictId : Uuid} {resource : ResourceRow}
    {workspace : WorkspaceRow} {effect : CommitEffect}
    (h : divergeWorkspace newConflictId plan resource workspace db =
      .ok effect)
    (hnone : db.activeConflict plan.operation.resourceId
      plan.authority.userId = none) :
    Diverged newConflictId plan workspace db effect := by
  rcases bind_eq_ok.mp h with ⟨⟨conflict, recorded⟩, hrecorded, h⟩
  cases h
  exact ⟨rfl, ⟨_, rfl⟩, Db.recordWorkspaceConflict_eq_ok hrecorded hnone⟩

/-!
## What a commit writes
-/

/-- The tables that no save changes. -/
structure SavesOnly (db db' : Db) : Prop where
  directory : db'.directory = db.directory
  quarantines : db'.quarantines = db.quarantines
  shares : db'.shares = db.shares
  releases : db'.releases = db.releases
  proposals : db'.proposals = db.proposals

theorem SavesOnly.refl (db : Db) : SavesOnly db db :=
  ⟨rfl, rfl, rfl, rfl, rfl⟩

/-- How a commit changes the workspaces and the conflicts. -/
inductive WorkspaceWritten (newConflictId : Uuid)
    (plan : PendingCommit registry.ext) (workspace : WorkspaceRow)
    (outcome : PrivateRevisionCommitResponse) (db db' : Db) : Prop where
  | advance (generation : Generation) :
      workspace.revisionId = plan.operation.expectedHeadRevisionId ->
      workspace.generation.checkedSucc = some generation ->
      outcome = .advanced
        { resourceId := plan.operation.resourceId
          generation := generation.value
          revisionId := plan.operation.revisionId
          description := plan.content.metadata.description
          manifest := plan.operation.manifest } ->
      db'.workspaces = (db.setWorkspace plan.operation.resourceId
        plan.authority.userId plan.operation.revisionId generation
        plan.content).workspaces ->
      (db.activeConflict plan.operation.resourceId plan.authority.userId =
            none ∧ db'.conflicts = db.conflicts ∨
        exists row, row ∈ db.conflicts ∧
          row.conflictId = plan.operation.operationId.asUuid ∧
          Db.unresolvedFor plan.operation.resourceId plan.authority.userId
            row = true ∧
          plan.parents = [row.headARevisionId, row.headBRevisionId] ∧
          db'.conflicts = resolvedConflicts plan.operation.operationId.asUuid
            plan.operation.resourceId plan.authority.userId
            plan.operation.revisionId db.conflicts) ->
        WorkspaceWritten newConflictId plan workspace outcome db db'
  | diverge (row : WorkspaceConflictRow) (conflict : PrivateWorkspaceConflict) :
      workspace.revisionId ≠ plan.operation.expectedHeadRevisionId ->
      outcome = .diverged plan.operation.resourceId plan.operation.revisionId
        conflict ->
      db'.workspaces = db.workspaces ->
      db.activeConflict plan.operation.resourceId plan.authority.userId =
        none ->
      db'.conflicts = db.conflicts ++ [row] ->
      Db.Raised newConflictId plan.operation.resourceId plan.authority.userId
        plan.operation.expectedHeadRevisionId plan.operation.revisionId
        workspace.revisionId db.conflicts row ->
        WorkspaceWritten newConflictId plan workspace outcome db db'

structure CommitWritten (newConflictId : Uuid) (plan : PendingCommit registry.ext)
    (workspace : WorkspaceRow) (outcome : PrivateRevisionCommitResponse)
    (db db' : Db) : Prop where
  savesOnly : SavesOnly db db'
  imports : db'.importOperations = db.importOperations
  resources : db'.resources = db.resources ∨
    exists generation, db'.resources =
      (db.setResourceMetadata plan.operation.resourceId generation
        plan.content.metadata).resources
  parents : db'.revisionParents = (db.insertParents plan.operation.revisionId
    plan.parents).revisionParents
  retains : forall resourceId revision,
    Db.Retains db'.snapshots resourceId revision <->
      Db.Retains db.snapshots resourceId revision ∨
        (resourceId = plan.operation.resourceId ∧
          revision = plan.operation.revisionId)
  operations : exists state, state ≠ .prepared ∧ db'.revisionOperations =
    (db.finishRevisionOperation plan.authority.userId plan.request.operationId
      state outcome).revisionOperations
  redirects : db'.redirects = db.redirects
  packStates : db'.packStates = db.packStates
  written : WorkspaceWritten newConflictId plan workspace outcome db db'
  stored : Db.Stored plan.operation.resourceId plan.operation.namespaceId
    plan.operation.revisionId plan.blobs db db'

theorem writePreparedRevision_eq_ok {newConflictId : Uuid}
    {locked : RevisionOperationRow} {isTeam : Bool} {resource : ResourceRow}
    {workspace : WorkspaceRow} {outcome : PrivateRevisionCommitResponse}
    (h : writePreparedRevision newConflictId plan locked isTeam resource
      workspace db = .ok (outcome, db')) :
    CommitWritten newConflictId plan workspace outcome db db' := by
  rcases bind_eq_ok.mp h with ⟨_, _, h⟩
  rcases bind_eq_ok.mp h with ⟨_, hhead, h⟩
  rcases bind_eq_ok.mp h with ⟨stored, hstored, h⟩
  rcases bind_eq_ok.mp h with ⟨effect, heffect, h⟩
  have hcase := Db.checkCommitHead_eq_ok hhead
  have hdb' : effect.outcome = outcome ∧ exists events sequence,
      db' = { effect.db.finishRevisionOperation plan.authority.userId
        plan.request.operationId effect.state effect.outcome with
          authorityEvents := events, authorityEventSequence := sequence } := by
    cases h
    cases isTeam with
    | false => exact ⟨rfl, _, _, rfl⟩
    | true => exact ⟨rfl, _, _, rfl⟩
  rcases hdb' with ⟨rfl, events, sequence, rfl⟩
  have hreached := storeCommit_stored hstored
  rcases storeCommit_eq_ok hstored with
    ⟨_, _, _, _, _, _, _, snapshots, rfl, hretains⟩
  unfold moveWorkspace at heffect
  split at heffect
  · rename_i hmatches
    rcases advanceWorkspace_eq_ok heffect with
      ⟨generation, hgeneration, hstate, houtcome, resourceGeneration, forks,
        htables⟩
    rw [htables, hstate]
    refine ⟨⟨rfl, rfl, rfl, rfl, rfl⟩, rfl, ?_, rfl, hretains,
      ⟨.advanced, by decide, rfl⟩, rfl, rfl,
      .advance generation hmatches hgeneration houtcome rfl ?_,
      ⟨hreached.canonical, hreached.revisions, hreached.resources,
        hreached.namespaces, hreached.revisionBlobs⟩⟩
    · cases isTeam with
      | false => exact .inr ⟨resourceGeneration, rfl⟩
      | true => exact .inl rfl
    · cases hcase with
      | advance _ _ hnone hplain =>
          exact .inl ⟨hnone, by simp [Db.finishRevisionOperation, hplain]⟩
      | merge row _ _ hrow hid hunresolved hparents hsync =>
          refine .inr ⟨row, hrow, hid, hunresolved, hparents, ?_⟩
          simp [Db.finishRevisionOperation, hparents, hsync]
      | diverge hstale _ _ _ => exact absurd hmatches hstale
  · rename_i hstale
    have hnone : db.activeConflict plan.operation.resourceId
        plan.authority.userId = none := by
      cases hcase with
      | advance hmatches _ _ _ => exact absurd hmatches hstale
      | merge _ hmatches _ _ _ _ _ _ => exact absurd hmatches hstale
      | diverge _ hnone _ _ => exact hnone
    have hdiverged := divergeWorkspace_eq_ok heffect hnone
    rcases hdiverged.outcome with ⟨conflict, houtcome⟩
    rcases hdiverged.tables with ⟨row, htables, hraised⟩
    rw [htables, hdiverged.state]
    exact ⟨⟨rfl, rfl, rfl, rfl, rfl⟩, rfl, .inl rfl, rfl, hretains,
      ⟨.diverged, by decide, rfl⟩, rfl, rfl,
      .diverge row conflict hstale houtcome rfl hnone rfl hraised,
      ⟨hreached.canonical, hreached.revisions, hreached.resources,
        hreached.namespaces, hreached.revisionBlobs⟩⟩

end Registry

/-!
## The branch of a workspace
-/

namespace Db

/-- The workspace of a user of a skill, as a branch. -/
def branch (db : Db) (resourceId user : Uuid) : Option (Branch RevisionId) :=
  (db.workspace resourceId user).map fun workspace =>
    { head := workspace.revisionId
      saved := Retains db.snapshots resourceId
      conflict := (db.activeConflict resourceId user).map
        WorkspaceConflictRow.conflict }

variable {db db' : Db} {resourceId user : Uuid}

theorem branch_congr
    (hworkspace : db'.workspace resourceId user =
      db.workspace resourceId user)
    (hconflict : db'.activeConflict resourceId user =
      db.activeConflict resourceId user)
    (hretains : forall revision,
      Retains db'.snapshots resourceId revision <->
        Retains db.snapshots resourceId revision) :
    db'.branch resourceId user = db.branch resourceId user := by
  have hsaved : Retains db'.snapshots resourceId =
      Retains db.snapshots resourceId := by
    funext revision
    exact propext (hretains revision)
  unfold branch
  rw [hworkspace, hconflict, hsaved]

theorem workspace_of_setWorkspace {revision : RevisionId}
    {generation : Generation} {content : VerifiedContent}
    (h : db'.workspaces = (db.setWorkspace resourceId user revision generation
      content).workspaces)
    (otherResource otherUser : Uuid) :
    db'.workspace otherResource otherUser =
      (db.workspace otherResource otherUser).map fun row =>
        if otherResource = resourceId ∧ otherUser = user then
          { row with
            revisionId := revision
            generation
            metadata := content.metadata
            snapshot := content.snapshot }
        else row := by
  unfold workspace
  rw [h, setWorkspace, find?_updateWhere (by intro row _; rfl)]
  cases hfind : db.workspaces.find? fun row =>
      decide (row.resourceId = otherResource ∧
        row.workspaceUserId = otherUser) with
  | none => rfl
  | some row =>
      have hkeys := List.find?_some hfind
      simp only [decide_eq_true_eq] at hkeys
      simp [hkeys.1, hkeys.2]

theorem activeConflict_concat {row : WorkspaceConflictRow}
    (hconflicts : db'.conflicts = db.conflicts ++ [row]) :
    db'.activeConflict resourceId user =
      (db.activeConflict resourceId user).or
        (if unresolvedFor resourceId user row then some row else none) := by
  unfold activeConflict
  rw [hconflicts, List.find?_append]
  congr 1
  by_cases hrow : unresolvedFor resourceId user row = true
  · simp [hrow]
  · simp [hrow]

theorem OneConflict.concat (hone : OneConflict db.conflicts)
    {row : WorkspaceConflictRow}
    (hrow : unresolvedFor resourceId user row = true)
    (hnone : db.activeConflict resourceId user = none) :
    OneConflict (db.conflicts ++ [row]) := by
  intro otherResource otherUser
  rw [List.filter_append, List.length_append]
  by_cases hother : unresolvedFor otherResource otherUser row = true
  · have hkeys := unresolvedFor_eq_true.mp hrow
    have hotherKeys := unresolvedFor_eq_true.mp hother
    have hempty : db.conflicts.filter
        (unresolvedFor otherResource otherUser) = [] := by
      rw [List.filter_eq_nil_iff, ← hotherKeys.1, ← hotherKeys.2.1, hkeys.1,
        hkeys.2.1]
      exact List.find?_eq_none.mp hnone
    simp [hempty, hother]
  · have hold := hone otherResource otherUser
    simp only [List.filter_cons, hother]
    simpa using hold

section Resolved

variable {conflictId : Uuid} {resolution : RevisionId}

theorem unresolvedFor_resolve {otherResource otherUser : Uuid}
    {row : WorkspaceConflictRow} :
    unresolvedFor otherResource otherUser
      { row with resolutionRevisionId := some resolution } = false := by
  simp [unresolvedFor]

theorem OneConflict.resolved {conflicts : List WorkspaceConflictRow}
    (hone : OneConflict conflicts) :
    OneConflict (Registry.resolvedConflicts conflictId resourceId user
      resolution conflicts) := by
  intro otherResource otherUser
  refine Nat.le_trans ?_ (hone otherResource otherUser)
  unfold Registry.resolvedConflicts updateWhere
  rw [← List.countP_eq_length_filter, ← List.countP_eq_length_filter,
    List.countP_map]
  refine List.countP_mono_left fun row _ hrow => ?_
  rw [Function.comp_apply] at hrow
  split at hrow
  · rw [unresolvedFor_resolve] at hrow
    cases hrow
  · exact hrow

theorem activeConflict_resolved (hone : OneConflict db.conflicts)
    {row : WorkspaceConflictRow} (hrow : row ∈ db.conflicts)
    (hid : row.conflictId = conflictId)
    (hunresolved : unresolvedFor resourceId user row = true)
    (hconflicts : db'.conflicts = Registry.resolvedConflicts conflictId
      resourceId user resolution db.conflicts) :
    db'.activeConflict resourceId user = none := by
  unfold activeConflict
  rw [hconflicts, List.find?_eq_none]
  intro other hother hstill
  rcases mem_updateWhere.mp hother with ⟨old, hold, rfl⟩
  split at hstill
  · rw [unresolvedFor_resolve] at hstill
    cases hstill
  · rename_i hkeep
    rw [hone.eq hold hrow hstill hunresolved] at hkeep
    simp [hid, hunresolved] at hkeep

theorem activeConflict_resolved_other {otherResource otherUser : Uuid}
    (hother : ¬ (otherResource = resourceId ∧ otherUser = user))
    (hconflicts : db'.conflicts = Registry.resolvedConflicts conflictId
      resourceId user resolution db.conflicts) :
    db'.activeConflict otherResource otherUser =
      db.activeConflict otherResource otherUser := by
  have hdisjoint : forall row, unresolvedFor resourceId user row = true ->
      unresolvedFor otherResource otherUser row = false := by
    intro row hrow
    have hkeys := unresolvedFor_eq_true.mp hrow
    refine Bool.eq_false_iff.mpr fun hrow' => hother ?_
    have hkeys' := unresolvedFor_eq_true.mp hrow'
    exact ⟨hkeys'.1.symm.trans hkeys.1, hkeys'.2.1.symm.trans hkeys.2.1⟩
  unfold activeConflict
  rw [hconflicts]
  refine find?_updateWhere_of_disjoint ?_ ?_
  · intro row hrow
    simp only [Bool.and_eq_true] at hrow
    rw [hdisjoint row hrow.2]
    simp [unresolvedFor]
  · intro row hrow
    refine Bool.eq_false_iff.mpr fun htarget => ?_
    simp only [Bool.and_eq_true] at htarget
    rw [hdisjoint row htarget.2] at hrow
    cases hrow

end Resolved

end Db

namespace Registry

variable {registry : Registry} {newConflictId : Uuid}
  {plan : PendingCommit registry.ext} {workspace : WorkspaceRow}
  {outcome : PrivateRevisionCommitResponse} {db db' : Db}

theorem CommitWritten.oneConflict
    (h : CommitWritten newConflictId plan workspace outcome db db')
    (hone : Db.OneConflict db.conflicts) : Db.OneConflict db'.conflicts := by
  cases h.written with
  | advance generation _ _ _ _ hconflicts =>
      rcases hconflicts with ⟨_, hsame⟩ | ⟨row, _, _, _, _, hresolved⟩
      · rw [hsame]
        exact hone
      · rw [hresolved]
        exact hone.resolved
  | diverge row conflict _ _ _ hnone hconflicts hraised =>
      rw [hconflicts]
      exact hone.concat hraised.unresolved hnone

/-- A commit leaves the branches of the other skills alone. -/
theorem CommitWritten.branch_other
    (h : CommitWritten newConflictId plan workspace outcome db db')
    {resourceId user : Uuid} (hother : resourceId ≠ plan.operation.resourceId) :
    db'.branch resourceId user = db.branch resourceId user := by
  have hkeys : ¬ (resourceId = plan.operation.resourceId ∧
      user = plan.authority.userId) := fun hkeys => hother hkeys.1
  have hretains : forall revision,
      Db.Retains db'.snapshots resourceId revision <->
        Db.Retains db.snapshots resourceId revision := by
    intro revision
    rw [h.retains]
    exact or_iff_left fun hnew => hother hnew.1
  cases h.written with
  | advance generation _ _ _ hworkspaces hconflicts =>
      refine Db.branch_congr ?_ ?_ hretains
      · rw [Db.workspace_of_setWorkspace hworkspaces]
        simp [hkeys]
      · rcases hconflicts with ⟨_, hsame⟩ | ⟨row, _, _, _, _, hresolved⟩
        · unfold Db.activeConflict
          rw [hsame]
        · exact Db.activeConflict_resolved_other hkeys hresolved
  | diverge row conflict _ _ hworkspaces _ hconflicts hraised =>
      refine Db.branch_congr ?_ ?_ hretains
      · unfold Db.workspace
        rw [hworkspaces]
      · have hrow := Db.unresolvedFor_eq_true.mp hraised.unresolved
        have hmiss : Db.unresolvedFor resourceId user row = false := by
          refine Bool.eq_false_iff.mpr fun hrow' => hother ?_
          exact (Db.unresolvedFor_eq_true.mp hrow').1.symm.trans hrow.1
        rw [Db.activeConflict_concat hconflicts]
        simp [hmiss]

/-- A commit moves the branch of its own skill. -/
theorem CommitWritten.branch_move
    (h : CommitWritten newConflictId plan workspace outcome db db')
    (hone : Db.OneConflict db.conflicts)
    (hworkspace : db.workspace plan.operation.resourceId
      plan.authority.userId = some workspace)
    (hexpected : plan.operation.expectedHeadRevisionId ∈ plan.parents)
    (hretained : Db.Retains db.snapshots plan.operation.resourceId
      plan.operation.expectedHeadRevisionId)
    (hedges : forall parent, parent ∈ plan.parents ->
      (plan.operation.revisionId, parent) ∈ db'.edges) :
    exists branch branch',
      db.branch plan.operation.resourceId plan.authority.userId =
          some branch ∧
        db'.branch plan.operation.resourceId plan.authority.userId =
            some branch' ∧
          branch.Move db'.edges branch' := by
  have hsaved : Db.Retains db'.snapshots plan.operation.resourceId =
      fun other => Db.Retains db.snapshots plan.operation.resourceId other ∨
        other = plan.operation.revisionId := by
    funext other
    rw [h.retains]
    simp
  unfold Db.branch
  rw [hworkspace]
  cases h.written with
  | advance generation hmatches _ _ hworkspaces hconflicts =>
      have hmoved := Db.workspace_of_setWorkspace hworkspaces
        plan.operation.resourceId plan.authority.userId
      rw [hworkspace] at hmoved
      rw [hmoved, hsaved]
      rcases hconflicts with
        ⟨hnone, hsame⟩ | ⟨row, hrow, hid, hunresolved, hparents, hresolved⟩
      · have hnone' : db'.activeConflict plan.operation.resourceId
            plan.authority.userId = none := by
          unfold Db.activeConflict
          rw [hsame]
          exact hnone
        rw [hnone, hnone']
        refine ⟨_, _, rfl, rfl, ?_⟩
        simp only [and_self, if_true, Option.map_none]
        refine .advance plan.operation.revisionId rfl ?_
        dsimp only
        rw [hmatches]
        exact hedges _ hexpected
      · rw [Db.activeConflict_resolved hone hrow hid hunresolved hresolved,
          Db.activeConflict_of_mem hone hrow hunresolved]
        refine ⟨_, _, rfl, rfl, ?_⟩
        simp only [and_self, if_true, Option.map_none]
        refine .merge plan.operation.revisionId row.conflict rfl ?_ ?_
        · exact hedges _ (by simp [hparents, WorkspaceConflictRow.conflict])
        · exact hedges _ (by simp [hparents, WorkspaceConflictRow.conflict])
  | diverge row conflict hstale _ hworkspaces hnone hconflicts hraised =>
      have hkept : db'.workspace plan.operation.resourceId
          plan.authority.userId = some workspace := by
        unfold Db.workspace
        rw [hworkspaces]
        exact hworkspace
      rw [hkept, hsaved, Db.activeConflict_concat hconflicts, hnone,
        hraised.unresolved]
      refine ⟨_, _, rfl, rfl, ?_⟩
      refine .diverge plan.operation.revisionId row.conflict rfl ?_ ?_
        hraised.head_cases
      · simp only [WorkspaceConflictRow.conflict, hraised.base]
        exact hretained
      · simp only [WorkspaceConflictRow.conflict, hraised.base]
        exact hedges _ hexpected

end Registry
end Denju
