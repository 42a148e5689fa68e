import Denju.Core.HashedManifest
import Denju.Core.Merge
import Denju.Registry.AncestryAccess
import Denju.Registry.Conflicts
import Mathlib.Data.List.Permutation

/-!
# Syncing a fork

A client syncs its fork with the upstream skill: it merges what both sides have
saved since the sync base, and saves the merged entries with both heads as
parents.  The commit moves the sync base to the upstream head.
-/

namespace Denju

open Lib

/-- What a sync has read: the fork, its sync base, the upstream head, and the
entries of the three. -/
structure ForkSyncSource where
  resourceId : Uuid
  name : Text
  revisionId : RevisionId
  workspaceGeneration : UInt64
  syncBaseRevisionId : RevisionId
  upstreamRevisionId : RevisionId
  baseEntries : List OwnedSkillEntry
  forkEntries : List OwnedSkillEntry
  upstreamEntries : List OwnedSkillEntry
  resolvedPaths : Option (List Text)

inductive ForkSyncError where
  | unresolved (paths : List Text)
  | contentVerification (source : SnapshotError)
  | requestHash (source : Text)
  | undeclaredBlob (blob : BlobId)
  | upload (source : Text)
  | client (source : ApiError)
  | diverged

namespace ForkSyncSource

variable (source : ForkSyncSource)

def merge (ext : Externals) : SkillMergeResult :=
  match source.resolvedPaths with
  | some paths =>
      mergeSkillEntriesWithResolutions ext source.baseEntries
        source.forkEntries source.upstreamEntries paths
  | none =>
      mergeSkillEntries ext source.baseEntries source.forkEntries
        source.upstreamEntries

def parents : List RevisionId :=
  sortByKey RevisionId.key [source.revisionId, source.upstreamRevisionId]

def intent : ValidatedForkSync where
  expectedBase := source.syncBaseRevisionId
  upstreamRevision := source.upstreamRevisionId

def hashInput (operationId : OperationId) (manifest : SkillManifest) :
    PrivateRevisionRequestHashInput where
  operationId := operationId
  resourceId := source.resourceId
  expectedGeneration := source.workspaceGeneration
  expectedHeadRevisionId := source.revisionId
  parentRevisionIds := source.parents
  manifest := manifest
  revisionAuthorPrincipalId := none
  forkSync := some source.intent
  historicalSkillName := none

end ForkSyncSource

/-- The bytes of the files under their blobs. -/
def fileBlobs (ext : Externals) (entries : List OwnedSkillEntry) :
    List (BlobId × Bytes) :=
  entries.filterMap fun entry =>
    match entry with
    | .file _ bytes _ => some (BlobId.hash ext bytes, bytes)
    | _ => none

/-- Put the bytes of every upload, and the object store that then answers. -/
def uploadEntries (ext : Externals) (store : ObjectStore)
    (uploads : List StagingRow) (entries : List OwnedSkillEntry) :
    Except ForkSyncError ObjectStore := do
  let objects <- uploads.mapM fun upload => do
    let bytes <- okOr ((fileBlobs ext entries).lookup upload.blobId)
      (.undeclaredBlob upload.blobId)
    (store.put upload.stagingKey bytes).mapError .upload
    return (upload.stagingKey, bytes)
  return { store with
    get := fun key =>
      match objects.lookup key with
      | some bytes => .ok bytes
      | none => store.get key }

namespace Registry

variable (self : Registry)

/-- The save of the merged entries. -/
def forkSyncRequest (operationId : OperationId) (source : ForkSyncSource)
    (merged : List OwnedSkillEntry) :
    Except ForkSyncError PrivateRevisionRequest := do
  let snapshot <- (buildDeterministicSkillSnapshot self.ext source.name
    merged).mapError .contentVerification
  let input := source.hashInput operationId snapshot.manifest
  let requestHash <- (self.hashes.privateRevision input).mapError .requestHash
  return { input with requestHash }

/-- A sync whose calls follow each other. -/
def syncFork (store : ObjectStore) (fresh : BlobId -> Uuid)
    (newConflictId userId : Uuid) (operationId : OperationId)
    (source : ForkSyncSource) (db : Db) :
    Except ForkSyncError (PrivateRevisionResponse × Db) := do
  let merged <- match source.merge self.ext with
    | .clean entries => .ok entries
    | .conflicted conflicts =>
        .error (.unresolved (conflicts.map MergeConflict.path))
  let request <- self.forkSyncRequest operationId source merged
  let (prepared, db) <- (self.preparePrivateRevision fresh userId request
    db).mapError .client
  let store <- uploadEntries self.ext store prepared.uploads merged
  let (outcome, db) <- (self.commitPrivateRevision store newConflictId userId
    ⟨operationId, request.requestHash⟩ db).mapError .client
  match outcome with
  | .advanced revision => return (revision, db)
  | .diverged _ _ _ => .error .diverged

end Registry

/-!
## Two parents
-/

section Parents

variable {a b : RevisionId}

theorem sortByKey_pair (a b : RevisionId) :
    sortByKey RevisionId.key [a, b] = [a, b] ∨
      sortByKey RevisionId.key [a, b] = [b, a] :=
  List.perm_pair.mp (sortByKey_perm RevisionId.key [a, b])

/-- The registry takes the two sorted parents exactly where they differ. -/
theorem parseRevisionParents_pair :
    parseRevisionParents (sortByKey RevisionId.key [a, b]) = .ok () <->
      a ≠ b := by
  have hsorted : sortByKey RevisionId.key (sortByKey RevisionId.key [a, b]) =
      sortByKey RevisionId.key [a, b] :=
    sortByKey_eq_self (sortByKey_pairwise RevisionId.key [a, b])
  unfold parseRevisionParents
  rw [hsorted]
  rcases sortByKey_pair a b with hpair | hpair
  · rw [hpair]
    simp [ensure, bind, Except.bind]
  · rw [hpair]
    simp [ensure, bind, Except.bind, ne_comm (a := a)]

theorem revisionNew_pair (h : a ≠ b) (root : TreeId)
    (author : AuthorPrincipalId) (operation : OperationId) :
    exists revision, Revision.new root (sortByKey RevisionId.key [a, b])
      author operation = .ok revision := by
  have hsorted : sortByKey RevisionId.key (sortByKey RevisionId.key [a, b]) =
      sortByKey RevisionId.key [a, b] :=
    sortByKey_eq_self (sortByKey_pairwise RevisionId.key [a, b])
  unfold Revision.new
  rw [dif_neg, dif_neg]
  · exact ⟨_, rfl⟩
  · rw [hsorted]
    rcases sortByKey_pair a b with hpair | hpair
    · rw [hpair]
      simpa using h
    · rw [hpair]
      simpa using h.symm
  · rw [(sortByKey_perm RevisionId.key [a, b]).length_eq]
    simp

end Parents

/-- A manifest that was built is a valid declaration. -/
theorem exists_declared_of_built {ext : Externals} {name : Text}
    {entries : List OwnedSkillEntry} {manifest : SkillManifest}
    (h : buildSkillManifest ext name entries = .ok manifest) :
    exists trees, validateDeclaredSkillManifest ext manifest = .ok trees := by
  rcases bind_eq_ok.mp h with ⟨validated, hvalidated, h⟩
  rcases bind_eq_ok.mp h with ⟨values, hvalues, h⟩
  have hvalues : values = entries.map (manifestEntryValue ext) :=
    mapM_eq_ok_iff_map
      (fun entry _ value hvalue => manifestEntryOf_eq_value hvalue) hvalues
  rw [hvalues] at h
  rcases RootedManifest.bind_eq_ok.mpr h with ⟨hentries, built, hbuilt, hroot⟩
  rcases exists_validateSkillDirectory.mp
    ⟨validated, mapError_eq_ok.mp hvalidated⟩ with
    ⟨htree, bytes, executable, _, hfile, _⟩
  rcases (exists_declared_iff (List.Perm.refl _)).mpr htree with
    ⟨portable, tree, hportable, htree⟩
  refine ⟨_, validateDeclaredSkillManifest_eq_ok.mpr
    ⟨⟨portable, tree, ?_, htree⟩, ?_, built, hbuilt, hroot, rfl⟩⟩
  · rw [hentries]
    exact hportable
  · apply List.any_eq_true.mpr
    refine ⟨manifestEntryValue ext (.file skillMdPath bytes executable), ?_,
      beq_self_eq_true skillMdPath⟩
    rw [hentries, mem_sortByKey]
    exact List.mem_map_of_mem hfile

/-!
## What a sync finds
-/

/-- A fork without a conflict, at the head that the sync has read, and an
upstream head that descends from the sync base and that the user may fork. -/
structure Syncable (db : Db) (authority : UserAuthority)
    (target : NamespacePublishAuthority) (resource : ResourceRow)
    (workspace : WorkspaceRow) (operationId : OperationId)
    (source : ForkSyncSource) : Prop where
  user : db.directory.userAuthority authority.userId = .ok authority
  publisher : db.authorizeResourcePublish authority source.resourceId =
    .ok target
  found : db.findResource source.resourceId = some resource
  skill : resource.kind = .skill
  current : db.workspace source.resourceId authority.userId =
    some workspace
  head : workspace.revisionId = source.revisionId
  generation : workspace.generation.value =
    source.workspaceGeneration.toNat
  calm : db.activeConflict source.resourceId authority.userId = none
  behind : source.syncBaseRevisionId ≠ source.upstreamRevisionId
  readable : db.MaySync authority.userId authority.namespaceId
    source.resourceId source.intent
  descends : Ancestor db.edges source.syncBaseRevisionId
    source.upstreamRevisionId
  unused : db.findRevisionOperation authority.userId operationId = none

/-- The prepare and the commit of the sync are accepted, and the sync base is
the upstream head. -/
def Synced (registry : Registry) (store : ObjectStore)
    (fresh : BlobId -> Uuid) (newConflictId userId : Uuid)
    (operationId : OperationId) (source : ForkSyncSource) (db : Db) : Prop :=
  exists revision db',
    registry.syncFork store fresh newConflictId userId operationId source
        db = .ok (revision, db') ∧
      (db'.fork source.resourceId).map ForkRow.syncBaseRevisionId =
        some source.upstreamRevisionId

/-- The operation that the prepare of a sync records. -/
def syncOperation (authority : UserAuthority)
    (target : NamespacePublishAuthority) (workspace : WorkspaceRow)
    (request : PrivateRevisionRequest) (revisionId : RevisionId)
    (staging : List StagingRow) : RevisionOperationRow :=
  preparedOperation authority request authority.authorPrincipalId revisionId
    target.namespaceId workspace.generation staging

def Db.withOperation (db : Db) (row : RevisionOperationRow) : Db :=
  { db with revisionOperations := db.revisionOperations ++ [row] }

section Requests

variable {registry : Registry} {operationId : OperationId}
  {source : ForkSyncSource} {merged : List OwnedSkillEntry}
  {request : PrivateRevisionRequest}

/-- The request of a sync is well formed but for its parents and sizes. -/
theorem forkSyncRequest_eq_ok
    (h : registry.forkSyncRequest operationId source merged = .ok request) :
    request.toPrivateRevisionRequestHashInput =
        source.hashInput operationId request.manifest ∧
      registry.hashes.privateRevision
          request.toPrivateRevisionRequestHashInput =
        .ok request.requestHash ∧
      exists trees,
        validateDeclaredSkillManifest registry.ext request.manifest =
          .ok trees := by
  rcases bind_eq_ok.mp h with ⟨snapshot, hsnapshot, h⟩
  rcases bind_eq_ok.mp h with ⟨requestHash, hhash, h⟩
  cases h
  rcases bind_eq_ok.mp (mapError_eq_ok.mp hsnapshot) with
    ⟨manifest, hmanifest, hbuilt⟩
  rcases bind_eq_ok.mp hbuilt with ⟨_, _, hbuilt⟩
  rcases bind_eq_ok.mp hbuilt with ⟨_, _, hbuilt⟩
  cases hbuilt
  exact ⟨rfl, mapError_eq_ok.mp hhash, exists_declared_of_built hmanifest⟩

theorem source_mem_parents : source.revisionId ∈ source.parents :=
  mem_sortByKey.mpr (by simp)

theorem upstream_mem_parents : source.upstreamRevisionId ∈ source.parents :=
  mem_sortByKey.mpr (by simp)

theorem parents_length : source.parents.length = 2 :=
  (sortByKey_perm RevisionId.key
    [source.revisionId, source.upstreamRevisionId]).length_eq

end Requests

/-!
## The checks of the prepare and of the commit
-/

section Checks

variable {registry : Registry} {db : Db} {authority : UserAuthority}
  {target : NamespacePublishAuthority} {resource : ResourceRow}
  {workspace : WorkspaceRow} {operationId : OperationId}
  {source : ForkSyncSource} {merged : List OwnedSkillEntry}
  {request : PrivateRevisionRequest}

namespace Syncable

theorem live
    (hs : Syncable db authority target resource workspace operationId source) :
    resource.deleted = false ∧
      resource.ownerNamespaceId = target.namespaceId := by
  rcases Db.authorizeResourcePublish_eq_ok hs.publisher with
    ⟨found, owner, hfound, hlive, _, _, hspace, _⟩
  rw [hs.found] at hfound
  cases hfound
  exact ⟨hlive, hspace.symm⟩

theorem currentWorkspace
    (hs : Syncable db authority target resource workspace operationId source)
    (missing : String) :
    db.currentWorkspace source.resourceId authority.userId missing =
      .ok (resource, workspace) := by
  refine bind_eq_ok.mpr ⟨resource, ?_, ?_⟩
  · rw [okOr_eq_ok, hs.found]
    simp [hs.skill, hs.live.1]
  · exact bind_eq_ok.mpr ⟨workspace, okOr_eq_ok.mpr hs.current, rfl⟩

/-- The registry admits the sync exactly where the user reads a path from the
upstream head to the sync base. -/
theorem validateForkSync_iff
    (hs : Syncable db authority target resource workspace operationId source) :
    db.validateForkSync authority.userId authority.namespaceId
        source.resourceId source.intent = .ok () <->
      db.ReadPath authority.userId source.upstreamRevisionId
        source.syncBaseRevisionId := by
  unfold Db.validateForkSync
  rw [Db.validateForkSyncOver_eq_ok, Db.ancestor_readable_iff]
  constructor
  · intro h
    exact h.2
  · intro hpath
    exact ⟨hs.readable, hpath⟩

theorem checkPreparedHead_iff
    (hs : Syncable db authority target resource workspace operationId source)
    (hresource : request.resourceId = source.resourceId)
    (hhead : request.expectedHeadRevisionId = source.revisionId)
    (hparents : request.parentRevisionIds = source.parents)
    (hsync : request.forkSync = some source.intent) :
    db.checkPreparedHead authority request workspace
        workspace.generation.value = .ok () <->
      db.ReadPath authority.userId source.upstreamRevisionId
        source.syncBaseRevisionId := by
  rw [← hs.validateForkSync_iff]
  unfold Db.checkPreparedHead
  rw [hresource, hs.calm, hsync, hhead, hparents, hs.head]
  have hupstream : source.intent.upstreamRevision ∈ source.parents :=
    upstream_mem_parents
  simp [parents_length, hupstream, ensure, bind, Except.bind]

theorem checkCommitHead_iff
    (hs : Syncable db authority target resource workspace operationId source)
    {row : RevisionOperationRow}
    (hresource : row.resourceId = source.resourceId)
    (hhead : row.expectedHeadRevisionId = source.revisionId)
    (hgeneration : row.expectedGeneration = workspace.generation) :
    db.checkCommitHead authority row source.parents (some source.intent)
        workspace = .ok () <->
      db.ReadPath authority.userId source.upstreamRevisionId
        source.syncBaseRevisionId := by
  rw [← hs.validateForkSync_iff]
  unfold Db.checkCommitHead Db.checkActiveConflict
  rw [hresource, hs.calm, hhead, hgeneration, hs.head]
  have hupstream : source.intent.upstreamRevision ∈ source.parents :=
    upstream_mem_parents
  simp [parents_length, hupstream, ensure, bind, Except.bind]

end Syncable

/-- The content of the merge, before any check of its heads: its blobs, and
where they are staged. -/
structure ContentStaged (registry : Registry) (db : Db)
    (target : NamespacePublishAuthority) (fresh : BlobId -> Uuid)
    (request : PrivateRevisionRequest) (blobs : Blobs)
    (staging : List StagingRow) : Prop where
  declared : manifestBlobs request.manifest = .ok blobs
  bounded : blobs.all (fun blob => blob.2 ≤ registry.limits.maxObjectBytes) =
    true
  staged : stageMissing db target.namespaceId request.operationId fresh blobs
    "object exceeds database range" = .ok staging

theorem validateSync_iff
    (hs : Syncable db authority target resource workspace operationId source)
    (hrequest : registry.forkSyncRequest operationId source merged =
      .ok request) {blobs : Blobs} :
    registry.validatePrivateRevisionRequest request = .ok blobs <->
      source.revisionId ≠ source.upstreamRevisionId ∧
        manifestBlobs request.manifest = .ok blobs ∧
          blobs.all (fun blob =>
            blob.2 ≤ registry.limits.maxObjectBytes) = true := by
  rcases forkSyncRequest_eq_ok hrequest with ⟨hinput, hhash, trees, htrees⟩
  have hparents : request.parentRevisionIds = source.parents :=
    congrArg PrivateRevisionRequestHashInput.parentRevisionIds hinput
  have hsync : request.forkSync = some source.intent :=
    congrArg PrivateRevisionRequestHashInput.forkSync hinput
  have hname : request.historicalSkillName = none :=
    congrArg PrivateRevisionRequestHashInput.historicalSkillName hinput
  have hhead : request.expectedHeadRevisionId = source.revisionId :=
    congrArg PrivateRevisionRequestHashInput.expectedHeadRevisionId hinput
  constructor
  · intro h
    rcases bind_eq_ok.mp h with ⟨_, hdistinct, h⟩
    rcases bind_eq_ok.mp h with ⟨_, _, h⟩
    rcases bind_eq_ok.mp h with ⟨_, _, h⟩
    rcases bind_eq_ok.mp h with ⟨_, _, h⟩
    rcases bind_eq_ok.mp h with ⟨_, _, h⟩
    rcases bind_eq_ok.mp h with ⟨_, _, h⟩
    rcases bind_eq_ok.mp h with ⟨found, hblobs, h⟩
    rcases bind_eq_ok.mp h with ⟨_, hsizes, h⟩
    cases h
    rw [hparents] at hdistinct
    exact ⟨parseRevisionParents_pair.mp hdistinct, hblobs,
      ensure_eq_ok.mp hsizes⟩
  · rintro ⟨hdistinct, hblobs, hsizes⟩
    refine bind_eq_ok.mpr ⟨(), ?_, ?_⟩
    · rw [hparents]
      exact parseRevisionParents_pair.mpr hdistinct
    refine bind_eq_ok.mpr ⟨(), ?_, ?_⟩
    · rw [hsync]
      exact ensure_eq_ok.mpr (bne_iff_ne.mpr hs.behind)
    refine bind_eq_ok.mpr ⟨(), ?_, ?_⟩
    · rw [hname]
      rfl
    refine bind_eq_ok.mpr ⟨(), ?_, ?_⟩
    · rw [hparents, hhead]
      exact ensure_eq_ok.mpr (decide_eq_true source_mem_parents)
    refine bind_eq_ok.mpr ⟨(), checkRequestHash_eq_ok.mpr hhash, ?_⟩
    refine bind_eq_ok.mpr ⟨trees, mapError_eq_ok.mpr htrees, ?_⟩
    refine bind_eq_ok.mpr ⟨blobs, hblobs, ?_⟩
    exact bind_eq_ok.mpr ⟨(), ensure_eq_ok.mpr hsizes, rfl⟩

/-- The prepare of a sync records its operation where the two heads differ,
the user reads a path to the sync base, and the content is within the
limits. -/
theorem prepareSync_iff
    (hs : Syncable db authority target resource workspace operationId source)
    (hrequest : registry.forkSyncRequest operationId source merged =
      .ok request) {fresh : BlobId -> Uuid}
    {answer : PrivateRevisionPrepareResponse} {db' : Db} :
    registry.preparePrivateRevision fresh authority.userId request db =
        .ok (answer, db') <->
      source.revisionId ≠ source.upstreamRevisionId ∧
        db.ReadPath authority.userId source.upstreamRevisionId
          source.syncBaseRevisionId ∧
        exists blobs staging revision,
          ContentStaged registry db target fresh request blobs staging ∧
          Revision.new request.manifest.rootTree source.parents
              authority.authorPrincipalId operationId = .ok revision ∧
          answer =
            { resourceId := source.resourceId
              revisionId := revision.id registry.ext
              expectedGeneration := workspace.generation.value
              state := .prepared
              uploads := staging } ∧
          db' = db.withOperation (syncOperation authority target workspace
            request (revision.id registry.ext) staging) := by
  rcases forkSyncRequest_eq_ok hrequest with ⟨hinput, _, _⟩
  have hparents : request.parentRevisionIds = source.parents :=
    congrArg PrivateRevisionRequestHashInput.parentRevisionIds hinput
  have hsync : request.forkSync = some source.intent :=
    congrArg PrivateRevisionRequestHashInput.forkSync hinput
  have hname : request.historicalSkillName = none :=
    congrArg PrivateRevisionRequestHashInput.historicalSkillName hinput
  have hhead : request.expectedHeadRevisionId = source.revisionId :=
    congrArg PrivateRevisionRequestHashInput.expectedHeadRevisionId hinput
  have hresource : request.resourceId = source.resourceId :=
    congrArg PrivateRevisionRequestHashInput.resourceId hinput
  have hgeneration : request.expectedGeneration = source.workspaceGeneration :=
    congrArg PrivateRevisionRequestHashInput.expectedGeneration hinput
  have hoperation : request.operationId = operationId :=
    congrArg PrivateRevisionRequestHashInput.operationId hinput
  have hauthor : request.revisionAuthorPrincipalId = none :=
    congrArg PrivateRevisionRequestHashInput.revisionAuthorPrincipalId hinput
  have hensured : db.ensurePrivateWorkspaceForUser source.resourceId
      authority.userId = db := by
    rcases Db.ensurePrivateWorkspaceForUser_cases db source.resourceId
      authority.userId with hsame | ⟨_, _, _, hnone, _⟩
    · exact hsame
    · rw [hs.current] at hnone
      cases hnone
  have hbounded := workspace.generation.bounded
  have hexpected : i64TryFrom request.expectedGeneration
      (ApiError.new .invalidRequest "generation exceeds database range") =
        .ok workspace.generation.value := by
    rw [i64TryFrom_eq_ok, hgeneration, ← hs.generation]
    exact ⟨hbounded, rfl⟩
  have hcolumn : storedGeneration workspace.generation.value =
      .ok workspace.generation := by
    unfold storedGeneration
    rw [dif_pos ⟨workspace.generation.positive, hbounded⟩]
  constructor
  · intro h
    rcases bind_eq_ok.mp h with ⟨found, hfound, h⟩
    rw [hs.user] at hfound
    cases hfound
    rcases bind_eq_ok.mp h with ⟨blobs, hvalid, h⟩
    rcases (validateSync_iff hs hrequest).mp hvalid with
      ⟨hdistinct, hblobs, hsizes⟩
    rcases bind_eq_ok.mp h with ⟨author, hlinked, h⟩
    rw [hauthor] at hlinked
    cases hlinked
    rcases bind_eq_ok.mp h with ⟨revision, hrevision, h⟩
    have hnew := mapError_eq_ok.mp hrevision
    rw [hparents, hoperation] at hnew
    rw [hoperation, hs.unused] at h
    rcases bind_eq_ok.mp h with ⟨published, hpublished, h⟩
    rw [hresource, hs.publisher] at hpublished
    cases hpublished
    rw [hresource, hensured, ite_self] at h
    rcases bind_eq_ok.mp h with ⟨current, hcurrent, h⟩
    rw [hs.currentWorkspace] at hcurrent
    cases hcurrent
    rcases bind_eq_ok.mp h with ⟨_, _, h⟩
    rcases bind_eq_ok.mp h with ⟨_, _, h⟩
    rcases bind_eq_ok.mp h with ⟨expected, hvalue, h⟩
    rw [hexpected] at hvalue
    cases hvalue
    rcases bind_eq_ok.mp h with ⟨_, hchecked, h⟩
    rcases bind_eq_ok.mp h with ⟨generation, hstored, h⟩
    rw [hcolumn] at hstored
    cases hstored
    rcases bind_eq_ok.mp h with ⟨staging, hstaging, h⟩
    cases h
    exact ⟨hdistinct,
      (hs.checkPreparedHead_iff hresource hhead hparents hsync).mp hchecked,
      blobs, staging, revision, ⟨hblobs, hsizes, hstaging⟩, hnew, rfl, rfl⟩
  · rintro ⟨hdistinct, hpath, blobs, staging, revision, hstaged, hnew, rfl,
      rfl⟩
    refine bind_eq_ok.mpr ⟨authority, hs.user, ?_⟩
    refine bind_eq_ok.mpr ⟨blobs, (validateSync_iff hs hrequest).mpr
      ⟨hdistinct, hstaged.declared, hstaged.bounded⟩, ?_⟩
    refine bind_eq_ok.mpr ⟨authority.authorPrincipalId, ?_, ?_⟩
    · rw [hauthor]
      rfl
    refine bind_eq_ok.mpr ⟨revision, ?_, ?_⟩
    · rw [mapError_eq_ok, hparents, hoperation]
      exact hnew
    rw [hoperation, hs.unused]
    refine bind_eq_ok.mpr ⟨target, ?_, ?_⟩
    · rw [hresource]
      exact hs.publisher
    rw [hresource, hensured, ite_self]
    refine bind_eq_ok.mpr ⟨(resource, workspace), hs.currentWorkspace _, ?_⟩
    refine bind_eq_ok.mpr ⟨(), ?_, ?_⟩
    · exact ensure_eq_ok.mpr (beq_iff_eq.mpr hs.live.2)
    refine bind_eq_ok.mpr ⟨(), ?_, ?_⟩
    · rw [hname]
      rfl
    refine bind_eq_ok.mpr ⟨workspace.generation.value, hexpected, ?_⟩
    refine bind_eq_ok.mpr ⟨(),
      (hs.checkPreparedHead_iff hresource hhead hparents hsync).mpr hpath, ?_⟩
    refine bind_eq_ok.mpr ⟨workspace.generation, hcolumn, ?_⟩
    exact bind_eq_ok.mpr ⟨staging, hstaged.staged, rfl⟩

/-- What a verified save is about. -/
theorem verifyPrivateRevision_eq_ok {store : ObjectStore}
    {commit : CommitRequest} {row : RevisionOperationRow}
    {plan : PendingCommit registry.ext}
    (h : registry.verifyPrivateRevision store authority commit row db =
      .ok plan) :
    plan.authority = authority ∧ plan.request = commit ∧
      plan.operation = row ∧ plan.parents = row.parents := by
  rcases bind_eq_ok.mp h with ⟨_, _, h⟩
  rcases bind_eq_ok.mp h with ⟨_, _, h⟩
  rcases bind_eq_ok.mp h with ⟨_, _, h⟩
  rcases bind_eq_ok.mp h with ⟨_, _, h⟩
  rcases bind_eq_ok.mp h with ⟨_, _, h⟩
  rcases bind_eq_ok.mp h with ⟨_, _, h⟩
  rcases bind_eq_ok.mp h with ⟨_, _, h⟩
  rcases bind_eq_ok.mp h with ⟨_, _, h⟩
  rcases bind_eq_ok.mp h with ⟨_, _, h⟩
  rcases bind_eq_ok.mp h with ⟨_, _, h⟩
  rcases bind_eq_ok.mp h with ⟨_, _, h⟩
  cases h
  exact ⟨rfl, rfl, rfl, rfl⟩

/-- The commit verifies the objects of the content and stores them, and the
resource and the workspace have a next generation. -/
def ContentStored (registry : Registry) (objects : ObjectStore) (db : Db)
    (authority : UserAuthority) (target : NamespacePublishAuthority)
    (resource : ResourceRow) (workspace : WorkspaceRow)
    (row : RevisionOperationRow) : Prop :=
  exists (plan : PendingCommit registry.ext) (stored : Db)
      (resourceGeneration generation : Generation),
    registry.verifyPrivateRevision objects authority
        ⟨row.operationId, row.requestHash⟩ row (db.withOperation row) =
      .ok plan ∧
    Registry.storeCommit plan authority.authorPrincipalId
        (db.withOperation row) = .ok stored ∧
    Registry.nextResourceGeneration target.isTeam resource =
      .ok resourceGeneration ∧
    workspace.generation.checkedSucc = some generation

namespace Syncable

theorem findOperation
    (hs : Syncable db authority target resource workspace operationId source)
    {row : RevisionOperationRow} (huser : row.userId = authority.userId)
    (hoperation : row.operationId = operationId) :
    (db.withOperation row).findRevisionOperation authority.userId
      operationId = some row := by
  have hunused := hs.unused
  unfold Db.findRevisionOperation at hunused ⊢
  unfold Db.withOperation
  rw [List.find?_append, hunused]
  simp [huser, hoperation]

/-- The recorded operation changes none of the facts that the sync found. -/
theorem recorded
    (hs : Syncable db authority target resource workspace operationId source)
    (row : RevisionOperationRow) :
    (db.withOperation row).authorizeResourcePublish authority
        source.resourceId = .ok target ∧
      (db.withOperation row).currentWorkspace source.resourceId
          authority.userId "private skill not found" =
        .ok (resource, workspace) :=
  ⟨hs.publisher, hs.currentWorkspace _⟩

end Syncable

/-- Both transactions of the commit of a sync. -/
theorem commitSync_eq_ok
    (hs : Syncable db authority target resource workspace operationId source)
    {objects : ObjectStore} {newConflictId : Uuid}
    {row : RevisionOperationRow} (huser : row.userId = authority.userId)
    (hoperation : row.operationId = operationId)
    (hresource : row.resourceId = source.resourceId)
    (hhead : row.expectedHeadRevisionId = source.revisionId)
    (hauthor : row.revisionAuthorPrincipalId =
      some authority.authorPrincipalId)
    (hstate : row.state = .prepared)
    {outcome : PrivateRevisionCommitResponse} {db' : Db}
    (h : registry.commitPrivateRevision objects newConflictId
      authority.userId ⟨operationId, row.requestHash⟩
      (db.withOperation row) = .ok (outcome, db')) :
    ContentStored registry objects db authority target resource workspace
      row := by
  have hfind := hs.findOperation huser hoperation
  rcases bind_eq_ok.mp h with ⟨read, hread, h⟩
  rcases bind_eq_ok.mp hread with ⟨found, hfound, hread⟩
  have huserDb : (db.withOperation row).directory.userAuthority
      authority.userId = .ok authority := hs.user
  rw [huserDb] at hfound
  cases hfound
  rcases bind_eq_ok.mp hread with ⟨operation, hrow, hread⟩
  rw [hfind] at hrow
  cases hrow
  rcases bind_eq_ok.mp hread with ⟨_, _, hread⟩
  rw [if_pos hstate] at hread
  rcases bind_eq_ok.mp hread with ⟨plan, hplan, hread⟩
  cases hread
  rcases verifyPrivateRevision_eq_ok hplan with
    ⟨hauthority, hcommit, hplanRow, hparents⟩
  rcases hs.recorded row with ⟨hpublisher, hcurrent⟩
  rcases bind_eq_ok.mp h with ⟨published, hpublished, h⟩
  rw [hauthority, hplanRow, hresource, hpublisher] at hpublished
  cases hpublished
  rcases bind_eq_ok.mp h with ⟨_, _, h⟩
  rcases bind_eq_ok.mp h with ⟨current, hfoundCurrent, h⟩
  rw [hauthority, hplanRow, hresource, hcurrent] at hfoundCurrent
  cases hfoundCurrent
  rcases bind_eq_ok.mp h with ⟨_, _, h⟩
  rcases bind_eq_ok.mp h with ⟨locked, hlocked, h⟩
  rw [hauthority, hcommit, hfind] at hlocked
  cases hlocked
  rcases bind_eq_ok.mp h with ⟨_, _, h⟩
  rw [if_pos hstate] at h
  rcases bind_eq_ok.mp h with ⟨_, _, h⟩
  rcases bind_eq_ok.mp h with ⟨_, _, h⟩
  rcases bind_eq_ok.mp h with ⟨stored, hstored, h⟩
  rw [hauthor] at hstored
  rcases bind_eq_ok.mp h with ⟨effect, heffect, h⟩
  unfold Registry.moveWorkspace at heffect
  rw [hplanRow, if_pos (hs.head.trans hhead.symm)] at heffect
  rcases bind_eq_ok.mp heffect with ⟨resourceGeneration, hnext, heffect⟩
  rcases bind_eq_ok.mp heffect with ⟨generation, hsucc, heffect⟩
  refine ⟨plan, stored, resourceGeneration, generation, ?_, hstored, hnext,
    okOr_eq_ok.mp hsucc⟩
  rw [hoperation]
  exact hplan

/-- A sync that is finished moves the sync base of its fork. -/
theorem finishForkSync_fork {before : Db} {row : ForkRow}
    {sync : ValidatedForkSync} {resourceId : Uuid} (hrow : before.fork resourceId = some row)
    (hbase : row.syncBaseRevisionId = sync.expectedBase)
    (revision : RevisionId) :
    (((before.finishForkSync resourceId sync).finishForkPromotion resourceId
      revision).fork resourceId).map ForkRow.syncBaseRevisionId =
        some sync.upstreamRevision := by
  have hid : row.resourceId = resourceId := by
    simpa using List.find?_some hrow
  unfold Db.fork Db.finishForkPromotion Db.finishForkSync
  rw [find?_updateWhere, find?_updateWhere]
  · have hfind : before.forks.find? (fun row =>
        decide (row.resourceId = resourceId)) = some row := hrow
    have hkeys : decide (row.resourceId = resourceId ∧
        row.syncBaseRevisionId = sync.expectedBase) = true :=
      decide_eq_true ⟨hid, hbase⟩
    simp only [hfind, Option.map_some, Option.some.injEq, hkeys, if_true]
    split
    · rfl
    · rfl
  · intro other _
    rfl
  · intro other _
    rfl

theorem commitSync_ok
    (hs : Syncable db authority target resource workspace operationId source)
    {objects : ObjectStore} (newConflictId : Uuid)
    {row : RevisionOperationRow} (huser : row.userId = authority.userId)
    (hoperation : row.operationId = operationId)
    (hresource : row.resourceId = source.resourceId)
    (hspace : row.namespaceId = target.namespaceId)
    (hhead : row.expectedHeadRevisionId = source.revisionId)
    (hgeneration : row.expectedGeneration = workspace.generation)
    (hparents : row.parents = source.parents)
    (hsync : row.forkSync = some source.intent)
    (hname : row.historicalSkillName = none)
    (hauthor : row.revisionAuthorPrincipalId =
      some authority.authorPrincipalId)
    (hstate : row.state = .prepared)
    (hpath : db.ReadPath authority.userId source.upstreamRevisionId
      source.syncBaseRevisionId)
    (hstored : ContentStored registry objects db authority target resource
      workspace row) :
    exists revision db',
      registry.commitPrivateRevision objects newConflictId authority.userId
          ⟨operationId, row.requestHash⟩ (db.withOperation row) =
        .ok (.advanced revision, db') ∧
      (db'.fork source.resourceId).map ForkRow.syncBaseRevisionId =
        some source.upstreamRevisionId := by
  rcases hstored with
    ⟨plan, stored, resourceGeneration, generation, hplan, hstored, hnext,
      hsucc⟩
  rw [hoperation] at hplan
  rcases verifyPrivateRevision_eq_ok hplan with
    ⟨hauthority, hcommit, hplanRow, hplanParents⟩
  have hfind := hs.findOperation huser hoperation
  rcases hs.recorded row with ⟨hpublisher, hcurrent⟩
  rcases Registry.storeCommit_eq_ok hstored with
    ⟨canonicalBlobs, merkleTrees, treeEntries, revisions, revisionBlobs,
      resourceBlobs, namespaceBlobs, snapshots, hframe, _⟩
  rcases hs.readable with ⟨fork, hfork, hbase, _⟩
  have hresolve : forall other : Db,
      Registry.resolveMerge plan (some source.intent) other = .ok other := by
    intro other
    unfold Registry.resolveMerge
    simp
  have hadvance : exists effect revision,
      Registry.advanceWorkspace plan row.forkSync target.isTeam resource
          workspace stored = .ok effect ∧
        effect.outcome = .advanced revision ∧
        (effect.db.fork source.resourceId).map ForkRow.syncBaseRevisionId =
          some source.upstreamRevisionId := by
    rw [hsync]
    refine ⟨_, _, bind_eq_ok.mpr ⟨resourceGeneration, hnext,
      bind_eq_ok.mpr ⟨generation, okOr_eq_ok.mpr hsucc,
        bind_eq_ok.mpr ⟨_, hresolve _, rfl⟩⟩⟩, rfl, ?_⟩
    rw [hplanRow, hresource]
    refine finishForkSync_fork ?_ hbase _
    rw [hframe]
    split
    · exact hfork
    · exact hfork
  rcases hadvance with ⟨effect, revision, hadvance, houtcome, hmoved⟩
  have hwrite : Registry.writePreparedRevision newConflictId plan row
      target.isTeam resource workspace (db.withOperation row) =
        .ok (effect.outcome, if target.isTeam then
          effect.db.finishRevisionOperation plan.authority.userId
            plan.request.operationId effect.state effect.outcome
        else
          (effect.db.finishRevisionOperation plan.authority.userId
            plan.request.operationId effect.state
              effect.outcome).enqueueResourceWake plan.operation.resourceId
                effect.wakeGeneration.value) := by
    refine bind_eq_ok.mpr ⟨(), ?_, ?_⟩
    · rw [hname]
      rfl
    refine bind_eq_ok.mpr ⟨(), ?_, ?_⟩
    · rw [hauthority, hplanRow, hplanParents, hparents, hsync]
      exact (hs.checkCommitHead_iff hresource hhead hgeneration).mpr hpath
    refine bind_eq_ok.mpr ⟨stored, ?_, ?_⟩
    · rw [hauthor]
      exact hstored
    refine bind_eq_ok.mpr ⟨effect, ?_, rfl⟩
    unfold Registry.moveWorkspace
    rw [hplanRow, if_pos (hs.head.trans hhead.symm)]
    exact hadvance
  rw [houtcome] at hwrite
  refine ⟨revision, _, bind_eq_ok.mpr ⟨.inr plan, ?_,
    bind_eq_ok.mpr ⟨target, ?_, bind_eq_ok.mpr ⟨(), ?_,
      bind_eq_ok.mpr ⟨(resource, workspace), ?_,
        bind_eq_ok.mpr ⟨(), ?_, bind_eq_ok.mpr ⟨row, ?_,
          bind_eq_ok.mpr ⟨(), ?_,
            (if_pos hstate).trans hwrite⟩⟩⟩⟩⟩⟩⟩, ?_⟩
  · refine bind_eq_ok.mpr ⟨authority, hs.user, ?_⟩
    refine bind_eq_ok.mpr ⟨row, okOr_eq_ok.mpr hfind, ?_⟩
    refine bind_eq_ok.mpr ⟨(), ensure_eq_ok.mpr (beq_self_eq_true _), ?_⟩
    rw [if_pos hstate]
    exact bind_eq_ok.mpr ⟨plan, hplan, rfl⟩
  · rw [hauthority, hplanRow, hresource]
    exact hpublisher
  · rw [hplanRow, hspace]
    exact ensure_eq_ok.mpr (beq_self_eq_true _)
  · rw [hauthority, hplanRow, hresource]
    exact hcurrent
  · rw [hplanRow, hspace, hs.live.2]
    exact ensure_eq_ok.mpr (beq_self_eq_true _)
  · rw [hauthority, hcommit]
    exact okOr_eq_ok.mpr hfind
  · rw [hcommit]
    exact ensure_eq_ok.mpr (beq_self_eq_true _)
  · split
    · exact hmoved
    · exact hmoved

/-- The merged content can be saved: its request is built within the limits,
its missing objects are uploaded, and the commit verifies and stores it. -/
def ContentSaved (registry : Registry) (store : ObjectStore)
    (fresh : BlobId -> Uuid) (db : Db) (authority : UserAuthority)
    (target : NamespacePublishAuthority) (resource : ResourceRow)
    (workspace : WorkspaceRow) (operationId : OperationId)
    (source : ForkSyncSource) (merged : List OwnedSkillEntry) : Prop :=
  exists request blobs staging revision objects,
    registry.forkSyncRequest operationId source merged = .ok request ∧
    ContentStaged registry db target fresh request blobs staging ∧
    Revision.new request.manifest.rootTree source.parents
        authority.authorPrincipalId operationId = .ok revision ∧
    uploadEntries registry.ext store staging merged = .ok objects ∧
    ContentStored registry objects db authority target resource workspace
      (syncOperation authority target workspace request
        (revision.id registry.ext) staging)

theorem syncFork_eq_ok
    (hs : Syncable db authority target resource workspace operationId source)
    (hmerge : source.merge registry.ext = .clean merged)
    {store : ObjectStore} {fresh : BlobId -> Uuid} {newConflictId : Uuid}
    {result : PrivateRevisionResponse × Db}
    (h : registry.syncFork store fresh newConflictId authority.userId
      operationId source db = .ok result) :
    source.revisionId ≠ source.upstreamRevisionId ∧
      db.ReadPath authority.userId source.upstreamRevisionId
        source.syncBaseRevisionId ∧
      ContentSaved registry store fresh db authority target resource workspace
        operationId source merged := by
  unfold Registry.syncFork at h
  rw [hmerge] at h
  rcases bind_eq_ok.mp h with ⟨entries, hentries, h⟩
  cases hentries
  rcases bind_eq_ok.mp h with ⟨request, hrequest, h⟩
  rcases bind_eq_ok.mp h with ⟨⟨answer, recorded⟩, hprepare, h⟩
  rcases (prepareSync_iff hs hrequest).mp (mapError_eq_ok.mp hprepare) with
    ⟨hdistinct, hpath, blobs, staging, revision, hstaged, hnew, rfl, rfl⟩
  rcases bind_eq_ok.mp h with ⟨objects, hupload, h⟩
  rcases bind_eq_ok.mp h with ⟨⟨outcome, db'⟩, hcommit, h⟩
  rcases forkSyncRequest_eq_ok hrequest with ⟨hinput, _, _⟩
  refine ⟨hdistinct, hpath, request, blobs, staging, revision, objects,
    hrequest, hstaged, hnew, hupload, ?_⟩
  exact commitSync_eq_ok hs rfl
    (congrArg PrivateRevisionRequestHashInput.operationId hinput)
    (congrArg PrivateRevisionRequestHashInput.resourceId hinput)
    (congrArg PrivateRevisionRequestHashInput.expectedHeadRevisionId hinput)
    rfl rfl (mapError_eq_ok.mp hcommit)

end Checks

/-!
## Two syncs

A user has forked a released skill and saved nothing since.  In one state the
upstream user has saved and released once more.  In the other one the upstream
user has accepted a proposal of the fork, so that the two heads are equal.
-/

namespace Sample

def syncedHead : RevisionId :=
  ⟨digestOfNat
    0xc15c67b67967e860101a092d28871c1727e26f84dd1879d5aede93a2ed4642ae⟩

def syncHashes : List (Uuid × RequestHash) :=
  [ (uuid 15, digestOfNat
      0x9c53b482328937a4397b73e8b7a8aa8044d7c22f8ff4744ea1042a94ca64665a),
    (uuid 16, digestOfNat
      0x39c788f528eafbad60e093c110e5ad0d785fcde6730ece0ac55e76c505758ff8) ]

def syncing : Registry :=
  registryOf
    ((revisionTranscriptBy 22 [forkedHead, savedFirst] 15, syncedHead.bytes) ::
      saveDigests)
    syncHashes

def documentSnapshot : StoredSnapshot where
  manifest := documentManifest
  snapshotKey := snapshotKeyOf ⟨archiveDigest⟩
  snapshotSha256 := ⟨archiveDigest⟩
  snapshotSize := 102

def secondVersion : Generation :=
  secondGeneration

def upstreamSkill : ResourceRow where
  id := uuid 4
  ownerNamespaceId := amy.namespaceId
  slug := name
  kind := .skill
  visibility := .pub
  metadata := ⟨"d".toList, none, none⟩
  generation := secondVersion
  latestReleaseVersion := some secondVersion
  deprecated := false
  deprecationReplacement := none
  deleted := false

def forkSkill : ResourceRow :=
  { upstreamSkill with
    id := uuid 23
    ownerNamespaceId := bob.namespaceId
    visibility := .priv
    generation := .one
    latestReleaseVersion := none }

def forkWorkspace : WorkspaceRow where
  resourceId := uuid 23
  workspaceUserId := bob.id
  metadata := ⟨"d".toList, none, none⟩
  revisionId := forkedHead
  generation := .one
  snapshot := documentSnapshot

def upstreamRelease (version : Generation) (head : RevisionId)
    (author : User) : ReleaseRow where
  resourceId := uuid 4
  version := version
  revisionId := head
  rootTreeId := documentRoot
  snapshot := documentSnapshot
  authorPrincipalId := author.authorPrincipalId
  message := none
  tags := []

/-- The fork beside its upstream skill at the given head. -/
def forkBeside (head : RevisionId) (author : User) : Db where
  directory := twoUsers
  resources := [upstreamSkill, forkSkill]
  workspaces :=
    [ { forkWorkspace with
        resourceId := uuid 4
        workspaceUserId := amy.id
        revisionId := head
        generation := secondVersion },
      forkWorkspace ]
  snapshots :=
    [ ⟨uuid 4, imported, documentSnapshot⟩, ⟨uuid 4, head, documentSnapshot⟩,
      ⟨uuid 23, forkedHead, documentSnapshot⟩ ]
  releases :=
    [ upstreamRelease .one imported amy,
      upstreamRelease secondVersion head author ]
  forks :=
    [ { resourceId := uuid 23
        upstreamResourceId := uuid 4
        createdFromRevisionId := imported
        syncBaseRevisionId := imported
        promotionHeadRevisionId := none
        promotionPending := false } ]
  revisions :=
    [ ⟨imported, documentRoot, amy.authorPrincipalId, operationId 5⟩,
      ⟨savedFirst, documentRoot, amy.authorPrincipalId, operationId 6⟩,
      ⟨forkedHead, documentRoot, bob.authorPrincipalId, operationId 14⟩ ]
  revisionParents := [⟨savedFirst, imported, 0⟩, ⟨forkedHead, imported, 0⟩]
  merkleTrees := [documentRoot]
  treeEntries :=
    [⟨documentRoot, skillMdPath, .file ⟨skillMdDigest⟩ false⟩]
  canonicalBlobs :=
    [⟨⟨skillMdDigest⟩, 31, canonicalBlobKey ⟨skillMdDigest⟩⟩]
  revisionBlobs :=
    [ ⟨imported, ⟨skillMdDigest⟩⟩, ⟨savedFirst, ⟨skillMdDigest⟩⟩,
      ⟨forkedHead, ⟨skillMdDigest⟩⟩ ]
  resourceBlobs :=
    [((uuid 4, ⟨skillMdDigest⟩), 2), ((uuid 23, ⟨skillMdDigest⟩), 1)]
  namespaceBlobs :=
    [ ((amy.namespaceId, ⟨skillMdDigest⟩), 2),
      ((bob.namespaceId, ⟨skillMdDigest⟩), 1) ]

def documentEntries : List OwnedSkillEntry :=
  [.file skillMdPath skillMd false]

/-- What a sync reads beside an upstream skill at the given head. -/
def syncSource (head : RevisionId) : ForkSyncSource where
  resourceId := uuid 23
  name := name
  revisionId := forkedHead
  workspaceGeneration := 1
  syncBaseRevisionId := imported
  upstreamRevisionId := head
  baseEntries := documentEntries
  forkEntries := documentEntries
  upstreamEntries := documentEntries
  resolvedPaths := none

def bobSignedIn : UserAuthority where
  userId := bob.id
  namespaceId := bob.namespaceId
  namespaceSlug := "bob".toList
  authorPrincipalId := bob.authorPrincipalId

def bobPublishes : NamespacePublishAuthority where
  namespaceId := bob.namespaceId
  namespaceSlug := "bob".toList
  isTeam := false

theorem syncSource_merge (head : RevisionId) :
    (syncSource head).merge syncing.ext = .clean documentEntries := by
  change mergeSkillEntries syncing.ext documentEntries documentEntries
    documentEntries = _
  decide +kernel

theorem forkBeside_syncable (head : RevisionId) (author : User)
    (hhead : (head, author) = (savedFirst, amy) ∨
      (head, author) = (forkedHead, bob)) (operation : UInt8) :
    Syncable (forkBeside head author) bobSignedIn bobPublishes forkSkill
      forkWorkspace (operationId operation) (syncSource head) := by
  have hstates : forall state, state ∈ [(savedFirst, amy), (forkedHead, bob)] ->
      (forkBeside state.1 state.2).directory.userAuthority bob.id =
          .ok bobSignedIn ∧
        (forkBeside state.1 state.2).authorizeResourcePublish bobSignedIn
            (uuid 23) = .ok bobPublishes ∧
        (forkBeside state.1 state.2).userCanForkRevision bob.id
            bob.namespaceId (uuid 4) state.1 = true ∧
        imported ≠ state.1 ∧
        imported ∈ ancestry (forkBeside state.1 state.2).edges state.1 := by
    decide +kernel
  have hstate : (head, author) ∈ [(savedFirst, amy), (forkedHead, bob)] := by
    simpa using hhead
  rcases hstates _ hstate with
    ⟨huser, hpublisher, hreads, hbehind, hdescends⟩
  constructor
  · exact huser
  · exact hpublisher
  · rfl
  · rfl
  · rfl
  · rfl
  · rfl
  · rfl
  · exact hbehind
  · exact ⟨_, rfl, rfl, hreads⟩
  · exact mem_ancestry.mp hdescends
  · rfl

end Sample

end Denju
