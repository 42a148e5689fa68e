import Denju.Registry.Access

/-!
# Storing revisions

What the registry writes when it stores a revision: canonical blobs, trees, the
revision and its parents, the reference counts of its blobs, and the snapshot
of its archive.
-/

namespace Denju

open Lib

/-- The database login of a transaction: a request of a user, or the worker. -/
inductive Session where
  | actor (user : Uuid)
  | worker
deriving DecidableEq

structure Limits where
  maxObjectBytes : Nat
  maxReleaseBytes : Nat
  maxTransferBytes : Nat
  namespaceStorageBytes : Nat
deriving DecidableEq, Repr

/-- The answers of the object store during a call. -/
structure ObjectStore where
  get : Text -> Except Text Bytes
  put : Text -> Bytes -> Except Text Unit

/-!
## Blobs of a manifest

The distinct blobs with their sizes, in the order of their bytes.
-/

abbrev Blobs := List (BlobId × Nat)

def BlobId.key (blob : BlobId) : Bytes :=
  blob.bytes.toList

def insertBlob (blobs : Blobs) : SkillManifestEntry -> Except ApiError Blobs
  | .file _ blob size _ =>
      match blobs.lookup blob with
      | none => .ok (blobs ++ [(blob, size)])
      | some existing => do
          ensure (existing == size)
            (ApiError.new .invalidRequest
              "the same blob ID is declared with inconsistent sizes")
          return blobs
  | .directory _ => .ok blobs
  | .symlink _ _ => .ok blobs

def manifestBlobs (manifest : SkillManifest) : Except ApiError Blobs := do
  let blobs <- manifest.entries.foldlM insertBlob []
  return sortByKey (fun blob => blob.1.key) blobs

def ownedEntryOf (bytes : List (BlobId × Bytes)) :
    SkillManifestEntry -> Except ApiError OwnedSkillEntry
  | .file path blob _ executable => do
      let bytes <- okOr (bytes.lookup blob)
        (ApiError.new .internal "verified blob disappeared")
      return .file path bytes executable
  | .directory path => .ok (.directory path)
  | .symlink path target => .ok (.symlink path target)

def ownedEntriesFromManifest (manifest : SkillManifest)
    (bytes : List (BlobId × Bytes)) : Except ApiError (List OwnedSkillEntry) :=
  manifest.entries.mapM (ownedEntryOf bytes)

def canonicalBlobKey (blob : BlobId) : Text :=
  let id := hex blob.key
  "blobs/sha256/".toList ++ id.take 2 ++ "/".toList ++ id

def snapshotKeyOf (sha : BlobId) : Text :=
  "snapshots/sha256/".toList ++ hex sha.key ++ ".tar.zst".toList

def verifyBlob (ext : Externals) (blob : BlobId) (expectedSize : Nat)
    (bytes : Bytes) : Except ApiError Unit :=
  ensure (bytes.length == expectedSize && BlobId.hash ext bytes == blob)
    (ApiError.new .invalidRequest
      ("staged object " ++ String.ofList (hex blob.key) ++
        " failed size or SHA-256 verification"))

def ensureRequestHash (stored supplied : RequestHash) : Except ApiError Unit :=
  ensure (stored == supplied)
    (ApiError.new .operationConflict
      "operation_id was already used with different request content")

namespace Db

/-!
## Quota
-/

/-- The stored size of a blob. -/
def blobSize (db : Db) (blob : BlobId) : Option Nat :=
  (db.canonicalBlobs.find? fun row => row.blobId = blob).map
    CanonicalBlobRow.sizeBytes

/-- The bytes of the distinct blobs that a namespace reaches. -/
def namespaceUsage (db : Db) (namespaceId : Uuid) : Except ApiError Nat := do
  let usage :=
    ((db.namespaceBlobs.filter fun row => row.1.1 = namespaceId).map fun row =>
      (db.blobSize row.1.2).getD 0).sum
  ensure (usage < 2 ^ 63) (internalApiError "bigint out of range")
  return usage

def addUsage (db : Db) (namespaceId : Uuid) (additional : Nat)
    (blob : BlobId × Nat) : Except ApiError Nat :=
  match db.namespaceBlobs.get? (namespaceId, blob.1) with
  | some _ => .ok additional
  | none => do
      ensure (additional + blob.2 < 2 ^ 64)
        (ApiError.new .quotaExceeded "namespace logical usage overflow")
      return additional + blob.2

def enforceNamespaceQuota (db : Db) (limits : Limits) (namespaceId : Uuid)
    (blobs : Blobs) : Except ApiError Unit := do
  let current <- db.namespaceUsage namespaceId
  let additional <- blobs.foldlM (db.addUsage namespaceId) 0
  let projected := current + additional
  ensure (projected < 2 ^ 64)
    (ApiError.new .quotaExceeded "namespace logical usage overflow")
  ensure (projected ≤ limits.namespaceStorageBytes)
    (ApiError.new .quotaExceeded
      ("namespace storage quota exceeded: " ++ toString projected ++ " > " ++
        toString limits.namespaceStorageBytes ++ " bytes"))

/-!
## Blobs, trees and revisions
-/

def persistCanonicalBlob (db : Db) (blob : BlobId × Nat) :
    Except ApiError Db := do
  ensure (blob.2 < 2 ^ 63)
    (ApiError.new .internal "blob size exceeds database range")
  let row : CanonicalBlobRow :=
    { blobId := blob.1, sizeBytes := blob.2
      objectKey := canonicalBlobKey blob.1 }
  match db.canonicalBlobs.find? fun row => row.blobId = blob.1 with
  | none => return { db with canonicalBlobs := db.canonicalBlobs ++ [row] }
  | some stored => do
      ensure (stored == row)
        (ApiError.new .internal
          "canonical blob metadata conflicts with its content identity")
      return db

def persistCanonicalBlobs (db : Db) (blobs : Blobs) : Except ApiError Db :=
  blobs.foldlM persistCanonicalBlob db

def persistTreeEntry (db : Db) (row : TreeEntryRow) : Except ApiError Db :=
  match db.treeEntries.find? fun stored =>
      stored.treeId = row.treeId ∧ stored.name = row.name with
  | none => return { db with treeEntries := db.treeEntries ++ [row] }
  | some stored => do
      ensure (stored == row)
        (ApiError.new .internal
          "stored Merkle tree entry conflicts with its semantic tree identity")
      return db

def persistTree (db : Db) (tree : TreeId) : Db :=
  if tree ∈ db.merkleTrees then db
  else { db with merkleTrees := db.merkleTrees ++ [tree] }

def persistTrees {ext : Externals} (db : Db)
    (trees : List (SkillManifestTree ext)) : Except ApiError Db :=
  let rows := trees.flatMap fun tree =>
    tree.entries.map fun entry =>
      ({ treeId := tree.id, name := entry.name, kind := entry.kind } :
        TreeEntryRow)
  rows.foldlM persistTreeEntry
    (trees.foldl (fun db tree => db.persistTree tree.id) db)

/-- A request may store a revision only for an author linked to its user. -/
def authorLinkedToSession (db : Db) (session : Session)
    (author : AuthorPrincipalId) : Bool :=
  match session with
  | .actor user => db.directory.authorLinked author user
  | .worker => true

def findRevision (db : Db) (revision : RevisionId) : Option RevisionRow :=
  db.revisions.find? fun row => row.revisionId = revision

/-- Store the revision, or find exactly it. -/
def persistRevision (db : Db) (session : Session) (row : RevisionRow) :
    Except ApiError Db := do
  ensure (db.authorLinkedToSession session row.authorPrincipalId)
    (internalApiError "revision author is not linked to the active actor")
  match db.findRevision row.revisionId with
  | none => return { db with revisions := db.revisions ++ [row] }
  | some stored => do
      ensure (stored == row)
        (ApiError.new .internal
          "stored revision conflicts with its semantic revision identity")
      return db

/-- Store a revision that must be new. -/
def insertRevision (db : Db) (session : Session) (row : RevisionRow) :
    Except ApiError Db := do
  ensure (db.authorLinkedToSession session row.authorPrincipalId)
    (internalApiError "new row violates row-level security policy")
  ensure (db.findRevision row.revisionId).isNone
    (internalApiError "revisions_pkey")
  return { db with revisions := db.revisions ++ [row] }

/-- Two parent rows of one revision share the ordinal or the parent. -/
def parentConflict (a b : RevisionParentRow) : Bool :=
  decide (a.revisionId = b.revisionId) &&
    (decide (a.ordinal = b.ordinal) ||
      decide (a.parentRevisionId = b.parentRevisionId))

/-- Insert the edge unless its key is taken. -/
def insertParent (db : Db) (row : RevisionParentRow) : Db :=
  if db.revisionParents.any (parentConflict row) then db
  else { db with revisionParents := db.revisionParents ++ [row] }

def parentRows (revision : RevisionId) (parents : List RevisionId) :
    List RevisionParentRow :=
  parents.zipIdx.map fun parent =>
    { revisionId := revision, parentRevisionId := parent.1
      ordinal := parent.2 }

def insertParents (db : Db) (revision : RevisionId)
    (parents : List RevisionId) : Db :=
  (parentRows revision parents).foldl insertParent db

/-- Insert an edge that must be new. -/
def insertNewParent (db : Db) (row : RevisionParentRow) :
    Except ApiError Db := do
  ensure (!db.revisionParents.any (parentConflict row))
    (internalApiError "revision_parents_pkey")
  return { db with revisionParents := db.revisionParents ++ [row] }

/-!
## Reference counts of blobs
-/

/-- Reach the blob from the revision; nothing changes if it was reached. -/
def insertRevisionBlob (db : Db) (row : RevisionBlobRow) : Db :=
  if row ∈ db.revisionBlobs then db
  else { db with revisionBlobs := db.revisionBlobs ++ [row] }

def insertNewRevisionBlob (db : Db) (row : RevisionBlobRow) :
    Except ApiError Db := do
  ensure (row ∉ db.revisionBlobs)
    (internalApiError "revision_blob_reachability_pkey")
  return { db with revisionBlobs := db.revisionBlobs ++ [row] }

/-- One more reference from the resource and from its namespace. -/
def addReference (db : Db) (resourceId namespaceId : Uuid) (blob : BlobId) :
    Db :=
  { db with
    resourceBlobs := db.resourceBlobs.add (resourceId, blob) 1
    namespaceBlobs := db.namespaceBlobs.add (namespaceId, blob) 1 }

/-- One more reference where rows exist. -/
def bumpReference (db : Db) (resourceId namespaceId : Uuid) (blob : BlobId) :
    Db :=
  { db with
    resourceBlobs := db.resourceBlobs.bump (resourceId, blob) 1
    namespaceBlobs := db.namespaceBlobs.bump (namespaceId, blob) 1 }

/-- Only a request may cancel the collection of a blob. -/
def cancelBlobGc (db : Db) (session : Session) (blob : BlobId) :
    Except ApiError Db :=
  match session with
  | .actor _ =>
      .ok { db with
        canonicalBlobGc := deleteWhere (fun row => row = blob)
          db.canonicalBlobGc }
  | .worker => .error (internalApiError "blob GC cancellation is unavailable")

/-!
## Snapshots
-/

def findSnapshot (db : Db) (resourceId : Uuid) (revision : RevisionId) :
    Option SnapshotRow :=
  db.snapshots.find? fun row =>
    row.resourceId = resourceId ∧ row.revisionId = revision

/-- Keep the archive of a revision, unless the resource has it already. -/
def insertSnapshot (db : Db) (row : SnapshotRow) : Except ApiError Db := do
  ensure (row.snapshot.snapshotSize < 2 ^ 63)
    (ApiError.new .internal "snapshot size exceeds database range")
  match db.findSnapshot row.resourceId row.revisionId with
  | some _ => return db
  | none => return { db with snapshots := db.snapshots ++ [row] }

def insertNewSnapshot (db : Db) (row : SnapshotRow) : Except ApiError Db := do
  ensure (row.snapshot.snapshotSize < 2 ^ 63)
    (ApiError.new .internal "snapshot size exceeds database range")
  ensure (db.findSnapshot row.resourceId row.revisionId).isNone
    (internalApiError "resource_revision_snapshots_pkey")
  return { db with snapshots := db.snapshots ++ [row] }

/-!
## Revisions of workspaces and of lifecycle operations
-/

structure PrivateRevisionStorage where
  resourceId : Uuid
  namespaceId : Uuid
  authorPrincipalId : AuthorPrincipalId
  operationId : OperationId
  revisionId : RevisionId
  parents : List RevisionId
  rootTreeId : TreeId
  blobs : Blobs
  snapshot : StoredSnapshot

/-- Reach one blob of a saved revision. -/
def reachBlob (resourceId namespaceId : Uuid) (revision : RevisionId)
    (db : Db) (blob : BlobId × Nat) : Db :=
  (db.insertRevisionBlob ⟨revision, blob.1⟩).addReference resourceId
    namespaceId blob.1

def persistPrivateRevisionStorage (db : Db) (session : Session)
    (revision : PrivateRevisionStorage) : Except ApiError Db := do
  let db <- db.persistRevision session
    { revisionId := revision.revisionId
      rootTreeId := revision.rootTreeId
      authorPrincipalId := revision.authorPrincipalId
      operationId := revision.operationId }
  let db := db.insertParents revision.revisionId revision.parents
  let db := revision.blobs.foldl
    (reachBlob revision.resourceId revision.namespaceId revision.revisionId) db
  db.insertSnapshot
    { resourceId := revision.resourceId
      revisionId := revision.revisionId
      snapshot := revision.snapshot }

structure RevisionPersistence where
  revisionId : RevisionId
  rootTree : TreeId
  author : AuthorPrincipalId
  operationId : OperationId
  parent : Option RevisionId
  blobs : Blobs
  resourceId : Uuid
  namespaceId : Uuid

/-- Reach one blob of a revision that must be new. -/
def reachNewBlob (session : Session) (resourceId namespaceId : Uuid)
    (revision : RevisionId) (db : Db) (blob : BlobId × Nat) :
    Except ApiError Db := do
  let db <- db.insertNewRevisionBlob ⟨revision, blob.1⟩
  (db.addReference resourceId namespaceId blob.1).cancelBlobGc session blob.1

def persistLifecycleRevision (db : Db) (session : Session)
    (revision : RevisionPersistence) : Except ApiError Db := do
  let db <- db.insertRevision session
    { revisionId := revision.revisionId
      rootTreeId := revision.rootTree
      authorPrincipalId := revision.author
      operationId := revision.operationId }
  let db <- match revision.parent with
    | none => pure db
    | some parent => db.insertNewParent ⟨revision.revisionId, parent, 0⟩
  revision.blobs.foldlM
    (reachNewBlob session revision.resourceId revision.namespaceId
      revision.revisionId) db

/-!
## What storing changes

Every step of storing touches its own tables only.
-/

variable {db db' : Db}

theorem persistCanonicalBlobs_frame {blobs : Blobs}
    (h : db.persistCanonicalBlobs blobs = .ok db') :
    exists rows, db' = { db with canonicalBlobs := rows } := by
  refine foldlM_invariant
    (P := fun other => exists rows, other = { db with canonicalBlobs := rows })
    ?_ ⟨db.canonicalBlobs, rfl⟩ h
  rintro s blob t ⟨rows, rfl⟩ hstep
  rcases bind_eq_ok.mp hstep with ⟨_, _, hstep⟩
  dsimp only at hstep
  split at hstep
  · cases hstep
    exact ⟨_, rfl⟩
  · rcases bind_eq_ok.mp hstep with ⟨_, _, hstep⟩
    cases hstep
    exact ⟨rows, rfl⟩

theorem persistTrees_frame {ext : Externals}
    {trees : List (SkillManifestTree ext)}
    (h : db.persistTrees trees = .ok db') :
    exists ids entries,
      db' = { db with merkleTrees := ids, treeEntries := entries } := by
  have hids : forall (trees : List (SkillManifestTree ext)) (start : Db),
      exists ids, trees.foldl (fun db tree => db.persistTree tree.id) start =
        { start with merkleTrees := ids } := by
    intro trees
    induction trees with
    | nil =>
        intro start
        exact ⟨start.merkleTrees, rfl⟩
    | cons tree rest ih =>
        intro start
        rcases ih (start.persistTree tree.id) with ⟨ids, hrest⟩
        refine ⟨ids, ?_⟩
        rw [List.foldl_cons, hrest]
        unfold persistTree
        split
        · rfl
        · rfl
  unfold persistTrees at h
  dsimp only at h
  rcases hids trees db with ⟨ids, hstart⟩
  rw [hstart] at h
  refine foldlM_invariant
    (P := fun other => exists ids entries,
      other = { db with merkleTrees := ids, treeEntries := entries })
    ?_ ⟨ids, db.treeEntries, rfl⟩ h
  rintro s row t ⟨ids, entries, rfl⟩ hstep
  unfold persistTreeEntry at hstep
  split at hstep
  · cases hstep
    exact ⟨ids, _, rfl⟩
  · rcases bind_eq_ok.mp hstep with ⟨_, _, hstep⟩
    cases hstep
    exact ⟨ids, entries, rfl⟩

theorem persistRevision_frame {session : Session} {row : RevisionRow}
    (h : db.persistRevision session row = .ok db') :
    exists rows, db' = { db with revisions := rows } := by
  rcases bind_eq_ok.mp h with ⟨_, _, h⟩
  split at h
  · cases h
    exact ⟨_, rfl⟩
  · rcases bind_eq_ok.mp h with ⟨_, _, h⟩
    cases h
    exact ⟨db.revisions, rfl⟩

theorem insertParent_frame (db : Db) (row : RevisionParentRow) :
    exists rows, db.insertParent row = { db with revisionParents := rows } := by
  unfold insertParent
  split
  · exact ⟨db.revisionParents, rfl⟩
  · exact ⟨_, rfl⟩

theorem insertParents_frame (db : Db) (revision : RevisionId)
    (parents : List RevisionId) :
    exists rows, db.insertParents revision parents =
      { db with revisionParents := rows } := by
  unfold insertParents
  generalize parentRows revision parents = rows
  induction rows generalizing db with
  | nil => exact ⟨db.revisionParents, rfl⟩
  | cons row rest ih =>
      rcases insertParent_frame db row with ⟨first, hfirst⟩
      rcases ih (db.insertParent row) with ⟨all, hall⟩
      refine ⟨all, ?_⟩
      rw [List.foldl_cons, hall, hfirst]

theorem insertRevisionBlob_frame (db : Db) (row : RevisionBlobRow) :
    exists rows,
      db.insertRevisionBlob row = { db with revisionBlobs := rows } := by
  unfold insertRevisionBlob
  split
  · exact ⟨db.revisionBlobs, rfl⟩
  · exact ⟨_, rfl⟩

theorem reachBlobs_frame (db : Db) (resourceId namespaceId : Uuid)
    (revision : RevisionId) (blobs : Blobs) :
    exists revisionBlobs resourceBlobs namespaceBlobs,
      blobs.foldl (reachBlob resourceId namespaceId revision) db =
        { db with revisionBlobs, resourceBlobs, namespaceBlobs } := by
  induction blobs generalizing db with
  | nil =>
      exact ⟨db.revisionBlobs, db.resourceBlobs, db.namespaceBlobs, rfl⟩
  | cons blob rest ih =>
      rcases ih (reachBlob resourceId namespaceId revision db blob) with
        ⟨a, b, c, hrest⟩
      refine ⟨a, b, c, ?_⟩
      rw [List.foldl_cons, hrest]
      unfold reachBlob addReference insertRevisionBlob
      split
      · rfl
      · rfl

/-!
## The blobs that storing reaches
-/

/-- The rows of canonical blobs after some blobs are stored. -/
structure StoresBlobs (blobs : Blobs) (before after : List CanonicalBlobRow) :
    Prop where
  kept : forall row, row ∈ before -> row ∈ after
  stored : forall blob, blob ∈ blobs ->
    exists row, row ∈ after ∧ row.blobId = blob.1 ∧ row.sizeBytes = blob.2
  new : forall row, row ∈ after ->
    row ∈ before ∨ (row.blobId, row.sizeBytes) ∈ blobs

theorem persistCanonicalBlob_eq_ok {blob : BlobId × Nat}
    (h : db.persistCanonicalBlob blob = .ok db') :
    exists rows, db' = { db with canonicalBlobs := rows } ∧
      StoresBlobs [blob] db.canonicalBlobs rows := by
  rcases bind_eq_ok.mp h with ⟨_, _, h⟩
  dsimp only at h
  split at h
  · cases h
    refine ⟨_, rfl, ?_, ?_, ?_⟩
    · intro row hrow
      exact List.mem_append_left _ hrow
    · intro other hother
      rw [List.mem_singleton.mp hother]
      exact ⟨_, List.mem_append_right _ (List.mem_singleton_self _), rfl, rfl⟩
    · intro row hrow
      rcases List.mem_append.mp hrow with hold | hnew
      · exact .inl hold
      · rw [List.mem_singleton.mp hnew]
        exact .inr (List.mem_singleton_self _)
  · rename_i stored hstored
    rcases bind_eq_ok.mp h with ⟨_, hsame, h⟩
    cases h
    have hrow := beq_iff_eq.mp (ensure_eq_ok.mp hsame)
    refine ⟨db.canonicalBlobs, rfl, fun row hrow => hrow, ?_,
      fun row hrow => .inl hrow⟩
    intro other hother
    rw [List.mem_singleton.mp hother]
    refine ⟨stored, List.mem_of_find?_eq_some hstored, ?_, ?_⟩
    · rw [hrow]
    · rw [hrow]

theorem persistCanonicalBlobs_eq_ok {blobs : Blobs}
    (h : db.persistCanonicalBlobs blobs = .ok db') :
    exists rows, db' = { db with canonicalBlobs := rows } ∧
      StoresBlobs blobs db.canonicalBlobs rows := by
  unfold persistCanonicalBlobs at h
  induction blobs generalizing db with
  | nil =>
      cases h
      exact ⟨_, rfl, fun row hrow => hrow, by simp,
        fun row hrow => .inl hrow⟩
  | cons blob rest ih =>
      rw [List.foldlM_cons] at h
      rcases bind_eq_ok.mp h with ⟨middle, hfirst, hrest⟩
      rcases persistCanonicalBlob_eq_ok hfirst with ⟨first, rfl, hblob⟩
      rcases ih hrest with ⟨rows, hrows, hstores⟩
      refine ⟨rows, hrows, ?_, ?_, ?_⟩
      · intro row hrow
        exact hstores.kept row (hblob.kept row hrow)
      · intro other hother
        rcases List.mem_cons.mp hother with rfl | hlater
        · rcases hblob.stored other (List.mem_singleton_self _) with
            ⟨row, hrow, hid, hsize⟩
          exact ⟨row, hstores.kept row hrow, hid, hsize⟩
        · exact hstores.stored other hlater
      · intro row hrow
        rcases hstores.new row hrow with hmiddle | hlater
        · rcases hblob.new row hmiddle with hold | hnew
          · exact .inl hold
          · rw [List.mem_singleton.mp hnew]
            exact .inr (List.mem_cons_self)
        · exact .inr (List.mem_cons_of_mem _ hlater)

/-- One reference to every blob. -/
def references (blobs : Blobs) : CountTable BlobId :=
  blobs.map fun blob => (blob.1, 1)

/-- The rows of revisions after one is stored. -/
structure StoresRevision (revision : RevisionId)
    (before after : List RevisionRow) : Prop where
  kept : forall row, row ∈ before -> row ∈ after
  stored : exists row, row ∈ after ∧ row.revisionId = revision
  new : forall row, row ∈ after ->
    row ∈ before ∨ row.revisionId = revision

/-- A stored revision reaches its blobs, from a resource and its namespace. -/
structure Stored (resourceId namespaceId : Uuid) (revision : RevisionId)
    (blobs : Blobs) (db db' : Db) : Prop where
  canonical : StoresBlobs blobs db.canonicalBlobs db'.canonicalBlobs
  revisions : StoresRevision revision db.revisions db'.revisions
  resources : db'.resourceBlobs = db.resourceBlobs.addAll (references blobs)
    fun blob => (resourceId, blob)
  namespaces : db'.namespaceBlobs = db.namespaceBlobs.addAll
    (references blobs) fun blob => (namespaceId, blob)
  revisionBlobs : forall row, row ∈ db'.revisionBlobs <->
    row ∈ db.revisionBlobs ∨
      row.revisionId = revision ∧ row.blobId ∈ blobs.map Prod.fst

theorem persistRevision_eq_ok {session : Session} {row : RevisionRow}
    (h : db.persistRevision session row = .ok db') :
    exists rows, db' = { db with revisions := rows } ∧
      StoresRevision row.revisionId db.revisions rows := by
  rcases bind_eq_ok.mp h with ⟨_, _, h⟩
  split at h
  · cases h
    refine ⟨_, rfl, ?_, ?_, ?_⟩
    · intro other hother
      exact List.mem_append_left _ hother
    · exact ⟨row, by simp, rfl⟩
    · intro other hother
      rcases List.mem_append.mp hother with hold | hnew
      · exact .inl hold
      · exact .inr (by rw [List.mem_singleton.mp hnew])
  · rename_i stored hstored
    rcases bind_eq_ok.mp h with ⟨_, _, h⟩
    cases h
    have hid : stored.revisionId = row.revisionId := by
      simpa using List.find?_some hstored
    exact ⟨db.revisions, rfl, fun other hother => hother,
      ⟨stored, List.mem_of_find?_eq_some hstored, hid⟩,
      fun other hother => .inl hother⟩

theorem insertRevision_eq_ok {session : Session} {row : RevisionRow}
    (h : db.insertRevision session row = .ok db') :
    db' = { db with revisions := db.revisions ++ [row] } ∧
      db.findRevision row.revisionId = none := by
  rcases bind_eq_ok.mp h with ⟨_, _, h⟩
  rcases bind_eq_ok.mp h with ⟨_, hnew, h⟩
  cases h
  exact ⟨rfl, Option.isNone_iff_eq_none.mp (ensure_eq_ok.mp hnew)⟩

theorem storesRevision_append (row : RevisionRow) (rows : List RevisionRow) :
    StoresRevision row.revisionId rows (rows ++ [row]) := by
  refine ⟨fun other hother => List.mem_append_left _ hother,
    ⟨row, by simp, rfl⟩, ?_⟩
  intro other hother
  rcases List.mem_append.mp hother with hold | hnew
  · exact .inl hold
  · exact .inr (by rw [List.mem_singleton.mp hnew])

theorem mem_insertRevisionBlob {row other : RevisionBlobRow} :
    other ∈ (db.insertRevisionBlob row).revisionBlobs <->
      other ∈ db.revisionBlobs ∨ other = row := by
  unfold insertRevisionBlob
  split
  · rename_i hmem
    constructor
    · exact .inl
    · rintro (hold | rfl)
      · exact hold
      · exact hmem
  · simp

theorem insertRevisionBlobs_eq (revision : RevisionId) (blobs : Blobs)
    (db : Db) :
    exists rows,
      blobs.foldl (fun db blob => db.insertRevisionBlob ⟨revision, blob.1⟩)
          db = { db with revisionBlobs := rows } ∧
        forall row, row ∈ rows <-> row ∈ db.revisionBlobs ∨
          row.revisionId = revision ∧ row.blobId ∈ blobs.map Prod.fst := by
  induction blobs generalizing db with
  | nil => exact ⟨db.revisionBlobs, rfl, by simp⟩
  | cons blob rest ih =>
      rcases insertRevisionBlob_frame db ⟨revision, blob.1⟩ with
        ⟨first, hfirst⟩
      rcases ih (db.insertRevisionBlob ⟨revision, blob.1⟩) with
        ⟨rows, hrest, hrows⟩
      refine ⟨rows, ?_, ?_⟩
      · rw [List.foldl_cons, hrest, hfirst]
      · intro row
        rw [hrows row, mem_insertRevisionBlob]
        rcases row with ⟨id, reached⟩
        simp only [List.map_cons, List.mem_cons, RevisionBlobRow.mk.injEq]
        tauto

theorem reachBlobs_eq (resourceId namespaceId : Uuid) (revision : RevisionId)
    (blobs : Blobs) (db : Db) :
    exists revisionBlobs,
      blobs.foldl (reachBlob resourceId namespaceId revision) db =
          { db with
            revisionBlobs
            resourceBlobs := db.resourceBlobs.addAll (references blobs)
              fun blob => (resourceId, blob)
            namespaceBlobs := db.namespaceBlobs.addAll (references blobs)
              fun blob => (namespaceId, blob) } ∧
        forall row, row ∈ revisionBlobs <-> row ∈ db.revisionBlobs ∨
          row.revisionId = revision ∧ row.blobId ∈ blobs.map Prod.fst := by
  induction blobs generalizing db with
  | nil => exact ⟨db.revisionBlobs, rfl, by simp⟩
  | cons blob rest ih =>
      rcases insertRevisionBlob_frame db ⟨revision, blob.1⟩ with
        ⟨first, hfirst⟩
      have hmem := fun other =>
        @mem_insertRevisionBlob db ⟨revision, blob.1⟩ other
      rw [hfirst] at hmem
      rcases ih (reachBlob resourceId namespaceId revision db blob) with
        ⟨revisionBlobs, hrest, hrows⟩
      rw [reachBlob, hfirst] at hrows
      refine ⟨revisionBlobs, ?_, ?_⟩
      · rw [List.foldl_cons, hrest, reachBlob, hfirst]
        rfl
      · intro row
        rw [hrows row]
        have hrow := hmem row
        dsimp only [addReference] at hrow ⊢
        rw [hrow]
        rcases row with ⟨id, reached⟩
        simp only [List.map_cons, List.mem_cons, RevisionBlobRow.mk.injEq]
        tauto

theorem insertSnapshot_eq_ok {row : SnapshotRow}
    (h : db.insertSnapshot row = .ok db') :
    exists rows, db' = { db with snapshots := rows } ∧
      ((rows = db.snapshots ∧
          (db.findSnapshot row.resourceId row.revisionId).isSome) ∨
        (rows = db.snapshots ++ [row] ∧
          db.findSnapshot row.resourceId row.revisionId = none)) := by
  rcases bind_eq_ok.mp h with ⟨_, _, h⟩
  split at h
  · rename_i stored hstored
    cases h
    exact ⟨db.snapshots, rfl, .inl ⟨rfl, by simp [hstored]⟩⟩
  · rename_i hnone
    cases h
    exact ⟨_, rfl, .inr ⟨rfl, hnone⟩⟩

theorem findSnapshot_isSome {resourceId : Uuid} {revision : RevisionId} :
    (db.findSnapshot resourceId revision).isSome <->
      exists row, row ∈ db.snapshots ∧ row.resourceId = resourceId ∧
        row.revisionId = revision := by
  unfold findSnapshot
  simp

end Db
end Denju
