import Denju.Registry.Lifecycle

/-!
# Transferring a skill to a team

The owner of a personal skill moves it into the namespace of a team.  The
references of the skill to its blobs move with it.
-/

namespace Denju

open Lib

namespace Db

/-- The references of one resource. -/
def resourceReferences (db : Db) (resourceId : Uuid) : CountTable BlobId :=
  (db.resourceBlobs.filter fun row => row.1.1 = resourceId).map fun row =>
    (row.1.2, row.2)

theorem resourceReferences_unique {db : Db}
    (hexact : CountTable.Exact db.resourceBlobs) (resourceId : Uuid) :
    ((db.resourceReferences resourceId).map Prod.fst).Nodup := by
  unfold resourceReferences
  rw [List.map_map]
  have hrows : ((db.resourceBlobs.filter fun row =>
      row.1.1 = resourceId).map Prod.fst).Nodup :=
    hexact.unique.sublist (List.filter_sublist.map Prod.fst)
  refine List.Nodup.map_on ?_ (List.Nodup.of_map Prod.fst hrows)
  intro a ha b hb hsame
  have hkeys : a.1 = b.1 := by
    have hfirst : a.1.1 = resourceId := by
      simpa using (List.mem_filter.mp ha).2
    have hsecond : b.1.1 = resourceId := by
      simpa using (List.mem_filter.mp hb).2
    exact Prod.ext (hfirst.trans hsecond.symm) hsame
  exact List.inj_on_of_nodup_map hrows ha hb hkeys

def enforceTransferDestinationQuota (db : Db) (limits : Limits)
    (resourceId destination : Uuid) : Except ApiError Unit := do
  let current <- db.namespaceUsage destination
  let additional :=
    (((db.resourceReferences resourceId).filter fun row =>
      (db.namespaceBlobs.get? (destination, row.1)).isNone).map fun row =>
        (db.blobSize row.1).getD 0).sum
  ensure (additional < 2 ^ 63) (internalApiError "bigint out of range")
  let projected := current + additional
  ensure (projected < 2 ^ 64)
    (ApiError.new .quotaExceeded
      "destination namespace logical usage overflow")
  ensure (projected ≤ limits.namespaceStorageBytes)
    (ApiError.new .quotaExceeded
      ("namespace storage quota exceeded: " ++ toString projected ++ " > " ++
        toString limits.namespaceStorageBytes ++ " bytes"))

/-- Move the references of the resource from one namespace to another.  Once
the counts are known to suffice, a row is deleted where they are equal and
lowered where its count is larger. -/
def moveNamespaceBlobReachability (db : Db)
    (resourceId source destination : Uuid) : Except ApiError Db := do
  let rows := db.resourceReferences resourceId
  ensure (rows.all fun row =>
      decide (row.2 ≤ db.namespaceBlobs.count (source, row.1)))
    (ApiError.new .internal
      "namespace blob reachability is inconsistent with the transferred resource")
  let added := db.namespaceBlobs.addAll rows fun blob => (destination, blob)
  return { db with
    namespaceBlobs := added.dropAll rows fun blob => (source, blob) }

/-- The live skill that its owner moves. -/
def lockTransferred (db : Db) (user resourceId : Uuid) :
    Except ApiError (ResourceRow × Text) := do
  let notFound := ApiError.new .notFound "resource not found"
  let row <- okOr
    ((db.findResource resourceId).filter fun row =>
      decide (row.kind = .skill) && !row.deleted &&
        db.canReadResource user resourceId &&
          db.canManageResource user resourceId)
    notFound
  let owner <- okOr (db.directory.namespaceById row.ownerNamespaceId) notFound
  return (row, owner.slug)

end Db

namespace Registry

variable (self : Registry)

/-- Move the skill, its references and its name. -/
def moveResource (authority : UserAuthority)
    (request : ResourceTransferRequest) (db : Db) :
    Except ApiError (ResourceTransferResponse × Db) := do
  let destination <- db.directory.authorizeNamespacePublish authority
    request.destinationTeam
  ensure destination.isTeam
    (ApiError.new .invalidRequest
      "resources may be transferred only into a team namespace")
  let (resource, owner) <- db.lockTransferred authority.userId
    request.resourceId
  ensure (resource.ownerNamespaceId == authority.namespaceId)
    (ApiError.new .unauthorized
      "only personally owned resources may be transferred")
  let expectedGeneration <- i64TryFrom request.expectedGeneration
    generationOutOfRange
  ensure (resource.generation.value == expectedGeneration)
    (resourceAdvanced resource.generation)
  ensure (!db.slugTaken destination.namespaceId resource.slug)
    (ApiError.new .generationConflict
      ("destination already contains " ++ String.ofList resource.slug))
  db.enforceTransferDestinationQuota self.limits request.resourceId
    destination.namespaceId
  let db <- db.moveNamespaceBlobReachability request.resourceId
    resource.ownerNamespaceId destination.namespaceId
  let generation <- okOr resource.generation.checkedSucc
    (ApiError.new .internal "generation overflow")
  let db <- db.upsertRedirect (.actor authority.userId)
    resource.ownerNamespaceId resource.slug request.resourceId
  let db := { db with
    resources := updateWhere (fun row => row.id = request.resourceId)
      (fun row => { row with
        ownerNamespaceId := destination.namespaceId, generation })
      db.resources }
  let outcome : ResourceTransferResponse :=
    { resourceId := request.resourceId
      oldLocator := locator owner resource.slug
      newLocator := locator destination.namespaceSlug resource.slug
      generation := generation.value }
  let rows <- Db.recordOperation db.transferOperations
    { userId := authority.userId
      operationId := request.operationId
      requestHash := request.requestHash
      target := request.resourceId
      outcome }
    "resource_transfer_operations_pkey"
  return (outcome,
    ({ db with transferOperations := rows } : Db).enqueueResourceWake
      request.resourceId generation.value)

def transferResource (userId : Uuid) (request : ResourceTransferRequest)
    (db : Db) : Except ApiError (ResourceTransferResponse × Db) := do
  let authority <- db.directory.userAuthority userId
  checkRequestHash request.requestHash
    (self.hashes.resourceTransfer request.toResourceTransferRequestHashInput)
    "request_hash does not match the canonical resource transfer payload"
  let replay <- Db.replayOperation db.transferOperations authority.userId
    request.operationId request.requestHash request.resourceId
    "operation_id was already used with different transfer content"
  match replay with
  | some outcome => return (outcome, db)
  | none => self.moveResource authority request db

/-!
## What a transfer writes
-/

variable {self} {db db' : Db}

/-- A transfer that is not a replay. -/
structure Transferred (authority : UserAuthority)
    (request : ResourceTransferRequest) (db db' : Db) : Prop where
  resource : exists resource destination owner redirects generation
      transferOperations,
    db.findResource request.resourceId = some resource ∧
      resource.kind = .skill ∧ resource.deleted = false ∧
      resource.ownerNamespaceId = authority.namespaceId ∧
      owner ∈ db.directory.namespaces ∧ owner.kind = .team ∧
      owner.id = destination ∧
      (forall row, row ∈ db.resourceReferences request.resourceId ->
        row.2 ≤ db.namespaceBlobs.count (authority.namespaceId, row.1)) ∧
      generation.value = resource.generation.value + 1 ∧
      db' = ({ db with
          namespaceBlobs :=
            (db.namespaceBlobs.addAll
              (db.resourceReferences request.resourceId)
              fun blob => (destination, blob)).dropAll
              (db.resourceReferences request.resourceId)
              fun blob => (authority.namespaceId, blob)
          redirects
          resources := updateWhere (fun row => row.id = request.resourceId)
            (fun row =>
              { row with ownerNamespaceId := destination, generation })
            db.resources
          transferOperations } : Db).enqueueResourceWake request.resourceId
            generation.value
  moved : exists resource space,
    db.findResource request.resourceId = some resource ∧
      resource.kind = .skill ∧ resource.deleted = false ∧
      resource.ownerNamespaceId = authority.namespaceId ∧
      db.directory.namespaceBySlug request.destinationTeam = some space ∧
      space.kind = .team ∧
      db.slugTaken space.id resource.slug = false ∧
      Redirected .skill authority.namespaceId resource.slug request.resourceId
        db.redirects db'.redirects ∧
      exists generation, db'.resources = updateWhere
        (fun row => row.id = request.resourceId)
        (fun row => { row with ownerNamespaceId := space.id, generation })
        db.resources

theorem moveResource_eq_ok {authority : UserAuthority}
    {request : ResourceTransferRequest} {outcome : ResourceTransferResponse}
    (h : self.moveResource authority request db = .ok (outcome, db')) :
    Transferred authority request db db' := by
  rcases bind_eq_ok.mp h with ⟨destination, hdestination, h⟩
  rcases bind_eq_ok.mp h with ⟨_, hteam, h⟩
  rcases bind_eq_ok.mp h with ⟨⟨resource, owner⟩, hlocked, h⟩
  rcases bind_eq_ok.mp h with ⟨_, howner, h⟩
  rcases bind_eq_ok.mp h with ⟨_, _, h⟩
  rcases bind_eq_ok.mp h with ⟨_, _, h⟩
  rcases bind_eq_ok.mp h with ⟨_, hunused, h⟩
  rcases bind_eq_ok.mp h with ⟨_, _, h⟩
  rcases bind_eq_ok.mp h with ⟨moved, hmoved, h⟩
  rcases bind_eq_ok.mp h with ⟨generation, hgeneration, h⟩
  rcases bind_eq_ok.mp h with ⟨redirected, hredirected, h⟩
  rcases bind_eq_ok.mp h with ⟨operations, _, h⟩
  cases h
  rcases bind_eq_ok.mp hlocked with ⟨found, hfound, hlocked⟩
  rcases bind_eq_ok.mp hlocked with ⟨_, _, hlocked⟩
  rcases bind_eq_ok.mp hmoved with ⟨_, henough, hmoved⟩
  rcases upsertRedirect_eq_ok hredirected with
    ⟨redirects, hredirects, hleads⟩
  rcases Directory.found_of_authorizeNamespacePublish hdestination with
    ⟨space, hfoundSpace, hspace, hid, hkind⟩
  have hteamKind := hkind (ensure_eq_ok.mp hteam)
  cases hlocked
  cases hmoved
  have hrow := Option.filter_eq_some_iff.mp (okOr_eq_ok.mp hfound)
  have hlive := hrow.2
  simp only [Bool.and_eq_true, decide_eq_true_eq, Bool.not_eq_true'] at hlive
  simp only [ensure_eq_ok, beq_iff_eq] at howner
  simp only [ensure_eq_ok, List.all_eq_true, decide_eq_true_eq] at henough
  simp only [ensure_eq_ok, Bool.not_eq_true', hid] at hunused
  rw [howner] at henough hleads
  refine ⟨⟨resource, destination.namespaceId, space, redirects, generation,
    operations, hrow.1, hlive.1.1.1, hlive.1.1.2, howner, hspace, hteamKind,
    hid.symm, henough, ?_, ?_⟩,
    ⟨resource, space, hrow.1, hlive.1.1.1, hlive.1.1.2, howner, hfoundSpace,
      hteamKind, hunused, ?_, generation, ?_⟩⟩
  · exact Generation.checkedSucc_eq_some (okOr_eq_ok.mp hgeneration)
  · rw [hredirects, howner]
  · rw [hredirects]
    exact hleads
  · rw [hredirects, ← hid]
    rfl

/-- A transfer changes nothing, or moves the skill. -/
theorem transferResource_eq_ok {userId : Uuid}
    {request : ResourceTransferRequest} {outcome : ResourceTransferResponse}
    (h : self.transferResource userId request db = .ok (outcome, db')) :
    db' = db ∨ exists authority,
      db.directory.userAuthority userId = .ok authority ∧
        Db.findOperation db.transferOperations authority.userId
          request.operationId = none ∧
        Transferred authority request db db' := by
  rcases bind_eq_ok.mp h with ⟨authority, hauthority, h⟩
  rcases bind_eq_ok.mp h with ⟨_, _, h⟩
  rcases bind_eq_ok.mp h with ⟨replay, hreplay, h⟩
  split at h
  · cases h
    exact .inl rfl
  · exact .inr ⟨authority, hauthority, Db.replayOperation_eq_none hreplay,
      moveResource_eq_ok h⟩

end Registry
end Denju
