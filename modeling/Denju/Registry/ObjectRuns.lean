import Denju.Registry.ObjectProofs

/-!
# Prepared saves in runs

A prepared save can be committed as long as its namespace keeps a reference to
every object that the save does not upload.  All transactions of the registry
keep these references but a prune and a transfer, which drop the references of
their own skill without looking at the prepared saves of other skills.
-/

namespace Denju

open Lib

/-!
## Activities that spare prepared saves
-/

instance (db : Db) (dropped : CountTable BlobId)
    (operation : RevisionOperationRow) :
    Decidable (db.KeepsReference dropped operation) := by
  unfold Db.KeepsReference
  infer_instance

instance (db : Db) (authority : UserAuthority) (resourceId : Uuid) :
    Decidable (db.PruneSpares authority resourceId) := by
  unfold Db.PruneSpares
  infer_instance

instance (db : Db) (authority : UserAuthority) (resourceId : Uuid) :
    Decidable (db.TransferSpares authority resourceId) := by
  unfold Db.TransferSpares
  infer_instance

namespace Service

variable {registry : Registry}

/-- What is asked of a request that is not a replay and that goes through. -/
def WhenTaken {α β : Type} (directory : Directory) (userId : Uuid)
    (recorded : List (OperationRow α)) (operationId : OperationId)
    (result : Except ApiError β) (spares : UserAuthority -> Prop) : Prop :=
  match directory.userAuthority userId, result with
  | .ok authority, .ok _ =>
      Db.findOperation recorded authority.userId operationId = none ->
        spares authority
  | _, _ => True

instance {α β : Type} (directory : Directory) (userId : Uuid)
    (recorded : List (OperationRow α)) (operationId : OperationId)
    (result : Except ApiError β) (spares : UserAuthority -> Prop)
    [DecidablePred spares] :
    Decidable (WhenTaken directory userId recorded operationId result spares) := by
  unfold WhenTaken
  split
  · infer_instance
  · infer_instance

/-- No prune or transfer takes the last reference to an object that a prepared
save of another skill relies on. -/
def SparesObjects (service : Service registry) : Activity -> Prop
  | .prune userId request =>
      WhenTaken service.db.directory userId service.db.lifecycleOperations
        request.operationId
        (registry.pruneSkillHistory userId request service.db)
        fun authority => service.db.PruneSpares authority request.resourceId
  | .transfer userId request =>
      WhenTaken service.db.directory userId service.db.transferOperations
        request.operationId
        (registry.transferResource userId request service.db)
        fun authority =>
          service.db.TransferSpares authority request.resourceId
  | _ => True

instance (service : Service registry) (activity : Activity) :
    Decidable (service.SparesObjects activity) := by
  unfold SparesObjects
  split
  · infer_instance
  · infer_instance
  · infer_instance

theorem WhenTaken.spares {α β : Type} {directory : Directory} {userId : Uuid}
    {recorded : List (OperationRow α)} {operationId : OperationId}
    {result : Except ApiError β} {spares : UserAuthority -> Prop}
    (h : WhenTaken directory userId recorded operationId result spares)
    {authority : UserAuthority} {value : β}
    (hauthority : directory.userAuthority userId = .ok authority)
    (hresult : result = .ok value)
    (hnew : Db.findOperation recorded authority.userId operationId = none) :
    spares authority := by
  unfold WhenTaken at h
  rw [hauthority, hresult] at h
  exact h hnew

/-!
## Every run keeps the proofs
-/

section Runs

variable {service : Service registry}

theorem objectsProven_settle {α : Type} {result : Except ApiError (α × Db)}
    (h : service.db.ObjectsProven)
    (hok : forall value db, result = .ok (value, db) -> db.ObjectsProven) :
    (service.settle result).db.ObjectsProven :=
  settle_of (P := fun next => next.db.ObjectsProven) h hok

theorem objectsProven_await {α β : Type} {plan : β -> Plan registry.ext}
    {result : Except ApiError (α ⊕ β)} (h : service.db.ObjectsProven) :
    (service.await plan result).db.ObjectsProven :=
  await_of (P := fun next => next.db.ObjectsProven) h fun _ _ => h

theorem objectsProven_writePlan {newConflictId : Uuid}
    (h : service.db.ObjectsProven) (plan : Plan registry.ext) :
    (service.writePlan newConflictId plan).db.ObjectsProven := by
  cases plan with
  | importing plan =>
      exact objectsProven_settle h fun _ _ hok => h.grows (grows_import hok)
  | save plan =>
      exact objectsProven_settle h fun _ _ hok => h.grows (grows_commit hok)
  | restore plan =>
      exact objectsProven_settle h fun _ _ hok => h.grows (grows_restore hok)
  | rename plan =>
      cases plan with
      | personal plan =>
          exact objectsProven_settle h fun _ _ hok =>
            h.grows (grows_personalRename hok)
      | team plan =>
          exact objectsProven_settle h fun _ _ hok =>
            h.grows (grows_teamRename hok)

theorem objectsProven_serve (h : service.db.ObjectsProven)
    (call : ServiceCall) : (service.serve call).db.ObjectsProven := by
  cases call with
  | prepareImport =>
      exact objectsProven_settle h fun _ _ hok =>
        h.grows (grows_prepareImport hok)
  | commitImport => exact objectsProven_await h
  | prepare =>
      exact objectsProven_settle h fun _ _ hok => objectsProven_prepare h hok
  | commit => exact objectsProven_await h
  | publish =>
      exact objectsProven_settle h fun _ _ hok => h.grows (grows_publish hok)
  | restore => exact objectsProven_await h
  | rename => exact objectsProven_await h
  | createProposal =>
      exact objectsProven_settle h fun _ _ hok =>
        h.grows (grows_createProposal hok)
  | acceptProposal =>
      exact objectsProven_settle h fun _ _ hok => h.grows (grows_accept hok)
  | write index newConflictId =>
      refine writeAt_of (P := fun next => next.db.ObjectsProven) h ?_
      intro plan _
      have hrest : (Service.mk service.db
          (service.plans.eraseIdx index)).db.ObjectsProven := h
      exact objectsProven_writePlan hrest plan

theorem objectsProven_act (h : service.db.ObjectsProven)
    {activity : Activity} (hspares : service.SparesObjects activity) :
    (service.act activity).db.ObjectsProven := by
  cases activity with
  | call call => exact objectsProven_serve h call
  | unpublish =>
      exact objectsProven_settle h fun _ _ hok => h.grows (grows_unpublish hok)
  | prune =>
      refine objectsProven_settle h fun _ _ hok => ?_
      rcases Registry.pruneSkillHistory_eq_ok hok with
        rfl | ⟨authority, hauthority, hnew, hpruned⟩
      · exact h
      · exact objectsProven_prune h hpruned
          (hspares.spares hauthority hok hnew)
  | transfer =>
      refine objectsProven_settle h fun _ _ hok => ?_
      rcases Registry.transferResource_eq_ok hok with
        rfl | ⟨authority, hauthority, hnew, hmoved⟩
      · exact h
      · exact objectsProven_transfer h hauthority hmoved
          (hspares.spares hauthority hok hnew)
  | collect =>
      exact objectsProven_settle h fun _ _ hok => objectsProven_collect h hok

/-- The answer of a prepare lists the uploads of the stored save. -/
theorem preparePrivateRevision_lists {db db' : Db} {fresh : BlobId -> Uuid}
    {userId : Uuid} {request : PrivateRevisionRequest}
    {answer : PrivateRevisionPrepareResponse}
    (h : registry.preparePrivateRevision fresh userId request db =
      .ok (answer, db')) (hstate : answer.state = .prepared) :
    exists authority operation,
      db'.directory.userAuthority userId = .ok authority ∧
        db'.findRevisionOperation authority.userId request.operationId =
          some operation ∧
        operation.state = .prepared ∧
        answer.uploads = operation.staging := by
  rcases bind_eq_ok.mp h with ⟨authority, hauthority, h⟩
  rcases bind_eq_ok.mp h with ⟨blobs, hvalid, h⟩
  rcases bind_eq_ok.mp h with ⟨author, _, h⟩
  rcases bind_eq_ok.mp h with ⟨revision, _, h⟩
  split at h
  · rename_i existing hexisting
    rcases bind_eq_ok.mp h with ⟨_, _, h⟩
    cases h
    refine ⟨authority, existing, hauthority, hexisting, hstate, ?_⟩
    exact if_pos hstate
  · rename_i hnone
    have hblobs := manifestBlobs_of_valid hvalid
    rcases storePrivateRevision_proven hblobs h with
      ⟨start, operation, hstart, rfl, _, huser, hid, hprepared, huploads⟩
    have hkeeps : start.directory = db.directory ∧
        start.revisionOperations = db.revisionOperations := by
      rcases hstart with rfl | rfl
      · exact ⟨rfl, rfl⟩
      · rcases Db.ensurePrivateWorkspaceForUser_cases db request.resourceId
            authority.userId with hsame | ⟨_, _, _, _, hrow⟩
        · rw [hsame]
          exact ⟨rfl, rfl⟩
        · rw [hrow]
          exact ⟨rfl, rfl⟩
    refine ⟨authority, operation, ?_, ?_, hprepared, huploads⟩
    · rw [← hauthority]
      exact congrArg (fun directory => directory.userAuthority userId)
        hkeeps.1
    · unfold Db.findRevisionOperation at hnone ⊢
      rw [hkeeps.2, List.find?_append, hnone]
      simp [huser, hid]

theorem objectsProven_run {directory : Directory} {past : List Activity}
    (hrun : Run (Acts SparesObjects) (Service.empty registry directory) past
      service) : service.db.ObjectsProven :=
  hrun.invariant (P := fun service => service.db.ObjectsProven)
    (Db.ObjectsProven.empty directory) (by
      rintro before activity after h ⟨hspares, rfl⟩
      exact objectsProven_act h hspares)

/-- In every run that spares prepared saves, no commit lacks the proof of an
object, and a save that was prepared, now or before, lists every object that
its namespace does not reach. -/
theorem commit_finds_proofs {directory : Directory} {past : List Activity}
    (hrun : Run (Acts SparesObjects) (Service.empty registry directory) past
      service) :
    (forall store userId request,
      registry.readPrivateRevision store userId request service.db ≠
        .error missingObjectProof) ∧
    (forall newConflictId (plan : PendingCommit registry.ext),
      Registry.writePrivateRevision newConflictId plan service.db ≠
        .error missingObjectProof) ∧
    forall fresh userId request answer db',
      registry.preparePrivateRevision fresh userId request service.db =
          .ok (answer, db') ->
        answer.state = .prepared ->
        exists authority operation,
          db'.directory.userAuthority userId = .ok authority ∧
            db'.findRevisionOperation authority.userId request.operationId =
              some operation ∧
            answer.uploads = operation.staging ∧
            forall resource,
              db'.findResource operation.resourceId = some resource ->
                resource.ownerNamespaceId = operation.namespaceId ->
                forall blob, blob ∈ operation.unstaged ->
                  db'.namespaceReaches operation.namespaceId blob = true := by
  have hproven := objectsProven_run hrun
  refine ⟨?_, ?_, ?_⟩
  · intro store userId request
    exact readPrivateRevision_avoids store userId request hproven
  · intro newConflictId plan
    exact writePrivateRevision_avoids newConflictId plan
  · intro fresh userId request answer db' hok hstate
    have hafter := objectsProven_prepare hproven hok
    rcases preparePrivateRevision_lists hok hstate with
      ⟨authority, operation, hauthority, hfound, hprepared, huploads⟩
    refine ⟨authority, operation, hauthority, hfound, huploads, ?_⟩
    intro resource hresource howner
    have hmem := List.mem_of_find?_eq_some hfound
    rcases hafter.operations operation hmem hprepared with
      ⟨found, hsame, ⟨_, hreached⟩ | ⟨hleft, _⟩⟩
    · exact hreached
    · rw [hresource] at hsame
      rw [← Option.some.inj hsame] at hleft
      exact absurd howner hleft

end Runs
end Service

/-!
## A prune of another skill

A user holds a file in the history of one skill and prepares a save of another
skill that shares it, so there is nothing to upload.  Pruning the first skill
drops the last reference of the namespace to the file.  The save is still
prepared, a repeated prepare still asks for nothing, and the commit fails.  A
team of the user holds the file too, so its object is never collected.
-/

namespace Sample

def skillMdB : Bytes :=
  utf8 "---\nname: b\ndescription: d\n---\n".toList

def skillMdBDigest : Digest :=
  digestOfNat
    0x3ba36584a2067aa357fba205a87446f9c852fd1b2d86917629deaefd57be311f

def oneFile (root : Nat) (document : Digest) : SkillManifest where
  rootTree := ⟨digestOfNat root⟩
  entries := [.file skillMdPath ⟨document⟩ 31 false]

def twoFiles (root : Nat) (document : Digest) : SkillManifest where
  rootTree := ⟨digestOfNat root⟩
  entries :=
    [ .file skillMdPath ⟨document⟩ 31 false,
      .file "x".toList ⟨runDigest⟩ 1 false ]

def sharedRoot : Nat :=
  0x7856e70e6a272b8041d2993b12d4a6f988bf344dd5dbaa385fd0cd963efd87f9

def secondRoot : Nat :=
  0x3a6e0fa7dfcf9c8b253b901eaad2acfe90ae46ee282c3681b24327987130cbe2

def preparedRoot : Nat :=
  0xed4a21dcd799e1173f1f674419fdfac1f062b463ab8b4f2e925ae5a7fea9ef26

def sharedArchive : Bytes :=
  bytesOfNat 125
    0x28b52ffd0460850300f204121980a93a00d1b011e780a13650382b4d4a60ce492f8bc5d84d013e76bfe43e8caa8a2a8f3b3003c19ea1580a539ed592435575e64b4691f02d383126f0dfa5ecff5b3500420342210d203003327607fbe1c7625412040730863f6174571f1d140754b205837fa345c070702a4725df262a

def sharedArchiveDigest : Digest :=
  digestOfNat
    0x9f0435530496a1e266cc3470fca07a195f696f15b2b49d2e4ddeac81c894452d

def secondArchive : Bytes :=
  bytesOfNat 103
    0x28b52ffd0460d502005204101780c53a6c13f81d50cc355d382b0d617166a597c562eccaa9ccacbdc82d2c02d853e06a4d16ada69c3273ee3e1561209fc4857386ff694cf1ffd92d48c938900800e80efc8f0e280e70c97662f0b2d10a02603838812365e0f70c

def secondArchiveDigest : Digest :=
  digestOfNat
    0x37aa615db0fc3dcad87ed5db2d532b35eccc412f615d2b485dbca62af4e5d34f

def archives : List (List TarRecord × Bytes) :=
  [ (documentRecords, documentArchive),
    ([ ⟨.regular, skillMdPath, 0o644, none, skillMd⟩,
       ⟨.regular, "x".toList, 0o644, none, utf8 "x".toList⟩ ],
      sharedArchive),
    ([⟨.regular, skillMdPath, 0o644, none, skillMdB⟩], secondArchive) ]

def sharedRevision : RevisionId :=
  ⟨digestOfNat
    0xffbde6316db06de534fc77f945ba2f20e6b1ff010efa8542b15922efc28d3efc⟩

def teamRevision : RevisionId :=
  ⟨digestOfNat
    0x7f13fcfe239affa32464b0acdad3b6c95aa4b75defd957fc6230eaf12278875d⟩

def withoutFile : RevisionId :=
  ⟨digestOfNat
    0xd8813b88c10893e1b339cb68480c827c7e7d0c2ee0fd7359fbaf863e2fef31d5⟩

def secondRevision : RevisionId :=
  ⟨digestOfNat
    0x69d63f09d6feace5ed1b62876429a0912bdb1a7501de45bf180ba49db7e270e2⟩

def secondSaved : RevisionId :=
  ⟨digestOfNat
    0xdf14a2a24de6a568f3422971994b56f870fe2fc1892534eaa7c9e849014e77eb⟩

def revisionTranscriptOf (root : Digest) (parents : List RevisionId)
    (operation : UInt8) : Bytes :=
  revisionDomain ++ root.toList ++ u32BigEndian parents.length ++
    (parents.flatMap fun parent => parent.bytes.toList) ++
    (uuid 3).toList ++ (uuid operation).toList

def sharingDigests : List (Bytes × Digest) :=
  [ (skillMd, skillMdDigest),
    (skillMdB, skillMdBDigest),
    (utf8 "x".toList, runDigest),
    (transcript [("SKILL.md", .file ⟨skillMdDigest⟩ false)],
      documentRoot.bytes),
    (transcript [("SKILL.md", .file ⟨skillMdDigest⟩ false),
        ("x", .file ⟨runDigest⟩ false)], digestOfNat sharedRoot),
    (transcript [("SKILL.md", .file ⟨skillMdBDigest⟩ false)],
      digestOfNat secondRoot),
    (transcript [("SKILL.md", .file ⟨skillMdBDigest⟩ false),
        ("x", .file ⟨runDigest⟩ false)], digestOfNat preparedRoot),
    (documentArchive, archiveDigest),
    (sharedArchive, sharedArchiveDigest),
    (secondArchive, secondArchiveDigest),
    (revisionTranscriptOf (digestOfNat sharedRoot) [] 41,
      sharedRevision.bytes),
    (revisionTranscriptOf (digestOfNat sharedRoot) [] 42,
      teamRevision.bytes),
    (revisionTranscriptOf documentRoot.bytes [sharedRevision] 43,
      withoutFile.bytes),
    (revisionTranscriptOf (digestOfNat secondRoot) [] 44,
      secondRevision.bytes),
    (revisionTranscriptOf (digestOfNat preparedRoot) [secondRevision] 45,
      secondSaved.bytes) ]

def sharingHashes : List (Uuid × RequestHash) :=
  [ (uuid 41, digestOfNat
      0x21afa045e702561308f00a7f64e3c2e0ddfd423e9e2d5523b94627325cde5a4b),
    (uuid 42, digestOfNat
      0x9ffefa998635c3b1cf281cadb33e8549334f3de69df2995b341378e0c221a9ad),
    (uuid 43, digestOfNat
      0x17a26d971449ff6637995c35e20e087b0d1fd0a775412903a850cdcc9cfdc966),
    (uuid 44, digestOfNat
      0xd059a4909aa893747ee9026b4bd267a34f35a3e7d4c4304d68c7951fd31d54e6),
    (uuid 45, digestOfNat
      0x27fd71905ea901d4c85d900d494c74734af76ca7149847672a43dc68d073925b),
    (uuid 46, digestOfNat
      0x8662e1eeac7e3aa81d0966efd53bc829963447c6224ef492015f80f18a93a45c) ]

def sharingHashOf (operation : UInt8) : RequestHash :=
  (sharingHashes.lookup (uuid operation)).getD (Vector.replicate 32 0)

def sharing : Registry :=
  { registryOf sharingDigests sharingHashes with
    ext := { externalsOf sharingDigests with
      yamlFromStr := fun text =>
        if text = frontmatter then .ok frontmatterValue
        else if text = "name: b\ndescription: d\n".toList then
          .ok (.mapping
            [(.string "name".toList, .string "b".toList),
              (.string "description".toList, .string "d".toList)])
        else .error []
      archiveWrite := fun written =>
        match archives.lookup written with
        | some bytes => .ok bytes
        | none => .error []
      archiveRead := fun bytes =>
        match archives.find? fun archive => archive.2 = bytes with
        | some archive =>
            .ok (archive.1.map fun record => .ok record.toItem)
        | none => .error [] } }

/-- An object store that holds every blob and every archive. -/
def sharedStore : ObjectStore where
  get key :=
    match sharingDigests.find? fun content =>
        (hex content.2.toList).isSuffixOf key ||
          key = snapshotKeyOf ⟨content.2⟩ with
    | some content => .ok content.1
    | none => .error "no such key".toList
  put _ _ := .ok ()

/-- A user who owns a team. -/
def teamOwner : Directory where
  namespaces :=
    [⟨uuid 2, "amy".toList, .user⟩, ⟨uuid 30, "crew".toList, .team⟩]
  users := [amy]
  teams := [⟨uuid 30, false⟩]
  memberships := [⟨uuid 30, amy.id, .owner⟩]
  authorLinks := [⟨amy.authorPrincipalId, amy.id⟩]
  namespaceKey := by decide
  slugUnique := by decide
  userKey := directory.userKey
  userNamespaceUnique := directory.userNamespaceUnique
  teamKey := by decide
  membershipKey := by decide
  authorKey := directory.authorKey
  usersLinked := directory.usersLinked
  usersPersonal := by decide
  teamsTeam := by decide

def sharedImport (operation : UInt8) (owner : String) :
    PrivateSkillImportRequest where
  operationId := operationId operation
  expectedGeneration := 0
  owner := owner.toList
  name := name
  manifest := twoFiles sharedRoot skillMdDigest
  snapshotSha256 := ⟨sharedArchiveDigest⟩
  snapshotSizeBytes := 125
  revisionAuthorPrincipalId := none
  fork := none
  requestHash := sharingHashOf operation

def secondImport : PrivateSkillImportRequest where
  operationId := operationId 44
  expectedGeneration := 0
  owner := "amy".toList
  name := "b".toList
  manifest := oneFile secondRoot skillMdBDigest
  snapshotSha256 := ⟨secondArchiveDigest⟩
  snapshotSizeBytes := 103
  revisionAuthorPrincipalId := none
  fork := none
  requestHash := sharingHashOf 44

def sharingSave (operation resource : UInt8) (head : RevisionId)
    (manifest : SkillManifest) : PrivateRevisionRequest where
  operationId := operationId operation
  resourceId := uuid resource
  expectedGeneration := 1
  expectedHeadRevisionId := head
  parentRevisionIds := [head]
  manifest := manifest
  revisionAuthorPrincipalId := none
  forkSync := none
  historicalSkillName := none
  requestHash := sharingHashOf operation

def secondSave : PrivateRevisionRequest :=
  sharingSave 45 32 secondRevision (twoFiles preparedRoot skillMdBDigest)

def pruneRequest : ResourceLifecycleRequest where
  operationId := operationId 46
  resourceId := uuid 4
  expectedGeneration := 2
  requestHash := sharingHashOf 46

def sharingCommit (operation : UInt8) : CommitRequest :=
  ⟨operationId operation, sharingHashOf operation⟩

def commitsImport (operation : UInt8) : List Activity :=
  [ .call (.commitImport sharedStore amy.id (sharingCommit operation)),
    .call (.write 0 (uuid 8)) ]

/-- Both skills, and the prepared save of the second one. -/
def sharingActivities : List Activity :=
  [.call (.prepareImport (uuid 4) (fun _ => uuid 9) amy.id
    (sharedImport 41 "amy"))] ++ commitsImport 41 ++
  [.call (.prepareImport (uuid 31) (fun _ => uuid 9) amy.id
    (sharedImport 42 "crew"))] ++ commitsImport 42 ++
  [ .call (.prepare (fun _ => uuid 9) amy.id
      (sharingSave 43 4 sharedRevision documentManifest)),
    .call (.commit sharedStore amy.id (sharingCommit 43)),
    .call (.write 0 (uuid 8)),
    .call (.prepareImport (uuid 32) (fun _ => uuid 9) amy.id secondImport) ] ++
  commitsImport 44 ++
  [.call (.prepare (fun _ => uuid 9) amy.id secondSave)]

def shared : Service sharing :=
  (Service.empty sharing teamOwner).perform sharingActivities

def prunedShared : Service sharing :=
  shared.act (.prune amy.id pruneRequest)

/-- The same, with the prune before the save. -/
def sparingActivities : List Activity :=
  sharingActivities.dropLast ++
    [ .prune amy.id pruneRequest,
      .call (.prepare (fun _ => uuid 9) amy.id secondSave) ]

def spared : Service sharing :=
  (Service.empty sharing teamOwner).perform sparingActivities

end Sample

theorem Service.commit_misses_proof :
    Run (Service.Acts fun _ _ => True)
        (Service.empty Sample.sharing Sample.teamOwner)
        (Sample.sharingActivities ++ [.prune Sample.amy.id Sample.pruneRequest])
        Sample.prunedShared ∧
      (Sample.prunedShared.db.workspace (Sample.uuid 32) Sample.amy.id).map
          (fun row => (row.revisionId, row.generation.value)) =
        some (Sample.secondSave.expectedHeadRevisionId, 1) ∧
      (Sample.sharing.preparePrivateRevision (fun _ => Sample.uuid 9)
          Sample.amy.id Sample.secondSave Sample.prunedShared.db).map
          (fun answer => (answer.1.state, answer.1.uploads)) =
        .ok (.prepared, []) ∧
      Sample.sharing.readPrivateRevision Sample.sharedStore Sample.amy.id
          (Sample.sharingCommit 45) Sample.prunedShared.db =
        .error missingObjectProof := by
  constructor
  · exact Run.snoc (Service.run_perform .nil (by decide +kernel))
      ⟨trivial, rfl⟩
  · rw [← map_eq_error (f := fun _ => ())]
    decide +kernel

/-- A save that is prepared after the prune uploads the file. -/
theorem Service.commit_finds_proofs_spared :
    (Sample.spared.db.revisionOperations.map fun operation =>
        operation.staging.map StagingRow.blobId) =
      [[], [⟨Sample.runDigest⟩]] ∧
    Sample.sharing.readPrivateRevision Sample.sharedStore Sample.amy.id
        (Sample.sharingCommit 45) Sample.spared.db ≠
      .error missingObjectProof := by
  constructor
  · decide +kernel
  · have hspares : Service.AdmitsAll Service.SparesObjects
        (Service.empty Sample.sharing Sample.teamOwner)
        Sample.sparingActivities := by
      decide +kernel
    have hrun := Service.run_perform .nil hspares
    exact (Service.commit_finds_proofs hrun).1 _ _ _

end Denju
