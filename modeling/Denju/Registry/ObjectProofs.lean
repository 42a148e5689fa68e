import Denju.Registry.Conflicts
import Denju.Registry.Activity
import Denju.Registry.SaveRuns

/-!
# Prepared saves and their objects

A prepared save stages the objects that its namespace did not reach when it was
prepared.  For every other object its commit relies on what the namespace
reaches by then.  Only a prune and a transfer make a namespace reach less.
-/

namespace Denju

open Lib

namespace Db

/-!
## Transactions that keep objects
-/

/-- Nothing that a namespace reaches is lost, what it reaches anew is stored,
and no save is prepared. -/
structure Grows (db db' : Db) : Prop where
  keeps : Keeps db db'
  canonical : forall row, row ∈ db.canonicalBlobs -> row ∈ db'.canonicalBlobs
  reaches : forall namespaceId blob,
    db.namespaceReaches namespaceId blob = true ->
      db'.namespaceReaches namespaceId blob = true
  stored : forall namespaceId blob,
    db'.namespaceReaches namespaceId blob = true ->
      db.namespaceReaches namespaceId blob = true ∨
        exists row, row ∈ db'.canonicalBlobs ∧ row.blobId = blob
  exact : db.resourceBlobs.Exact -> db'.resourceBlobs.Exact
  operations : forall row, row ∈ db'.revisionOperations ->
    row.state = .prepared -> row ∈ db.revisionOperations

variable {db db' db'' : Db}

theorem Grows.of_eq (hkeeps : Keeps db db')
    (hcanonical : db'.canonicalBlobs = db.canonicalBlobs)
    (hnamespaces : db'.namespaceBlobs = db.namespaceBlobs)
    (hresources : db'.resourceBlobs = db.resourceBlobs)
    (hoperations : forall row, row ∈ db'.revisionOperations ->
      row.state = .prepared -> row ∈ db.revisionOperations) :
    Grows db db' where
  keeps := hkeeps
  canonical := by
    intro row hrow
    rw [hcanonical]
    exact hrow
  reaches := by
    intro namespaceId blob h
    unfold namespaceReaches at h ⊢
    rw [hnamespaces]
    exact h
  stored := by
    intro namespaceId blob h
    unfold namespaceReaches at h ⊢
    rw [hnamespaces] at h
    exact .inl h
  exact := by
    rw [hresources]
    exact fun h => h
  operations := hoperations

theorem Grows.refl (db : Db) : Grows db db :=
  Grows.of_eq (Keeps.refl db) rfl rfl rfl fun _ hrow _ => hrow

theorem Grows.trans (h : Grows db db') (h' : Grows db' db'') :
    Grows db db'' where
  keeps := h.keeps.trans h'.keeps
  canonical := fun row hrow => h'.canonical row (h.canonical row hrow)
  reaches := fun namespaceId blob hreach =>
    h'.reaches namespaceId blob (h.reaches namespaceId blob hreach)
  stored := by
    intro namespaceId blob hreach
    rcases h'.stored namespaceId blob hreach with hmiddle | hnew
    · rcases h.stored namespaceId blob hmiddle with hold | ⟨row, hrow, hid⟩
      · exact .inl hold
      · exact .inr ⟨row, h'.canonical row hrow, hid⟩
    · exact .inr hnew
  exact := fun hexact => h'.exact (h.exact hexact)
  operations := fun row hrow hstate =>
    h.operations row (h'.operations row hrow hstate) hstate

/-- The table of a namespace after the blobs of a revision are added to it. -/
theorem namespaceReaches_addAll {blobs : Blobs} {namespaceId : Uuid}
    (hnamespaces : db'.namespaceBlobs = db.namespaceBlobs.addAll
      (references blobs) fun blob => (namespaceId, blob))
    (other : Uuid) (blob : BlobId) :
    db'.namespaceReaches other blob = true <->
      db.namespaceReaches other blob = true ∨
        (other = namespaceId ∧ blob ∈ blobs.map Prod.fst) := by
  unfold namespaceReaches
  rw [hnamespaces, CountTable.isSome_addAll]
  unfold references
  simp only [List.mem_map, Prod.mk.injEq, exists_exists_and_eq_and]
  constructor
  · rintro (hold | ⟨found, hfound, rfl, rfl⟩)
    · exact .inl hold
    · exact .inr ⟨rfl, found, hfound, rfl⟩
  · rintro (hold | ⟨rfl, found, hfound, rfl⟩)
    · exact .inl hold
    · exact .inr ⟨found, hfound, rfl, rfl⟩

theorem exact_addAll {blobs : Blobs} {resourceId : Uuid}
    (hresources : db'.resourceBlobs = db.resourceBlobs.addAll
      (references blobs) fun blob => (resourceId, blob))
    (hexact : db.resourceBlobs.Exact) : db'.resourceBlobs.Exact := by
  rw [hresources]
  refine hexact.addAll ?_
  intro row hrow
  rcases List.mem_map.mp hrow with ⟨blob, _, rfl⟩
  exact Nat.one_pos

theorem Grows.of_stored {resourceId namespaceId : Uuid}
    {revision : RevisionId} {blobs : Blobs} (hkeeps : Keeps db db')
    (hstored : Stored resourceId namespaceId revision blobs db db')
    (hoperations : forall row, row ∈ db'.revisionOperations ->
      row.state = .prepared -> row ∈ db.revisionOperations) :
    Grows db db' where
  keeps := hkeeps
  canonical := hstored.canonical.kept
  reaches := fun other blob hreach =>
    (namespaceReaches_addAll hstored.namespaces other blob).mpr (.inl hreach)
  stored := by
    intro other blob hreach
    rcases (namespaceReaches_addAll hstored.namespaces other blob).mp hreach
      with hold | ⟨_, hblob⟩
    · exact .inl hold
    · rcases List.mem_map.mp hblob with ⟨found, hfound, rfl⟩
      rcases hstored.canonical.stored found hfound with ⟨row, hrow, hid, _⟩
      exact .inr ⟨row, hrow, hid⟩
  exact := exact_addAll hstored.resources
  operations := hoperations

end Db

section Growing

variable {registry : Registry} {db db' : Db} {newConflictId userId : Uuid}

theorem ensured_grows {resourceId user : Uuid} {start : Db}
    (hstart : start = db ∨
      start = db.ensurePrivateWorkspaceForUser resourceId user) :
    Db.Grows db start := by
  rcases hstart with rfl | rfl
  · exact Db.Grows.refl _
  · rcases Db.ensurePrivateWorkspaceForUser_cases db resourceId user with
      hsame | ⟨row, _, _, _, hrow⟩
    · rw [hsame]
      exact Db.Grows.refl _
    · rw [hrow]
      exact Db.Grows.of_eq (Db.Keeps.of_eq rfl rfl rfl) rfl rfl rfl
        fun _ hrow _ => hrow

theorem grows_prepareImport {newResourceId : Uuid} {fresh : BlobId -> Uuid}
    {request : PrivateSkillImportRequest}
    {answer : PrivateSkillImportPrepareResponse}
    (h : registry.preparePrivateSkillImport newResourceId fresh userId
      request db = .ok (answer, db')) : Db.Grows db db' := by
  rcases Registry.preparePrivateSkillImport_eq_ok h with
    ⟨_, _, _, rfl | ⟨_, _, _, rfl⟩⟩
  · exact Db.Grows.refl _
  · exact Db.Grows.of_eq (Db.Keeps.of_eq rfl rfl rfl) rfl rfl rfl
      fun _ hrow _ => hrow

theorem grows_import {plan : PendingImport registry.ext}
    {outcome : PrivateSkillImportResponse}
    (h : Registry.writePrivateSkillImport plan db = .ok (outcome, db')) :
    Db.Grows db db' := by
  rcases Registry.writePrivateSkillImport_eq_ok h with rfl | ⟨_, _, hw⟩
  · exact Db.Grows.refl _
  · rcases hw.resources with ⟨_, _, _, hresources⟩
    refine Db.Grows.of_stored
      (Db.Keeps.of_append hw.savesOnly.directory hw.savesOnly.quarantines
        hresources) hw.stored ?_
    intro row hrow _
    rw [hw.operations] at hrow
    exact hrow

theorem grows_commit {plan : PendingCommit registry.ext}
    {outcome : PrivateRevisionCommitResponse}
    (h : Registry.writePrivateRevision newConflictId plan db =
      .ok (outcome, db')) : Db.Grows db db' := by
  rcases Registry.writePrivateRevision_eq_ok h with
    ⟨_, _, _, _, _, ⟨_, _, rfl⟩ | ⟨_, hw⟩⟩
  · exact Db.Grows.refl _
  · refine Db.Grows.of_stored (commitWritten_keeps hw) hw.stored ?_
    intro row hrow hstate
    rcases hw.operations with ⟨state, hfinished, hoperations⟩
    rw [hoperations] at hrow
    rcases mem_updateWhere.mp hrow with ⟨old, hold, rfl⟩
    split at hstate
    · exact absurd hstate hfinished
    · rename_i hother
      rw [if_neg hother]
      exact hold

theorem grows_publish {request : PublishSkillRequest}
    {answer : Except ApiError PublishSkillResponse}
    (h : registry.publishSkill newConflictId userId request db =
      .ok (answer, db')) : Db.Grows db db' := by
  rcases Registry.publishSkill_eq_ok h with rfl | ⟨_, _, _, hw⟩
  · exact Db.Grows.refl _
  · cases hw with
    | kept hsame =>
        rw [hsame]
        exact Db.Grows.refl _
    | madePublic _ _ _ hdb' =>
        rw [hdb']
        exact Db.Grows.of_eq
          (Db.Keeps.of_update rfl rfl rfl (fun _ => rfl) (fun _ => rfl)
            (fun _ => rfl) fun _ => rfl) rfl rfl rfl fun _ hrow _ => hrow
    | released _ _ _ _ _ _ hdb' =>
        rw [hdb']
        exact Db.Grows.of_eq
          (Db.Keeps.of_update rfl rfl rfl (fun _ => rfl) (fun _ => rfl)
            (fun _ => rfl) fun _ => rfl) rfl rfl rfl fun _ hrow _ => hrow
    | raised _ _ _ _ hdb' _ =>
        rw [hdb']
        exact Db.Grows.of_eq (Db.Keeps.of_eq rfl rfl rfl) rfl rfl rfl
          fun _ hrow _ => hrow

theorem grows_unpublish {request : ResourceLifecycleRequest}
    {outcome : UnpublishSkillResponse}
    (h : registry.unpublishSkill userId request db = .ok (outcome, db')) :
    Db.Grows db db' := by
  rcases Registry.unpublishSkill_eq_ok h with rfl | ⟨_, _, rfl⟩
  · exact Db.Grows.refl _
  · exact Db.Grows.of_eq
      (Db.Keeps.of_update rfl rfl rfl (fun _ => rfl) (fun _ => rfl)
        (fun _ => rfl) fun _ => rfl) rfl rfl rfl fun _ hrow _ => hrow

theorem grows_createProposal {proposalId : Uuid}
    {request : ProposalCreateRequest} {outcome : SkillProposal}
    (h : registry.createProposal proposalId userId request db =
      .ok (outcome, db')) : Db.Grows db db' := by
  rcases Registry.createProposal_eq_ok h with rfl | ⟨_, _, rfl, _⟩
  · exact Db.Grows.refl _
  · exact Db.Grows.of_eq (Db.Keeps.of_eq rfl rfl rfl) rfl rfl rfl
      fun _ hrow _ => hrow

/-- A restore counts blobs that are reached already. -/
theorem grows_restore {plan : PendingRestore}
    {outcome : PrivateRevisionResponse}
    (h : registry.writeRestore plan db = .ok (outcome, db')) :
    Db.Grows db db' := by
  rcases Registry.writeRestore_eq_ok h with
    ⟨target, start, resource, workspace, revision, _, hstart, _, hw⟩
  refine (ensured_grows hstart).trans ?_
  have hkeeps := restoreWritten_keeps hw
  rcases hw.tables with ⟨stored, _, _, _, _, _, hstored, hdb'⟩
  rcases Registry.storeRestored_stored hstored with ⟨blobs, hrestored⟩
  rcases Registry.storeRestored_frame hstored with ⟨_, _, _, _, _, hframe⟩
  have hreaches : forall namespaceId blob,
      db'.namespaceReaches namespaceId blob =
        start.namespaceReaches namespaceId blob := by
    intro namespaceId blob
    unfold Db.namespaceReaches
    rw [hdb']
    dsimp only
    rw [hrestored.namespaces, CountTable.isSome_bumpAll]
  have hcanonical : db'.canonicalBlobs = start.canonicalBlobs := by
    rw [hdb']
    exact hrestored.canonical
  have hoperations : db'.revisionOperations = start.revisionOperations := by
    rw [hdb', hframe]
  refine ⟨hkeeps, ?_, ?_, ?_, ?_, ?_⟩
  · intro row hrow
    rw [hcanonical]
    exact hrow
  · intro namespaceId blob hreach
    rw [hreaches]
    exact hreach
  · intro namespaceId blob hreach
    rw [hreaches] at hreach
    exact .inl hreach
  · rw [hdb']
    dsimp only
    rw [hrestored.resources]
    exact CountTable.Exact.bumpAll
  · intro row hrow _
    rw [hoperations] at hrow
    exact hrow

theorem grows_personalRename {plan : PendingRename registry.ext}
    {outcome : RenameSkillResponse}
    (h : Registry.writePersonalRename plan db = .ok (outcome, db')) :
    Db.Grows db db' := by
  rcases Registry.writePersonalRename_eq_ok h with ⟨resource, _, hw⟩
  have hkeeps := renameWritten_keeps hw
  rcases hw.tables with ⟨stored, _, _, _, _, _, _, hstored, _, _, hrows, hdb'⟩
  have hreached := (Registry.storeRenamed_stored hstored).1
  refine @Db.Grows.of_stored _ _ plan.request.resourceId
    plan.authority.namespaceId plan.renamed.revisionId plan.renamed.blobs
    hkeeps ?_ ?_
  · rw [hdb']
    exact ⟨hreached.canonical, hreached.revisions, hreached.resources,
      hreached.namespaces, hreached.revisionBlobs⟩
  · intro row hrow _
    rw [hdb'] at hrow
    exact hrows row hrow

theorem grows_storeRenamed {session : Session} {resourceId namespaceId : Uuid}
    {author : AuthorPrincipalId} {operationId : OperationId}
    {trees : List (SkillManifestTree registry.ext)} {renamed : RenamedContent}
    (h : Registry.storeRenamed session resourceId namespaceId author
      operationId trees renamed db = .ok db') : Db.Grows db db' := by
  have hstored := (Registry.storeRenamed_stored h).1
  rcases Registry.storeRenamed_frame h with ⟨_, _, _, _, _, _, _, _, _, hframe⟩
  refine Db.Grows.of_stored ?_ hstored ?_
  · rw [hframe]
    exact Db.Keeps.of_eq rfl rfl rfl
  · intro row hrow _
    rw [hframe] at hrow
    exact hrow

theorem grows_persistContents {plan : PendingTeamRename}
    {contents : List RenamedContent} {seen seen' : List RevisionId}
    (h : contents.foldlM (Registry.persistContent registry plan) (seen, db) =
      .ok (seen', db')) : Db.Grows db db' := by
  refine foldlM_invariant
    (P := fun state : List RevisionId × Db => Db.Grows db state.2)
    ?_ (Db.Grows.refl db) h
  rintro ⟨before, start⟩ renamed ⟨after, stored⟩ hstart hstep
  unfold Registry.persistContent at hstep
  split at hstep
  · cases hstep
    exact hstart
  · rcases bind_eq_ok.mp hstep with ⟨trees, _, hstep⟩
    rcases bind_eq_ok.mp hstep with ⟨next, hnext, hstep⟩
    cases hstep
    exact hstart.trans (grows_storeRenamed hnext)

theorem grows_teamRename {plan : PendingTeamRename}
    {outcome : RenameSkillResponse}
    (h : Registry.writeTeamRename registry plan db = .ok (outcome, db')) :
    Db.Grows db db' := by
  rcases Registry.writeTeamRename_eq_ok h with ⟨_, hw⟩
  have hkeeps := teamRenameWritten_keeps hw
  rcases hw.tables with ⟨seen, stored, moved, _, _, _, _, _, _, hstored,
    hmoved, _, _, hrows, hdb'⟩
  rcases Registry.moveTeamWorkspaces_frame hmoved with ⟨_, hmovedFrame, _⟩
  have hredirected : Db.Grows db (db.deleteRedirect .worker
      plan.source.ownerNamespaceId plan.request.newName) :=
    Db.Grows.of_eq (Db.Keeps.of_eq rfl rfl rfl) rfl rfl rfl
      fun _ hrow _ => hrow
  have hgrows := hredirected.trans (grows_persistContents hstored)
  have hcanonical : db'.canonicalBlobs = stored.canonicalBlobs := by
    rw [hdb', hmovedFrame]
    rfl
  have hnamespaces : db'.namespaceBlobs = stored.namespaceBlobs := by
    rw [hdb', hmovedFrame]
    rfl
  have hresources : db'.resourceBlobs = stored.resourceBlobs := by
    rw [hdb', hmovedFrame]
    rfl
  refine ⟨hkeeps, ?_, ?_, ?_, ?_, ?_⟩
  · rw [hcanonical]
    exact hgrows.canonical
  · unfold Db.namespaceReaches
    rw [hnamespaces]
    exact hgrows.reaches
  · unfold Db.namespaceReaches
    rw [hnamespaces, hcanonical]
    exact hgrows.stored
  · rw [hresources]
    exact hgrows.exact
  · intro row hrow _
    rw [hdb'] at hrow
    exact hrows row hrow

theorem mem_of_blobSize_isSome {blob : BlobId}
    (h : (db.blobSize blob).isSome) :
    exists row, row ∈ db.canonicalBlobs ∧ row.blobId = blob := by
  unfold Db.blobSize at h
  rw [Option.isSome_map, List.find?_isSome] at h
  rcases h with ⟨row, hrow, hid⟩
  exact ⟨row, hrow, by simpa using hid⟩

theorem grows_accept {request : ProposalAcceptRequest}
    {outcome : SkillProposal}
    (h : registry.acceptProposal userId request db = .ok (outcome, db')) :
    Db.Grows db db' := by
  rcases Registry.acceptProposal_eq_ok h with
    rfl | ⟨authority, view, target, start, _, _, _, _, _, hstart, _, hw⟩
  · exact Db.Grows.refl _
  · refine (ensured_grows hstart).trans ?_
    have hkeeps := acceptWritten_keeps hw
    rcases hw.tables with ⟨attached, _, _, _, _, _, _, _, hattached, hdb'⟩
    have hoperations : db'.revisionOperations = start.revisionOperations := by
      rcases Registry.attachProposalRevision_frame hattached with
        ⟨_, _, _, _, hframe⟩
      rw [hdb', hframe]
    have hrows : forall row, row ∈ db'.revisionOperations ->
        row.state = .prepared -> row ∈ start.revisionOperations := by
      intro row hrow _
      rw [hoperations] at hrow
      exact hrow
    rcases Registry.attachProposalRevision_eq_ok hattached with
      ⟨hsame, _⟩ | ⟨source, blobs, hnew⟩
    · refine Db.Grows.of_eq hkeeps ?_ ?_ ?_ hrows
      · rw [hdb', hsame]
      · rw [hdb', hsame]
      · rw [hdb', hsame]
    · rcases hnew.tables with ⟨marked, htables⟩
      have hnamespaces : db'.namespaceBlobs = start.namespaceBlobs.addAll
          (Db.references blobs)
            fun blob => (view.target.ownerNamespaceId, blob) := by
        rw [hdb', htables]
      have hcanonical : db'.canonicalBlobs = start.canonicalBlobs := by
        rw [hdb', htables]
      have hresources : db'.resourceBlobs = start.resourceBlobs.addAll
          (Db.references blobs) fun blob => (view.target.id, blob) := by
        rw [hdb', htables]
      refine ⟨hkeeps, ?_, ?_, ?_, Db.exact_addAll hresources, hrows⟩
      · rw [hcanonical]
        exact fun row hrow => hrow
      · intro other blob hreach
        exact (Db.namespaceReaches_addAll hnamespaces other blob).mpr
          (.inl hreach)
      · intro other blob hreach
        rcases (Db.namespaceReaches_addAll hnamespaces other blob).mp hreach
          with hold | ⟨_, hblob⟩
        · exact .inl hold
        · rcases List.mem_map.mp hblob with ⟨found, hfound, rfl⟩
          rw [hcanonical]
          exact .inr (mem_of_blobSize_isSome (hnew.canonical found hfound))

end Growing

/-!
## The objects that a prepared save relies on
-/

/-- The blobs that a save declares and does not stage. -/
def RevisionOperationRow.unstaged (operation : RevisionOperationRow) :
    List BlobId :=
  match manifestBlobs operation.manifest with
  | .error _ => []
  | .ok blobs =>
      (blobs.map Prod.fst).filter fun blob =>
        !operation.staging.any fun row => row.blobId = blob

namespace Db

variable {db db' : Db}

/-- The save is of a skill of its namespace, which reaches all that the save
does not stage, or the skill has left its personal namespace. -/
def OperationProven (db : Db) (operation : RevisionOperationRow) : Prop :=
  exists resource, db.findResource operation.resourceId = some resource ∧
    ((resource.ownerNamespaceId = operation.namespaceId ∧
        forall blob, blob ∈ operation.unstaged ->
          db.namespaceReaches operation.namespaceId blob = true) ∨
      (resource.ownerNamespaceId ≠ operation.namespaceId ∧
        exists row, row ∈ db.directory.namespaces ∧
          row.id = operation.namespaceId ∧ row.kind = .user))

/-- Every prepared save is proven, and what is reached is stored. -/
structure ObjectsProven (db : Db) : Prop where
  operations : forall operation, operation ∈ db.revisionOperations ->
    operation.state = .prepared -> db.OperationProven operation
  stored : forall namespaceId blob,
    db.namespaceReaches namespaceId blob = true ->
      exists row, row ∈ db.canonicalBlobs ∧ row.blobId = blob
  exact : db.resourceBlobs.Exact

theorem OperationProven.grows {operation : RevisionOperationRow}
    (h : db.OperationProven operation) (hgrows : Grows db db') :
    db'.OperationProven operation := by
  rcases h with ⟨resource, hresource, hcase⟩
  rcases hgrows.keeps.resources _ _ hresource with
    ⟨resource', hresource', howner, _⟩
  refine ⟨resource', hresource', ?_⟩
  rw [howner]
  rcases hcase with ⟨hsame, hblobs⟩ | ⟨hleft, hpersonal⟩
  · refine .inl ⟨hsame, ?_⟩
    intro blob hblob
    exact hgrows.reaches _ _ (hblobs blob hblob)
  · rw [hgrows.keeps.directory]
    exact .inr ⟨hleft, hpersonal⟩

theorem ObjectsProven.grows (h : db.ObjectsProven) (hgrows : Grows db db') :
    db'.ObjectsProven where
  operations := by
    intro operation hoperation hstate
    have hold := hgrows.operations operation hoperation hstate
    exact (h.operations operation hold hstate).grows hgrows
  stored := by
    intro namespaceId blob hreach
    rcases hgrows.stored namespaceId blob hreach with hold | hnew
    · rcases h.stored namespaceId blob hold with ⟨row, hrow, hid⟩
      exact ⟨row, hgrows.canonical row hrow, hid⟩
    · exact hnew
  exact := hgrows.exact h.exact

theorem ObjectsProven.empty (directory : Directory) :
    ({ directory } : Db).ObjectsProven where
  operations := by
    intro operation hoperation
    cases hoperation
  stored := by
    intro namespaceId blob hreach
    cases hreach
  exact := CountTable.Exact.nil

end Db

/-!
## Preparing a save
-/

section Preparing

variable {registry : Registry} {db db' : Db} {userId : Uuid}
  {fresh : BlobId -> Uuid} {request : PrivateRevisionRequest}
  {answer : PrivateRevisionPrepareResponse}

/-- Staging covers what the namespace does not reach. -/
theorem namespaceReaches_of_not_staged {namespaceId : Uuid}
    {operationId : OperationId} {blobs : Blobs} {tooLarge : String}
    {staging : List StagingRow}
    (h : stageMissing db namespaceId operationId fresh blobs tooLarge =
      .ok staging) {blob : BlobId × Nat} (hblob : blob ∈ blobs)
    (hunstaged : forall row, row ∈ staging -> row.blobId ≠ blob.1) :
    db.namespaceReaches namespaceId blob.1 = true := by
  by_contra hunreached
  have hmissing : blob ∈ blobs.filter fun blob =>
      !db.namespaceReaches namespaceId blob.1 := by
    simpa [hblob] using hunreached
  rcases mapM_eq_ok_forall h blob hmissing with ⟨row, hrow, hstaged⟩
  rcases bind_eq_ok.mp hstaged with ⟨_, _, hstaged⟩
  cases hstaged
  exact hunstaged _ hrow rfl

/-- A save that is prepared anew is proven. -/
theorem storePrivateRevision_proven {authority : UserAuthority}
    {blobs : Blobs} {author : AuthorPrincipalId} {revisionId : RevisionId}
    (hblobs : manifestBlobs request.manifest = .ok blobs)
    (h : Registry.storePrivateRevision fresh authority request blobs author
      revisionId db = .ok (answer, db')) :
    exists start operation,
      (start = db ∨ start = db.ensurePrivateWorkspaceForUser
        request.resourceId authority.userId) ∧
      db' = { start with
        revisionOperations := start.revisionOperations ++ [operation] } ∧
      start.OperationProven operation ∧
      operation.userId = authority.userId ∧
      operation.operationId = request.operationId ∧
      operation.state = .prepared ∧ answer.uploads = operation.staging := by
  rcases bind_eq_ok.mp h with ⟨target, htarget, h⟩
  rcases bind_eq_ok.mp h with ⟨⟨resource, workspace⟩, hcurrent, h⟩
  rcases bind_eq_ok.mp h with ⟨_, howner, h⟩
  rcases bind_eq_ok.mp h with ⟨_, _, h⟩
  rcases bind_eq_ok.mp h with ⟨expected, _, h⟩
  rcases bind_eq_ok.mp h with ⟨_, hhead, h⟩
  rcases bind_eq_ok.mp h with ⟨generation, hgeneration, h⟩
  rcases bind_eq_ok.mp h with ⟨staging, hstaging, h⟩
  rcases Db.currentWorkspace_eq_ok hcurrent with ⟨hresource, _, _, _⟩
  cases h
  refine ⟨_, _, ?_, rfl, ⟨resource, hresource, .inl ⟨?_, ?_⟩⟩, rfl, rfl, rfl,
    rfl⟩
  · split
    · exact .inr rfl
    · exact .inl rfl
  · exact beq_iff_eq.mp (ensure_eq_ok.mp howner)
  · intro blob hblob
    unfold RevisionOperationRow.unstaged at hblob
    dsimp only [preparedOperation] at hblob
    rw [hblobs] at hblob
    simp only [List.mem_filter, List.mem_map, Bool.not_eq_true',
      List.any_eq_false, decide_eq_true_eq] at hblob
    rcases hblob with ⟨⟨found, hfound, rfl⟩, hunstaged⟩
    exact namespaceReaches_of_not_staged hstaging hfound hunstaged

theorem manifestBlobs_of_valid {blobs : Blobs}
    (h : registry.validatePrivateRevisionRequest request = .ok blobs) :
    manifestBlobs request.manifest = .ok blobs := by
  rcases bind_eq_ok.mp h with ⟨_, _, h⟩
  rcases bind_eq_ok.mp h with ⟨_, _, h⟩
  rcases bind_eq_ok.mp h with ⟨_, _, h⟩
  rcases bind_eq_ok.mp h with ⟨_, _, h⟩
  rcases bind_eq_ok.mp h with ⟨_, _, h⟩
  rcases bind_eq_ok.mp h with ⟨_, _, h⟩
  rcases bind_eq_ok.mp h with ⟨found, hfound, h⟩
  rcases bind_eq_ok.mp h with ⟨_, _, h⟩
  cases h
  exact hfound

theorem objectsProven_prepare (hproven : db.ObjectsProven)
    (h : registry.preparePrivateRevision fresh userId request db =
      .ok (answer, db')) : db'.ObjectsProven := by
  rcases bind_eq_ok.mp h with ⟨authority, hauthority, h⟩
  rcases bind_eq_ok.mp h with ⟨blobs, hvalid, h⟩
  rcases bind_eq_ok.mp h with ⟨author, hauthor, h⟩
  rcases bind_eq_ok.mp h with ⟨revision, hrevision, h⟩
  split at h
  · rcases bind_eq_ok.mp h with ⟨_, _, h⟩
    cases h
    exact hproven
  · have hblobs := manifestBlobs_of_valid hvalid
    rcases storePrivateRevision_proven hblobs h with
      ⟨start, operation, hstart, rfl, hnew, _⟩
    have hsound := hproven.grows (ensured_grows hstart)
    refine ⟨?_, hsound.stored, hsound.exact⟩
    intro other hother hstate
    rcases List.mem_append.mp hother with hold | hlast
    · exact hsound.operations other hold hstate
    · rw [List.mem_singleton.mp hlast]
      exact hnew

end Preparing

/-!
## Transactions that drop references

A prune and a transfer drop references of the namespace of their skill.  They
keep the invariant where every prepared save keeps a reference to what it does
not stage.
-/

/-- The namespace keeps a reference to all that the save does not stage. -/
def Db.KeepsReference (db : Db) (dropped : CountTable BlobId)
    (operation : RevisionOperationRow) : Prop :=
  forall blob, blob ∈ operation.unstaged ->
    dropped.count blob < db.namespaceBlobs.count (operation.namespaceId, blob)

/-- A prune leaves a reference to every save that it does not forget. -/
def Db.PruneSpares (db : Db) (authority : UserAuthority)
    (resourceId : Uuid) : Prop :=
  forall operation, operation ∈ db.revisionOperations ->
    operation.state = .prepared ->
    operation.namespaceId = authority.namespaceId ->
    ¬(operation.resourceId = resourceId ∧
      operation.userId = authority.userId) ->
      db.KeepsReference (db.prunedReferences authority.userId resourceId)
        operation

/-- A transfer leaves a reference to every save of another skill. -/
def Db.TransferSpares (db : Db) (authority : UserAuthority)
    (resourceId : Uuid) : Prop :=
  forall operation, operation ∈ db.revisionOperations ->
    operation.state = .prepared ->
    operation.namespaceId = authority.namespaceId ->
    operation.resourceId ≠ resourceId ->
      db.KeepsReference (db.resourceReferences resourceId) operation

section Dropping

variable {db db' : Db} {authority : UserAuthority}

theorem namespaceKey_injective (namespaceId : Uuid) :
    Function.Injective fun blob : BlobId => (namespaceId, blob) := by
  intro a b h
  exact congrArg Prod.snd h

/-- A dropped table leaves what keeps a reference, or is of another
namespace. -/
theorem reaches_dropAll {table dropped : CountTable (Uuid × BlobId)}
    {refs : CountTable BlobId} {source namespaceId : Uuid} {blob : BlobId}
    (hdropped : dropped = table.dropAll refs fun blob => (source, blob))
    (hunique : (refs.map Prod.fst).Nodup)
    (hreached : (table.get? (namespaceId, blob)).isSome)
    (hkept : namespaceId = source ->
      refs.count blob < table.count (source, blob)) :
    (dropped.get? (namespaceId, blob)).isSome := by
  rw [hdropped]
  by_cases hsame : namespaceId = source
  · subst hsame
    apply CountTable.isSome_of_count_pos
    rw [CountTable.count_dropAll hunique (namespaceKey_injective namespaceId)]
    exact Nat.sub_pos_of_lt (hkept rfl)
  · rw [CountTable.get?_dropAll_other]
    · exact hreached
    · intro other hother
      exact hsame (congrArg Prod.fst hother)

theorem objectsProven_prune {request : ResourceLifecycleRequest}
    (h : db.ObjectsProven) (hpruned : Registry.Pruned authority request db db')
    (hspares : db.PruneSpares authority request.resourceId) :
    db'.ObjectsProven := by
  rcases hpruned.tables with ⟨resource, generation, _, _, _, _, _, _, _, _, _,
    rfl⟩
  refine ⟨?_, ?_, ?_⟩
  · intro operation hoperation hstate
    have hkept := mem_deleteWhere.mp hoperation
    rcases h.operations operation hkept.1 hstate with
      ⟨found, hfound, hcase⟩
    have hrow := @find?_updateWhere _
      (fun row => decide (row.id = request.resourceId))
      (fun row => decide (row.id = operation.resourceId))
      (fun row => { row with generation }) db.resources (by intro row _; rfl)
    have hold : db.resources.find?
        (fun row => row.id = operation.resourceId) = some found := hfound
    rw [hold] at hrow
    have howner : forall row : ResourceRow,
        (if row.id = request.resourceId then { row with generation }
          else row).ownerNamespaceId = row.ownerNamespaceId := by
      intro row
      split
      · rfl
      · rfl
    refine ⟨_, hrow, ?_⟩
    simp only [decide_eq_true_eq, howner]
    rcases hcase with ⟨hsame, hblobs⟩ | hleft
    · refine .inl ⟨hsame, ?_⟩
      intro blob hblob
      refine reaches_dropAll rfl (Db.prunedReferences_unique db _ _)
        (hblobs blob hblob) ?_
      intro hsource
      rw [← hsource]
      refine hspares operation hkept.1 hstate hsource ?_ blob hblob
      rintro ⟨hid, huser⟩
      have hforgotten := hkept.2
      simp [hid, huser, hstate] at hforgotten
    · exact .inr hleft
  · intro namespaceId blob hreach
    exact h.stored namespaceId blob
      (CountTable.isSome_of_isSome_dropAll hreach)
  · exact h.exact.dropAll

theorem objectsProven_transfer {userId : Uuid}
    {request : ResourceTransferRequest} (h : db.ObjectsProven)
    (hauthority : db.directory.userAuthority userId = .ok authority)
    (hmoved : Registry.Transferred authority request db db')
    (hspares : db.TransferSpares authority request.resourceId) :
    db'.ObjectsProven := by
  rcases hmoved.resource with ⟨resource, destination, owner, _, generation, _,
    hresource, _, _, howner, hspace, hteam, rfl, henough, _, rfl⟩
  rcases Directory.userAuthority_eq_ok hauthority with
    ⟨user, huser, _, _, hpersonal, _⟩
  rcases db.directory.usersPersonal user huser with
    ⟨home, hhome, hhomeId, hhomeKind⟩
  rw [← hpersonal] at hhomeId
  have hdistinct : forall row, row ∈ db.directory.namespaces ->
      row.kind = .user -> row.id ≠ owner.id := by
    intro row hrow hkind hid
    have hsame := List.inj_on_of_nodup_map db.directory.namespaceKey hrow
      hspace hid
    rw [hsame, hteam] at hkind
    cases hkind
  have hunique := Db.resourceReferences_unique h.exact request.resourceId
  refine ⟨?_, ?_, h.exact⟩
  · intro operation hoperation hstate
    rcases h.operations operation hoperation hstate with
      ⟨found, hfound, hcase⟩
    have hrow := @find?_updateWhere _
      (fun row => decide (row.id = request.resourceId))
      (fun row => decide (row.id = operation.resourceId))
      (fun row => { row with ownerNamespaceId := owner.id, generation })
      db.resources (by intro row _; rfl)
    have hold : db.resources.find?
        (fun row => row.id = operation.resourceId) = some found := hfound
    have hid : found.id = operation.resourceId := by
      simpa using List.find?_some hold
    rw [hold] at hrow
    refine ⟨_, hrow, ?_⟩
    by_cases hown : operation.resourceId = request.resourceId
    · simp only [hid, hown, decide_true, if_true]
      refine .inr ?_
      rcases hcase with ⟨hsame, _⟩ | ⟨_, space, hspace', hspaceId, hkind⟩
      · have hresourceSame : found = resource := by
          rw [hown, hresource] at hfound
          exact (Option.some.inj hfound).symm
        rw [hresourceSame, howner] at hsame
        rw [← hsame]
        exact ⟨fun heq => hdistinct home hhome hhomeKind
          (hhomeId.trans heq.symm), home, hhome, hhomeId, hhomeKind⟩
      · refine ⟨fun heq => hdistinct space hspace' hkind ?_, space, hspace',
          hspaceId, hkind⟩
        exact hspaceId.trans heq.symm
    · simp only [hid, hown, decide_false, Bool.false_eq_true, if_false]
      rcases hcase with ⟨hsame, hblobs⟩ | hleft
      · refine .inl ⟨hsame, ?_⟩
        intro blob hblob
        refine reaches_dropAll rfl hunique
          (CountTable.isSome_addAll.mpr (.inl (hblobs blob hblob))) ?_
        intro hsource
        have hcount := hspares operation hoperation hstate hsource hown blob
          hblob
        rw [hsource] at hcount
        rw [CountTable.count_addAll_other]
        · exact hcount
        · intro other hother
          refine hdistinct home hhome hhomeKind (hhomeId.trans ?_)
          exact congrArg Prod.fst hother
      · exact .inr hleft
  · intro namespaceId blob hreach
    rcases CountTable.isSome_addAll.mp
        (CountTable.isSome_of_isSome_dropAll hreach) with
      hold | ⟨row, hrow, hkey⟩
    · exact h.stored namespaceId blob hold
    · have hblob : blob = row.1 := congrArg Prod.snd hkey
      have hcount := henough row hrow
      have hpositive : 0 < row.2 := by
        rcases List.mem_map.mp hrow with ⟨full, hfull, rfl⟩
        exact h.exact.positive full (List.mem_of_mem_filter hfull)
      rw [hblob]
      exact h.stored authority.namespaceId row.1
        (CountTable.isSome_of_count_pos (Nat.lt_of_lt_of_le hpositive hcount))

/-- The collector deletes nothing that a namespace reaches. -/
theorem objectsProven_collect {blob : BlobId} {key : Option Text}
    (h : db.ObjectsProven)
    (hcollected : Registry.drainBlobGc blob db = .ok (key, db')) :
    db'.ObjectsProven := by
  rcases Registry.drainBlobGc_eq_ok hcollected with
    ⟨marked, rows, rfl, hrows⟩
  refine ⟨h.operations, ?_, h.exact⟩
  intro namespaceId other hreach
  rcases h.stored namespaceId other hreach with ⟨row, hrow, hid⟩
  rcases hrows with rfl | ⟨rfl, hunreachable, _⟩
  · exact ⟨row, hrow, hid⟩
  · refine ⟨row, mem_deleteWhere.mpr ⟨hrow, ?_⟩, hid⟩
    rw [decide_eq_false_iff_not]
    intro hblob
    unfold Registry.blobReachable at hunreachable
    rw [Bool.or_eq_false_iff, List.any_eq_false, List.any_eq_false]
      at hunreachable
    rcases Option.isSome_iff_exists.mp hreach with ⟨count, hcount⟩
    have habsent := hunreachable.2 _ (CountTable.mem_of_get?_eq_some hcount)
    exact habsent (by simp [← hid, hblob])

end Dropping

/-!
## Errors of a commit
-/

/-- A commit finds no proof that its namespace holds an object. -/
def missingObjectProof : ApiError :=
  ApiError.new .invalidRequest revisionVerificationTexts.missingProof

section Errors

variable {registry : Registry} {db : Db}

theorem authorizeNamespacePublish_avoids (directory : Directory)
    (authority : UserAuthority) (owner : Text) :
    Avoids missingObjectProof
      (directory.authorizeNamespacePublish authority owner) := by
  refine Avoids.bind (Avoids.okOr fun _ => by decide) fun row _ => ?_
  split
  · refine Avoids.bind (Avoids.ensure (by decide)) fun _ _ => ?_
    exact Avoids.ok _
  · refine Avoids.bind (Avoids.okOr fun _ => by decide) fun _ _ => ?_
    refine Avoids.bind (Avoids.okOr fun _ => by decide) fun _ _ => ?_
    refine Avoids.bind (Avoids.ensure (by decide)) fun _ _ => ?_
    exact Avoids.ok _

theorem authorizeResourcePublish_avoids (authority : UserAuthority)
    (resourceId : Uuid) :
    Avoids missingObjectProof
      (db.authorizeResourcePublish authority resourceId) := by
  refine Avoids.bind (Avoids.okOr fun _ => by decide) fun _ _ => ?_
  refine Avoids.bind (Avoids.okOr fun _ => by decide) fun _ _ => ?_
  exact authorizeNamespacePublish_avoids _ _ _

theorem manifestBlobs_avoids (manifest : SkillManifest) :
    Avoids missingObjectProof (manifestBlobs manifest) := by
  refine Avoids.bind (Avoids.foldlM ?_) fun _ _ => Avoids.ok _
  intro blobs entry
  unfold insertBlob
  split
  · split
    · exact Avoids.ok _
    · exact Avoids.bind (Avoids.ensure (by decide)) fun _ _ => Avoids.ok _
  · exact Avoids.ok _
  · exact Avoids.ok _

theorem verifyBlob_avoids (ext : Externals) (blob : BlobId) (size : Nat)
    (bytes : Bytes) :
    Avoids missingObjectProof (verifyBlob ext blob size bytes) := by
  refine Avoids.ensure ?_
  intro h
  have htext := congrArg ApiError.message h
  simp only [ApiError.new, missingObjectProof, revisionVerificationTexts,
    ApiMessage.text.injEq] at htext
  have hfirst := congrArg (fun text => text.toList.head?) htext
  simp at hfirst

theorem verifiedObject_avoids (ext : Externals) (store : ObjectStore)
    (staging : List StagingRow) (canonical : List (BlobId × Text))
    (blob : BlobId × Nat) :
    Avoids missingObjectProof (verifiedObject ext store
      revisionVerificationTexts staging canonical blob) := by
  refine Avoids.bind ?_ fun _ _ => ?_
  · unfold objectKey
    split
    · exact Avoids.bind (Avoids.ensure (by decide)) fun _ _ => Avoids.ok _
    · exact Avoids.okOr fun _ => by decide
  · refine Avoids.bind (Avoids.mapError ?_) fun _ _ => ?_
    · intro source h
      cases h
    · exact Avoids.bind (verifyBlob_avoids _ _ _ _) fun _ _ => Avoids.ok _

theorem ownedEntriesFromManifest_avoids (manifest : SkillManifest)
    (bytes : List (BlobId × Bytes)) :
    Avoids missingObjectProof (ownedEntriesFromManifest manifest bytes) := by
  refine Avoids.mapM fun entry _ => ?_
  cases entry with
  | file path blob size executable =>
      exact Avoids.bind (Avoids.okOr fun _ => by decide)
        fun _ _ => Avoids.ok _
  | directory path => exact Avoids.ok _
  | symlink path target => exact Avoids.ok _

theorem rebuildSnapshot_avoids (ext : Externals) (name : Text)
    (manifest : SkillManifest) (bytes : List (BlobId × Bytes)) :
    Avoids missingObjectProof
      (rebuildSnapshot ext name manifest bytes) := by
  refine Avoids.bind (ownedEntriesFromManifest_avoids _ _) fun _ _ => ?_
  refine Avoids.bind (Avoids.mapError ?_) fun _ _ => ?_
  · intro source h
    cases h
  · refine Avoids.bind (Avoids.ensure (by decide)) fun _ _ => ?_
    refine Avoids.bind (Avoids.okOr fun _ => by decide) fun _ _ => ?_
    refine Avoids.bind (Avoids.mapError ?_) fun _ _ => Avoids.ok _
    intro source h
    cases h

theorem putStaged_avoids (store : ObjectStore)
    (bytes : List (BlobId × Bytes)) (row : StagingRow) :
    Avoids missingObjectProof (putStaged store bytes row) := by
  refine Avoids.bind (Avoids.okOr fun _ => by decide) fun _ _ => ?_
  refine Avoids.mapError ?_
  intro source h
  cases h

/-- What the namespace reaches has a canonical object. -/
theorem canonicalObjects_avoids {operation : RevisionOperationRow}
    {blobs : Blobs} (hproven : db.ObjectsProven)
    (hblobs : manifestBlobs operation.manifest = .ok blobs)
    (hreached : forall blob, blob ∈ operation.unstaged ->
      db.namespaceReaches operation.namespaceId blob = true) :
    Avoids missingObjectProof (canonicalObjects db revisionVerificationTexts
      operation.namespaceId operation.staging blobs) := by
  refine Avoids.mapM fun blob hblob => ?_
  have hmem := List.mem_filter.mp hblob
  have hunstaged : blob.1 ∈ operation.unstaged := by
    unfold RevisionOperationRow.unstaged
    rw [hblobs]
    exact List.mem_filter.mpr ⟨List.mem_map_of_mem hmem.1, hmem.2⟩
  have hreach := hreached blob.1 hunstaged
  rcases hproven.stored _ _ hreach with ⟨row, hrow, hid⟩
  refine Avoids.bind (Avoids.okOr ?_) fun _ _ => ?_
  · intro hnone
    rw [if_pos hreach] at hnone
    have habsent := List.find?_eq_none.mp hnone row hrow
    simp [hid] at habsent
  · exact Avoids.bind (Avoids.ensure (by decide)) fun _ _ => Avoids.ok _

theorem verifyPrivateRevision_avoids {authority : UserAuthority}
    {request : CommitRequest} {operation : RevisionOperationRow}
    (store : ObjectStore) (hproven : db.ObjectsProven)
    (hoperation : db.OperationProven operation) :
    Avoids missingObjectProof (registry.verifyPrivateRevision store authority
      request operation db) := by
  refine Avoids.bind (authorizeResourcePublish_avoids _ _) fun target htarget => ?_
  refine Avoids.bind (Avoids.ensure (by decide)) fun _ hsame => ?_
  refine Avoids.bind (Avoids.mapError ?_) fun trees _ => ?_
  · intro source h
    cases h
  refine Avoids.bind (manifestBlobs_avoids _) fun blobs hblobs => ?_
  have hreached : forall blob, blob ∈ operation.unstaged ->
      db.namespaceReaches operation.namespaceId blob = true := by
    rcases hoperation with ⟨resource, hresource, ⟨_, hall⟩ | ⟨hleft, _⟩⟩
    · exact hall
    · rcases Db.authorizeResourcePublish_eq_ok htarget with
        ⟨row, _, hrow, _, _, _, hid, _⟩
      rw [hresource] at hrow
      have howner := beq_iff_eq.mp (ensure_eq_ok.mp hsame)
      rw [hid, ← Option.some.inj hrow] at howner
      exact absurd howner.symm hleft
  refine Avoids.bind (canonicalObjects_avoids hproven hblobs hreached)
    fun canonical _ => ?_
  refine Avoids.bind (Avoids.mapM fun blob _ =>
    verifiedObject_avoids _ _ _ _ _) fun bytes _ => ?_
  refine Avoids.bind (Avoids.okOr fun _ => by decide) fun resource _ => ?_
  refine Avoids.bind (Avoids.ensure (by decide)) fun _ _ => ?_
  refine Avoids.bind (rebuildSnapshot_avoids _ _ _ _) fun rebuilt _ => ?_
  refine Avoids.bind (Avoids.forM fun row _ => putStaged_avoids _ _ _)
    fun _ _ => ?_
  refine Avoids.bind (Avoids.mapError ?_) fun _ _ => Avoids.ok _
  intro source h
  cases h

/-- The first transaction of a commit finds its proofs. -/
theorem readPrivateRevision_avoids (store : ObjectStore) (userId : Uuid)
    (request : CommitRequest) (hproven : db.ObjectsProven) :
    Avoids missingObjectProof
      (registry.readPrivateRevision store userId request db) := by
  refine Avoids.bind ?_ fun authority _ => ?_
  · refine Avoids.bind (Avoids.okOr fun _ => by decide) fun _ _ => ?_
    exact Avoids.bind (Avoids.okOr fun _ => by decide) fun _ _ => Avoids.ok _
  refine Avoids.bind (Avoids.okOr fun _ => by decide)
    fun operation hoperation => ?_
  refine Avoids.bind (Avoids.ensure (by decide)) fun _ _ => ?_
  split
  · rename_i hstate
    have hmem := List.mem_of_find?_eq_some (okOr_eq_ok.mp hoperation)
    exact Avoids.bind (verifyPrivateRevision_avoids store hproven
      (hproven.operations operation hmem hstate)) fun _ _ => Avoids.ok _
  · exact Avoids.bind (Avoids.okOr fun _ => by decide) fun _ _ => Avoids.ok _

theorem checkCommitHead_avoids (authority : UserAuthority)
    (operation : RevisionOperationRow) (parents : List RevisionId)
    (forkSync : Option ValidatedForkSync) (workspace : WorkspaceRow) :
    Avoids missingObjectProof (db.checkCommitHead authority operation parents
      forkSync workspace) := by
  refine Avoids.bind ?_ fun _ _ => ?_
  · unfold Db.checkActiveConflict
    split
    · exact Avoids.ok _
    · exact Avoids.ensure (by decide)
  refine Avoids.bind (Avoids.ensure (by intro h; cases h)) fun _ _ => ?_
  refine Avoids.bind (Avoids.ensure (by decide)) fun _ _ => ?_
  refine Avoids.bind (Avoids.ensure (by decide)) fun _ _ => ?_
  split
  · split
    · refine Avoids.bind (Avoids.ensure (by decide)) fun _ _ => ?_
      refine Avoids.bind (Avoids.okOr fun _ => by decide) fun _ _ => ?_
      refine Avoids.bind (Avoids.ensure (by decide)) fun _ _ => ?_
      refine Avoids.bind (Avoids.ensure (by decide)) fun _ _ => ?_
      exact Avoids.ensure (by decide)
    · refine Avoids.bind (Avoids.ensure (by decide)) fun _ _ => ?_
      refine Avoids.bind (Avoids.okOr fun _ => by decide) fun _ _ => ?_
      exact Avoids.ensure (by decide)
  · exact Avoids.ok _

theorem enforceNamespaceQuota_avoids (limits : Limits) (namespaceId : Uuid)
    (blobs : Blobs) :
    Avoids missingObjectProof
      (db.enforceNamespaceQuota limits namespaceId blobs) := by
  refine Avoids.bind ?_ fun _ _ => ?_
  · exact Avoids.bind (Avoids.ensure (by decide)) fun _ _ => Avoids.ok _
  refine Avoids.bind (Avoids.foldlM fun additional blob => ?_) fun _ _ => ?_
  · unfold Db.addUsage
    split
    · exact Avoids.ok _
    · exact Avoids.bind (Avoids.ensure (by decide)) fun _ _ => Avoids.ok _
  refine Avoids.bind (Avoids.ensure (by decide)) fun _ _ => ?_
  exact Avoids.ensure (by intro h; cases h)

theorem storeCommit_avoids (plan : PendingCommit registry.ext)
    (author : AuthorPrincipalId) :
    Avoids missingObjectProof (Registry.storeCommit plan author db) := by
  refine Avoids.bind (enforceNamespaceQuota_avoids _ _ _) fun _ _ => ?_
  refine Avoids.bind (Avoids.foldlM fun stored blob => ?_) fun _ _ => ?_
  · refine Avoids.bind (Avoids.ensure (by decide)) fun _ _ => ?_
    dsimp only
    split
    · exact Avoids.ok _
    · exact Avoids.bind (Avoids.ensure (by decide)) fun _ _ => Avoids.ok _
  refine Avoids.bind (Avoids.foldlM fun stored row => ?_) fun _ _ => ?_
  · unfold Db.persistTreeEntry
    split
    · exact Avoids.ok _
    · exact Avoids.bind (Avoids.ensure (by decide)) fun _ _ => Avoids.ok _
  refine Avoids.bind ?_ fun _ _ => ?_
  · refine Avoids.bind (Avoids.ensure (by decide)) fun _ _ => ?_
    split
    · exact Avoids.ok _
    · exact Avoids.bind (Avoids.ensure (by decide)) fun _ _ => Avoids.ok _
  refine Avoids.bind (Avoids.ensure (by decide)) fun _ _ => ?_
  split
  · exact Avoids.ok _
  · exact Avoids.ok _

theorem moveWorkspace_avoids (newConflictId : Uuid)
    (plan : PendingCommit registry.ext) (forkSync : Option ValidatedForkSync)
    (isTeam : Bool) (resource : ResourceRow) (workspace : WorkspaceRow) :
    Avoids missingObjectProof (Registry.moveWorkspace newConflictId plan
      forkSync isTeam resource workspace db) := by
  unfold Registry.moveWorkspace
  split
  · refine Avoids.bind ?_ fun _ _ => ?_
    · unfold Registry.nextResourceGeneration
      split
      · exact Avoids.ok _
      · exact Avoids.okOr fun _ => by decide
    refine Avoids.bind (Avoids.okOr fun _ => by decide) fun _ _ => ?_
    refine Avoids.bind ?_ fun _ _ => Avoids.ok _
    unfold Registry.resolveMerge
    split
    · exact Avoids.bind (Avoids.ensure (by decide)) fun _ _ => Avoids.ok _
    · exact Avoids.ok _
  · refine Avoids.bind ?_ fun _ _ => Avoids.ok _
    unfold Db.recordWorkspaceConflict
    dsimp only
    split
    · exact Avoids.ok _
    · refine Avoids.bind (Avoids.ensure (by decide)) fun _ _ => ?_
      refine Avoids.bind (Avoids.ensure (by decide)) fun _ _ => ?_
      exact Avoids.bind (Avoids.ensure (by decide)) fun _ _ => Avoids.ok _

/-- The second transaction of a commit asks for no proof. -/
theorem writePrivateRevision_avoids (newConflictId : Uuid)
    (plan : PendingCommit registry.ext) :
    Avoids missingObjectProof
      (Registry.writePrivateRevision newConflictId plan db) := by
  refine Avoids.bind (authorizeResourcePublish_avoids _ _) fun _ _ => ?_
  refine Avoids.bind (Avoids.ensure (by decide)) fun _ _ => ?_
  refine Avoids.bind ?_ fun _ _ => ?_
  · refine Avoids.bind (Avoids.okOr fun _ => by decide) fun _ _ => ?_
    exact Avoids.bind (Avoids.okOr fun _ => by decide) fun _ _ => Avoids.ok _
  refine Avoids.bind (Avoids.ensure (by decide)) fun _ _ => ?_
  refine Avoids.bind (Avoids.okOr fun _ => by decide) fun locked _ => ?_
  refine Avoids.bind (Avoids.ensure (by decide)) fun _ _ => ?_
  split
  · refine Avoids.bind ?_ fun _ _ => ?_
    · unfold Db.checkHistoricalSkillName
      split
      · exact Avoids.ok _
      · exact Avoids.ensure (by decide)
    refine Avoids.bind (checkCommitHead_avoids _ _ _ _ _) fun _ _ => ?_
    refine Avoids.bind (storeCommit_avoids _ _) fun _ _ => ?_
    exact Avoids.bind (moveWorkspace_avoids _ _ _ _ _ _)
      fun _ _ => Avoids.ok _
  · exact Avoids.bind (Avoids.okOr fun _ => by decide) fun _ _ => Avoids.ok _

end Errors

end Denju
