import Denju.Core.HashedManifest
import Denju.Core.ProjectedNames
import Denju.Registry.ReadAuthority

/-!
# The role that renames a team skill

The last transaction of a rename of a team skill runs as the worker.  Storing a
revision cancels the collection of its blobs, which only a request may do.
Every skill has its document, so every such rename has a blob to cancel.
-/

namespace Denju

open Lib

/-!
## The document is a blob
-/

theorem insertBlob_ne_nil {blobs after : Blobs} {entry : SkillManifestEntry}
    (h : insertBlob blobs entry = .ok after) :
    (blobs ≠ [] -> after ≠ []) ∧ (entry.isSkillMd = true -> after ≠ []) := by
  cases entry with
  | file path blob size executable =>
      unfold insertBlob at h
      dsimp only at h
      split at h
      · cases h
        constructor
        · intro _
          simp
        · intro _
          simp
      · rename_i existing hexisting
        rcases bind_eq_ok.mp h with ⟨_, _, h⟩
        cases h
        have hne : blobs ≠ [] := by
          intro hempty
          rw [hempty] at hexisting
          cases hexisting
        exact ⟨fun _ => hne, fun _ => hne⟩
  | directory path =>
      cases h
      exact ⟨id, fun hskill => by cases hskill⟩
  | symlink path target =>
      cases h
      exact ⟨id, fun hskill => by cases hskill⟩

theorem insertBlobs_ne_nil {entries : List SkillManifestEntry}
    {blobs after : Blobs} (h : entries.foldlM insertBlob blobs = .ok after)
    (hskill : blobs ≠ [] ∨
      entries.any SkillManifestEntry.isSkillMd = true) :
    after ≠ [] := by
  induction entries generalizing blobs with
  | nil =>
      cases h
      simpa using hskill
  | cons entry rest ih =>
      rw [List.foldlM_cons] at h
      rcases bind_eq_ok.mp h with ⟨next, hnext, h⟩
      have hstep := insertBlob_ne_nil hnext
      apply ih h
      cases hskill with
      | inl hne => exact .inl (hstep.1 hne)
      | inr hany =>
          rw [List.any_cons, Bool.or_eq_true] at hany
          exact hany.imp hstep.2 id

/-- A valid manifest has a blob. -/
theorem manifestBlobs_ne_nil {ext : Externals} {manifest : SkillManifest}
    {trees : List (SkillManifestTree ext)} {blobs : Blobs}
    (hvalid : validateDeclaredSkillManifest ext manifest = .ok trees)
    (h : manifestBlobs manifest = .ok blobs) : blobs ≠ [] := by
  rcases bind_eq_ok.mp h with ⟨found, hfound, h⟩
  cases h
  have hskill := (validateDeclaredSkillManifest_eq_ok.mp hvalid).2.1
  have hne := insertBlobs_ne_nil hfound (.inr hskill)
  intro hempty
  apply hne
  have hperm := sortByKey_perm (fun blob : BlobId × Nat => blob.1.key) found
  rw [hempty] at hperm
  exact hperm.symm.eq_nil

/-!
## The worker stores no revision
-/

theorem Db.persistLifecycleRevision_worker {db db' : Db}
    {revision : RevisionPersistence} (hblobs : revision.blobs ≠ []) :
    db.persistLifecycleRevision .worker revision ≠ .ok db' := by
  intro h
  rcases bind_eq_ok.mp h with ⟨inserted, _, h⟩
  have hreached : exists start, revision.blobs.foldlM
      (reachNewBlob .worker revision.resourceId revision.namespaceId
        revision.revisionId) start = .ok db' := by
    dsimp only at h
    split at h
    · exact ⟨_, h⟩
    · rcases bind_eq_ok.mp h with ⟨start, _, h⟩
      exact ⟨start, h⟩
  rcases hreached with ⟨start, hreached⟩
  cases hrows : revision.blobs with
  | nil => exact hblobs hrows
  | cons blob rest =>
      rw [hrows, List.foldlM_cons] at hreached
      rcases bind_eq_ok.mp hreached with ⟨_, hreach, _⟩
      rcases bind_eq_ok.mp hreach with ⟨_, _, hreach⟩
      cases hreach

namespace Registry

variable {registry : Registry} {store : ObjectStore} {userId : Uuid}
  {request : RenameSkillRequest} {plan : PendingTeamRename} {db db' : Db}

/-- The blobs of a renamed content are those of its manifest. -/
def RenamedContent.Listed (renamed : RenamedContent) : Prop :=
  manifestBlobs renamed.content.snapshot.manifest = .ok renamed.blobs

theorem buildRenamedContent_listed {currentName newName : Text}
    {entries : List OwnedSkillEntry} {parent : RevisionId}
    {author : AuthorPrincipalId} {operationId : OperationId}
    {renamed : RenamedContent}
    (h : registry.buildRenamedContent store currentName newName entries parent
      author operationId = .ok renamed) :
    RenamedContent.Listed renamed := by
  rcases bind_eq_ok.mp h with ⟨_, _, h⟩
  rcases bind_eq_ok.mp h with ⟨_, _, h⟩
  rcases bind_eq_ok.mp h with ⟨_, _, h⟩
  rcases bind_eq_ok.mp h with ⟨_, _, h⟩
  rcases bind_eq_ok.mp h with ⟨_, _, h⟩
  rcases bind_eq_ok.mp h with ⟨_, _, h⟩
  rcases bind_eq_ok.mp h with ⟨_, _, h⟩
  rcases bind_eq_ok.mp h with ⟨blobs, hblobs, h⟩
  cases h
  exact hblobs

theorem renameTeamWorkspace_listed {authority : UserAuthority}
    {source : TeamRenameSource} {workspace : WorkspaceRow}
    {move : WorkspaceRow × RenamedContent}
    (h : registry.renameTeamWorkspace store authority request source db
      workspace = .ok move) :
    RenamedContent.Listed move.2 := by
  have hbuilt : exists entries content,
      registry.buildRenamedContent store source.name request.newName entries
          workspace.revisionId authority.authorPrincipalId
          request.operationId = .ok content ∧ move = (workspace, content) := by
    unfold renameTeamWorkspace at h
    split at h
    · rcases bind_eq_ok.mp h with ⟨entries, _, h⟩
      rcases bind_eq_ok.mp h with ⟨content, hcontent, h⟩
      cases h
      exact ⟨entries, content, hcontent, rfl⟩
    · split at h
      · rcases bind_eq_ok.mp h with ⟨entries, _, h⟩
        rcases bind_eq_ok.mp h with ⟨content, hcontent, h⟩
        cases h
        exact ⟨entries, content, hcontent, rfl⟩
      · rcases bind_eq_ok.mp h with ⟨entries, _, h⟩
        rcases bind_eq_ok.mp h with ⟨content, hcontent, h⟩
        cases h
        exact ⟨entries, content, hcontent, rfl⟩
  rcases hbuilt with ⟨entries, content, hcontent, rfl⟩
  exact buildRenamedContent_listed hcontent

/-- What the first transactions of a rename of a team skill hand on. -/
structure TeamRenameRead (userId : Uuid) (plan : PendingTeamRename) :
    Prop where
  mine : exists move, move ∈ plan.workspaces ∧
    move.1.workspaceUserId = userId
  listed : forall move, move ∈ plan.workspaces ->
    RenamedContent.Listed move.2

theorem readTeamRename_eq_ok {authority : UserAuthority}
    (h : registry.readTeamRename store authority request db = .ok plan) :
    TeamRenameRead authority.userId plan := by
  rcases bind_eq_ok.mp h with ⟨target, _, h⟩
  rcases bind_eq_ok.mp h with ⟨_, _, h⟩
  rcases bind_eq_ok.mp h with ⟨source, _, h⟩
  rcases bind_eq_ok.mp h with ⟨_, _, h⟩
  rcases bind_eq_ok.mp h with ⟨_, _, h⟩
  rcases bind_eq_ok.mp h with ⟨_, _, h⟩
  rcases bind_eq_ok.mp h with ⟨_, _, h⟩
  rcases bind_eq_ok.mp h with ⟨_, _, h⟩
  rcases bind_eq_ok.mp h with ⟨renamed, hrenamed, h⟩
  rcases bind_eq_ok.mp h with ⟨release, _, h⟩
  rcases bind_eq_ok.mp h with ⟨actor, hactor, h⟩
  cases h
  constructor
  · have hfound := okOr_eq_ok.mp hactor
    exact ⟨actor, List.mem_of_find?_eq_some hfound,
      by simpa using List.find?_some hfound⟩
  · intro move hmove
    rcases mapM_eq_ok_exists hrenamed move hmove with
      ⟨workspace, _, hmove⟩
    exact renameTeamWorkspace_listed hmove

/-- The worker stores no renamed content. -/
theorem persistContent_fails {renamed : RenamedContent}
    (hlisted : RenamedContent.Listed renamed)
    {stored : List RevisionId × Db} :
    persistContent registry plan ([], db) renamed ≠ .ok stored := by
  intro h
  unfold persistContent at h
  rw [if_neg List.not_mem_nil] at h
  rcases bind_eq_ok.mp h with ⟨trees, htrees, h⟩
  rcases bind_eq_ok.mp h with ⟨_, hstored, _⟩
  rcases bind_eq_ok.mp hstored with ⟨_, _, hstored⟩
  rcases bind_eq_ok.mp hstored with ⟨_, _, hstored⟩
  rcases bind_eq_ok.mp hstored with ⟨_, _, hstored⟩
  rcases bind_eq_ok.mp hstored with ⟨_, hrevision, _⟩
  apply Db.persistLifecycleRevision_worker ?_ hrevision
  exact manifestBlobs_ne_nil (mapError_eq_ok.mp htrees) hlisted

theorem writeTeamRename_fails (hread : TeamRenameRead userId plan)
    {outcome : RenameSkillResponse} :
    writeTeamRename registry plan db ≠ .ok (outcome, db') := by
  intro h
  rcases (writeTeamRename_eq_ok h).2.tables with
    ⟨seen, stored, _, _, _, _, _, _, _, hstored, _⟩
  rcases hread.mine with ⟨_, hmine, _⟩
  cases hmoves : plan.workspaces with
  | nil =>
      rw [hmoves] at hmine
      cases hmine
  | cons move rest =>
      unfold teamRenameContents at hstored
      rw [hmoves, List.map_cons, List.cons_append, List.foldlM_cons]
        at hstored
      rcases bind_eq_ok.mp hstored with ⟨_, hfirst, _⟩
      apply persistContent_fails ?_ hfirst
      exact hread.listed move (hmoves ▸ List.mem_cons_self)

/-- The answer to a rename of a team skill is a stored answer. -/
theorem renameSkill_team {resource : ResourceRow}
    {outcome : RenameSkillResponse}
    (hresource : db.findResource request.resourceId = some resource)
    (hteam : db.ownerKind resource = some .team)
    (h : registry.renameSkill store userId request db = .ok (outcome, db')) :
    db' = db := by
  rcases bind_eq_ok.mp h with ⟨read, hread, h⟩
  cases read with
  | inl stored =>
      cases h
      rfl
  | inr plan =>
      rcases bind_eq_ok.mp hread with ⟨authority, _, hread⟩
      rcases bind_eq_ok.mp hread with ⟨_, _, hread⟩
      rcases bind_eq_ok.mp hread with ⟨_, _, hread⟩
      rcases bind_eq_ok.mp hread with ⟨replay, _, hread⟩
      cases replay with
      | some stored => cases hread
      | none =>
          rcases bind_eq_ok.mp hread with ⟨found, hnew, hread⟩
          cases hread
          rcases bind_eq_ok.mp hnew with ⟨row, hrow, hnew⟩
          have hsame := (Option.filter_eq_some_iff.mp (okOr_eq_ok.mp hrow)).1
          rw [hresource] at hsame
          cases hsame
          rw [if_pos hteam] at hnew
          rcases bind_eq_ok.mp hnew with ⟨team, hplan, hnew⟩
          cases hnew
          exact absurd h
            (writeTeamRename_fails (readTeamRename_eq_ok hplan))

/-!
## A rename that works
-/

variable (registry store)

/-- The second snapshot holds the entries of the first with another name in
the document. -/
def RenamedFrom (name newName : Text) (old new : StoredSnapshot) : Prop :=
  exists entries document renamed snapshot,
    registry.loadStoredEntries store name old = .ok entries ∧
      skillMdBytes entries = some document ∧
        rewriteSkillDocumentName registry.ext name document newName =
            .ok renamed ∧
          buildDeterministicSkillSnapshot registry.ext newName
              (replaceSkillMd renamed entries) = .ok snapshot ∧
            new = storedSnapshotOf registry.ext snapshot

/-- The revision is a new child of the old one. -/
def NewChild (db : Db) (old new : RevisionId) : Prop :=
  new ≠ old ∧ (new, old) ∈ db.edges

/-- Every head of the skill, and its latest release, has a renamed child. -/
structure TeamRenamed (request : RenameSkillRequest) (resource : ResourceRow)
    (db db' : Db) : Prop where
  heads : forall user old,
    db.workspace request.resourceId user = some old ->
      exists new, db'.workspace request.resourceId user = some new ∧
        NewChild db' old.revisionId new.revisionId ∧
          RenamedFrom registry store resource.slug request.newName
            old.snapshot new.snapshot
  release : forall version old,
    resource.latestReleaseVersion = some version ->
      db.findRelease request.resourceId version = some old ->
        exists renamed latest new,
          db'.findResource request.resourceId = some renamed ∧
            renamed.latestReleaseVersion = some latest ∧
              db'.findRelease request.resourceId latest = some new ∧
                NewChild db' old.revisionId new.revisionId ∧
                  RenamedFrom registry store resource.slug request.newName
                    old.snapshot new.snapshot
  otherWorkspaces : forall other user, other ≠ request.resourceId ->
    db'.workspace other user = db.workspace other user
  keptReleases : forall row, row ∈ db.releases -> row ∈ db'.releases
  keptSnapshots : forall row, row ∈ db.snapshots -> row ∈ db'.snapshots

def TeamRenameWorks (userId : Uuid) (request : RenameSkillRequest)
    (resource : ResourceRow) (db : Db) : Prop :=
  exists outcome db',
    registry.renameSkill store userId request db = .ok (outcome, db') ∧
      TeamRenamed registry store request resource db db'

/-- All that a rename of a team skill checks itself. -/
structure TeamRenameReady (userId : Uuid) (request : RenameSkillRequest)
    (resource : ResourceRow) (db : Db) : Prop where
  found : db.findResource request.resourceId = some resource
  team : db.ownerKind resource = some .team
  read : exists plan,
    registry.readRename store userId request db = .ok (.inr (.team plan)) ∧
      db.enforceNamespaceQuota registry.limits resource.ownerNamespaceId
        ((teamRenameContents plan).flatMap RenamedContent.blobs) = .ok ()
  workspace : exists row, db.workspace request.resourceId userId = some row
  calm : forall row, row ∈ db.conflicts ->
    row.resourceId = request.resourceId -> row.resolutionRevisionId ≠ none
  unused : db.slugTakenByOther resource.ownerNamespaceId request.resourceId
    request.newName = false

variable {registry store}

/-- A rename that works changes the registry. -/
theorem TeamRenameWorks.changes {resource : ResourceRow}
    {workspace : WorkspaceRow}
    (h : TeamRenameWorks registry store userId request resource db)
    (hworkspace : db.workspace request.resourceId userId = some workspace) :
    exists outcome db',
      registry.renameSkill store userId request db = .ok (outcome, db') ∧
        db' ≠ db := by
  rcases h with ⟨outcome, db', hrename, hrenamed⟩
  refine ⟨outcome, db', hrename, ?_⟩
  intro hsame
  rcases hrenamed.heads userId workspace hworkspace with
    ⟨new, hnew, ⟨hmoved, _⟩, _⟩
  rw [hsame, hworkspace] at hnew
  cases hnew
  exact hmoved rfl

/-- No rename of a team skill works. -/
theorem teamRename_never_works {resource : ResourceRow}
    {workspace : WorkspaceRow}
    (hresource : db.findResource request.resourceId = some resource)
    (hteam : db.ownerKind resource = some .team)
    (hworkspace : db.workspace request.resourceId userId = some workspace) :
    ¬TeamRenameWorks registry store userId request resource db := by
  intro hworks
  rcases hworks.changes hworkspace with ⟨outcome, db', hrename, hchanged⟩
  exact hchanged (renameSkill_team hresource hteam hrename)

end Registry

/-!
An owner of a team renames a skill on which only she works.
-/

namespace Sample

def renamedMd : Bytes :=
  utf8 ("---\n".toList ++ "name: b\ndescription: d\n".toList ++
    "---\n".toList)

def renamedMdDigest : Digest :=
  digestOfNat
    0x3ba36584a2067aa357fba205a87446f9c852fd1b2d86917629deaefd57be311f

def renamedRoot : TreeId :=
  ⟨digestOfNat
    0x3a6e0fa7dfcf9c8b253b901eaad2acfe90ae46ee282c3681b24327987130cbe2⟩

def renamedArchive : Bytes :=
  bytesOfNat 103
    0x28b52ffd0460d502005204101780c53a6c13f81d50cc355d382b0d617166a597c562eccaa9ccacbdc82d2c02d853e06a4d16ada69c3273ee3e1561209fc4857386ff694cf1ffd92d48c938900800e80efc8f0e280e70c97662f0b2d10a02603838812365e0f70c

def renamedArchiveDigest : Digest :=
  digestOfNat
    0x37aa615db0fc3dcad87ed5db2d532b35eccc412f615d2b485dbca62af4e5d34f

def renamedRevision : RevisionId :=
  ⟨digestOfNat
    0x0c4f8919668da285886cdeaf77fcff26abe8d95594fff1fea82eb3a579a33c86⟩

def renamedDigests : List (Bytes × Digest) :=
  [ (renamedMd, renamedMdDigest),
    (transcript [("SKILL.md", .file ⟨renamedMdDigest⟩ false)],
      renamedRoot.bytes),
    (renamedArchive, renamedArchiveDigest),
    ( revisionDomain ++ renamedRoot.bytes.toList ++ u32BigEndian 1 ++
        crewRevision.bytes.toList ++ (uuid 3).toList ++ (uuid 63).toList,
      renamedRevision.bytes) ]

def renameHash : RequestHash :=
  digestOfNat
    0xc8c37ce33d2da19b459961eab7e307eecc63dbca2cfa19e63225ba60e22ace30

/-- A registry that reads, renames and archives the document. -/
def renamer : Registry :=
  let base := registryOf (saveDigests ++ renamedDigests)
    [(uuid 63, renameHash)]
  { base with
    ext :=
      { base.ext with
        yamlFromStr := parseNamed
        yamlToString := emitNamed
        archiveWrite := fun written =>
          if written = [⟨.regular, skillMdPath, 0o644, none, renamedMd⟩] then
            .ok renamedArchive
          else
            base.ext.archiveWrite written } }

def archivedSnapshot : StoredSnapshot where
  manifest := documentManifest
  snapshotKey := snapshotKeyOf ⟨archiveDigest⟩
  snapshotSha256 := ⟨archiveDigest⟩
  snapshotSize := 102

def unreleasedRow : ResourceRow :=
  { crewRow with latestReleaseVersion := none }

def crewWorkspace : WorkspaceRow where
  resourceId := uuid 50
  workspaceUserId := amy.id
  metadata := crewResource.metadata
  revisionId := crewRevision
  generation := .one
  snapshot := archivedSnapshot

def unreleased : Db :=
  { directory := crewUsers
    resources := [unreleasedRow]
    workspaces := [crewWorkspace]
    snapshots := [⟨uuid 50, crewRevision, archivedSnapshot⟩]
    revisions :=
      [⟨crewRevision, documentRoot, amy.authorPrincipalId, operationId 64⟩]
    merkleTrees := [documentRoot]
    treeEntries :=
      [⟨documentRoot, "SKILL.md".toList, .file ⟨skillMdDigest⟩ false⟩]
    canonicalBlobs :=
      [⟨⟨skillMdDigest⟩, 31, canonicalBlobKey ⟨skillMdDigest⟩⟩]
    revisionBlobs := [⟨crewRevision, ⟨skillMdDigest⟩⟩]
    resourceBlobs := [((uuid 50, ⟨skillMdDigest⟩), 1)]
    namespaceBlobs := [((uuid 30, ⟨skillMdDigest⟩), 1)] }

def crewRename : RenameSkillRequest where
  operationId := operationId 63
  resourceId := uuid 50
  expectedGeneration := 1
  newName := "b".toList
  preparedRevisionOperationId := none
  requestHash := renameHash

theorem unreleased_row :
    unreleased.findResource (uuid 50) = some unreleasedRow ∧
      unreleased.ownerKind unreleasedRow = some .team ∧
        unreleased.workspace (uuid 50) amy.id = some crewWorkspace := by
  decide +kernel

/-- The plan of the rename fits into the quota of the team. -/
def planFits :
    RenameSkillResponse ⊕ Registry.RenamePlan renamer.ext -> Bool
  | .inr (.team plan) =>
      (unreleased.enforceNamespaceQuota renamer.limits
        unreleasedRow.ownerNamespaceId
        ((Registry.teamRenameContents plan).flatMap
          RenamedContent.blobs)).isOk
  | _ => false

theorem exists_unreleased_plan :
    exists plan,
      renamer.readRename store amy.id crewRename unreleased =
          .ok (.inr (.team plan)) ∧
        unreleased.enforceNamespaceQuota renamer.limits
          unreleasedRow.ownerNamespaceId
          ((Registry.teamRenameContents plan).flatMap
            RenamedContent.blobs) = .ok () := by
  have h :
      (renamer.readRename store amy.id crewRename unreleased).toOption.any
        planFits = true := by
    decide +kernel
  cases hanswer : renamer.readRename store amy.id crewRename unreleased with
  | error _ => simp [hanswer, Except.toOption] at h
  | ok read =>
      simp only [hanswer, Except.toOption, Option.any_some] at h
      unfold planFits at h
      split at h
      · rename_i plan
        rcases exists_of_isOk h with ⟨done, hdone⟩
        exact ⟨plan, rfl, hdone⟩
      · cases h

theorem unreleased_ready :
    Registry.TeamRenameReady renamer store amy.id crewRename unreleasedRow
      unreleased := by
  rcases unreleased_row with ⟨hfound, hteam, hworkspace⟩
  constructor
  · exact hfound
  · exact hteam
  · exact exists_unreleased_plan
  · exact ⟨crewWorkspace, hworkspace⟩
  · intro row hrow
    cases hrow
  · decide +kernel

end Sample

theorem Registry.teamRename_never_works_unreleased :
    ¬Registry.TeamRenameWorks Sample.renamer Sample.store Sample.amy.id
      Sample.crewRename Sample.unreleasedRow Sample.unreleased := by
  rcases Sample.unreleased_row with ⟨hfound, hteam, hworkspace⟩
  exact Registry.teamRename_never_works hfound hteam hworkspace

theorem Registry.teamRename_ready_refused :
    ¬forall (registry : Registry) (store : ObjectStore) (userId : Uuid)
      (request : RenameSkillRequest) (resource : ResourceRow) (db : Db),
      Registry.TeamRenameReady registry store userId request resource db ->
        Registry.TeamRenameWorks registry store userId request resource
          db := by
  intro hclaim
  have hworks := hclaim _ _ _ _ _ _ Sample.unreleased_ready
  rcases Sample.unreleased_row with ⟨hfound, hteam, hworkspace⟩
  rcases hworks.changes hworkspace with ⟨outcome, db', hrename, hchanged⟩
  exact hchanged (Registry.renameSkill_team hfound hteam hrename)

end Denju
