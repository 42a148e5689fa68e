import Denju.Registry.SaveProtocol
import Denju.Registry.Release
import Denju.Registry.TeamRename
import Denju.Registry.Proposals

/-!
# Unresolved conflicts

An unresolved conflict keeps two heads apart until a merge of both.  The merge
is prepared on top of the head of the workspace, so the head must be one of the
two.  This module shows which transactions keep it so.
-/

namespace Denju

open Lib

namespace Db

/-!
## What every transaction keeps
-/

/-- The users, and the owners of the skills, stay what they are. -/
structure Keeps (db db' : Db) : Prop where
  directory : db'.directory = db.directory
  quarantines : db'.quarantines = db.quarantines
  resources : forall id row, db.findResource id = some row ->
    exists row', db'.findResource id = some row' ∧
      row'.ownerNamespaceId = row.ownerNamespaceId ∧
        row'.kind = row.kind ∧ row'.deleted = row.deleted

variable {db db' : Db}

theorem Keeps.of_eq (hdirectory : db'.directory = db.directory)
    (hquarantines : db'.quarantines = db.quarantines)
    (hresources : db'.resources = db.resources) : Keeps db db' where
  directory := hdirectory
  quarantines := hquarantines
  resources := by
    intro id row hrow
    refine ⟨row, ?_, rfl, rfl, rfl⟩
    unfold findResource at hrow ⊢
    rw [hresources]
    exact hrow

theorem Keeps.of_update (hdirectory : db'.directory = db.directory)
    (hquarantines : db'.quarantines = db.quarantines)
    {p : ResourceRow -> Bool} {f : ResourceRow -> ResourceRow}
    (hresources : db'.resources = updateWhere p f db.resources)
    (hid : forall row, (f row).id = row.id)
    (howner : forall row, (f row).ownerNamespaceId = row.ownerNamespaceId)
    (hkind : forall row, (f row).kind = row.kind)
    (hdeleted : forall row, (f row).deleted = row.deleted) :
    Keeps db db' where
  directory := hdirectory
  quarantines := hquarantines
  resources := by
    intro id row hrow
    unfold findResource at hrow ⊢
    rw [hresources, find?_updateWhere (by intro row _; rw [hid]), hrow]
    refine ⟨_, rfl, ?_⟩
    dsimp only
    split
    · exact ⟨howner row, hkind row, hdeleted row⟩
    · exact ⟨rfl, rfl, rfl⟩

theorem Keeps.of_append (hdirectory : db'.directory = db.directory)
    (hquarantines : db'.quarantines = db.quarantines) {last : ResourceRow}
    (hresources : db'.resources = db.resources ++ [last]) :
    Keeps db db' where
  directory := hdirectory
  quarantines := hquarantines
  resources := by
    intro id row hrow
    refine ⟨row, ?_, rfl, rfl, rfl⟩
    unfold findResource at hrow ⊢
    rw [hresources, List.find?_append, hrow]
    rfl

theorem Keeps.refl (db : Db) : Keeps db db :=
  Keeps.of_eq rfl rfl rfl

theorem Keeps.trans {db'' : Db} (h : Keeps db db') (h' : Keeps db' db'') :
    Keeps db db'' where
  directory := h'.directory.trans h.directory
  quarantines := h'.quarantines.trans h.quarantines
  resources := by
    intro id row hrow
    rcases h.resources id row hrow with ⟨row', hrow', ho, hk, hd⟩
    rcases h'.resources id row' hrow' with ⟨row'', hrow'', ho', hk', hd'⟩
    exact ⟨row'', hrow'', ho'.trans ho, hk'.trans hk, hd'.trans hd⟩

/-!
## Publishers
-/

/-- The user may publish the skill. -/
def MayPublish (db : Db) (user resourceId : Uuid) : Prop :=
  exists authority target resource,
    db.directory.userAuthority user = .ok authority ∧
      db.authorizeResourcePublish authority resourceId = .ok target ∧
        db.findResource resourceId = some resource ∧ resource.kind = .skill

theorem quarantined_congr (h : db'.quarantines = db.quarantines)
    (resourceId : Uuid) :
    db'.quarantined resourceId = db.quarantined resourceId := by
  unfold quarantined
  rw [h]

/-- A publisher of a namespace has access to it. -/
theorem hasNamespaceAccess_of_authorize {directory : Directory}
    {user : Uuid} {authority : UserAuthority} {row : Namespace}
    {target : NamespacePublishAuthority}
    (hauthority : directory.userAuthority user = .ok authority)
    (hrow : row ∈ directory.namespaces)
    (h : directory.authorizeNamespacePublish authority row.slug =
      .ok target) :
    directory.hasNamespaceAccess authority.userId row.id = true := by
  unfold Directory.hasNamespaceAccess Directory.ownsNamespace
  rw [Bool.or_eq_true, List.any_eq_true, List.any_eq_true]
  rcases Directory.userAuthority_eq_ok hauthority with
    ⟨found, hfound, hid, huser, hspace, _⟩
  rcases (Directory.authorizeNamespacePublish_eq_ok hrow h).2 with
    ⟨_, _, howner⟩ | ⟨_, _, membership, _, hmembership, _, _⟩
  · refine .inl ⟨found, hfound, ?_⟩
    simp [hid, huser, howner, hspace]
  · have hkeys := List.find?_some hmembership
    simp only [decide_eq_true_eq] at hkeys
    refine .inr ⟨membership, List.mem_of_find?_eq_some hmembership, ?_⟩
    simp [hkeys.1, hkeys.2]

theorem MayPublish.keeps {user resourceId : Uuid}
    (h : db.MayPublish user resourceId) (hkeeps : Keeps db db') :
    db'.MayPublish user resourceId := by
  rcases h with ⟨authority, target, resource, hauthority, htarget, hresource,
    hkind⟩
  rcases bind_eq_ok.mp htarget with ⟨row, hrow, htarget⟩
  rcases bind_eq_ok.mp htarget with ⟨owner, howner, htarget⟩
  have hfound := Option.filter_eq_some_iff.mp (okOr_eq_ok.mp hrow)
  have hspace := okOr_eq_ok.mp howner
  have hmem := Directory.namespaceById_eq_some hspace
  have hsame : row = resource := by
    have hboth := hfound.1
    rw [hresource] at hboth
    exact (Option.some.inj hboth).symm
  subst hsame
  rcases hkeeps.resources resourceId row hresource with
    ⟨row', hrow', howner', hkind', hdeleted'⟩
  have haccess := hasNamespaceAccess_of_authorize hauthority hmem.1 htarget
  rw [hmem.2] at haccess
  have hlive := hfound.2
  simp only [Bool.and_eq_true, Bool.not_eq_true'] at hlive
  refine ⟨authority, target, row', ?_, ?_, hrow', hkind'.trans hkind⟩
  · rw [hkeeps.directory]
    exact hauthority
  · have hread : db'.canReadResource authority.userId resourceId = true := by
      unfold canReadResource
      rw [hrow']
      simp [hdeleted', hlive.1.1, hkeeps.directory, howner', haccess]
    refine bind_eq_ok.mpr ⟨row', okOr_eq_ok.mpr ?_, ?_⟩
    · rw [hrow']
      simp [hdeleted', hlive.1.1, quarantined_congr hkeeps.quarantines,
        hlive.1.2, hread]
    · refine bind_eq_ok.mpr ⟨owner, okOr_eq_ok.mpr ?_, ?_⟩
      · rw [hkeeps.directory, howner']
        exact hspace
      · rw [hkeeps.directory]
        exact htarget

/-!
## The invariant
-/

/-- The head of the workspace is one of the two heads, which stand in order. -/
structure ConflictSound (db : Db) (row : WorkspaceConflictRow) : Prop where
  ordered : row.headARevisionId.key ≤ row.headBRevisionId.key
  distinct : row.headARevisionId ≠ row.headBRevisionId
  head : exists workspace,
    db.workspace row.resourceId row.workspaceUserId = some workspace ∧
      (workspace.revisionId = row.headARevisionId ∨
        workspace.revisionId = row.headBRevisionId)
  publisher : db.MayPublish row.workspaceUserId row.resourceId

structure ConflictsSound (db : Db) : Prop where
  one : OneConflict db.conflicts
  sound : forall row, row ∈ db.conflicts -> row.resolutionRevisionId = none ->
    db.ConflictSound row

theorem ConflictsSound.empty (directory : Directory) :
    ConflictsSound { directory } where
  one := by
    intro resourceId user
    simp
  sound := by simp

/-- A conflict survives a transaction that leaves its workspace alone. -/
theorem ConflictSound.keeps {row : WorkspaceConflictRow}
    (h : db.ConflictSound row) (hkeeps : Keeps db db')
    (hworkspace : db'.workspace row.resourceId row.workspaceUserId =
      db.workspace row.resourceId row.workspaceUserId) :
    db'.ConflictSound row where
  ordered := h.ordered
  distinct := h.distinct
  head := by
    rw [hworkspace]
    exact h.head
  publisher := h.publisher.keeps hkeeps

/-- The workspaces of unresolved conflicts stay where they are. -/
def SparesConflicts (db db' : Db) : Prop :=
  forall resourceId user, (db.activeConflict resourceId user).isSome ->
    (db.workspace resourceId user).isSome ->
      db'.workspace resourceId user = db.workspace resourceId user

theorem ConflictsSound.workspace_isSome (h : ConflictsSound db)
    {resourceId user : Uuid}
    (hactive : (db.activeConflict resourceId user).isSome) :
    (db.workspace resourceId user).isSome := by
  rcases Option.isSome_iff_exists.mp hactive with ⟨row, hrow⟩
  rcases activeConflict_eq_some hrow with ⟨hmem, hunresolved⟩
  have hkeys := unresolvedFor_eq_true.mp hunresolved
  rcases (h.sound row hmem hkeys.2.2).head with ⟨workspace, hworkspace, _⟩
  rw [← hkeys.1, ← hkeys.2.1, hworkspace]
  rfl

/-- No transaction that leaves the conflicts and their workspaces alone breaks
the invariant. -/
theorem ConflictsSound.spared (h : ConflictsSound db) (hkeeps : Keeps db db')
    (hconflicts : db'.conflicts = db.conflicts)
    (hspares : SparesConflicts db db') : ConflictsSound db' where
  one := by
    rw [hconflicts]
    exact h.one
  sound := by
    intro row hrow hopen
    rw [hconflicts] at hrow
    have hsound := h.sound row hrow hopen
    have hactive := activeConflict_of_mem h.one hrow
      (unresolvedFor_eq_true.mpr ⟨rfl, rfl, hopen⟩)
    refine hsound.keeps hkeeps (hspares _ _ (by rw [hactive]; rfl) ?_)
    exact h.workspace_isSome (by rw [hactive]; rfl)

/-- A conflict that a transaction has raised at the head is sound. -/
theorem ConflictsSound.raised (h : ConflictsSound db) (hkeeps : Keeps db db')
    {newConflictId resourceId user : Uuid} {base detached : RevisionId}
    {workspace : WorkspaceRow} {row : WorkspaceConflictRow}
    (hnone : db.activeConflict resourceId user = none)
    (hconflicts : db'.conflicts = db.conflicts ++ [row])
    (hraised : Raised newConflictId resourceId user base detached
      workspace.revisionId db.conflicts row)
    (hworkspaces : db'.workspaces = db.workspaces)
    (hworkspace : db.workspace resourceId user = some workspace)
    (hpublisher : db.MayPublish user resourceId) : ConflictsSound db' where
  one := by
    rw [hconflicts]
    exact h.one.concat hraised.unresolved hnone
  sound := by
    intro other hother hopen
    have hsame : forall resourceId user,
        db'.workspace resourceId user = db.workspace resourceId user := by
      intro resourceId user
      unfold Db.workspace
      rw [hworkspaces]
    rw [hconflicts] at hother
    rcases List.mem_append.mp hother with hold | hlast
    · exact (h.sound other hold hopen).keeps hkeeps (hsame _ _)
    · rw [List.mem_singleton.mp hlast]
      have hkeys := unresolvedFor_eq_true.mp hraised.unresolved
      constructor
      · have hheads := hraised.heads
        unfold sortedHeads at hheads
        split at hheads
        · rename_i hle
          rw [(Prod.mk.inj hheads).1, (Prod.mk.inj hheads).2]
          exact hle
        · rename_i hlt
          rw [(Prod.mk.inj hheads).1, (Prod.mk.inj hheads).2]
          exact le_of_lt (not_le.mp hlt)
      · exact hraised.distinct
      · refine ⟨workspace, ?_, ?_⟩
        · rw [hsame, hkeys.1, hkeys.2.1]
          exact hworkspace
        · rcases hraised.head_cases with ⟨_, hactive⟩ | ⟨hactive, _⟩
          · exact .inr hactive.symm
          · exact .inl hactive.symm
      · rw [hkeys.1, hkeys.2.1]
        exact hpublisher.keeps hkeeps

/-!
## Workspaces that transactions add and move
-/

theorem workspace_append {resourceId user : Uuid} {last : WorkspaceRow}
    (h : db'.workspaces = db.workspaces ++ [last])
    (hsome : (db.workspace resourceId user).isSome) :
    db'.workspace resourceId user = db.workspace resourceId user := by
  rcases Option.isSome_iff_exists.mp hsome with ⟨row, hrow⟩
  unfold Db.workspace at hrow ⊢
  rw [h, List.find?_append, hrow]
  rfl

theorem SparesConflicts.of_append {last : WorkspaceRow}
    (h : db'.workspaces = db.workspaces ++ [last]) : SparesConflicts db db' := by
  intro resourceId user _ hsome
  exact workspace_append h hsome

theorem SparesConflicts.of_eq (h : db'.workspaces = db.workspaces) :
    SparesConflicts db db' := by
  intro resourceId user _ _
  unfold Db.workspace
  rw [h]

/-- A workspace without an unresolved conflict may move. -/
theorem SparesConflicts.of_setWorkspace {resourceId user : Uuid}
    {revision : RevisionId} {generation : Generation}
    {content : VerifiedContent}
    (h : db'.workspaces = (db.setWorkspace resourceId user revision generation
      content).workspaces)
    (hnone : db.activeConflict resourceId user = none) :
    SparesConflicts db db' := by
  intro other otherUser hactive _
  rw [workspace_of_setWorkspace h]
  have hkeys : ¬ (other = resourceId ∧ otherUser = user) := by
    rintro ⟨rfl, rfl⟩
    rw [hnone] at hactive
    cases hactive
  simp [hkeys]

theorem ensurePrivateWorkspaceForUser_cases (db : Db) (resourceId user : Uuid) :
    db.ensurePrivateWorkspaceForUser resourceId user = db ∨
      exists row, row.resourceId = resourceId ∧ row.workspaceUserId = user ∧
        db.workspace resourceId user = none ∧
          db.ensurePrivateWorkspaceForUser resourceId user =
            { db with workspaces := db.workspaces ++ [row] } := by
  unfold ensurePrivateWorkspaceForUser
  split
  · rename_i resource hnone _
    split
    · split
      · exact .inl rfl
      · split
        · exact .inl rfl
        · exact .inr ⟨_, rfl, rfl, hnone, rfl⟩
    · exact .inl rfl
  · exact .inl rfl

/-- A workspace that is created for a user has no conflict yet. -/
theorem ConflictsSound.ensured (h : ConflictsSound db)
    {resourceId user : Uuid} {start : Db}
    (hstart : start = db ∨
      start = db.ensurePrivateWorkspaceForUser resourceId user) :
    ConflictsSound start ∧ Keeps db start ∧
      start.conflicts = db.conflicts := by
  rcases hstart with rfl | rfl
  · exact ⟨h, Keeps.refl _, rfl⟩
  · rcases ensurePrivateWorkspaceForUser_cases db resourceId user with
      hsame | ⟨row, _, _, _, hrow⟩
    · rw [hsame]
      exact ⟨h, Keeps.refl _, rfl⟩
    · rw [hrow]
      exact ⟨h.spared (Keeps.of_eq rfl rfl rfl) rfl
        (SparesConflicts.of_append rfl), Keeps.of_eq rfl rfl rfl, rfl⟩

end Db

/-!
## What the transactions keep
-/

section Keeping

variable {registry : Registry} {db db' start : Db} {newConflictId : Uuid}

theorem commitWritten_keeps {plan : PendingCommit registry.ext}
    {workspace : WorkspaceRow} {outcome : PrivateRevisionCommitResponse}
    (hw : Registry.CommitWritten newConflictId plan workspace outcome db
      db') : Db.Keeps db db' := by
  rcases hw.resources with hsame | ⟨generation, hset⟩
  · exact Db.Keeps.of_eq hw.savesOnly.directory hw.savesOnly.quarantines hsame
  · exact Db.Keeps.of_update hw.savesOnly.directory hw.savesOnly.quarantines
      hset (fun _ => rfl) (fun _ => rfl) (fun _ => rfl) fun _ => rfl

theorem restoreWritten_keeps {plan : PendingRestore}
    {target : NamespacePublishAuthority} {workspace : WorkspaceRow}
    {revision : Revision}
    (hw : Registry.RestoreWritten registry.ext plan target workspace revision
      start db') : Db.Keeps start db' := by
  rcases hw.tables with
    ⟨stored, generation, resourceGeneration, _, _, _, hstored, hdb'⟩
  rcases Registry.storeRestored_frame hstored with ⟨_, _, _, _, _, hframe⟩
  have hdirectory : db'.directory = start.directory := by
    rw [hdb', hframe]
  have hquarantines : db'.quarantines = start.quarantines := by
    rw [hdb', hframe]
  cases hteam : target.isTeam with
  | false =>
      refine Db.Keeps.of_update hdirectory hquarantines
        (p := fun row => row.id = plan.request.resourceId)
        (f := fun row =>
          { row with
            generation := resourceGeneration
            metadata := plan.content.metadata })
        ?_ (fun _ => rfl) (fun _ => rfl) (fun _ => rfl) fun _ => rfl
      rw [hdb', hframe, hteam]
      rfl
  | true =>
      refine Db.Keeps.of_eq hdirectory hquarantines ?_
      rw [hdb', hframe, hteam]
      rfl

theorem renameWritten_keeps {plan : PendingRename registry.ext}
    {resource : ResourceRow}
    (hw : Registry.RenameWritten plan resource db db') : Db.Keeps db db' := by
  rcases hw.tables with ⟨stored, generation, version, _, _, _, _, hstored, _,
    _, _, hdb'⟩
  rcases Registry.storeRenamed_frame hstored with
    ⟨_, _, _, _, _, _, _, _, _, hframe⟩
  refine Db.Keeps.of_update (p := fun row => row.id = plan.request.resourceId)
    (f := fun row =>
      { row with
        slug := plan.request.newName
        metadata := plan.renamed.content.metadata
        generation
        latestReleaseVersion := version.or resource.latestReleaseVersion })
    ?_ ?_ ?_ (fun _ => rfl) (fun _ => rfl) (fun _ => rfl) fun _ => rfl
  · rw [hdb', hframe]
    rfl
  · rw [hdb', hframe]
    rfl
  · rw [hdb', hframe]
    rfl

theorem teamRenameWritten_keeps {plan : PendingTeamRename}
    (hw : Registry.TeamRenameWritten registry plan db db') :
    Db.Keeps db db' := by
  rcases hw.tables with ⟨seen, stored, moved, generation, version, _, _, _, _,
    hstored, hmoved, _, _, _, hdb'⟩
  rcases Registry.persistContents_frame hstored with
    ⟨_, _, _, _, _, _, _, _, _, _, hstoredFrame⟩
  rcases Registry.moveTeamWorkspaces_frame hmoved with ⟨_, hmovedFrame, _⟩
  dsimp only at hstoredFrame
  refine Db.Keeps.of_update (p := fun row => row.id = plan.request.resourceId)
    (f := fun row =>
      { row with
        slug := plan.request.newName
        metadata := row.metadata
        generation
        latestReleaseVersion :=
          version.or plan.source.latestReleaseVersion })
    ?_ ?_ ?_ (fun _ => rfl) (fun _ => rfl) (fun _ => rfl) fun _ => rfl
  · rw [hdb', hmovedFrame, hstoredFrame]
    rfl
  · rw [hdb', hmovedFrame, hstoredFrame]
    rfl
  · rw [hdb', hmovedFrame, hstoredFrame]
    rfl

theorem acceptWritten_keeps {authority : UserAuthority}
    {request : ProposalAcceptRequest} {isTeam : Bool} {view : ProposalView}
    (hw : Registry.AcceptWritten registry authority request isTeam view start
      db') : Db.Keeps start db' := by
  rcases hw.tables with
    ⟨attached, generation, resourceGeneration, _, content, _, _, _,
      hattached, hdb'⟩
  rcases Registry.attachProposalRevision_frame hattached with
    ⟨_, _, _, _, hframe⟩
  have hdirectory : db'.directory = start.directory := by
    rw [hdb', hframe]
  have hquarantines : db'.quarantines = start.quarantines := by
    rw [hdb', hframe]
  cases isTeam with
  | false =>
      refine Db.Keeps.of_update hdirectory hquarantines
        (p := fun row => row.id = view.target.id)
        (f := fun row =>
          { row with
            generation := resourceGeneration
            metadata := content.metadata })
        ?_ (fun _ => rfl) (fun _ => rfl) (fun _ => rfl) fun _ => rfl
      rw [hdb', hframe]
      rfl
  | true =>
      refine Db.Keeps.of_eq hdirectory hquarantines ?_
      rw [hdb', hframe]
      rfl

end Keeping

/-!
## Transactions that respect conflicts
-/

section Respecting

variable {registry : Registry} {db db' : Db} {newConflictId userId : Uuid}

theorem conflictsSound_prepare (h : db.ConflictsSound)
    {fresh : BlobId -> Uuid} {request : PrivateRevisionRequest}
    {answer : PrivateRevisionPrepareResponse}
    (hprepare : registry.preparePrivateRevision fresh userId request db =
      .ok (answer, db')) : db'.ConflictsSound := by
  rcases Registry.preparePrivateRevision_eq_ok hprepare with
    ⟨authority, author, revision, blobs, _, _, _, _, rfl | ⟨_, hstore⟩⟩
  · exact h
  · rcases Registry.storePrivateRevision_eq_ok hstore with
      ⟨_, start, _, _, _, _, hstart, _, _, rfl⟩
    have hsound := (h.ensured hstart).1
    exact hsound.spared (Db.Keeps.of_eq rfl rfl rfl) rfl
      (Db.SparesConflicts.of_eq rfl)

theorem conflictsSound_prepareImport (h : db.ConflictsSound)
    {newResourceId : Uuid} {fresh : BlobId -> Uuid}
    {request : PrivateSkillImportRequest}
    {answer : PrivateSkillImportPrepareResponse}
    (hprepare : registry.preparePrivateSkillImport newResourceId fresh userId
      request db = .ok (answer, db')) : db'.ConflictsSound := by
  rcases Registry.preparePrivateSkillImport_eq_ok hprepare with
    ⟨_, _, _, rfl | ⟨_, _, _, rfl⟩⟩
  · exact h
  · exact h.spared (Db.Keeps.of_eq rfl rfl rfl) rfl
      (Db.SparesConflicts.of_eq rfl)

theorem conflictsSound_import (h : db.ConflictsSound)
    {plan : PendingImport registry.ext} {outcome : PrivateSkillImportResponse}
    (himport : Registry.writePrivateSkillImport plan db =
      .ok (outcome, db')) : db'.ConflictsSound := by
  rcases Registry.writePrivateSkillImport_eq_ok himport with
    rfl | ⟨locked, _, hw⟩
  · exact h
  · rcases hw.resources with ⟨row, _, _, hresources⟩
    rcases hw.workspaces with ⟨workspace, _, _, _, hworkspaces⟩
    exact h.spared
      (Db.Keeps.of_append hw.savesOnly.directory hw.savesOnly.quarantines
        hresources)
      hw.conflicts (Db.SparesConflicts.of_append hworkspaces)

theorem conflictsSound_publish (h : db.ConflictsSound)
    {request : PublishSkillRequest}
    {answer : Except ApiError PublishSkillResponse}
    (hpublish : registry.publishSkill newConflictId userId request db =
      .ok (answer, db')) : db'.ConflictsSound := by
  rcases Registry.publishSkill_eq_ok hpublish with
    rfl | ⟨context, hauthority, hfound, hw⟩
  · exact h
  · cases hw with
    | kept hsame =>
        rw [hsame]
        exact h
    | madePublic generation operations _ hdb' =>
        rw [hdb']
        exact h.spared
          (Db.Keeps.of_update rfl rfl rfl (fun _ => rfl) (fun _ => rfl)
            (fun _ => rfl) fun _ => rfl)
          rfl (Db.SparesConflicts.of_eq rfl)
    | released version generation releases operations _ _ hdb' =>
        rw [hdb']
        exact h.spared
          (Db.Keeps.of_update rfl rfl rfl (fun _ => rfl) (fun _ => rfl)
            (fun _ => rfl) fun _ => rfl)
          rfl (Db.SparesConflicts.of_eq rfl)
    | raised row base detached hnone hdb' hraised =>
        rcases hfound.target with ⟨target, htarget, _⟩
        rcases Directory.userAuthority_eq_ok hauthority with
          ⟨_, _, _, huser, _⟩
        rw [hdb']
        refine h.raised (Db.Keeps.of_eq rfl rfl rfl) hnone rfl hraised rfl
          hfound.workspace ⟨context.authority, target, context.resource, ?_,
            htarget, hfound.resource, hfound.kind⟩
        rw [huser]
        exact hauthority

theorem conflictsSound_createProposal (h : db.ConflictsSound)
    {proposalId : Uuid} {request : ProposalCreateRequest}
    {outcome : SkillProposal}
    (hcreate : registry.createProposal proposalId userId request db =
      .ok (outcome, db')) : db'.ConflictsSound := by
  rcases Registry.createProposal_eq_ok hcreate with rfl | ⟨_, _, rfl, _⟩
  · exact h
  · exact h.spared (Db.Keeps.of_eq rfl rfl rfl) rfl
      (Db.SparesConflicts.of_eq rfl)

/-- The resource and the publisher that a commit checks before it writes. -/
theorem writePrivateRevision_mayPublish {plan : PendingCommit registry.ext}
    {outcome : PrivateRevisionCommitResponse}
    (hauthority : db.directory.userAuthority plan.authority.userId =
      .ok plan.authority)
    (hwrite : Registry.writePrivateRevision newConflictId plan db =
      .ok (outcome, db')) :
    db.MayPublish plan.authority.userId plan.operation.resourceId := by
  rcases bind_eq_ok.mp hwrite with ⟨target, htarget, hwrite⟩
  rcases bind_eq_ok.mp hwrite with ⟨_, _, hwrite⟩
  rcases bind_eq_ok.mp hwrite with ⟨⟨resource, workspace⟩, hcurrent, hwrite⟩
  rcases Db.currentWorkspace_eq_ok hcurrent with ⟨hresource, hkind, _, _⟩
  exact ⟨plan.authority, target, resource, hauthority, htarget, hresource,
    hkind⟩

/-- A merge resolves the only conflict of its workspace. -/
theorem conflictsSound_merge (h : db.ConflictsSound)
    {plan : PendingCommit registry.ext} {generation : Generation}
    {row : WorkspaceConflictRow} (hkeeps : Db.Keeps db db')
    (hworkspaces : db'.workspaces = (db.setWorkspace plan.operation.resourceId
      plan.authority.userId plan.operation.revisionId generation
      plan.content).workspaces)
    (hrow : row ∈ db.conflicts)
    (hid : row.conflictId = plan.operation.operationId.asUuid)
    (hunresolved : Db.unresolvedFor plan.operation.resourceId
      plan.authority.userId row = true)
    (hconflicts : db'.conflicts = Registry.resolvedConflicts
      plan.operation.operationId.asUuid plan.operation.resourceId
      plan.authority.userId plan.operation.revisionId db.conflicts) :
    db'.ConflictsSound where
  one := by
    rw [hconflicts]
    exact h.one.resolved
  sound := by
    intro other hother hopen
    rw [hconflicts] at hother
    rcases mem_updateWhere.mp hother with ⟨old, hold, hmapped⟩
    split at hmapped
    · rw [← hmapped] at hopen
      cases hopen
    · rename_i hkept
      rw [hmapped] at hold hkept
      refine (h.sound other hold hopen).keeps hkeeps ?_
      rw [Db.workspace_of_setWorkspace hworkspaces]
      have hkeys : ¬ (other.resourceId = plan.operation.resourceId ∧
          other.workspaceUserId = plan.authority.userId) := by
        rintro ⟨hresource, huser⟩
        have hsame : Db.unresolvedFor plan.operation.resourceId
            plan.authority.userId other = true :=
          Db.unresolvedFor_eq_true.mpr ⟨hresource, huser, hopen⟩
        rw [h.one.eq hold hrow hsame hunresolved] at hkept
        simp [hid, hunresolved] at hkept
      simp [hkeys]

theorem conflictsSound_commit (h : db.ConflictsSound)
    {plan : PendingCommit registry.ext}
    {outcome : PrivateRevisionCommitResponse}
    (hauthority : db.directory.userAuthority plan.authority.userId =
      .ok plan.authority)
    (hwrite : Registry.writePrivateRevision newConflictId plan db =
      .ok (outcome, db')) : db'.ConflictsSound := by
  have hpublisher := writePrivateRevision_mayPublish hauthority hwrite
  rcases Registry.writePrivateRevision_eq_ok hwrite with
    ⟨locked, workspace, hworkspace, _, _, ⟨_, _, rfl⟩ | ⟨_, hw⟩⟩
  · exact h
  · have hkeeps := commitWritten_keeps hw
    cases hw.written with
    | advance generation _ _ _ hworkspaces hconflicts =>
        rcases hconflicts with
          ⟨hnone, hsame⟩ | ⟨row, hrow, hid, hunresolved, _, hresolved⟩
        · exact h.spared hkeeps hsame
            (Db.SparesConflicts.of_setWorkspace hworkspaces hnone)
        · exact conflictsSound_merge h hkeeps hworkspaces hrow hid hunresolved
            hresolved
    | diverge row conflict _ _ hworkspaces hnone hconflicts hraised =>
        exact h.raised hkeeps hnone hconflicts hraised hworkspaces hworkspace
          hpublisher

/-- A rename of a team skill starts without unresolved conflicts. -/
theorem conflictsSound_teamRename (h : db.ConflictsSound)
    {plan : PendingTeamRename} {outcome : RenameSkillResponse}
    (hwrite : Registry.writeTeamRename registry plan db =
      .ok (outcome, db')) : db'.ConflictsSound := by
  rcases Registry.writeTeamRename_eq_ok hwrite with ⟨hfound, hw⟩
  rcases hw.tables with ⟨seen, stored, moved, generation, version, _, _, _, _,
    hstored, hmoved, _, _, _, hdb'⟩
  rcases Registry.persistContents_frame hstored with
    ⟨_, _, _, _, _, _, _, _, _, _, hstoredFrame⟩
  rcases Registry.moveTeamWorkspaces_frame hmoved with
    ⟨_, hmovedFrame, hkept⟩
  dsimp only at hstoredFrame
  have hstart : stored.workspaces = db.workspaces := by
    rw [hstoredFrame]
    rfl
  refine h.spared (teamRenameWritten_keeps hw) ?_ ?_
  · rw [hdb', hmovedFrame, hstoredFrame]
    rfl
  · intro resourceId user hactive _
    have hother : resourceId ≠ plan.request.resourceId := by
      rintro rfl
      rcases Option.isSome_iff_exists.mp hactive with ⟨row, hrow⟩
      rcases Db.activeConflict_eq_some hrow with ⟨hmem, hunresolved⟩
      have hkeys := Db.unresolvedFor_eq_true.mp hunresolved
      exact hfound.calm row hmem hkeys.1 hkeys.2.2
    have hmovedRow := (hkept resourceId user).2 hother
    have hdb : db'.workspace resourceId user =
        moved.workspace resourceId user := by
      rw [hdb']
      rfl
    rw [hdb, hmovedRow]
    unfold Db.workspace
    rw [hstart]

end Respecting

/-!
## Transactions that do not look at conflicts

They keep the invariant where the workspace that they move has none.
-/

section Unaware

variable {registry : Registry} {db db' : Db} {userId : Uuid}

theorem activeConflict_congr {a b : Db} (h : a.conflicts = b.conflicts)
    (resourceId user : Uuid) :
    a.activeConflict resourceId user = b.activeConflict resourceId user := by
  unfold Db.activeConflict
  rw [h]

theorem conflictsSound_restore (h : db.ConflictsSound)
    {plan : PendingRestore} {outcome : PrivateRevisionResponse}
    (hcalm : db.activeConflict plan.request.resourceId plan.authority.userId =
      none)
    (hwrite : registry.writeRestore plan db = .ok (outcome, db')) :
    db'.ConflictsSound := by
  rcases Registry.writeRestore_eq_ok hwrite with
    ⟨target, start, resource, workspace, revision, _, hstart, _, hw⟩
  rcases h.ensured hstart with ⟨hsound, _, hconflicts⟩
  rw [← activeConflict_congr hconflicts] at hcalm
  rcases hw.tables with
    ⟨stored, generation, resourceGeneration, _, _, _, hstored, hdb'⟩
  rcases Registry.storeRestored_frame hstored with ⟨_, _, _, _, _, hframe⟩
  have hworkspaces : db'.workspaces = (start.setWorkspace
      plan.request.resourceId plan.authority.userId (revision.id registry.ext)
      generation plan.content).workspaces := by
    rw [hdb', hframe]
    rfl
  refine hsound.spared (restoreWritten_keeps hw) ?_
    (Db.SparesConflicts.of_setWorkspace hworkspaces hcalm)
  rw [hdb', hframe]

theorem conflictsSound_personalRename (h : db.ConflictsSound)
    {plan : PendingRename registry.ext} {outcome : RenameSkillResponse}
    (hcalm : db.activeConflict plan.request.resourceId plan.authority.userId =
      none)
    (hwrite : Registry.writePersonalRename plan db = .ok (outcome, db')) :
    db'.ConflictsSound := by
  rcases Registry.writePersonalRename_eq_ok hwrite with ⟨resource, _, hw⟩
  rcases hw.tables with ⟨stored, generation, version, _, _, _, _, hstored, _,
    _, _, hdb'⟩
  rcases Registry.storeRenamed_frame hstored with
    ⟨_, _, _, _, _, _, _, _, _, hframe⟩
  have hworkspaces : db'.workspaces = (db.setWorkspace
      plan.request.resourceId plan.authority.userId plan.renamed.revisionId
      generation plan.renamed.content).workspaces := by
    rw [hdb', hframe]
    rfl
  refine h.spared (renameWritten_keeps hw) ?_
    (Db.SparesConflicts.of_setWorkspace hworkspaces hcalm)
  rw [hdb', hframe]
  rfl

theorem conflictsSound_accept (h : db.ConflictsSound)
    {request : ProposalAcceptRequest} {outcome : SkillProposal}
    (hcalm : forall proposal, proposal ∈ db.proposals ->
      proposal.id = request.proposalId ->
        db.activeConflict proposal.targetResourceId userId = none)
    (haccept : registry.acceptProposal userId request db =
      .ok (outcome, db')) : db'.ConflictsSound := by
  rcases Registry.acceptProposal_eq_ok haccept with
    rfl | ⟨authority, view, target, start, _, hauthority, hview, _, _, hstart,
      _, hw⟩
  · exact h
  · rcases Registry.proposalQuery_eq_ok hview with
      ⟨hproposal, hid, htarget, _, _, _⟩
    rcases Directory.userAuthority_eq_ok hauthority with ⟨_, _, _, huser, _⟩
    rcases h.ensured hstart with ⟨hsound, _, hconflicts⟩
    have hnone := hcalm view.proposal hproposal hid
    rw [← activeConflict_congr hconflicts, ← htarget, ← huser] at hnone
    rcases hw.tables with
      ⟨attached, generation, resourceGeneration, _, content, _, _, _,
        hattached, hdb'⟩
    rcases Registry.attachProposalRevision_frame hattached with
      ⟨_, _, _, _, hframe⟩
    have hworkspaces : db'.workspaces = (start.setWorkspace view.target.id
        authority.userId request.expectedProposedRevisionId generation
        content).workspaces := by
      rw [hdb', hframe]
      rfl
    refine hsound.spared (acceptWritten_keeps hw) ?_
      (Db.SparesConflicts.of_setWorkspace hworkspaces hnone)
    rw [hdb', hframe]

end Unaware

/-!
## The merge of a conflict
-/

/-- The request that merges the two heads on top of the current head. -/
structure IsMerge (request : PrivateRevisionRequest)
    (row : WorkspaceConflictRow) (workspace : WorkspaceRow) : Prop where
  operation : request.operationId.asUuid = row.conflictId
  resource : request.resourceId = row.resourceId
  parents : request.parentRevisionIds =
    [row.headARevisionId, row.headBRevisionId]
  head : request.expectedHeadRevisionId = workspace.revisionId
  generation : request.expectedGeneration.toNat = workspace.generation.value
  plain : request.forkSync = none ∧ request.historicalSkillName = none

/-- The checks of a request that only read the request and the directory. -/
structure WellFormedSave (registry : Registry) (directory : Directory)
    (user : Uuid) (request : PrivateRevisionRequest) : Prop where
  hash : registry.hashes.privateRevision
    request.toPrivateRevisionRequestHashInput = .ok request.requestHash
  manifest : exists trees,
    validateDeclaredSkillManifest registry.ext request.manifest = .ok trees
  blobs : exists blobs, manifestBlobs request.manifest = .ok blobs ∧
    forall blob, blob ∈ blobs ->
      blob.2 ≤ registry.limits.maxObjectBytes ∧ blob.2 < 2 ^ 63
  author : exists authority author,
    directory.userAuthority user = .ok authority ∧
      directory.revisionAuthorForUser authority
        request.revisionAuthorPrincipalId = .ok author

section Merge

variable {registry : Registry} {db : Db} {row : WorkspaceConflictRow}
  {workspace : WorkspaceRow} {request : PrivateRevisionRequest}

theorem sortByKey_heads (h : db.ConflictSound row) :
    sortByKey RevisionId.key [row.headARevisionId, row.headBRevisionId] =
      [row.headARevisionId, row.headBRevisionId] :=
  sortByKey_eq_self (List.pairwise_pair.mpr h.ordered)

theorem parseRevisionParents_heads (h : db.ConflictSound row) :
    parseRevisionParents [row.headARevisionId, row.headBRevisionId] =
      .ok () := by
  unfold parseRevisionParents
  rw [sortByKey_heads h]
  simp [ensure, h.distinct, bind, Except.bind]

theorem revisionNew_heads (h : db.ConflictSound row) (root : TreeId)
    (author : AuthorPrincipalId) (operation : OperationId) :
    exists revision, Revision.new root
      [row.headARevisionId, row.headBRevisionId] author operation =
        .ok revision := by
  unfold Revision.new
  have hlength : ¬ [row.headARevisionId, row.headBRevisionId].length > 2 := by
    simp
  have hdistinct : ¬ ((sortByKey RevisionId.key
      [row.headARevisionId, row.headBRevisionId]).zip (sortByKey
        RevisionId.key [row.headARevisionId, row.headBRevisionId]).tail).any
          (fun pair => pair.1 == pair.2) = true := by
    rw [sortByKey_heads h]
    simp [h.distinct]
  simp only [dif_neg hlength, dif_neg hdistinct]
  exact ⟨_, rfl⟩

theorem validateMerge (h : db.ConflictSound row)
    (hworkspace : workspace.revisionId = row.headARevisionId ∨
      workspace.revisionId = row.headBRevisionId)
    (hmerge : IsMerge request row workspace) {directory : Directory}
    {user : Uuid} (hvalid : WellFormedSave registry directory user request) :
    exists blobs,
      registry.validatePrivateRevisionRequest request = .ok blobs ∧
        forall blob, blob ∈ blobs -> blob.2 < 2 ^ 63 := by
  rcases hvalid.manifest with ⟨trees, htrees⟩
  rcases hvalid.blobs with ⟨blobs, hblobs, hsizes⟩
  refine ⟨blobs, ?_, fun blob hblob => (hsizes blob hblob).2⟩
  refine bind_eq_ok.mpr ⟨(), ?_, ?_⟩
  · rw [hmerge.parents]
    exact parseRevisionParents_heads h
  refine bind_eq_ok.mpr ⟨(), ?_, ?_⟩
  · simp [parseForkSyncIntent, hmerge.plain.1]
  refine bind_eq_ok.mpr ⟨(), ?_, ?_⟩
  · rw [hmerge.plain.2]
    rfl
  refine bind_eq_ok.mpr ⟨(), ?_, ?_⟩
  · rw [ensure_eq_ok, decide_eq_true_eq, hmerge.parents, hmerge.head]
    simpa using hworkspace
  refine bind_eq_ok.mpr ⟨(), checkRequestHash_eq_ok.mpr hvalid.hash, ?_⟩
  refine bind_eq_ok.mpr ⟨trees, mapError_eq_ok.mpr htrees, ?_⟩
  refine bind_eq_ok.mpr ⟨blobs, hblobs, ?_⟩
  refine bind_eq_ok.mpr ⟨(), ?_, rfl⟩
  rw [ensure_eq_ok, List.all_eq_true]
  intro blob hblob
  simpa using (hsizes blob hblob).1

theorem checkPreparedHead_merge (hone : Db.OneConflict db.conflicts)
    (hrow : row ∈ db.conflicts) (hopen : row.resolutionRevisionId = none)
    {authority : UserAuthority} (huser : authority.userId = row.workspaceUserId)
    (hmerge : IsMerge request row workspace) :
    db.checkPreparedHead authority request workspace
      workspace.generation.value = .ok () := by
  have hunresolved : Db.unresolvedFor request.resourceId authority.userId
      row = true :=
    Db.unresolvedFor_eq_true.mpr
      ⟨hmerge.resource.symm, huser.symm, hopen⟩
  have hactive := Db.activeConflict_of_mem hone hrow hunresolved
  have hvalid : db.validateMergeConflict row.conflictId request.resourceId
      authority.userId request.parentRevisionIds = .ok () := by
    rw [hmerge.parents]
    refine bind_eq_ok.mpr ⟨(), by simp, ?_⟩
    refine bind_eq_ok.mpr ⟨row, ?_, by simp⟩
    rw [okOr_eq_ok]
    cases hfind : db.conflicts.find? fun other =>
        decide (other.conflictId = row.conflictId) &&
          Db.unresolvedFor request.resourceId authority.userId other with
    | none =>
        have habsent := List.find?_eq_none.mp hfind row hrow
        simp [hunresolved] at habsent
    | some other =>
        have hkeys := List.find?_some hfind
        simp only [Bool.and_eq_true] at hkeys
        rw [hone.eq (List.mem_of_find?_eq_some hfind) hrow hkeys.2
          hunresolved]
  unfold Db.checkPreparedHead
  rw [hactive]
  refine bind_eq_ok.mpr ⟨(), by simp [hmerge.plain.1], ?_⟩
  refine bind_eq_ok.mpr ⟨(), ?_, ?_⟩
  · simp [hmerge.parents, hmerge.operation]
  refine bind_eq_ok.mpr ⟨(), by simp [hmerge.head], hvalid⟩

theorem stageMissing_ok (db : Db) (namespaceId : Uuid)
    (operationId : OperationId) (fresh : BlobId -> Uuid) {blobs : Blobs} (tooLarge : String)
    (hsizes : forall blob, blob ∈ blobs -> blob.2 < 2 ^ 63) :
    exists staging, stageMissing db namespaceId operationId fresh blobs
      tooLarge = .ok staging := by
  refine ⟨_, mapM_ok_of_forall (g := fun blob =>
    { blobId := blob.1
      sizeBytes := blob.2
      stagingKey := stagingKey operationId (fresh blob.1) blob.1 }) ?_⟩
  intro blob hblob
  have hsize := hsizes blob (List.mem_of_mem_filter hblob)
  exact bind_eq_ok.mpr ⟨(), ensure_eq_ok.mpr (decide_eq_true hsize), rfl⟩

theorem storePrivateRevision_merge (h : db.ConflictsSound)
    (hrow : row ∈ db.conflicts) (hopen : row.resolutionRevisionId = none)
    (hworkspace : db.workspace row.resourceId row.workspaceUserId =
      some workspace)
    (hmerge : IsMerge request row workspace) {authority : UserAuthority}
    {target : NamespacePublishAuthority} {resource : ResourceRow}
    (huser : authority.userId = row.workspaceUserId)
    (htarget : db.authorizeResourcePublish authority row.resourceId =
      .ok target)
    (hresource : db.findResource row.resourceId = some resource)
    (hkind : resource.kind = .skill) (fresh : BlobId -> Uuid) {blobs : Blobs}
    (hsizes : forall blob, blob ∈ blobs -> blob.2 < 2 ^ 63)
    (author : AuthorPrincipalId) (revisionId : RevisionId) :
    exists result, Registry.storePrivateRevision fresh authority request
      blobs author revisionId db = .ok result := by
  rcases Db.authorizeResourcePublish_eq_ok htarget with
    ⟨found, owner, hfound, hlive, _, _, hspace, _⟩
  rw [hresource] at hfound
  cases hfound
  have hensured : db.ensurePrivateWorkspaceForUser row.resourceId
      row.workspaceUserId = db := by
    rcases Db.ensurePrivateWorkspaceForUser_cases db row.resourceId
      row.workspaceUserId with hsame | ⟨_, _, _, hnone, _⟩
    · exact hsame
    · rw [hworkspace] at hnone
      cases hnone
  have hgeneration := workspace.generation.bounded
  have hpositive := workspace.generation.positive
  rcases stageMissing_ok db target.namespaceId request.operationId
    fresh "object exceeds database range" hsizes with ⟨staging, hstaging⟩
  have hpublish : db.authorizeResourcePublish authority request.resourceId =
      .ok target := by
    rw [hmerge.resource]
    exact htarget
  refine exists_bind_eq_ok hpublish ?_
  rw [hmerge.resource, huser, hensured, ite_self]
  have hcurrent : db.currentWorkspace row.resourceId row.workspaceUserId
      "private skill not found" = .ok (resource, workspace) := by
    refine bind_eq_ok.mpr ⟨resource, ?_, ?_⟩
    · rw [okOr_eq_ok, hresource]
      simp [hkind, hlive]
    · exact bind_eq_ok.mpr ⟨workspace, okOr_eq_ok.mpr hworkspace, rfl⟩
  refine exists_bind_eq_ok hcurrent ?_
  refine exists_bind_eq_ok (a := ()) (by simp [hspace]) ?_
  refine exists_bind_eq_ok (a := ()) (by rw [hmerge.plain.2]; rfl) ?_
  have hexpected : i64TryFrom request.expectedGeneration
      (ApiError.new .invalidRequest "generation exceeds database range") =
        .ok workspace.generation.value := by
    rw [i64TryFrom_eq_ok, hmerge.generation]
    exact ⟨hgeneration, rfl⟩
  refine exists_bind_eq_ok hexpected ?_
  refine exists_bind_eq_ok
    (checkPreparedHead_merge h.one hrow hopen huser hmerge) ?_
  have hcolumn : storedGeneration workspace.generation.value =
      .ok workspace.generation := by
    unfold storedGeneration
    rw [dif_pos ⟨hpositive, hgeneration⟩]
  refine exists_bind_eq_ok hcolumn ?_
  exact exists_bind_eq_ok hstaging ⟨_, rfl⟩

/-- The head of an unresolved conflict can be merged: the registry refuses the
merge only if its identifier is recorded with another request. -/
theorem prepare_merge_iff (h : db.ConflictsSound) (hrow : row ∈ db.conflicts)
    (hopen : row.resolutionRevisionId = none)
    (hworkspace : db.workspace row.resourceId row.workspaceUserId =
      some workspace)
    (hmerge : IsMerge request row workspace)
    (hvalid : WellFormedSave registry db.directory row.workspaceUserId request)
    (fresh : BlobId -> Uuid) :
    (exists answer db', registry.preparePrivateRevision fresh
      row.workspaceUserId request db = .ok (answer, db')) <->
      forall existing, db.findRevisionOperation row.workspaceUserId
          request.operationId = some existing ->
        existing.requestHash = request.requestHash := by
  have hsound := h.sound row hrow hopen
  rcases hsound.head with ⟨current, hcurrent, hhead⟩
  rw [hworkspace] at hcurrent
  cases hcurrent
  rcases hsound.publisher with
    ⟨authority, target, resource, hauthority, htarget, hresource, hkind⟩
  rcases hvalid.author with ⟨same, author, hsame, hauthor⟩
  rw [hauthority] at hsame
  cases hsame
  rcases Directory.userAuthority_eq_ok hauthority with ⟨_, _, _, huser, _⟩
  rcases validateMerge hsound hhead hmerge hvalid with
    ⟨blobs, hblobs, hsizes⟩
  rcases revisionNew_heads hsound request.manifest.rootTree author
    request.operationId with ⟨revision, hrevision⟩
  have hstore := storePrivateRevision_merge h hrow hopen hworkspace hmerge
    huser htarget hresource hkind fresh hsizes author
    (revision.id registry.ext)
  constructor
  · rintro ⟨answer, db', hprepare⟩ existing hexisting
    rcases bind_eq_ok.mp hprepare with ⟨found, hfound, hprepare⟩
    rcases bind_eq_ok.mp hprepare with ⟨_, _, hprepare⟩
    rcases bind_eq_ok.mp hprepare with ⟨_, _, hprepare⟩
    rcases bind_eq_ok.mp hprepare with ⟨_, _, hprepare⟩
    rcases Directory.userAuthority_eq_ok hfound with ⟨_, _, _, hid, _⟩
    rw [hid, hexisting] at hprepare
    rcases bind_eq_ok.mp hprepare with ⟨_, hhash, _⟩
    exact beq_iff_eq.mp (ensure_eq_ok.mp hhash)
  · intro hhash
    have hnew : (Revision.new request.manifest.rootTree
        request.parentRevisionIds author request.operationId).mapError
          (fun source => ({ code := .invalidRequest
                            message := .revision source } : ApiError)) =
            .ok revision := by
      rw [mapError_eq_ok, hmerge.parents]
      exact hrevision
    have hprepare : exists result, registry.preparePrivateRevision fresh
        row.workspaceUserId request db = .ok result := by
      refine exists_bind_eq_ok hauthority ?_
      refine exists_bind_eq_ok hblobs ?_
      refine exists_bind_eq_ok hauthor ?_
      refine exists_bind_eq_ok hnew ?_
      rw [huser]
      split
      · rename_i existing hexisting
        exact exists_bind_eq_ok (a := ()) (ensure_eq_ok.mpr
          (beq_iff_eq.mpr (hhash existing hexisting))) ⟨_, rfl⟩
      · exact hstore
    rcases hprepare with ⟨⟨answer, db'⟩, hprepare⟩
    exact ⟨answer, db', hprepare⟩

end Merge

end Denju
