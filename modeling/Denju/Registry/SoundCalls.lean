import Denju.Registry.SoundRegistry

/-!
# Calls on skills in a sound registry

Every call of the service leaves a sound registry sound.  A save, a restore, an
acceptance and a rename archive the revision that the head moves to, and a
publication releases an archived head.
-/

namespace Denju

open Lib

namespace Db

variable {db db' : Db} {authority : UserAuthority} {id user : Uuid}

/-!
## Who has a workspace
-/

/-- Who may publish to a skill may have a workspace on it. -/
theorem admits_of_target {target : NamespacePublishAuthority}
    (htarget : db.authorizeResourcePublish authority id = .ok target)
    (hadmits : db.directory.Admits authority.namespaceId authority.userId)
    {row : ResourceRow} (hrow : db.findResource id = some row) :
    db.directory.Admits row.ownerNamespaceId authority.userId := by
  rcases authorizeResourcePublish_eq_ok htarget with
    ⟨found, space, hfound, _, _, hspace, _, hcases⟩
  rw [hrow] at hfound
  cases hfound
  have howner := Directory.namespaceById_eq_some hspace
  rcases hcases with ⟨_, _, hpersonal⟩ | ⟨_, hteam, _⟩
  · rw [hpersonal]
    exact hadmits
  · rw [← howner.2]
    exact Directory.admits_of_team howner.1 hteam _

/-- The workspace that a user gets is at an archived release. -/
theorem ensurePrivateWorkspaceForUser_archived (h : WorkspacesSound db)
    (id user : Uuid) :
    db.ensurePrivateWorkspaceForUser id user = db ∨
      exists row, row.resourceId = id ∧ row.workspaceUserId = user ∧
        db.workspace id user = none ∧ db.Archived id row.revisionId ∧
          (db.findResource id).isSome = true ∧
            db.ensurePrivateWorkspaceForUser id user =
              { db with workspaces := db.workspaces ++ [row] } := by
  unfold ensurePrivateWorkspaceForUser
  split
  · rename_i resource hnone hresource
    split
    · split
      · exact .inl rfl
      · rename_i release hrelease
        split
        · exact .inl rfl
        · rename_i snapshot hsnapshot
          refine .inr ⟨_, rfl, rfl, hnone, ?_, by rw [hresource]; rfl, rfl⟩
          constructor
          · exact findSnapshot_isSome.mp (by rw [hsnapshot]; rfl)
          · exact h.released release (List.mem_of_find?_eq_some hrelease)
    · exact .inl rfl
  · exact .inl rfl

theorem RegistrySound.ensured (h : RegistrySound db)
    (hadmits : forall row, db.findResource id = some row ->
      db.directory.Admits row.ownerNamespaceId user) :
    RegistrySound (db.ensurePrivateWorkspaceForUser id user) := by
  rcases ensurePrivateWorkspaceForUser_archived h.workspaces id user with
    hsame | ⟨row, hid, huser, hnone, harchived, hfound, hinserted⟩
  · rw [hsame]
    exact h
  · rw [hinserted]
    rcases Option.isSome_iff_exists.mp hfound with ⟨resource, hresource⟩
    constructor
    · have hkeeps : KeepsContent db
          { db with workspaces := db.workspaces ++ [row] } := by
        constructor
        · rfl
        · exact fun _ _ hrelease => hrelease
        · exact fun _ _ hworkspace => workspaces_insert rfl hworkspace
      exact (KeepsCatalog.ofContent hkeeps rfl rfl rfl).sound h.catalog
    · refine h.workspaces.insert
        (.ofTables rfl rfl rfl (.ofSame rfl rfl)) rfl ?_ ?_ ?_
      · rw [hid, huser]
        exact hnone
      · rw [hid]
        exact ⟨harchived.kept, harchived.stored⟩
      · rw [hid, huser]
        exact ⟨resource, hresource, hadmits resource hresource⟩

/-- A publisher who has no workspace may get one first. -/
theorem RegistrySound.start {start : Db} {target : NamespacePublishAuthority}
    (h : RegistrySound db)
    (htarget : db.authorizeResourcePublish authority id = .ok target)
    (hadmits : db.directory.Admits authority.namespaceId authority.userId)
    (hstart : start = db ∨
      start = db.ensurePrivateWorkspaceForUser id authority.userId) :
    RegistrySound start := by
  rcases hstart with rfl | rfl
  · exact h
  · exact h.ensured fun _ hrow => admits_of_target htarget hadmits hrow

/-!
## Reading the head
-/

/-- A publisher reads the head of the own workspace. -/
theorem canReadRevision_of_archived {target : NamespacePublishAuthority}
    {userId : Uuid} {workspace : WorkspaceRow} {revision : RevisionId}
    (hauthority : db.directory.userAuthority userId = .ok authority)
    (htarget : db.authorizeResourcePublish authority id = .ok target)
    (hworkspace : db.workspace id authority.userId = some workspace)
    (hhead : workspace.revisionId = revision)
    (harchived : db.Archived id revision) :
    db.canReadRevision authority.userId revision = true := by
  rcases authorizeResourcePublish_eq_ok htarget with
    ⟨row, space, hrow, hlive, hfree, hspace, _, hcases⟩
  rcases Directory.userAuthority_eq_ok hauthority with
    ⟨owner, howner, hid, huser, hplace, _⟩
  rcases harchived.kept with ⟨snapshot, hsnapshot, hresource, hrevision⟩
  have hkind : db.ownerKind row = some space.kind := by
    unfold ownerKind
    rw [hspace, Option.map_some]
  unfold canReadRevision
  rw [Bool.or_eq_true]
  left
  rw [List.any_eq_true]
  refine ⟨snapshot, hsnapshot, ?_⟩
  rw [hrevision, hresource, decide_eq_true rfl, Bool.true_and]
  unfold canReadRevisionSnapshot
  rw [hrow, Option.any_some, hlive, hfree, hkind]
  rcases hcases with ⟨_, hpersonal, hown⟩ | ⟨_, hteam, _⟩
  · have haccess : db.directory.hasNamespaceAccess authority.userId
        row.ownerNamespaceId = true := by
      unfold Directory.hasNamespaceAccess Directory.ownsNamespace
      rw [Bool.or_eq_true]
      left
      rw [List.any_eq_true]
      exact ⟨owner, howner, by simp [hid, huser, hown, hplace]⟩
    simp [hpersonal, haccess]
  · have hmem : revision ∈ db.workspaceAncestry db.edges id
        authority.userId := by
      unfold workspaceAncestry
      rw [hworkspace]
      rw [← hhead]
      exact mem_ancestry.mpr (.refl _)
    simp [hteam, hmem]

theorem findRelease_append {row : ReleaseRow}
    (hreleases : db'.releases = db.releases ++ [row]) :
    (db'.findRelease row.resourceId row.version).isSome = true := by
  unfold findRelease
  rw [hreleases, List.find?_isSome]
  exact ⟨row, List.mem_append_right _ (List.mem_singleton_self row), by simp⟩

end Db

namespace Registry

variable {registry : Registry} {db db' : Db} {userId : Uuid}

open Db

/-!
## Publishing
-/

theorem publishSkill_sound {newConflictId : Uuid}
    {request : PublishSkillRequest}
    {answer : Except ApiError PublishSkillResponse} (h : RegistrySound db)
    (hpublished : registry.publishSkill newConflictId userId request db =
      .ok (answer, db')) : RegistrySound db' := by
  rcases publishSkill_eq_ok hpublished with
    rfl | ⟨context, hauthority, hfound, hw⟩
  · exact h
  · cases hw with
    | kept hdb' =>
        rw [hdb']
        exact h
    | raised _ _ _ _ hdb' _ =>
        rw [hdb']
        exact h.same ⟨rfl, rfl, rfl, rfl, rfl, .refl _, .refl _⟩ rfl
    | madePublic generation operations hlatest hdb' =>
        rw [hdb']
        refine h.update ⟨rfl, rfl, rfl, rfl, rfl, .refl _, .refl _⟩ rfl
          (fun _ => rfl) (fun _ => rfl) (fun _ _ _ hadmits => hadmits) ?_
        intro row hrow _ hsound
        rw [hfound.resource] at hrow
        cases hrow
        refine ⟨?_, fun hsome => hsome⟩
        exact {
          latest := hsound.latest
          tombstone := hsound.tombstone
          published := fun _ _ => hlatest
          worked := hsound.worked
          owned := hsound.owned
          signed := hsound.signed }
    | released version generation releases operations _ hreleased hdb' =>
        rcases hfound.target with ⟨target, htarget, _⟩
        have hworkspace := List.mem_of_find?_eq_some hfound.workspace
        have hkeys := List.find?_some hfound.workspace
        simp only [decide_eq_true_eq] at hkeys
        have harchived := h.workspaces.archived _ hworkspace
        rw [hkeys.1] at harchived
        rcases hreleased with ⟨row, hreleases, hid, hversion, hhead, _⟩ |
          ⟨_, hunread⟩
        · subst hreleases
          have hreleases : db'.releases = db.releases ++ [row] := by
            rw [hdb']
            rfl
          have hkeeps : KeepsContent db db' := by
            constructor
            · rw [hdb']
              rfl
            · exact fun _ _ hold => releases_append hreleases hold
            · rw [hdb']
              exact fun _ _ hold => hold
          have hnew := findRelease_append hreleases
          rw [hid, hversion] at hnew
          subst hdb'
          constructor
          · refine h.catalog.changeRow hkeeps rfl (fun _ => rfl)
              (fun _ => rfl) ?_ (.refl _) (.refl _)
            intro found hrow _ hsound
            have hkept := hsound.keep hkeeps rfl rfl
            refine ⟨?_, fun _ => rfl⟩
            exact {
              latest := fun _ hlatest => by
                cases hlatest
                rw [(mem_of_findResource_eq_some hrow).2]
                exact hnew
              tombstone := hkept.tombstone
              published := fun _ _ => rfl
              worked := hkept.worked
              owned := hkept.owned
              signed := hkept.signed }
          · refine h.workspaces.keep ?_ rfl
            constructor
            · exact fun _ _ hold => ⟨hold.kept, hold.stored⟩
            · intro other hother
              rcases List.mem_append.mp hother with hold | hlast
              · exact .inl hold
              · rw [List.mem_singleton.mp hlast, hhead]
                exact .inr harchived.stored
            · exact fun _ hold => hold
            · exact .ofUpdate rfl rfl (fun _ => rfl)
                fun _ _ _ hadmits => hadmits
        · rcases Option.isSome_iff_exists.mp harchived.stored with
            ⟨row, hrow⟩
          have hread := canReadRevision_of_archived hauthority htarget
            hfound.workspace rfl harchived
          rw [hunread row hrow] at hread
          cases hread

/-!
## Moving a head
-/

/-- A revision of a skill is archived, and the head of a workspace may move to
it.  Of the resource only the metadata and the generation may change. -/
structure Saves (item user : Uuid) (revision : RevisionId) (db db' : Db) :
    Prop where
  directory : db'.directory = db.directory
  subscriptions : db'.subscriptions = db.subscriptions
  devices : db'.installationSubscriptions = db.installationSubscriptions
  releases : db'.releases = db.releases
  revisions : Db.StoresRevision revision db.revisions db'.revisions
  retains : forall id head, Db.Retains db'.snapshots id head <->
    Db.Retains db.snapshots id head ∨ (id = item ∧ head = revision)
  resources : db'.resources = db.resources ∨
    exists generation metadata, db'.resources =
      (db.setResourceMetadata item generation metadata).resources
  workspaces : db'.workspaces = db.workspaces ∨
    exists generation content, db'.workspaces =
      (db.setWorkspace item user revision generation content).workspaces

namespace Saves

variable {item user : Uuid} {revision : RevisionId}

theorem keepsCatalog (hw : Saves item user revision db db') :
    KeepsCatalog db db' := by
  have hkeeps : KeepsContent db db' := by
    constructor
    · exact hw.directory
    · unfold findRelease
      rw [hw.releases]
      exact fun _ _ hfound => hfound
    · intro id other hfound
      rcases hw.workspaces with hsame | ⟨generation, content, hmoved⟩
      · unfold workspace at hfound ⊢
        rw [hsame]
        exact hfound
      · exact workspaces_update hmoved (fun _ => ⟨rfl, rfl⟩) hfound
  rcases hw.resources with hsame | ⟨generation, metadata, hset⟩
  · exact .ofContent hkeeps hw.subscriptions hw.devices hsame
  · exact .ofRow hkeeps hw.subscriptions hw.devices hset (fun _ => rfl)
      fun _ => rfl

theorem sound (hw : Saves item user revision db db')
    (h : RegistrySound db) : RegistrySound db' where
  catalog := hw.keepsCatalog.sound h.catalog
  workspaces := by
    have hstored : KeepsArchives db db' ∧ db'.Archived item revision := by
      apply KeepsArchives.ofStored hw.revisions
      · exact fun id head hold => (hw.retains id head).mpr (.inl hold)
      · exact (hw.retains item revision).mpr (.inr ⟨rfl, rfl⟩)
      · intro row hrow
        rw [hw.releases] at hrow
        exact .inl hrow
      · exact hw.keepsCatalog.owners
    rcases hw.workspaces with hsame | ⟨generation, content, hmoved⟩
    · exact h.workspaces.keep hstored.1 hsame
    · refine h.workspaces.move hstored.1 hmoved (fun _ => ⟨rfl, rfl⟩) ?_
      intro row _ hmatches
      simp only [decide_eq_true_eq] at hmatches
      rw [hmatches.1]
      exact hstored.2

end Saves

theorem moveWorkspace_saves {newConflictId : Uuid}
    {plan : PendingCommit registry.ext} {forkSync : Option ValidatedForkSync}
    {isTeam : Bool} {resource : ResourceRow} {workspace : WorkspaceRow}
    {effect : CommitEffect} {author : AuthorPrincipalId} {stored : Db}
    (hnone : workspace.revisionId ≠ plan.operation.expectedHeadRevisionId ->
      stored.activeConflict plan.operation.resourceId plan.authority.userId =
        none)
    (hstored : storeCommit plan author db = .ok stored)
    (hmoved : moveWorkspace newConflictId plan forkSync isTeam resource
      workspace stored = .ok effect) :
    Saves plan.operation.resourceId plan.authority.userId
      plan.operation.revisionId db effect.db := by
  have hrevisions := (storeCommit_stored hstored).revisions
  rcases storeCommit_eq_ok hstored with
    ⟨_, _, _, _, _, _, _, _, rfl, hretains⟩
  unfold moveWorkspace at hmoved
  split at hmoved
  · rcases advanceWorkspace_eq_ok hmoved with
      ⟨generation, _, _, _, resourceGeneration, forks, htables⟩
    rw [htables]
    refine ⟨rfl, rfl, rfl, rfl, hrevisions, hretains, ?_,
      .inr ⟨generation, plan.content, rfl⟩⟩
    cases isTeam with
    | false => exact .inr ⟨resourceGeneration, plan.content.metadata, rfl⟩
    | true => exact .inl rfl
  · rename_i hstale
    rcases (divergeWorkspace_eq_ok hmoved (hnone hstale)).tables with
      ⟨row, htables, _⟩
    rw [htables]
    exact ⟨rfl, rfl, rfl, rfl, hrevisions, hretains, .inl rfl, .inl rfl⟩

theorem writePreparedRevision_saves {newConflictId : Uuid}
    {plan : PendingCommit registry.ext} {locked : RevisionOperationRow}
    {isTeam : Bool} {resource : ResourceRow} {workspace : WorkspaceRow}
    {outcome : PrivateRevisionCommitResponse}
    (h : writePreparedRevision newConflictId plan locked isTeam resource
      workspace db = .ok (outcome, db')) :
    Saves plan.operation.resourceId plan.authority.userId
      plan.operation.revisionId db db' := by
  rcases bind_eq_ok.mp h with ⟨_, _, h⟩
  rcases bind_eq_ok.mp h with ⟨_, hhead, h⟩
  rcases bind_eq_ok.mp h with ⟨stored, hstored, h⟩
  rcases bind_eq_ok.mp h with ⟨effect, heffect, h⟩
  cases h
  have hnone : workspace.revisionId ≠ plan.operation.expectedHeadRevisionId ->
      stored.activeConflict plan.operation.resourceId plan.authority.userId =
        none := by
    intro hstale
    rcases storeCommit_eq_ok hstored with
      ⟨_, _, _, _, _, _, _, _, rfl, _⟩
    cases Db.checkCommitHead_eq_ok hhead with
    | advance hmatches _ _ _ => exact absurd hmatches hstale
    | merge _ hmatches _ _ _ _ _ _ => exact absurd hmatches hstale
    | diverge _ hnone _ _ => exact hnone
  have hmoved := moveWorkspace_saves hnone hstored heffect
  cases isTeam with
  | false =>
      exact ⟨hmoved.directory, hmoved.subscriptions, hmoved.devices,
        hmoved.releases, hmoved.revisions, hmoved.retains, hmoved.resources,
        hmoved.workspaces⟩
  | true =>
      exact ⟨hmoved.directory, hmoved.subscriptions, hmoved.devices,
        hmoved.releases, hmoved.revisions, hmoved.retains, hmoved.resources,
        hmoved.workspaces⟩

theorem writePrivateRevision_sound {newConflictId : Uuid}
    {plan : PendingCommit registry.ext}
    {outcome : PrivateRevisionCommitResponse} (h : RegistrySound db)
    (hsaved : writePrivateRevision newConflictId plan db =
      .ok (outcome, db')) : RegistrySound db' := by
  rcases bind_eq_ok.mp hsaved with ⟨target, _, hsaved⟩
  rcases bind_eq_ok.mp hsaved with ⟨_, _, hsaved⟩
  rcases bind_eq_ok.mp hsaved with ⟨⟨resource, workspace⟩, _, hsaved⟩
  rcases bind_eq_ok.mp hsaved with ⟨_, _, hsaved⟩
  rcases bind_eq_ok.mp hsaved with ⟨locked, _, hsaved⟩
  rcases bind_eq_ok.mp hsaved with ⟨_, _, hsaved⟩
  split at hsaved
  · exact (writePreparedRevision_saves hsaved).sound h
  · rcases bind_eq_ok.mp hsaved with ⟨stored, _, hsaved⟩
    cases hsaved
    exact h

theorem retains_insert {rows : List SnapshotRow} {row : SnapshotRow}
    (id : Uuid) (head : RevisionId) :
    Db.Retains (rows ++ [row]) id head <->
      Db.Retains rows id head ∨
        (id = row.resourceId ∧ head = row.revisionId) := by
  unfold Db.Retains
  constructor
  · rintro ⟨other, hother, hid, hhead⟩
    rcases List.mem_append.mp hother with hold | hnew
    · exact .inl ⟨other, hold, hid, hhead⟩
    · rw [List.mem_singleton.mp hnew] at hid hhead
      exact .inr ⟨hid.symm, hhead.symm⟩
  · rintro (⟨other, hold, hid, hhead⟩ | ⟨hid, hhead⟩)
    · exact ⟨other, List.mem_append_left _ hold, hid, hhead⟩
    · exact ⟨row, List.mem_append_right _ (List.mem_singleton_self row),
        hid.symm, hhead.symm⟩

theorem writeRestore_sound {plan : PendingRestore}
    {outcome : PrivateRevisionResponse} (h : RegistrySound db)
    (hadmits : db.directory.Admits plan.authority.namespaceId
      plan.authority.userId)
    (hrestored : registry.writeRestore plan db = .ok (outcome, db')) :
    RegistrySound db' := by
  rcases writeRestore_eq_ok hrestored with
    ⟨target, start, _, workspace, revision, htarget, hstart, _, hw⟩
  have hsound := h.start htarget hadmits hstart
  rcases hw.tables with
    ⟨stored, generation, resourceGeneration, _, _, _, hstored, hdb'⟩
  rcases storeRestored_stored hstored with ⟨_, hkept⟩
  rcases storeRestored_frame hstored with ⟨_, _, _, _, _, hframe⟩
  have hrevisions := hkept.revisions
  have hsaves : Saves plan.request.resourceId plan.authority.userId
      (revision.id registry.ext) start db' := by
    rw [hframe] at hrevisions hdb'
    rw [hdb']
    refine ⟨rfl, rfl, rfl, rfl, hrevisions, retains_insert, ?_,
      .inr ⟨generation, plan.content, rfl⟩⟩
    cases target.isTeam with
    | false => exact .inr ⟨resourceGeneration, plan.content.metadata, rfl⟩
    | true => exact .inl rfl
  exact hsaves.sound hsound

theorem proposalQuery_sourceWorkspace {user proposalId : Uuid}
    {view : ProposalView} (h : db.proposalQuery user proposalId = .ok view) :
    view.sourceWorkspace ∈ db.workspaces := by
  rcases bind_eq_ok.mp h with ⟨proposal, _, h⟩
  rcases bind_eq_ok.mp h with ⟨proposer, _, h⟩
  rcases bind_eq_ok.mp h with ⟨_, _, h⟩
  rcases bind_eq_ok.mp h with ⟨source, _, h⟩
  rcases bind_eq_ok.mp h with ⟨_, _, h⟩
  rcases bind_eq_ok.mp h with ⟨workspace, hworkspace, h⟩
  rcases bind_eq_ok.mp h with ⟨_, _, h⟩
  rcases bind_eq_ok.mp h with ⟨_, _, h⟩
  rcases bind_eq_ok.mp h with ⟨_, _, h⟩
  cases h
  have hfound := (Option.filter_eq_some_iff.mp (okOr_eq_ok.mp hworkspace)).1
  exact List.mem_of_find?_eq_some hfound

theorem checkAcceptance_proposed {authority : UserAuthority}
    {request : ProposalAcceptRequest} {view : ProposalView}
    {workspace : WorkspaceRow}
    (h : checkAcceptance authority request view db = .ok workspace) :
    view.sourceWorkspace.revisionId = request.expectedProposedRevisionId := by
  rcases bind_eq_ok.mp h with ⟨_, _, h⟩
  rcases bind_eq_ok.mp h with ⟨_, _, h⟩
  rcases bind_eq_ok.mp h with ⟨_, _, h⟩
  rcases bind_eq_ok.mp h with ⟨_, _, h⟩
  rcases bind_eq_ok.mp h with ⟨_, hproposed, _⟩
  simp only [ensure_eq_ok, Bool.and_eq_true, beq_iff_eq] at hproposed
  exact hproposed.2

theorem acceptWritten_saves {authority : UserAuthority}
    {request : ProposalAcceptRequest} {isTeam : Bool} {view : ProposalView}
    (hstored : (db.findRevision
      request.expectedProposedRevisionId).isSome = true)
    (hw : AcceptWritten registry authority request isTeam view db db') :
    Saves view.target.id authority.userId request.expectedProposedRevisionId
      db db' := by
  rcases hw.tables with
    ⟨attached, generation, resourceGeneration, _, content, _, _, _,
      hattached, hdb'⟩
  have hrevisions : Db.StoresRevision request.expectedProposedRevisionId
      db.revisions db.revisions := by
    unfold findRevision at hstored
    rw [List.find?_isSome] at hstored
    rcases hstored with ⟨row, hrow, hid⟩
    exact ⟨fun _ hold => hold, ⟨row, hrow, by simpa using hid⟩,
      fun _ hold => .inl hold⟩
  have hresources : forall {start : Db}, start.resources = db.resources ->
      (if isTeam = true then start.resources
          else (start.setResourceMetadata view.target.id resourceGeneration
            content.metadata).resources) = db.resources ∨
        exists generation metadata,
          (if isTeam = true then start.resources
            else (start.setResourceMetadata view.target.id resourceGeneration
              content.metadata).resources) =
            (db.setResourceMetadata view.target.id generation
              metadata).resources := by
    intro start hsame
    cases isTeam with
    | false =>
        refine .inr ⟨resourceGeneration, content.metadata, ?_⟩
        rw [if_neg Bool.false_ne_true]
        unfold setResourceMetadata
        rw [hsame]
    | true => exact .inl hsame
  rcases attachProposalRevision_eq_ok hattached with
    ⟨rfl, hfound⟩ | ⟨source, blobs, hnew⟩
  · rw [hdb']
    refine ⟨rfl, rfl, rfl, rfl, hrevisions, ?_, hresources rfl,
      .inr ⟨generation, content, rfl⟩⟩
    intro id head
    constructor
    · exact .inl
    · rintro (hold | ⟨rfl, rfl⟩)
      · exact hold
      · exact findSnapshot_isSome.mp hfound
  · rcases hnew.tables with ⟨_, hattached⟩
    rw [hattached] at hdb'
    rw [hdb']
    exact ⟨rfl, rfl, rfl, rfl, hrevisions, retains_insert, hresources rfl,
      .inr ⟨generation, content, rfl⟩⟩

theorem acceptProposal_sound {request : ProposalAcceptRequest}
    {outcome : SkillProposal} (h : RegistrySound db)
    (haccepted : registry.acceptProposal userId request db =
      .ok (outcome, db')) : RegistrySound db' := by
  rcases acceptProposal_eq_ok haccepted with
    rfl | ⟨authority, view, target, start, _, hauthority, hview, htarget, _,
      hstart, hchecked, hw⟩
  · exact h
  · have harchived := h.workspaces.archived _
      (proposalQuery_sourceWorkspace hview)
    rw [checkAcceptance_proposed hchecked] at harchived
    have hsound := h.start htarget
      (Directory.admits_of_userAuthority hauthority) hstart
    have hrevisions : start.revisions = db.revisions := by
      rcases hstart with rfl | rfl
      · rfl
      · rcases ensurePrivateWorkspaceForUser_archived h.workspaces
            view.target.id authority.userId with
          hsame | ⟨_, _, _, _, _, _, hinserted⟩
        · rw [hsame]
        · rw [hinserted]
    refine (acceptWritten_saves ?_ hw).sound hsound
    unfold findRevision
    rw [hrevisions]
    exact harchived.stored

theorem preparePrivateRevision_sound {fresh : BlobId -> Uuid}
    {request : PrivateRevisionRequest}
    {answer : PrivateRevisionPrepareResponse} (h : RegistrySound db)
    (hprepared : registry.preparePrivateRevision fresh userId request db =
      .ok (answer, db')) : RegistrySound db' := by
  rcases preparePrivateRevision_eq_ok hprepared with
    ⟨authority, _, _, _, hauthority, _, _, _, rfl | ⟨_, hstore⟩⟩
  · exact h
  · rcases storePrivateRevision_eq_ok hstore with
      ⟨_, start, _, _, _, htarget, hstart, _, _, rfl⟩
    have hsound := h.start htarget
      (Directory.admits_of_userAuthority hauthority) hstart
    exact hsound.same ⟨rfl, rfl, rfl, rfl, rfl, .refl _, .refl _⟩ rfl

theorem preparePrivateSkillImport_sound {newResourceId : Uuid}
    {fresh : BlobId -> Uuid} {request : PrivateSkillImportRequest}
    {answer : PrivateSkillImportPrepareResponse} (h : RegistrySound db)
    (hprepared : registry.preparePrivateSkillImport newResourceId fresh userId
      request db = .ok (answer, db')) : RegistrySound db' := by
  rcases preparePrivateSkillImport_eq_ok hprepared with
    ⟨_, _, _, rfl | ⟨_, _, _, rfl⟩⟩
  · exact h
  · exact h.same ⟨rfl, rfl, rfl, rfl, rfl, .refl _, .refl _⟩ rfl

theorem createProposal_sound {proposalId : Uuid}
    {request : ProposalCreateRequest} {outcome : SkillProposal}
    (h : RegistrySound db)
    (hcreated : registry.createProposal proposalId userId request db =
      .ok (outcome, db')) : RegistrySound db' := by
  rcases createProposal_eq_ok hcreated with rfl | ⟨_, _, rfl, _⟩
  · exact h
  · exact h.same ⟨rfl, rfl, rfl, rfl, rfl, .refl _, .refl _⟩ rfl

/-!
## Importing
-/

theorem insertImportedFork_subscriptions {user resourceId : Uuid}
    {revision : RevisionId} {fork : Option ValidatedFork}
    (h : insertImportedFork user resourceId revision fork db = .ok db') :
    exists forks subscriptions, db' = { db with forks, subscriptions } ∧
      subscriptions.Sublist db.subscriptions := by
  unfold insertImportedFork at h
  split at h
  · cases h
    exact ⟨_, _, rfl, .refl _⟩
  · rcases bind_eq_ok.mp h with ⟨inserted, hinserted, h⟩
    rcases bind_eq_ok.mp hinserted with ⟨_, _, hinserted⟩
    rcases bind_eq_ok.mp hinserted with ⟨_, _, hinserted⟩
    cases hinserted
    split at h
    · cases h
      exact ⟨_, _, rfl, List.filter_sublist⟩
    · cases h
      exact ⟨_, _, rfl, .refl _⟩

/-- A new private skill without a release. -/
structure Unreleased (plan : PendingImport registry.ext) (row : ResourceRow) :
    Prop where
  id : row.id = plan.operation.resourceId
  owner : row.ownerNamespaceId = plan.operation.namespaceId
  visibility : row.visibility = .priv
  latest : row.latestReleaseVersion = none
  tombstone : row.tombstoneReleaseVersion = none
  live : row.deleted = false

theorem createImportedSkill_unreleased {plan : PendingImport registry.ext}
    {fork : Option ValidatedFork}
    (h : createImportedSkill plan fork db = .ok db') :
    (exists row, Unreleased plan row ∧
        db'.resources = db.resources ++ [row]) ∧
      db'.subscriptions.Sublist db.subscriptions ∧
        db'.installationSubscriptions = db.installationSubscriptions := by
  rcases bind_eq_ok.mp h with ⟨db₁, hresource, h⟩
  rcases bind_eq_ok.mp h with ⟨db₂, hfork, h⟩
  rcases bind_eq_ok.mp h with ⟨db₃, hworkspace, h⟩
  rcases bind_eq_ok.mp h with ⟨db₄, hsnapshot, h⟩
  rcases bind_eq_ok.mp hresource with ⟨_, _, hresource⟩
  rcases bind_eq_ok.mp hworkspace with ⟨_, _, hworkspace⟩
  rcases insertImportedFork_subscriptions hfork with
    ⟨forks, subscriptions, rfl, hfewer⟩
  rcases insertSnapshot_eq_ok hsnapshot with ⟨snapshots, rfl, _⟩
  have hdb' := firstReferences_eq h
  cases hresource
  cases hworkspace
  rw [hdb']
  exact ⟨⟨_, ⟨rfl, rfl, rfl, rfl, rfl, rfl⟩, rfl⟩, hfewer, rfl⟩

theorem writePrivateSkillImport_unreleased
    {plan : PendingImport registry.ext} {outcome : PrivateSkillImportResponse}
    (h : writePrivateSkillImport plan db = .ok (outcome, db')) :
    db' = db ∨
      (exists space, space ∈ db.directory.namespaces ∧
          space.id = plan.operation.namespaceId ∧
            (space.kind = .user ∧ space.id = plan.authority.namespaceId ∨
              space.kind = .team)) ∧
        (exists row, Unreleased plan row ∧
          db'.resources = db.resources ++ [row]) ∧
        db'.subscriptions.Sublist db.subscriptions ∧
          db'.installationSubscriptions = db.installationSubscriptions := by
  rcases bind_eq_ok.mp h with ⟨target, htarget, h⟩
  rcases bind_eq_ok.mp h with ⟨_, hnamespace, h⟩
  rcases bind_eq_ok.mp h with ⟨locked, _, h⟩
  rcases bind_eq_ok.mp h with ⟨_, _, h⟩
  split at h
  · rcases bind_eq_ok.mp h with ⟨_, _, h⟩
    cases h
    exact .inl rfl
  · rcases bind_eq_ok.mp h with ⟨provenance, _, h⟩
    rcases bind_eq_ok.mp h with ⟨_, _, h⟩
    rcases bind_eq_ok.mp h with ⟨stored, hstored, h⟩
    rcases bind_eq_ok.mp h with ⟨created, hcreated, h⟩
    cases h
    rcases storeImport_eq_ok hstored with ⟨_, _, _, _, _, rfl⟩
    have hrows := createImportedSkill_unreleased hcreated
    refine .inr ⟨?_, hrows⟩
    rcases Directory.found_of_authorizeNamespacePublish htarget with
      ⟨space, hfound, hspace, hid, _⟩
    have hslug : space.slug = plan.targetSlug := by
      simpa using List.find?_some hfound
    rw [← hslug] at htarget
    have hsame := beq_iff_eq.mp (ensure_eq_ok.mp hnamespace)
    refine ⟨space, hspace, hid.symm.trans hsame, ?_⟩
    rcases (Directory.authorizeNamespacePublish_eq_ok hspace htarget).2 with
      ⟨_, hkind, hown⟩ | ⟨_, hkind, _⟩
    · exact .inl ⟨hkind, hown⟩
    · exact .inr hkind

theorem writePrivateSkillImport_sound {plan : PendingImport registry.ext}
    {outcome : PrivateSkillImportResponse} (h : RegistrySound db)
    (hadmits : db.directory.Admits plan.authority.namespaceId
      plan.authority.userId)
    (himported : writePrivateSkillImport plan db = .ok (outcome, db')) :
    RegistrySound db' := by
  rcases writePrivateSkillImport_eq_ok himported with
    rfl | ⟨locked, _, hw⟩
  · exact h
  · rcases writePrivateSkillImport_unreleased himported with
      rfl | ⟨⟨space, hspace, hid, hkind⟩, ⟨row, hnew, hresources⟩, hfewer,
        hdevices⟩
    · exact h
    · have hdirectory := hw.savesOnly.directory
      have hadmitted : db.directory.Admits plan.operation.namespaceId
          plan.authority.userId := by
        rw [← hid]
        rcases hkind with ⟨_, hown⟩ | hteam
        · rw [hown]
          exact hadmits
        · exact Directory.admits_of_team hspace hteam _
      rcases hw.workspaces with
        ⟨workspace, hresource, huser, hhead, hworkspaces⟩
      have hkeeps : KeepsContent db db' := by
        constructor
        · exact hdirectory
        · unfold findRelease
          rw [hw.savesOnly.releases]
          exact fun _ _ hfound => hfound
        · exact fun _ _ hfound => workspaces_insert hworkspaces hfound
      have hnone : db.workspace plan.operation.resourceId
          plan.authority.userId = none := by
        refine List.find?_eq_none.mpr fun other hother hsame => ?_
        simp only [decide_eq_true_eq] at hsame
        rcases h.workspaces.held other hother with ⟨resource, hfound, _⟩
        rw [hsame.1, hw.fresh] at hfound
        cases hfound
      have hworkspace : (db'.workspace plan.operation.resourceId
          plan.authority.userId).isSome = true := by
        unfold Db.workspace
        rw [hworkspaces, List.find?_isSome]
        exact ⟨workspace, List.mem_append_right _ (List.mem_singleton_self _),
          by simp [hresource, huser]⟩
      constructor
      · refine h.catalog.insertRow hkeeps hresources ?_ hfewer
          (by rw [hdevices])
        intro _
        constructor
        · intro version hversion
          rw [hnew.latest] at hversion
          cases hversion
        · intro version hversion
          rw [hnew.tombstone] at hversion
          cases hversion
        · intro _ hpublic
          rw [hnew.visibility] at hpublic
          cases hpublic
        · intro _ owner howner hplace
          rw [hdirectory] at howner
          rw [hnew.owner] at hplace
          rw [hnew.id, hadmitted owner howner hplace]
          exact hworkspace
        · intro _
          rw [hdirectory, hnew.owner]
          unfold Directory.namespaceById
          rw [List.find?_isSome]
          exact ⟨space, hspace, by simpa using hid⟩
        · intro hgone
          rw [hnew.live] at hgone
          cases hgone
      · have hstored : KeepsArchives db db' ∧
            db'.Archived plan.operation.resourceId
              plan.operation.revisionId := by
          apply KeepsArchives.ofStored hw.stored.revisions
          · exact fun id head hold => (hw.retains id head).mpr (.inl hold)
          · exact (hw.retains _ _).mpr (.inr ⟨rfl, rfl⟩)
          · rw [hw.savesOnly.releases]
            exact fun _ hrelease => .inl hrelease
          · exact .ofInsert hdirectory hresources
        refine h.workspaces.insert hstored.1 hworkspaces ?_ ?_ ?_
        · rw [hresource, huser]
          exact hnone
        · rw [hresource, hhead]
          exact hstored.2
        · rw [hresource, huser, hdirectory]
          refine ⟨row, ?_, ?_⟩
          · unfold findResource
            rw [hresources, List.find?_append]
            have hfresh : db.resources.find?
                (fun row => row.id = plan.operation.resourceId) = none :=
              hw.fresh
            rw [hfresh, Option.none_or]
            simp [hnew.id]
          · rw [hnew.owner]
            exact hadmitted

/-!
## Renaming
-/

/-- A renamed skill keeps its latest release or has a new one. -/
theorem renamed_catalog {item : Uuid} {newName : Text}
    {generation : Generation} {latest : Option Generation}
    {metadata : ResourceRow -> SkillMetadata} (h : CatalogSound db)
    (hkeeps : KeepsContent db db')
    (hresources : db'.resources =
      (setRenamed db item newName generation latest metadata).resources)
    (hlatest : forall row, db.findResource item = some row ->
      latest = row.latestReleaseVersion ∨
        exists version, latest = some version ∧
          (db'.findRelease item version).isSome = true)
    (hsubscriptions : db'.subscriptions = db.subscriptions)
    (hdevices : db'.installationSubscriptions = db.installationSubscriptions) :
    CatalogSound db' := by
  refine h.changeRow hkeeps hresources (fun _ => rfl) (fun _ => rfl) ?_
    (by rw [hsubscriptions]) (by rw [hdevices])
  intro row hrow _ hsound
  have hkept := hsound.keep hkeeps rfl rfl
  have hid := (mem_of_findResource_eq_some hrow).2
  rcases hlatest row hrow with rfl | ⟨version, rfl, hfound⟩
  · refine ⟨?_, fun hsome => hsome⟩
    exact {
      latest := hkept.latest
      tombstone := hkept.tombstone
      published := hkept.published
      worked := hkept.worked
      owned := hkept.owned
      signed := hkept.signed }
  · refine ⟨?_, fun _ => rfl⟩
    exact {
      latest := fun other hother => by
        cases hother
        rw [hid]
        exact hfound
      tombstone := hkept.tombstone
      published := fun _ _ => rfl
      worked := hkept.worked
      owned := hkept.owned
      signed := hkept.signed }

theorem writePersonalRename_sound {plan : PendingRename registry.ext}
    {outcome : RenameSkillResponse} (h : RegistrySound db)
    (hrenamed : writePersonalRename plan db = .ok (outcome, db')) :
    RegistrySound db' := by
  rcases writePersonalRename_eq_ok hrenamed with ⟨resource, hfound, hw⟩
  rcases hw.tables with
    ⟨stored, generation, version, releases, _, _, _, hstored, hreleased, _, _,
      hdb'⟩
  have hrevisions := (storeRenamed_stored hstored).1.revisions
  rcases storeRenamed_frame hstored with ⟨_, _, _, _, _, _, _, _, _, hframe⟩
  rw [hframe] at hdb' hrevisions
  have hreleases : db'.releases = releases := by
    rw [hdb']
    rfl
  have hworkspaces : db'.workspaces = (db.setWorkspace plan.request.resourceId
      plan.authority.userId plan.renamed.revisionId generation
      plan.renamed.content).workspaces := by
    rw [hdb']
    rfl
  have hrows : forall row, row ∈ db'.releases ->
      row ∈ db.releases ∨ row.revisionId = plan.renamed.revisionId := by
    intro row hrow
    rw [hreleases] at hrow
    rcases hreleased with ⟨_, hsame⟩ |
      ⟨_, _, new, _, _, _, hmore, _, _, hhead⟩
    · rw [hsame] at hrow
      exact .inl hrow
    · rw [hmore] at hrow
      rcases List.mem_append.mp hrow with hold | hlast
      · exact .inl hold
      · rw [List.mem_singleton.mp hlast]
        exact .inr hhead
  have hkeeps : KeepsContent db db' := by
    constructor
    · rw [hdb']
      rfl
    · intro id other hold
      rcases hreleased with ⟨_, hsame⟩ | ⟨_, _, _, _, _, _, hmore, _⟩
      · unfold findRelease at hold ⊢
        rw [hreleases, hsame]
        exact hold
      · exact releases_append (hreleases.trans hmore) hold
    · exact fun _ _ => workspaces_update hworkspaces fun _ => ⟨rfl, rfl⟩
  have hresources : db'.resources = (setRenamed db plan.request.resourceId
      plan.request.newName generation
      (version.or resource.latestReleaseVersion)
      fun _ => plan.renamed.content.metadata).resources := by
    rw [hdb']
    rfl
  constructor
  · refine renamed_catalog h.catalog hkeeps hresources ?_ (by rw [hdb']; rfl)
      (by rw [hdb']; rfl)
    intro row hrow
    rw [hfound.found] at hrow
    cases hrow
    rcases hreleased with ⟨rfl, _⟩ |
      ⟨_, new, last, _, rfl, _, hmore, hid, hversion, _⟩
    · exact .inl rfl
    · right
      refine ⟨new, rfl, ?_⟩
      rw [← hid, ← hversion]
      exact findRelease_append (hreleases.trans hmore)
  · have hstored : KeepsArchives db db' ∧ db'.Archived plan.request.resourceId
        plan.renamed.revisionId := by
      apply KeepsArchives.ofStored _ _ _ hrows
      · exact .ofUpdate hkeeps.directory hresources (fun _ => rfl)
          fun _ _ _ hadmits => hadmits
      · rw [hdb']
        exact hrevisions
      · rw [hdb']
        exact fun _ _ hold => retains_append hold
      · rw [hdb']
        exact (retains_insert _ _).mpr (.inr ⟨rfl, rfl⟩)
    refine h.workspaces.move hstored.1 hworkspaces (fun _ => ⟨rfl, rfl⟩) ?_
    intro row _ hmatches
    simp only [decide_eq_true_eq] at hmatches
    rw [hmatches.1]
    exact hstored.2

section TeamRename

variable {plan : PendingTeamRename}

theorem storeRenamed_archives {session : Session}
    {resourceId namespaceId : Uuid} {author : AuthorPrincipalId}
    {operationId : OperationId} {trees : List (SkillManifestTree registry.ext)}
    {renamed : RenamedContent}
    (h : storeRenamed session resourceId namespaceId author operationId trees
      renamed db = .ok db') :
    db'.Archived resourceId renamed.revisionId ∧
      (forall id, (db.findRevision id).isSome = true ->
        (db'.findRevision id).isSome = true) ∧
      forall id revision, db.Archived id revision -> db'.Archived id revision := by
  have hfound := findRevision_of_stores (storeRenamed_stored h).1.revisions
  rcases storeRenamed_frame h with ⟨_, _, _, _, _, _, _, _, _, hframe⟩
  rw [hframe] at hfound ⊢
  constructor
  · exact ⟨(retains_insert _ _).mpr (.inr ⟨rfl, rfl⟩), hfound.2⟩
  · constructor
    · exact hfound.1
    · intro id revision hold
      exact ⟨retains_append hold.kept, hfound.1 _ hold.stored⟩

/-- The contents of a rename end up archived. -/
theorem persistContents_archives {contents : List RenamedContent}
    {seen seen' : List RevisionId}
    (hseen : forall revision, revision ∈ seen ->
      db.Archived plan.request.resourceId revision)
    (h : contents.foldlM (persistContent registry plan) (seen, db) =
      .ok (seen', db')) :
    (forall content, content ∈ contents ->
        db'.Archived plan.request.resourceId content.revisionId) ∧
      (forall id, (db.findRevision id).isSome = true ->
        (db'.findRevision id).isSome = true) ∧
      forall id revision, db.Archived id revision -> db'.Archived id revision := by
  induction contents generalizing seen db with
  | nil =>
      cases h
      exact ⟨fun _ hmem => (List.not_mem_nil hmem).elim, fun _ hold => hold,
        fun _ _ hold => hold⟩
  | cons content rest ih =>
      rw [List.foldlM_cons] at h
      rcases bind_eq_ok.mp h with ⟨⟨middleSeen, middle⟩, hfirst, hrest⟩
      have hstep : middle.Archived plan.request.resourceId
            content.revisionId ∧
          (forall revision, revision ∈ middleSeen ->
            middle.Archived plan.request.resourceId revision) ∧
          (forall id, (db.findRevision id).isSome = true ->
            (middle.findRevision id).isSome = true) ∧
          forall id revision, db.Archived id revision ->
            middle.Archived id revision := by
        unfold persistContent at hfirst
        split at hfirst
        · rename_i hmem
          cases hfirst
          exact ⟨hseen _ hmem, hseen, fun _ hold => hold,
            fun _ _ hold => hold⟩
        · rcases bind_eq_ok.mp hfirst with ⟨trees, _, hfirst⟩
          rcases bind_eq_ok.mp hfirst with ⟨next, hnext, hfirst⟩
          cases hfirst
          rcases storeRenamed_archives hnext with ⟨hnew, hfound, hkept⟩
          refine ⟨hnew, ?_, hfound, hkept⟩
          intro revision hrevision
          rcases List.mem_append.mp hrevision with hold | hlast
          · exact hkept _ _ (hseen revision hold)
          · rw [List.mem_singleton.mp hlast]
            exact hnew
      rcases hstep with ⟨hhead, hmiddle, hfound, hkept⟩
      rcases ih hmiddle hrest with ⟨htail, hfound', hkept'⟩
      refine ⟨?_, fun id hold => hfound' id (hfound id hold),
        fun id revision hold => hkept' id revision (hkept id revision hold)⟩
      intro other hother
      rcases List.mem_cons.mp hother with rfl | hlater
      · exact hkept' _ _ hhead
      · exact htail other hlater

theorem moveTeamWorkspaces_sound {resourceId : Uuid}
    {moves : List (WorkspaceRow × RenamedContent)} (h : WorkspacesSound db)
    (harchived : forall move, move ∈ moves ->
      db.Archived resourceId move.2.revisionId)
    (hmoved : moves.foldlM (Db.moveTeamWorkspace resourceId) db = .ok db') :
    WorkspacesSound db' := by
  induction moves generalizing db with
  | nil =>
      cases hmoved
      exact h
  | cons move rest ih =>
      rw [List.foldlM_cons] at hmoved
      rcases bind_eq_ok.mp hmoved with ⟨middle, hfirst, hrest⟩
      rcases bind_eq_ok.mp hfirst with ⟨generation, _, hfirst⟩
      rcases bind_eq_ok.mp hfirst with ⟨_, _, hfirst⟩
      cases hfirst
      refine ih ?_ ?_ hrest
      · refine h.move (.ofTables rfl rfl rfl (.ofSame rfl rfl)) rfl
          (fun _ => ⟨rfl, rfl⟩) ?_
        intro row _ hmatches
        simp only [Bool.and_eq_true, decide_eq_true_eq] at hmatches
        rw [hmatches.1]
        have hnew := harchived move List.mem_cons_self
        exact ⟨hnew.kept, hnew.stored⟩
      · intro other hother
        have hold := harchived other (List.mem_cons_of_mem _ hother)
        exact ⟨hold.kept, hold.stored⟩

/-- A rename of a team skill keeps the releases, or adds the next one. -/
theorem moveTeamRename_tables {outcome : RenameSkillResponse}
    (h : moveTeamRename registry plan db = .ok (outcome, db')) :
    exists seen stored moved generation version releases redirects
        lifecycleOperations revisionOperations,
      (teamRenameContents plan).foldlM (persistContent registry plan)
          ([], db.deleteRedirect .worker plan.source.ownerNamespaceId
            plan.request.newName) = .ok (seen, stored) ∧
        plan.workspaces.foldlM
          (Db.moveTeamWorkspace plan.request.resourceId) stored = .ok moved ∧
        (version = none ∧ releases = db.releases ∨
          exists release new row, plan.release = some release ∧
            version = some new ∧ releases = db.releases ++ [row] ∧
              row.resourceId = plan.request.resourceId ∧
                row.version = new ∧
                  row.revisionId = release.2.revisionId) ∧
        db' =
          ({ moved with
            releases
            resources := (setRenamed moved plan.request.resourceId
              plan.request.newName generation
              (version.or plan.source.latestReleaseVersion)
              ResourceRow.metadata).resources
            redirects
            lifecycleOperations
            revisionOperations } : Db).enqueueResourceWake
              plan.request.resourceId generation.value := by
  rcases bind_eq_ok.mp h with ⟨⟨seen, stored⟩, hstored, h⟩
  rcases bind_eq_ok.mp h with ⟨moved, hmoved, h⟩
  rcases bind_eq_ok.mp h with ⟨⟨version, released⟩, hreleased, h⟩
  rcases bind_eq_ok.mp h with ⟨generation, _, h⟩
  rcases releaseTeamRename_eq_ok hreleased with
    ⟨_, releases, hreleases, hcases⟩
  rcases finishRename_eq_ok h with
    ⟨redirects, lifecycleOperations, revisionOperations, hdb', _, _⟩
  rcases persistContents_frame hstored with
    ⟨_, _, _, _, _, _, _, _, _, _, hstoredFrame⟩
  rcases moveTeamWorkspaces_frame hmoved with ⟨_, hmovedFrame, _⟩
  dsimp only at hstoredFrame
  have hbefore : moved.releases = db.releases := by
    rw [hmovedFrame, hstoredFrame]
    rfl
  rw [hbefore] at hcases
  refine ⟨seen, stored, moved, generation, version, releases, redirects,
    lifecycleOperations, revisionOperations, hstored, hmoved, ?_, ?_⟩
  · rcases hcases with hsame | ⟨release, new, row, hplan, hversion, _, hmore⟩
    · exact .inl hsame
    · exact .inr ⟨release, new, row, hplan, hversion, hmore⟩
  · rw [hdb', hreleases]
    rfl

theorem writeTeamRename_sound {outcome : RenameSkillResponse}
    (h : RegistrySound db)
    (hrenamed : writeTeamRename registry plan db = .ok (outcome, db')) :
    RegistrySound db' := by
  rcases (writeTeamRename_eq_ok hrenamed).1.source with
    ⟨resource, hfound, _, hlatest⟩
  rcases bind_eq_ok.mp hrenamed with ⟨_, _, hrenamed⟩
  rcases bind_eq_ok.mp hrenamed with ⟨_, _, hrenamed⟩
  rcases bind_eq_ok.mp hrenamed with ⟨_, _, hrenamed⟩
  rcases bind_eq_ok.mp hrenamed with ⟨_, _, hrenamed⟩
  rcases bind_eq_ok.mp hrenamed with ⟨_, _, hrenamed⟩
  rcases bind_eq_ok.mp hrenamed with ⟨_, _, hrenamed⟩
  rcases bind_eq_ok.mp hrenamed with ⟨_, _, hrenamed⟩
  rcases moveTeamRename_tables hrenamed with
    ⟨seen, stored, moved, generation, version, releases, redirects, _, _,
      hstored, hmoved, hreleased, hdb'⟩
  rcases persistContents_archives (fun _ hmem => by cases hmem) hstored with
    ⟨hcontents, hrevisions, harchives⟩
  rcases persistContents_frame hstored with
    ⟨_, _, _, _, _, _, _, _, _, _, hstoredFrame⟩
  rcases moveTeamWorkspaces_frame hmoved with ⟨_, hmovedFrame, hworked⟩
  dsimp only at hstoredFrame
  have hbefore : RegistrySound stored := by
    constructor
    · have hkept : KeepsCatalog db stored := by
        rw [hstoredFrame]
        exact .ofContent (.ofTables rfl rfl rfl) rfl rfl rfl
      exact hkept.sound h.catalog
    · refine h.workspaces.keep ?_ (by rw [hstoredFrame]; rfl)
      constructor
      · exact fun _ _ hold => harchives _ _ ⟨hold.kept, hold.stored⟩
      · intro row hrow
        rw [hstoredFrame] at hrow
        exact .inl hrow
      · exact hrevisions
      · rw [hstoredFrame]
        exact .ofSame rfl rfl
  have harchived : forall content, content ∈ teamRenameContents plan ->
      moved.Archived plan.request.resourceId content.revisionId := by
    intro content hcontent
    have hnew := hcontents content hcontent
    rw [hmovedFrame]
    exact ⟨hnew.kept, hnew.stored⟩
  have hmovedSound : RegistrySound moved := by
    constructor
    · refine (KeepsCatalog.ofContent ?_ ?_ ?_ ?_).sound hbefore.catalog
      · constructor
        · rw [hmovedFrame]
        · intro id other hrelease
          rw [hmovedFrame]
          exact hrelease
        · intro id user hworkspace
          rw [(hworked id user).1]
          exact hworkspace
      · rw [hmovedFrame]
      · rw [hmovedFrame]
      · rw [hmovedFrame]
    · refine moveTeamWorkspaces_sound hbefore.workspaces ?_ hmoved
      intro move hmove
      refine hcontents move.2 (List.mem_append_left _ ?_)
      exact List.mem_map.mpr ⟨move, hmove, rfl⟩
  have hsame : moved.resources = db.resources ∧
      moved.releases = db.releases := by
    rw [hmovedFrame, hstoredFrame]
    exact ⟨rfl, rfl⟩
  have hkeeps : KeepsContent moved db' := by
    constructor
    · rw [hdb']
      rfl
    · intro id other hrelease
      have hafter : db'.releases = releases := by
        rw [hdb']
        rfl
      rcases hreleased with ⟨_, hunchanged⟩ | ⟨_, _, row, _, _, hmore, _⟩
      · unfold findRelease at hrelease ⊢
        rw [hafter, hunchanged, ← hsame.2]
        exact hrelease
      · rw [← hsame.2] at hmore
        exact releases_append (hafter.trans hmore) hrelease
    · intro id user hworkspace
      rw [hdb']
      exact hworkspace
  have hresources : db'.resources = (setRenamed moved plan.request.resourceId
      plan.request.newName generation
      (version.or plan.source.latestReleaseVersion)
      ResourceRow.metadata).resources := by
    rw [hdb']
    rfl
  constructor
  · refine renamed_catalog hmovedSound.catalog hkeeps hresources ?_
      (by rw [hdb']; rfl) (by rw [hdb']; rfl)
    intro row hrow
    unfold findResource at hrow hfound
    rw [hsame.1, hfound] at hrow
    cases hrow
    rcases hreleased with ⟨rfl, _⟩ |
      ⟨_, new, last, _, rfl, hmore, hid, hversion, _⟩
    · left
      rw [hlatest]
      rfl
    · right
      refine ⟨new, rfl, ?_⟩
      rw [← hid, ← hversion]
      have hkept : db'.releases = db.releases ++ [last] := by
        rw [hdb']
        exact hmore
      exact findRelease_append hkept
  · refine hmovedSound.workspaces.keep ?_ (by rw [hdb']; rfl)
    constructor
    · intro row _ hold
      rw [hdb']
      exact ⟨hold.kept, hold.stored⟩
    · intro row hrow
      have hafter : db'.releases = releases := by
        rw [hdb']
        rfl
      rw [hafter] at hrow
      rcases hreleased with ⟨_, hunchanged⟩ |
        ⟨release, _, last, hplan, _, hmore, _, _, hhead⟩
      · rw [hunchanged, ← hsame.2] at hrow
        exact .inl hrow
      · rw [hmore] at hrow
        rcases List.mem_append.mp hrow with hold | hlast
        · rw [← hsame.2] at hold
          exact .inl hold
        · right
          rw [List.mem_singleton.mp hlast, hhead, hdb']
          refine (harchived release.2 ?_).stored
          refine List.mem_append_right _ ?_
          rw [hplan]
          exact List.mem_singleton.mpr rfl
    · intro id hold
      rw [hdb']
      exact hold
    · exact .ofUpdate hkeeps.directory hresources (fun _ => rfl)
        fun _ _ _ hadmits => hadmits

end TeamRename

end Registry
end Denju
