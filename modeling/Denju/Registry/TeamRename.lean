import Denju.Registry.Lifecycle

/-!
# Renaming a team skill

A rename of a team skill rewrites the workspace of every maintainer, and the
latest release.  It runs as the worker, and refuses while a maintainer has an
unresolved conflict.
-/

namespace Denju

open Lib

structure TeamRenameSource where
  ownerNamespaceId : Uuid
  owner : Text
  name : Text
  generation : Generation
  latestReleaseVersion : Option Generation
deriving DecidableEq

/-- A rename of a team skill between its transactions. -/
structure PendingTeamRename where
  authority : UserAuthority
  request : RenameSkillRequest
  source : TeamRenameSource
  workspaces : List (WorkspaceRow × RenamedContent)
  release : Option (Generation × RenamedContent)
  actorRevision : RevisionId

def teamSkillUnavailable : ApiError :=
  ApiError.new .unauthorized "team skill is unavailable"

def teamWorkspaceAdvanced : ApiError :=
  ApiError.new .generationConflict
    "a team workspace advanced while the rename was being prepared"

namespace Db

def loadTeamResource (db : Db) (resourceId : Uuid) :
    Except ApiError TeamRenameSource := do
  let notFound := ApiError.new .notFound "team skill not found"
  let row <- okOr
    ((db.findResource resourceId).filter fun row =>
      decide (row.kind = .skill) && !row.deleted)
    notFound
  let owner <- okOr
    ((db.directory.namespaceById row.ownerNamespaceId).filter fun owner =>
      owner.kind = .team)
    notFound
  return {
    ownerNamespaceId := row.ownerNamespaceId
    owner := owner.slug
    name := row.slug
    generation := row.generation
    latestReleaseVersion := row.latestReleaseVersion }

/-- The workspaces of a skill in the order of their users. -/
def loadWorkspaces (db : Db) (resourceId : Uuid) : List WorkspaceRow :=
  sortByKey (fun row => row.workspaceUserId.toList)
    (db.workspaces.filter fun row => row.resourceId = resourceId)

/-- What a reader without an account sees of a release. -/
def releaseVisibleToAll (db : Db) (row : ReleaseRow) : Bool :=
  (db.findResource row.resourceId).any fun resource =>
    !resource.deleted && !db.quarantined row.resourceId &&
      (db.releases.any fun release =>
        decide (release.resourceId = row.resourceId ∧
          release.revisionId = row.revisionId) &&
            !db.releaseQuarantined row.resourceId release.version) &&
        decide (resource.visibility = .pub)

/-- The latest release, read without the authority of a user. -/
def loadRelease (db : Db) (resourceId : Uuid) (version : Generation) :
    Except ApiError ReleaseRow :=
  okOr ((db.findRelease resourceId version).filter db.releaseVisibleToAll)
    (ApiError.new .internal "latest team release is missing")

def sameWorkspace (a b : WorkspaceRow) : Bool :=
  a.workspaceUserId == b.workspaceUserId && a.generation == b.generation &&
    a.revisionId == b.revisionId

def ensureWorkspacesUnchanged (before after : List WorkspaceRow) :
    Except ApiError Unit :=
  ensure (before.length == after.length &&
      (before.zip after).all fun pair => sameWorkspace pair.1 pair.2)
    teamWorkspaceAdvanced

/-- Move one workspace of the team to its renamed revision. -/
def moveTeamWorkspace (resourceId : Uuid) (db : Db)
    (move : WorkspaceRow × RenamedContent) : Except ApiError Db := do
  let generation <- okOr move.1.generation.checkedSucc
    workspaceGenerationOverflow
  let moved := fun row : WorkspaceRow =>
    decide (row.resourceId = resourceId) && sameWorkspace row move.1
  ensure ((db.workspaces.filter moved).length == 1) teamWorkspaceAdvanced
  return { db with
    workspaces := updateWhere moved
      (fun row =>
        { row with
          metadata :=
            { row.metadata with
              description := move.2.content.metadata.description }
          revisionId := move.2.revisionId
          generation
          snapshot := move.2.content.snapshot })
      db.workspaces }

end Db

namespace Registry

variable (self : Registry)

/-- The renamed content of one workspace of the team. -/
def renameTeamWorkspace (store : ObjectStore) (authority : UserAuthority)
    (request : RenameSkillRequest) (source : TeamRenameSource) (db : Db)
    (workspace : WorkspaceRow) :
    Except ApiError (WorkspaceRow × RenamedContent) := do
  let entries <- match request.preparedRevisionOperationId with
    | none => self.loadStoredEntries store source.name workspace.snapshot
    | some operationId =>
        if workspace.workspaceUserId = authority.userId then
          self.verifiedPreparedRenameContent store authority
            { operationId
              resourceId := request.resourceId
              namespaceId := source.ownerNamespaceId
              generation := workspace.generation
              parentRevisionId := workspace.revisionId
              currentName := source.name }
            db
        else self.loadStoredEntries store source.name workspace.snapshot
  let renamed <- self.buildRenamedContent store source.name request.newName
    entries workspace.revisionId authority.authorPrincipalId
    request.operationId
  return (workspace, renamed)

/-- The renamed content of the latest release. -/
def renameTeamRelease (store : ObjectStore) (authority : UserAuthority)
    (request : RenameSkillRequest) (source : TeamRenameSource) (db : Db) :
    Except ApiError (Option (Generation × RenamedContent)) :=
  match source.latestReleaseVersion with
  | none => .ok none
  | some version => do
      let release <- db.loadRelease request.resourceId version
      let entries <- self.loadStoredEntries store source.name release.snapshot
      let renamed <- self.buildRenamedContent store source.name
        request.newName entries release.revisionId authority.authorPrincipalId
        request.operationId
      return some (release.version, renamed)

/-- The first transactions of a rename of a team skill. -/
def readTeamRename (store : ObjectStore) (authority : UserAuthority)
    (request : RenameSkillRequest) (db : Db) :
    Except ApiError PendingTeamRename := do
  let target <- db.authorizeResourcePublish authority request.resourceId
  ensure target.isTeam
    (ApiError.new .internal "team rename was selected for a non-team skill")
  let source <- db.loadTeamResource request.resourceId
  ensure (source.ownerNamespaceId == target.namespaceId) teamSkillUnavailable
  let expectedGeneration <- i64TryFrom request.expectedGeneration
    generationOutOfRange
  ensure (source.generation.value == expectedGeneration)
    (resourceAdvanced source.generation)
  ensure (source.name != request.newName)
    (ApiError.new .invalidRequest "the skill already has that name")
  let workspaces := db.loadWorkspaces request.resourceId
  ensure (workspaces.any fun row => row.workspaceUserId = authority.userId)
    (ApiError.new .notFound "team workspace not found")
  let renamed <- workspaces.mapM
    (self.renameTeamWorkspace store authority request source db)
  let release <- self.renameTeamRelease store authority request source db
  let actor <- okOr
    (renamed.find? fun move => move.1.workspaceUserId = authority.userId)
    (ApiError.new .notFound "team workspace not found")
  return {
    authority
    request
    source
    workspaces := renamed
    release
    actorRevision := actor.2.revisionId }

variable {self}

/-- Store the revision of one renamed content, unless it is stored already. -/
def persistContent (registry : Registry) (plan : PendingTeamRename)
    (state : List RevisionId × Db) (renamed : RenamedContent) :
    Except ApiError (List RevisionId × Db) :=
  if renamed.revisionId ∈ state.1 then .ok state
  else do
    let trees <- (validateDeclaredSkillManifest registry.ext
      renamed.content.snapshot.manifest).mapError storedSnapshotError
    let db <- storeRenamed .worker plan.request.resourceId
      plan.source.ownerNamespaceId plan.authority.authorPrincipalId
      plan.request.operationId trees renamed state.2
    return (state.1 ++ [renamed.revisionId], db)

/-- The contents of a rename: those of the workspaces, then the release. -/
def teamRenameContents (plan : PendingTeamRename) :
    List RenamedContent :=
  plan.workspaces.map Prod.snd ++ (plan.release.map Prod.snd).toList

/-- A team skill with a release releases its renamed content. -/
def releaseTeamRename (plan : PendingTeamRename) (db : Db) :
    Except ApiError (Option Generation × Db) :=
  match plan.release with
  | none => .ok (none, db)
  | some release => do
      let (version, db) <- releaseRenamed plan.request.resourceId release.1
        plan.authority.authorPrincipalId release.2 db
      return (some version, db)

/-- Write the renamed revisions of a team skill. -/
def moveTeamRename (registry : Registry) (plan : PendingTeamRename) (db : Db) :
    Except ApiError (RenameSkillResponse × Db) := do
  let request := plan.request
  let source := plan.source
  let db := db.deleteRedirect .worker source.ownerNamespaceId request.newName
  let (_, db) <- (teamRenameContents plan).foldlM (persistContent registry plan) ([], db)
  let db <- plan.workspaces.foldlM
    (Db.moveTeamWorkspace request.resourceId) db
  let (version, db) <- releaseTeamRename plan db
  let generation <- nextGeneration source.generation
  let db := setRenamed db request.resourceId request.newName generation
    (version.or source.latestReleaseVersion) ResourceRow.metadata
  finishRename .worker plan.authority request source.ownerNamespaceId
    source.name
    { resourceId := request.resourceId
      oldLocator := locator source.owner source.name
      locator := locator source.owner request.newName
      generation := generation.value
      revisionId := plan.actorRevision
      releaseVersion := version.map Generation.value }
    db

/-- The last transaction of a rename of a team skill. -/
def writeTeamRename (registry : Registry) (plan : PendingTeamRename)
    (db : Db) : Except ApiError (RenameSkillResponse × Db) := do
  let request := plan.request
  let source := plan.source
  let target <- db.authorizeResourcePublish plan.authority request.resourceId
  ensure (target.isTeam && target.namespaceId == source.ownerNamespaceId)
    teamSkillUnavailable
  let locked <- db.loadTeamResource request.resourceId
  ensure (locked.ownerNamespaceId == source.ownerNamespaceId &&
      locked.name == source.name && locked.generation == source.generation &&
      locked.latestReleaseVersion == source.latestReleaseVersion)
    (resourceAdvanced locked.generation)
  ensure (!db.conflicts.any fun row =>
      decide (row.resourceId = request.resourceId) &&
        row.resolutionRevisionId.isNone)
    (ApiError.new .generationConflict
      "team skill has an unresolved maintainer workspace conflict; resolve it before renaming")
  Db.ensureWorkspacesUnchanged (plan.workspaces.map Prod.fst)
    (db.loadWorkspaces request.resourceId)
  ensure (!db.slugTakenByOther source.ownerNamespaceId request.resourceId
      request.newName)
    (alreadyExists source.owner request.newName)
  moveTeamRename registry plan db

/-!
## The rename of any skill
-/

/-- A rename between its transactions. -/
inductive RenamePlan (ext : Externals) where
  | personal (plan : PendingRename ext)
  | team (plan : PendingTeamRename)

variable (self)

/-- The first transactions of a rename of a skill that is not replayed. -/
def readNewRename (store : ObjectStore) (authority : UserAuthority)
    (request : RenameSkillRequest) (db : Db) :
    Except ApiError (RenamePlan self.ext) := do
  let resource <- okOr
    ((db.findResource request.resourceId).filter fun row =>
      decide (row.kind = .skill) && !row.deleted &&
        db.canReadResource authority.userId request.resourceId)
    (ApiError.new .notFound "owned skill not found")
  if db.ownerKind resource = some .team then
    let plan <- self.readTeamRename store authority request db
    return .team plan
  else
    let plan <- self.readPersonalRename store authority request db
    return .personal plan

def readRename (store : ObjectStore) (userId : Uuid)
    (request : RenameSkillRequest) (db : Db) :
    Except ApiError (RenameSkillResponse ⊕ RenamePlan self.ext) := do
  let authority <- db.directory.userAuthority userId
  (validateSkillName request.newName).mapError invalidSkill
  checkLifecycleHash request.requestHash
    (self.hashes.renameSkill request.toRenameSkillRequestHashInput)
  let replay <- db.replayLifecycleOperation LifecycleOutcome.rename?
    authority.userId request.operationId request.requestHash
    request.resourceId
  match replay with
  | some outcome => return .inl outcome
  | none => do
      let plan <- self.readNewRename store authority request db
      return .inr plan

def writeRename (plan : RenamePlan self.ext) (db : Db) :
    Except ApiError (RenameSkillResponse × Db) :=
  match plan with
  | .personal plan => writePersonalRename plan db
  | .team plan => writeTeamRename self plan db

/-- A rename whose transactions follow each other. -/
def renameSkill (store : ObjectStore) (userId : Uuid)
    (request : RenameSkillRequest) (db : Db) :
    Except ApiError (RenameSkillResponse × Db) := do
  let read <- self.readRename store userId request db
  match read with
  | .inl outcome => return (outcome, db)
  | .inr plan => self.writeRename plan db

/-!
## What a rename of a team skill writes
-/

section Written

variable {registry : Registry} {plan : PendingTeamRename} {db db' : Db}

theorem persistContents_frame {contents : List RenamedContent}
    {seen : List RevisionId} {result : List RevisionId × Db}
    (h : contents.foldlM (persistContent registry plan) (seen, db) =
      .ok result) :
    exists canonicalBlobs canonicalBlobGc merkleTrees treeEntries revisions
        revisionParents revisionBlobs resourceBlobs namespaceBlobs snapshots,
      result.2 = { db with
        canonicalBlobs, canonicalBlobGc, merkleTrees, treeEntries, revisions,
        revisionParents, revisionBlobs, resourceBlobs, namespaceBlobs,
        snapshots } := by
  refine foldlM_invariant
    (P := fun state : List RevisionId × Db =>
      exists canonicalBlobs canonicalBlobGc merkleTrees treeEntries revisions
        revisionParents revisionBlobs resourceBlobs namespaceBlobs snapshots,
      state.2 = { db with
        canonicalBlobs, canonicalBlobGc, merkleTrees, treeEntries, revisions,
        revisionParents, revisionBlobs, resourceBlobs, namespaceBlobs,
        snapshots })
    ?_ ⟨_, _, _, _, _, _, _, _, _, _, rfl⟩ h
  rintro ⟨before, start⟩ renamed ⟨after, stored⟩ hstart hstep
  unfold persistContent at hstep
  split at hstep
  · cases hstep
    exact hstart
  · rcases bind_eq_ok.mp hstep with ⟨trees, _, hstep⟩
    rcases bind_eq_ok.mp hstep with ⟨next, hnext, hstep⟩
    cases hstep
    rcases hstart with ⟨_, _, _, _, _, _, _, _, _, _, hstart⟩
    rcases storeRenamed_frame hnext with ⟨_, _, _, _, _, _, _, _, _, hnext⟩
    dsimp only at hstart hnext ⊢
    rw [hnext, hstart]
    exact ⟨_, _, _, _, _, _, _, _, _, _, rfl⟩

theorem moveTeamWorkspaces_frame {resourceId : Uuid}
    {moves : List (WorkspaceRow × RenamedContent)}
    (h : moves.foldlM (Db.moveTeamWorkspace resourceId) db = .ok db') :
    exists workspaces, db' = { db with workspaces } ∧
      forall other user,
        (db'.workspace other user).isSome =
            (db.workspace other user).isSome ∧
          (other ≠ resourceId ->
            db'.workspace other user = db.workspace other user) := by
  refine foldlM_invariant
    (P := fun next : Db => exists workspaces,
      next = { db with workspaces } ∧
        forall other user,
          (next.workspace other user).isSome =
              (db.workspace other user).isSome ∧
            (other ≠ resourceId ->
              next.workspace other user = db.workspace other user))
    ?_ ⟨db.workspaces, rfl, fun _ _ => ⟨rfl, fun _ => rfl⟩⟩ h
  rintro start move next ⟨rows, rfl, hrows⟩ hstep
  rcases bind_eq_ok.mp hstep with ⟨generation, _, hstep⟩
  rcases bind_eq_ok.mp hstep with ⟨_, _, hstep⟩
  cases hstep
  refine ⟨_, rfl, ?_⟩
  intro other user
  rw [← (hrows other user).1]
  constructor
  · unfold Db.workspace
    rw [find?_updateWhere (by intro row _; rfl)]
    exact Option.isSome_map
  · intro hother
    rw [← (hrows other user).2 hother]
    unfold Db.workspace
    refine find?_updateWhere_of_disjoint (by intro row _; rfl) ?_
    intro row hrow
    simp only [decide_eq_true_eq] at hrow
    simp [hrow.1, hother]

theorem releaseTeamRename_eq_ok {version : Option Generation}
    (h : releaseTeamRename plan db = .ok (version, db')) :
    (plan.release = none -> version = none) ∧
      exists releases, db' = { db with releases } ∧
        (version = none ∧ releases = db.releases ∨
          exists release new row, plan.release = some release ∧
            version = some new ∧ release.1.checkedSucc = some new ∧
              releases = db.releases ++ [row] ∧
                row.resourceId = plan.request.resourceId ∧
                  row.version = new ∧
                    row.revisionId = release.2.revisionId) := by
  unfold releaseTeamRename at h
  split at h
  · cases h
    exact ⟨fun _ => rfl, db.releases, rfl, .inl ⟨rfl, rfl⟩⟩
  · rename_i release hrelease
    rcases bind_eq_ok.mp h with ⟨⟨next, stored⟩, hstored, h⟩
    rcases releaseRenamed_eq_ok hstored with
      ⟨hnext, row, hdb', hid, hversion, hrevision, _⟩
    cases h
    refine ⟨by simp [hrelease], _, hdb', .inr ?_⟩
    exact ⟨release, next, row, hrelease, rfl, hnext, rfl, hid, hversion,
      hrevision⟩

/-- What a rename of a team skill finds in its last transaction. -/
structure TeamRenameFound (plan : PendingTeamRename) (db : Db) : Prop where
  target : exists target,
    db.authorizeResourcePublish plan.authority plan.request.resourceId =
        .ok target ∧
      target.isTeam = true ∧
        target.namespaceId = plan.source.ownerNamespaceId
  source : exists resource,
    db.findResource plan.request.resourceId = some resource ∧
      resource.ownerNamespaceId = plan.source.ownerNamespaceId ∧
        resource.latestReleaseVersion = plan.source.latestReleaseVersion
  calm : forall row, row ∈ db.conflicts ->
    row.resourceId = plan.request.resourceId ->
      row.resolutionRevisionId ≠ none
  current : exists resource,
    db.findResource plan.request.resourceId = some resource ∧
      resource.kind = .skill ∧ resource.deleted = false ∧
        resource.ownerNamespaceId = plan.source.ownerNamespaceId ∧
          resource.slug = plan.source.name
  unused : db.slugTakenByOther plan.source.ownerNamespaceId
    plan.request.resourceId plan.request.newName = false

/-- What a rename of a team skill writes. -/
structure TeamRenameWritten (registry : Registry) (plan : PendingTeamRename)
    (db db' : Db) : Prop where
  tables : exists seen stored moved generation version releases redirects
      lifecycleOperations revisionOperations,
    (teamRenameContents plan).foldlM (persistContent registry plan)
        ([], db.deleteRedirect .worker plan.source.ownerNamespaceId
          plan.request.newName) = .ok (seen, stored) ∧
      plan.workspaces.foldlM
        (Db.moveTeamWorkspace plan.request.resourceId) stored = .ok moved ∧
      (plan.release = none -> version = none) ∧
      (version = none -> releases = db.releases) ∧
      (forall row, row ∈ revisionOperations ->
        row ∈ db.revisionOperations) ∧
      db' =
        ({ moved with
          releases
          resources := (setRenamed moved plan.request.resourceId
            plan.request.newName generation
            (version.or plan.source.latestReleaseVersion)
            ResourceRow.metadata).resources
          redirects
          lifecycleOperations
          revisionOperations } : Db).enqueueResourceWake
            plan.request.resourceId generation.value
  redirected : Redirected .skill plan.source.ownerNamespaceId
    plan.source.name plan.request.resourceId
    (db.deleteRedirect .worker plan.source.ownerNamespaceId
      plan.request.newName).redirects db'.redirects

theorem moveTeamRename_eq_ok {outcome : RenameSkillResponse}
    (h : moveTeamRename registry plan db = .ok (outcome, db')) :
    TeamRenameWritten registry plan db db' := by
  rcases bind_eq_ok.mp h with ⟨⟨seen, stored⟩, hstored, h⟩
  rcases bind_eq_ok.mp h with ⟨moved, hmoved, h⟩
  rcases bind_eq_ok.mp h with ⟨⟨version, released⟩, hreleased, h⟩
  rcases bind_eq_ok.mp h with ⟨generation, _, h⟩
  rcases releaseTeamRename_eq_ok hreleased with
    ⟨hnone, releases, hreleases, hcases⟩
  rcases finishRename_eq_ok h with
    ⟨redirects, lifecycleOperations, revisionOperations, hdb', hrows,
      hredirected⟩
  rcases persistContents_frame hstored with
    ⟨_, _, _, _, _, _, _, _, _, _, hstoredFrame⟩
  rcases moveTeamWorkspaces_frame hmoved with ⟨_, hmovedFrame, _⟩
  dsimp only at hstoredFrame
  have hbefore : moved.releases = db.releases := by
    rw [hmovedFrame, hstoredFrame]
    rfl
  have hoperations : moved.revisionOperations = db.revisionOperations := by
    rw [hmovedFrame, hstoredFrame]
    rfl
  refine ⟨⟨seen, stored, moved, generation, version, releases, redirects,
    lifecycleOperations, revisionOperations, hstored, hmoved, hnone, ?_, ?_,
    ?_⟩, ?_⟩
  · intro hversion
    rcases hcases with ⟨_, hsame⟩ | ⟨_, _, _, _, hsome, _⟩
    · rw [hsame, hbefore]
    · rw [hversion] at hsome
      cases hsome
  · intro row hrow
    have hold := hrows row hrow
    rw [hreleases] at hold
    rw [← hoperations]
    exact hold
  · rw [hdb', hreleases]
    rfl
  · rw [hreleases, hmovedFrame, hstoredFrame] at hredirected
    rw [hdb']
    exact hredirected

theorem writeTeamRename_eq_ok {outcome : RenameSkillResponse}
    (h : writeTeamRename registry plan db = .ok (outcome, db')) :
    TeamRenameFound plan db ∧ TeamRenameWritten registry plan db db' := by
  rcases bind_eq_ok.mp h with ⟨target, htarget, h⟩
  rcases bind_eq_ok.mp h with ⟨_, hteam, h⟩
  rcases bind_eq_ok.mp h with ⟨locked, hlocked, h⟩
  rcases bind_eq_ok.mp h with ⟨_, hsame, h⟩
  rcases bind_eq_ok.mp h with ⟨_, hcalm, h⟩
  rcases bind_eq_ok.mp h with ⟨_, _, h⟩
  rcases bind_eq_ok.mp h with ⟨_, hunused, h⟩
  have hwritten := moveTeamRename_eq_ok h
  simp only [ensure_eq_ok, Bool.and_eq_true, beq_iff_eq,
    Bool.not_eq_true'] at hteam hsame hunused
  refine ⟨⟨⟨target, htarget, hteam⟩, ?_, ?_, ?_, hunused⟩, hwritten⟩
  · rcases bind_eq_ok.mp hlocked with ⟨resource, hresource, hlocked⟩
    rcases bind_eq_ok.mp hlocked with ⟨owner, _, hlocked⟩
    cases hlocked
    have hfound := Option.filter_eq_some_iff.mp (okOr_eq_ok.mp hresource)
    exact ⟨resource, hfound.1, hsame.1.1.1, hsame.2⟩
  · intro row hrow hid hopen
    have hrows := ensure_eq_ok.mp hcalm
    simp only [Bool.not_eq_true', List.any_eq_false, Bool.and_eq_true,
      decide_eq_true_eq, not_and] at hrows
    exact hrows row hrow hid (by simp [hopen])
  · rcases bind_eq_ok.mp hlocked with ⟨resource, hresource, hlocked⟩
    rcases bind_eq_ok.mp hlocked with ⟨owner, _, hlocked⟩
    cases hlocked
    have hfound := Option.filter_eq_some_iff.mp (okOr_eq_ok.mp hresource)
    have hlive := hfound.2
    simp only [Bool.and_eq_true, decide_eq_true_eq, Bool.not_eq_true'] at hlive
    exact ⟨resource, hfound.1, hlive.1, hlive.2, hsame.1.1.1, hsame.1.1.2⟩

end Written

end Registry
end Denju
