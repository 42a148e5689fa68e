import Denju.Registry.SaveProtocol

/-!
# No save is lost

The invariant of the save protocol.  Every recorded save names a revision whose
parents are stored, every workspace is a sound branch, and every commit in
flight still agrees with its recorded operation.
-/

namespace Denju

open Lib

namespace PrivateRevisionCommitResponse

def resourceId : PrivateRevisionCommitResponse -> Uuid
  | .advanced revision => revision.resourceId
  | .diverged resourceId _ _ => resourceId

def revisionId : PrivateRevisionCommitResponse -> RevisionId
  | .advanced revision => revision.revisionId
  | .diverged _ revisionId _ => revisionId

end PrivateRevisionCommitResponse

namespace Db

/-!
## What every step keeps
-/

/-- The second database has everything that saves rely on in the first. -/
structure Extends (db db' : Db) : Prop where
  savesOnly : Registry.SavesOnly db db'
  edges : forall edge, edge ∈ db.edges -> edge ∈ db'.edges
  retains : forall resourceId revision,
    Retains db.snapshots resourceId revision ->
      Retains db'.snapshots resourceId revision
  workspaces : forall resourceId user,
    (db.workspace resourceId user).isSome ->
      (db'.workspace resourceId user).isSome
  resources : forall id row, db.findResource id = some row ->
    exists generation metadata,
      db'.findResource id = some { row with generation, metadata }

variable {db db' : Db}

theorem Extends.of_operations {rows : List RevisionOperationRow}
    {imports : List ImportOperationRow} :
    Extends db { db with
      revisionOperations := rows, importOperations := imports } :=
  ⟨⟨rfl, rfl, rfl, rfl, rfl⟩, fun _ h => h, fun _ _ h => h, fun _ _ h => h,
    fun _ row h => ⟨row.generation, row.metadata, h⟩⟩

/-- A publisher stays one. -/
theorem Extends.authorize (h : Extends db db') (hproposals : db.proposals = [])
    {authority : UserAuthority} {id : Uuid}
    {target : NamespacePublishAuthority}
    (hok : db.authorizeResourcePublish authority id = .ok target) :
    db'.authorizeResourcePublish authority id = .ok target := by
  have hproposals' : db'.proposals = [] := by
    rw [h.savesOnly.proposals, hproposals]
  have hreview : db.canReviewSourceResource authority.userId id =
      db'.canReviewSourceResource authority.userId id := by
    simp [canReviewSourceResource, hproposals, hproposals']
  rcases bind_eq_ok.mp hok with ⟨row, hrow, hok⟩
  rcases bind_eq_ok.mp hok with ⟨owner, howner, hok⟩
  have hfound := Option.filter_eq_some_iff.mp (okOr_eq_ok.mp hrow)
  rcases h.resources id row hfound.1 with ⟨generation, metadata, hrow'⟩
  have halive : row.deleted = false := by
    have hchecks := hfound.2
    simp only [Bool.and_eq_true, Bool.not_eq_true'] at hchecks
    exact hchecks.1.1
  have hread : db'.canReadResource authority.userId id =
      db.canReadResource authority.userId id := by
    unfold canReadResource keepsDeleted sharedWith
    rw [hrow', hfound.1, hreview, h.savesOnly.shares, h.savesOnly.directory]
    simp [halive]
  have hlive : db'.quarantined id = db.quarantined id := by
    unfold quarantined
    rw [h.savesOnly.quarantines]
  refine bind_eq_ok.mpr ⟨{ row with generation, metadata }, ?_, ?_⟩
  · rw [okOr_eq_ok, hrow', Option.filter_eq_some_iff, hread, hlive]
    exact ⟨rfl, hfound.2⟩
  · rw [h.savesOnly.directory]
    exact bind_eq_ok.mpr ⟨owner, howner, hok⟩

theorem workspace_isSome {resourceId user : Uuid} :
    (db.workspace resourceId user).isSome <->
      exists row, row ∈ db.workspaces ∧ row.resourceId = resourceId ∧
        row.workspaceUserId = user := by
  unfold workspace
  simp

theorem findResource_isSome {id : Uuid} :
    (db.findResource id).isSome <->
      exists row, row ∈ db.resources ∧ row.id = id := by
  unfold findResource
  simp

end Db

/-!
## The invariant
-/

section Invariant

variable (ext : Externals) (known : List Revision)

/-- A known revision has this identifier and these parents. -/
def Hashed (id : RevisionId) (parents : List RevisionId) : Prop :=
  exists revision, revision ∈ known ∧ revision.id ext = id ∧
    revision.parents = parents

/-- A prepared save has no answer; a settled one is retained. -/
def Settled (db : Db) (row : RevisionOperationRow) : Prop :=
  row.state = .prepared ∧ row.outcome = none ∨
    row.state ≠ .prepared ∧ exists outcome, row.outcome = some outcome ∧
      outcome.resourceId = row.resourceId ∧
        outcome.revisionId = row.revisionId ∧
          Db.Retains db.snapshots row.resourceId row.revisionId

structure OperationSound (db : Db) (row : RevisionOperationRow) : Prop where
  user : exists authority,
    db.directory.userAuthority row.userId = .ok authority
  revision : Hashed ext known row.revisionId row.parents
  expected : row.expectedHeadRevisionId ∈ row.parents
  workspace : (db.workspace row.resourceId row.userId).isSome
  retained : Db.Retains db.snapshots row.resourceId row.expectedHeadRevisionId
  settled : Settled db row

structure TablesSound (db : Db) : Prop where
  releases : db.releases = []
  proposals : db.proposals = []
  skills : forall row, row ∈ db.resources -> row.kind = .skill
  workspaceOwned : forall row, row ∈ db.workspaces ->
    (db.findResource row.resourceId).isSome
  snapshotOwned : forall resourceId revision,
    Db.Retains db.snapshots resourceId revision ->
      (db.findResource resourceId).isSome
  conflictWorkspace : forall row, row ∈ db.conflicts ->
    (db.workspace row.resourceId row.workspaceUserId).isSome
  oneWorkspace : (db.workspaces.map WorkspaceRow.resourceId).Nodup
  oneConflict : Db.OneConflict db.conflicts
  parents : ParentsAgree ext known db.revisionParents
  branches : forall resourceId user branch,
    db.branch resourceId user = some branch -> branch.Sound db.edges
  operationKey : (db.revisionOperations.map fun row =>
    (row.userId, row.operationId)).Nodup
  operations : forall row, row ∈ db.revisionOperations ->
    OperationSound ext known db row
  imports : forall row, row ∈ db.importOperations ->
    Hashed ext known row.revisionId (Registry.importParents row.fork)

end Invariant

/-- Two rows of one operation, whatever its state and answer. -/
def RevisionOperationRow.SameIntent (a b : RevisionOperationRow) : Prop :=
  { a with state := b.state, outcome := b.outcome } = b

structure PlanSound {registry : Registry} (db : Db)
    (plan : PendingCommit registry.ext) : Prop where
  authority : db.directory.userAuthority plan.authority.userId =
    .ok plan.authority
  user : plan.operation.userId = plan.authority.userId
  operationId : plan.operation.operationId = plan.request.operationId
  requestHash : plan.operation.requestHash = plan.request.requestHash
  parents : plan.parents = plan.operation.parents
  recorded : exists row, row ∈ db.revisionOperations ∧
    row.SameIntent plan.operation
  target : exists target,
    db.authorizeResourcePublish plan.authority plan.operation.resourceId =
        .ok target ∧ target.namespaceId = plan.operation.namespaceId

structure SaveInvariant {registry : Registry} (directory : Directory)
    (events : List SaveEvent) (server : Server registry) : Prop where
  users : server.db.directory = directory
  tables : TablesSound registry.ext (hashedRevisions directory events)
    server.db
  plans : forall plan, plan ∈ server.inFlight -> PlanSound server.db plan
  answers : forall event, event ∈ events ->
    forall userId request outcome,
      event.2 = .committed userId request (.ok outcome) ->
        Recorded server.db userId request outcome

/-!
## Growing histories
-/

section Growing

variable {ext : Externals} {known known' : List Revision} {db db' : Db}

theorem Hashed.mono {id : RevisionId} {parents : List RevisionId}
    (hsub : forall revision, revision ∈ known -> revision ∈ known')
    (h : Hashed ext known id parents) : Hashed ext known' id parents := by
  rcases h with ⟨revision, hknown, hrevision⟩
  exact ⟨revision, hsub revision hknown, hrevision⟩

theorem Settled.mono {row : RevisionOperationRow} (hext : Db.Extends db db')
    (h : Settled db row) : Settled db' row := by
  rcases h with hprepared | ⟨hstate, outcome, houtcome, hid, hrevision, hkept⟩
  · exact .inl hprepared
  · exact .inr ⟨hstate, outcome, houtcome, hid, hrevision,
      hext.retains _ _ hkept⟩

theorem OperationSound.mono {row : RevisionOperationRow}
    (hsub : forall revision, revision ∈ known -> revision ∈ known')
    (hext : Db.Extends db db') (h : OperationSound ext known db row) :
    OperationSound ext known' db' row where
  user := by
    rw [hext.savesOnly.directory]
    exact h.user
  revision := h.revision.mono hsub
  expected := h.expected
  workspace := hext.workspaces _ _ h.workspace
  retained := hext.retains _ _ h.retained
  settled := h.settled.mono hext

theorem TablesSound.mono
    (hsub : forall revision, revision ∈ known -> revision ∈ known')
    (h : TablesSound ext known db) : TablesSound ext known' db :=
  { h with
    parents := h.parents.mono hsub
    operations := fun row hrow =>
      (h.operations row hrow).mono hsub Db.Extends.of_operations
    imports := fun row hrow => (h.imports row hrow).mono hsub }

theorem PlanSound.mono {registry : Registry}
    {plan : PendingCommit registry.ext} (hext : Db.Extends db db')
    (hproposals : db.proposals = [])
    (hrows : forall row, row ∈ db.revisionOperations ->
      exists row', row' ∈ db'.revisionOperations ∧ row.SameIntent row')
    (h : PlanSound db plan) : PlanSound db' plan where
  authority := by
    rw [hext.savesOnly.directory]
    exact h.authority
  user := h.user
  operationId := h.operationId
  requestHash := h.requestHash
  parents := h.parents
  recorded := by
    rcases h.recorded with ⟨row, hrow, hintent⟩
    rcases hrows row hrow with ⟨row', hrow', hsame⟩
    refine ⟨row', hrow', ?_⟩
    unfold RevisionOperationRow.SameIntent at hintent hsame ⊢
    rw [← hintent, ← hsame]
  target := by
    rcases h.target with ⟨target, htarget, hspace⟩
    exact ⟨target, hext.authorize hproposals htarget, hspace⟩

end Growing

theorem hashedRevisions_mono {directory : Directory}
    (events : List SaveEvent) (event : SaveEvent) :
    forall revision, revision ∈ hashedRevisions directory events ->
      revision ∈ hashedRevisions directory (events ++ [event]) := by
  intro revision hrevision
  unfold hashedRevisions
  rw [List.filterMap_append]
  exact List.mem_append_left _ hrevision

theorem mem_hashedRevisions_last {directory : Directory}
    {events : List SaveEvent} {event : SaveEvent} {revision : Revision}
    (h : event.revision directory = some revision) :
    revision ∈ hashedRevisions directory (events ++ [event]) := by
  unfold hashedRevisions
  rw [List.filterMap_append]
  refine List.mem_append_right _ ?_
  simp [h]

/-!
## Preparing keeps the invariant
-/

section Prepare

variable {ext : Externals} {known : List Revision} {db : Db}

theorem findRevisionOperation_of_mem
    (hkey : (db.revisionOperations.map fun row =>
      (row.userId, row.operationId)).Nodup)
    {row : RevisionOperationRow} (hrow : row ∈ db.revisionOperations) :
    db.findRevisionOperation row.userId row.operationId = some row := by
  have hfind := find?_key_eq_some hkey hrow
  unfold Db.findRevisionOperation
  rw [← hfind]
  congr 1
  funext other
  simp

theorem ensurePrivateWorkspaceForUser_eq_self {resourceId user : Uuid}
    (h : db.releases = []) :
    db.ensurePrivateWorkspaceForUser resourceId user = db := by
  unfold Db.ensurePrivateWorkspaceForUser
  split
  · split
    · simp [h]
    · rfl
  · rfl

theorem retains_of_branch (h : TablesSound ext known db)
    {resourceId user : Uuid} {workspace : WorkspaceRow}
    (hworkspace : db.workspace resourceId user = some workspace) :
    Db.Retains db.snapshots resourceId workspace.revisionId := by
  have hbranch : db.branch resourceId user = some
      { head := workspace.revisionId
        saved := Db.Retains db.snapshots resourceId
        conflict := (db.activeConflict resourceId user).map
          WorkspaceConflictRow.conflict } := by
    unfold Db.branch
    rw [hworkspace]
    rfl
  exact (h.branches _ _ _ hbranch).headSaved

theorem TablesSound.prepare (h : TablesSound ext known db)
    {row : RevisionOperationRow}
    (hnone : db.findRevisionOperation row.userId row.operationId = none)
    (hrow : OperationSound ext known db row) :
    TablesSound ext known { db with
      revisionOperations := db.revisionOperations ++ [row] } := by
  have hfresh : forall other, other ∈ db.revisionOperations ->
      (other.userId, other.operationId) ≠ (row.userId, row.operationId) := by
    intro other hother hkeys
    have habsent := List.find?_eq_none.mp hnone other hother
    simp only [Prod.mk.injEq] at hkeys
    simp [hkeys.1, hkeys.2] at habsent
  have hkey : ((db.revisionOperations ++ [row]).map fun row =>
      (row.userId, row.operationId)).Nodup := by
    rw [List.map_append, List.nodup_append]
    refine ⟨h.operationKey, by simp, ?_⟩
    intro key hkey last hlast
    rcases List.mem_map.mp hkey with ⟨other, hother, rfl⟩
    rw [List.map_singleton, List.mem_singleton] at hlast
    rw [hlast]
    exact hfresh other hother
  refine { h with operationKey := hkey, operations := ?_ }
  intro other hother
  have hsound : OperationSound ext known db other := by
    rcases List.mem_append.mp hother with hold | hnew
    · exact h.operations other hold
    · rw [List.mem_singleton.mp hnew]
      exact hrow
  exact hsound.mono (fun _ hknown => hknown) Db.Extends.of_operations

theorem TablesSound.prepareImport (h : TablesSound ext known db)
    {row : ImportOperationRow}
    (hrow : Hashed ext known row.revisionId (Registry.importParents row.fork)) :
    TablesSound ext known { db with
      importOperations := db.importOperations ++ [row] } := by
  refine { h with operations := ?_, imports := ?_ }
  · intro other hother
    exact (h.operations other hother).mono (fun _ hknown => hknown)
      Db.Extends.of_operations
  · intro other hother
    rcases List.mem_append.mp hother with hold | hnew
    · exact h.imports other hold
    · rw [List.mem_singleton.mp hnew]
      exact hrow

end Prepare

/-!
## Importing keeps the invariant
-/

section Import

variable {ext : Externals} {known : List Revision} {db db' : Db}

theorem parentsStored_of_hashed {id : RevisionId} {parents : List RevisionId}
    (hno : NoRevisionCollision ext known) (h : TablesSound ext known db)
    (hhashed : Hashed ext known id parents)
    (hparents : db'.revisionParents =
      (db.insertParents id parents).revisionParents) :
    Db.ParentsStored ext known id parents db db' := by
  rcases hhashed with ⟨revision, hknown, rfl, rfl⟩
  have hstored := Db.insertParents_stored hno hknown h.parents
  have hedges : db'.edges =
      (db.insertParents (revision.id ext) revision.parents).edges := by
    unfold Db.edges
    rw [hparents]
  constructor
  · rw [hparents]
    exact hstored.agree
  · rw [hedges]
    exact hstored.edges
  · rw [hedges]
    exact hstored.grows

variable {registry : Registry} {plan : PendingImport registry.ext}
  {fork : Option ValidatedFork}

theorem findResource_concat {row : ResourceRow} {id : Uuid}
    (h : db'.resources = db.resources ++ [row]) :
    db'.findResource id = (db.findResource id).or
      (if row.id = id then some row else none) := by
  unfold Db.findResource
  rw [h, List.find?_append]
  congr 1
  by_cases hid : row.id = id
  · simp [hid]
  · simp [hid]

theorem workspace_concat {row : WorkspaceRow} {resourceId user : Uuid}
    (h : db'.workspaces = db.workspaces ++ [row]) :
    db'.workspace resourceId user = (db.workspace resourceId user).or
      (if row.resourceId = resourceId ∧ row.workspaceUserId = user then
        some row else none) := by
  unfold Db.workspace
  rw [h, List.find?_append]
  congr 1
  by_cases hrow : row.resourceId = resourceId ∧ row.workspaceUserId = user
  · simp [hrow]
  · simp only [hrow, if_false, List.find?_cons, List.find?_nil]
    rfl

theorem importWritten_extends
    (hw : Registry.ImportWritten plan fork db db')
    (hstored : Db.ParentsStored ext known plan.operation.revisionId
      (Registry.importParents fork) db db') :
    Db.Extends db db' where
  savesOnly := hw.savesOnly
  edges := hstored.grows
  retains := by
    intro resourceId revision hkept
    exact (hw.retains resourceId revision).mpr (.inl hkept)
  workspaces := by
    intro resourceId user hsome
    rcases hw.workspaces with ⟨row, _, _, _, hworkspaces⟩
    rw [workspace_concat hworkspaces, Option.isSome_or, hsome]
    rfl
  resources := by
    intro id row hrow
    rcases hw.resources with ⟨new, _, _, hresources⟩
    refine ⟨row.generation, row.metadata, ?_⟩
    rw [findResource_concat hresources, hrow]
    rfl

theorem importWritten_branch (h : TablesSound ext known db)
    (hw : Registry.ImportWritten plan fork db db')
    (hgrows : forall edge, edge ∈ db.edges -> edge ∈ db'.edges)
    {resourceId user : Uuid} {branch : Branch RevisionId}
    (hbranch : db'.branch resourceId user = some branch) :
    branch.Sound db'.edges := by
  rcases hw.workspaces with ⟨row, hid, huser, hhead, hworkspaces⟩
  have hconflicts : db'.activeConflict resourceId user =
      db.activeConflict resourceId user := by
    unfold Db.activeConflict
    rw [hw.conflicts]
  by_cases hresource : resourceId = plan.operation.resourceId
  · have habsent : forall id, id = plan.operation.resourceId ->
        (db.findResource id).isSome -> False := by
      rintro id rfl hsome
      rw [hw.fresh] at hsome
      cases hsome
    have hworkspace : db.workspace resourceId user = none := by
      refine Option.eq_none_iff_forall_not_mem.mpr fun old hold => ?_
      have hmem := List.mem_of_find?_eq_some hold
      have hkeys := List.find?_some hold
      simp only [decide_eq_true_eq] at hkeys
      exact habsent _ (hkeys.1.trans hresource) (h.workspaceOwned old hmem)
    have hnone : db.activeConflict resourceId user = none := by
      refine Option.eq_none_iff_forall_not_mem.mpr fun old hold => ?_
      have hactive := Db.activeConflict_eq_some hold
      have hkeys := Db.unresolvedFor_eq_true.mp hactive.2
      have hhome := h.conflictWorkspace old hactive.1
      rw [hkeys.1, hkeys.2.1, hworkspace] at hhome
      cases hhome
    have hsaved : Db.Retains db'.snapshots resourceId =
        fun other => other = plan.operation.revisionId := by
      funext other
      apply propext
      rw [hw.retains]
      constructor
      · rintro (hold | ⟨_, hnew⟩)
        · exact (habsent _ hresource (h.snapshotOwned _ _ hold)).elim
        · exact hnew
      · intro hnew
        exact .inr ⟨hresource, hnew⟩
    unfold Db.branch at hbranch
    rw [workspace_concat hworkspaces, hworkspace, hconflicts, hnone,
      hsaved] at hbranch
    split at hbranch
    · cases hbranch
      dsimp only
      rw [hhead]
      exact Branch.start_sound plan.operation.revisionId
    · cases hbranch
  · have hsame : db'.branch resourceId user = db.branch resourceId user := by
      refine Db.branch_congr ?_ hconflicts ?_
      · rw [workspace_concat hworkspaces, if_neg, Option.or_none]
        rintro ⟨hrow, _⟩
        exact hresource (hrow.symm.trans hid)
      · intro revision
        rw [hw.retains]
        exact or_iff_left fun hnew => hresource hnew.1
    rw [hsame] at hbranch
    exact (h.branches _ _ _ hbranch).mono hgrows

theorem findResource_isSome_of_extends (hext : Db.Extends db db') {id : Uuid}
    (h : (db.findResource id).isSome) : (db'.findResource id).isSome := by
  rcases Option.isSome_iff_exists.mp h with ⟨row, hrow⟩
  rcases hext.resources id row hrow with ⟨_, _, hrow'⟩
  rw [hrow']
  rfl

theorem TablesSound.importSkill (h : TablesSound ext known db)
    (hw : Registry.ImportWritten plan fork db db')
    (hstored : Db.ParentsStored ext known plan.operation.revisionId
      (Registry.importParents fork) db db') :
    TablesSound ext known db' := by
  have hext := importWritten_extends hw hstored
  rcases hw.resources with ⟨resource, hid, hkind, hresources⟩
  rcases hw.workspaces with ⟨workspace, hhome, _, _, hworkspaces⟩
  have hnew : (db'.findResource plan.operation.resourceId).isSome := by
    rw [findResource_concat hresources, hid]
    simp
  constructor
  · rw [hw.savesOnly.releases]
    exact h.releases
  · rw [hw.savesOnly.proposals]
    exact h.proposals
  · intro row hrow
    rw [hresources] at hrow
    rcases List.mem_append.mp hrow with hold | hlast
    · exact h.skills row hold
    · rw [List.mem_singleton.mp hlast]
      exact hkind
  · intro row hrow
    rw [hworkspaces] at hrow
    rcases List.mem_append.mp hrow with hold | hlast
    · exact findResource_isSome_of_extends hext (h.workspaceOwned row hold)
    · rw [List.mem_singleton.mp hlast, hhome]
      exact hnew
  · intro resourceId revision hkept
    rcases (hw.retains resourceId revision).mp hkept with hold | ⟨rfl, _⟩
    · exact findResource_isSome_of_extends hext
        (h.snapshotOwned resourceId revision hold)
    · exact hnew
  · intro row hrow
    rw [hw.conflicts] at hrow
    exact hext.workspaces _ _ (h.conflictWorkspace row hrow)
  · rw [hworkspaces, List.map_append, List.nodup_append]
    refine ⟨h.oneWorkspace, by simp, ?_⟩
    intro id hmem last hlast hsame
    rcases List.mem_map.mp hmem with ⟨old, hold, rfl⟩
    rw [List.map_singleton, List.mem_singleton, hhome] at hlast
    have howned := h.workspaceOwned old hold
    rw [hsame, hlast, hw.fresh] at howned
    cases howned
  · rw [hw.conflicts]
    exact h.oneConflict
  · exact hstored.agree
  · intro resourceId user branch hbranch
    exact importWritten_branch h hw hstored.grows hbranch
  · rw [hw.operations]
    exact h.operationKey
  · intro row hrow
    rw [hw.operations] at hrow
    exact (h.operations row hrow).mono (fun _ hknown => hknown) hext
  · intro row hrow
    rcases hw.imports with ⟨outcome, himports⟩
    rw [himports] at hrow
    rcases mem_updateWhere.mp hrow with ⟨old, hold, rfl⟩
    have hhashed := h.imports old hold
    split
    · exact hhashed
    · exact hhashed

end Import

/-!
## Committing keeps the invariant
-/

section Commit

variable {ext : Externals} {known : List Revision} {db db' : Db}

theorem findResource_of_setResourceMetadata {resourceId id : Uuid}
    {generation : Generation} {metadata : SkillMetadata}
    (h : db'.resources =
      (db.setResourceMetadata resourceId generation metadata).resources) :
    db'.findResource id = (db.findResource id).map fun row =>
      if row.id = resourceId then { row with generation, metadata }
      else row := by
  unfold Db.findResource
  rw [h, Db.setResourceMetadata, find?_updateWhere (by intro row _; rfl)]
  cases db.resources.find? fun row => decide (row.id = id) with
  | none => rfl
  | some row => simp

variable {registry : Registry} {newConflictId : Uuid}
  {plan : PendingCommit registry.ext} {workspace : WorkspaceRow}
  {outcome : PrivateRevisionCommitResponse}

theorem commitWritten_workspaces
    (hw : Registry.CommitWritten newConflictId plan workspace outcome db db') :
    (forall resourceId user, (db.workspace resourceId user).isSome ->
        (db'.workspace resourceId user).isSome) ∧
      db'.workspaces.map (fun row => (row.resourceId, row.workspaceUserId)) =
        db.workspaces.map fun row => (row.resourceId, row.workspaceUserId) := by
  cases hw.written with
  | advance generation _ _ _ hworkspaces _ =>
      constructor
      · intro resourceId user hsome
        rw [Db.workspace_of_setWorkspace hworkspaces, Option.isSome_map]
        exact hsome
      · rw [hworkspaces, Db.setWorkspace]
        unfold updateWhere
        rw [List.map_map]
        apply List.map_congr_left
        intro row _
        rw [Function.comp_apply]
        split
        · rfl
        · rfl
  | diverge _ _ _ _ hworkspaces _ _ _ =>
      constructor
      · intro resourceId user hsome
        unfold Db.workspace
        rw [hworkspaces]
        exact hsome
      · rw [hworkspaces]

theorem commitWritten_extends
    (hw : Registry.CommitWritten newConflictId plan workspace outcome db db')
    (hstored : Db.ParentsStored ext known plan.operation.revisionId
      plan.parents db db') :
    Db.Extends db db' where
  savesOnly := hw.savesOnly
  edges := hstored.grows
  retains := by
    intro resourceId revision hkept
    exact (hw.retains resourceId revision).mpr (.inl hkept)
  workspaces := (commitWritten_workspaces hw).1
  resources := by
    intro id row hrow
    rcases hw.resources with hsame | ⟨generation, hset⟩
    · refine ⟨row.generation, row.metadata, ?_⟩
      unfold Db.findResource
      rw [hsame]
      exact hrow
    · rw [findResource_of_setResourceMetadata hset, hrow, Option.map_some]
      split
      · exact ⟨generation, plan.content.metadata, rfl⟩
      · exact ⟨row.generation, row.metadata, rfl⟩

theorem commitWritten_conflicts
    (hw : Registry.CommitWritten newConflictId plan workspace outcome db db')
    {row : WorkspaceConflictRow} (hrow : row ∈ db'.conflicts) :
    (row.resourceId = plan.operation.resourceId ∧
        row.workspaceUserId = plan.authority.userId) ∨
      exists old, old ∈ db.conflicts ∧ row.resourceId = old.resourceId ∧
        row.workspaceUserId = old.workspaceUserId := by
  cases hw.written with
  | advance _ _ _ _ _ hconflicts =>
      rcases hconflicts with ⟨_, hsame⟩ | ⟨_, _, _, _, _, hresolved⟩
      · rw [hsame] at hrow
        exact .inr ⟨row, hrow, rfl, rfl⟩
      · rw [hresolved] at hrow
        rcases mem_updateWhere.mp hrow with ⟨old, hold, rfl⟩
        refine .inr ⟨old, hold, ?_⟩
        split
        · exact ⟨rfl, rfl⟩
        · exact ⟨rfl, rfl⟩
  | diverge last _ _ _ _ _ hconflicts hraised =>
      rw [hconflicts] at hrow
      rcases List.mem_append.mp hrow with hold | hlast
      · exact .inr ⟨row, hold, rfl, rfl⟩
      · rw [List.mem_singleton.mp hlast]
        have hkeys := Db.unresolvedFor_eq_true.mp hraised.unresolved
        exact .inl ⟨hkeys.1, hkeys.2.1⟩

/-- One workspace for a skill makes its user unique. -/
theorem TablesSound.user_eq (h : TablesSound ext known db)
    {resourceId a b : Uuid} (ha : (db.workspace resourceId a).isSome)
    (hb : (db.workspace resourceId b).isSome) : a = b := by
  rcases Db.workspace_isSome.mp ha with ⟨rowA, hrowA, hidA, huserA⟩
  rcases Db.workspace_isSome.mp hb with ⟨rowB, hrowB, hidB, huserB⟩
  have hsame := List.inj_on_of_nodup_map h.oneWorkspace hrowA hrowB
    (hidA.trans hidB.symm)
  rw [← huserA, ← huserB, hsame]

theorem commitWritten_branch (h : TablesSound ext known db)
    (hw : Registry.CommitWritten newConflictId plan workspace outcome db db')
    (hstored : Db.ParentsStored ext known plan.operation.revisionId
      plan.parents db db')
    (hworkspace : db.workspace plan.operation.resourceId
      plan.authority.userId = some workspace)
    (hexpected : plan.operation.expectedHeadRevisionId ∈ plan.parents)
    (hretained : Db.Retains db.snapshots plan.operation.resourceId
      plan.operation.expectedHeadRevisionId)
    {resourceId user : Uuid} {branch : Branch RevisionId}
    (hbranch : db'.branch resourceId user = some branch) :
    branch.Sound db'.edges := by
  by_cases hresource : resourceId = plan.operation.resourceId
  · subst hresource
    have hkept : (db.workspace plan.operation.resourceId user).isSome := by
      have hsome : (db'.workspace plan.operation.resourceId user).isSome := by
        unfold Db.branch at hbranch
        rw [← Option.isSome_map, hbranch]
        rfl
      rw [Db.workspace_isSome] at hsome ⊢
      rcases hsome with ⟨row, hrow, hid, huser⟩
      have hkeys := List.mem_map_of_mem
        (f := fun row => (row.resourceId, row.workspaceUserId)) hrow
      rw [(commitWritten_workspaces hw).2] at hkeys
      rcases List.mem_map.mp hkeys with ⟨old, hold, hsame⟩
      simp only [Prod.mk.injEq] at hsame
      exact ⟨old, hold, hsame.1.trans hid, hsame.2.trans huser⟩
    have huser : user = plan.authority.userId :=
      h.user_eq hkept (by rw [hworkspace]; rfl)
    subst huser
    rcases hw.branch_move h.oneConflict hworkspace hexpected hretained
      hstored.edges with ⟨old, new, hold, hnew, hmove⟩
    rw [hbranch] at hnew
    cases hnew
    exact hmove.sound ((h.branches _ _ _ hold).mono hstored.grows)
  · rw [hw.branch_other hresource] at hbranch
    exact (h.branches _ _ _ hbranch).mono hstored.grows

theorem commitWritten_outcome
    (hw : Registry.CommitWritten newConflictId plan workspace outcome db db') :
    outcome.resourceId = plan.operation.resourceId ∧
      outcome.revisionId = plan.operation.revisionId := by
  cases hw.written with
  | advance _ _ _ houtcome _ _ =>
      rw [houtcome]
      exact ⟨rfl, rfl⟩
  | diverge _ _ _ houtcome _ _ _ _ =>
      rw [houtcome]
      exact ⟨rfl, rfl⟩

/-- A row of the operations behind a commit: untouched, or the settled form of
the operation that it commits. -/
theorem commitWritten_operation
    (hw : Registry.CommitWritten newConflictId plan workspace outcome db db')
    {row : RevisionOperationRow} (hrow : row ∈ db'.revisionOperations) :
    row ∈ db.revisionOperations ∨
      exists old, old ∈ db.revisionOperations ∧
        old.userId = plan.authority.userId ∧
        old.operationId = plan.request.operationId ∧
        old.SameIntent row ∧ row.state ≠ .prepared ∧
        row.outcome = some outcome := by
  rcases hw.operations with ⟨state, hstate, hrows⟩
  rw [hrows] at hrow
  rcases mem_updateWhere.mp hrow with ⟨old, hold, rfl⟩
  split
  · rename_i hmatch
    simp only [decide_eq_true_eq] at hmatch
    exact .inr ⟨old, hold, hmatch.1, hmatch.2.1, rfl, hstate, rfl⟩
  · exact .inl hold

theorem commitWritten_keeps_intent
    (hw : Registry.CommitWritten newConflictId plan workspace outcome db db')
    {row : RevisionOperationRow} (hrow : row ∈ db.revisionOperations) :
    exists row', row' ∈ db'.revisionOperations ∧ row.SameIntent row' ∧
      (row.state ≠ .prepared -> row' = row) ∧
      (row.userId = plan.authority.userId ->
        row.operationId = plan.request.operationId ->
          row.state = .prepared ->
            row'.state ≠ .prepared ∧ row'.outcome = some outcome) := by
  rcases hw.operations with ⟨state, hstate, hrows⟩
  refine ⟨_, by rw [hrows]; exact mem_updateWhere.mpr ⟨row, hrow, rfl⟩, ?_⟩
  split
  · rename_i hmatch
    simp only [decide_eq_true_eq] at hmatch
    refine ⟨rfl, fun hsettled => absurd hmatch.2.2 hsettled, ?_⟩
    intro _ _ _
    exact ⟨hstate, rfl⟩
  · rename_i hmiss
    simp only [decide_eq_true_eq] at hmiss
    refine ⟨rfl, fun _ => rfl, ?_⟩
    intro huser hoperation hprepared
    exact absurd ⟨huser, hoperation, hprepared⟩ hmiss

theorem commitWritten_operationKey
    (hw : Registry.CommitWritten newConflictId plan workspace outcome db db') :
    (db'.revisionOperations.map fun row => (row.userId, row.operationId)) =
      db.revisionOperations.map fun row => (row.userId, row.operationId) := by
  rcases hw.operations with ⟨state, _, hrows⟩
  rw [hrows, Db.finishRevisionOperation]
  unfold updateWhere
  rw [List.map_map]
  apply List.map_congr_left
  intro row _
  rw [Function.comp_apply]
  split
  · rfl
  · rfl

/-- The operation that a commit settles is sound, and so are the others. -/
theorem commitWritten_operations_sound (h : TablesSound ext known db)
    (hw : Registry.CommitWritten newConflictId plan workspace outcome db db')
    (hext : Db.Extends db db') {locked : RevisionOperationRow}
    (hlocked : locked ∈ db.revisionOperations)
    (huser : locked.userId = plan.authority.userId)
    (hoperation : locked.operationId = plan.request.operationId)
    (hintent : locked.SameIntent plan.operation)
    {row : RevisionOperationRow} (hrow : row ∈ db'.revisionOperations) :
    OperationSound ext known db' row := by
  rcases commitWritten_operation hw hrow with
    hold | ⟨old, hold, holdUser, holdOperation, hsame, hstate, houtcome⟩
  · exact (h.operations row hold).mono (fun _ hknown => hknown) hext
  · have hfound := findRevisionOperation_of_mem h.operationKey hold
    have hfound' := findRevisionOperation_of_mem h.operationKey hlocked
    rw [holdUser, holdOperation] at hfound
    rw [huser, hoperation, hfound] at hfound'
    cases hfound'
    have hkept := (h.operations locked hlocked).mono
      (fun _ hknown => hknown) hext
    have hids := commitWritten_outcome hw
    have hresource : row.resourceId = plan.operation.resourceId := by
      rw [← hsame, ← hintent]
    have hrevision : row.revisionId = plan.operation.revisionId := by
      rw [← hsame, ← hintent]
    constructor
    · rw [← hsame]
      exact hkept.user
    · rw [← hsame]
      exact hkept.revision
    · rw [← hsame]
      exact hkept.expected
    · rw [← hsame]
      exact hkept.workspace
    · rw [← hsame]
      exact hkept.retained
    · refine .inr ⟨hstate, outcome, houtcome, ?_, ?_, ?_⟩
      · rw [hids.1, hresource]
      · rw [hids.2, hrevision]
      · exact (hw.retains _ _).mpr (.inr ⟨hresource, hrevision⟩)

theorem TablesSound.commit (h : TablesSound ext known db)
    (hw : Registry.CommitWritten newConflictId plan workspace outcome db db')
    (hstored : Db.ParentsStored ext known plan.operation.revisionId
      plan.parents db db')
    (hworkspace : db.workspace plan.operation.resourceId
      plan.authority.userId = some workspace)
    {locked : RevisionOperationRow}
    (hlocked : locked ∈ db.revisionOperations)
    (huser : locked.userId = plan.authority.userId)
    (hoperation : locked.operationId = plan.request.operationId)
    (hintent : locked.SameIntent plan.operation)
    (hparents : plan.parents = plan.operation.parents) :
    TablesSound ext known db' := by
  have hext := commitWritten_extends hw hstored
  have hsound := h.operations locked hlocked
  have hexpected : plan.operation.expectedHeadRevisionId ∈ plan.parents := by
    rw [hparents, ← hintent]
    exact hsound.expected
  have hretained : Db.Retains db.snapshots plan.operation.resourceId
      plan.operation.expectedHeadRevisionId := by
    rw [← hintent]
    exact hsound.retained
  have howned : (db.findResource plan.operation.resourceId).isSome :=
    h.snapshotOwned _ _ hretained
  constructor
  · rw [hw.savesOnly.releases]
    exact h.releases
  · rw [hw.savesOnly.proposals]
    exact h.proposals
  · intro row hrow
    rcases hw.resources with hsame | ⟨generation, hset⟩
    · rw [hsame] at hrow
      exact h.skills row hrow
    · rw [hset] at hrow
      rcases mem_updateWhere.mp hrow with ⟨old, hold, rfl⟩
      have hskill := h.skills old hold
      split
      · exact hskill
      · exact hskill
  · intro row hrow
    have hkeys := List.mem_map_of_mem
      (f := fun row => (row.resourceId, row.workspaceUserId)) hrow
    rw [(commitWritten_workspaces hw).2] at hkeys
    rcases List.mem_map.mp hkeys with ⟨old, hold, hsame⟩
    simp only [Prod.mk.injEq] at hsame
    rw [← hsame.1]
    exact findResource_isSome_of_extends hext (h.workspaceOwned old hold)
  · intro resourceId revision hkept
    rcases (hw.retains resourceId revision).mp hkept with hold | ⟨rfl, _⟩
    · exact findResource_isSome_of_extends hext
        (h.snapshotOwned resourceId revision hold)
    · exact findResource_isSome_of_extends hext howned
  · intro row hrow
    rcases commitWritten_conflicts hw hrow with
      ⟨hid, huser⟩ | ⟨old, hold, hid, huser⟩
    · rw [hid, huser]
      refine hext.workspaces _ _ ?_
      rw [hworkspace]
      rfl
    · rw [hid, huser]
      exact hext.workspaces _ _ (h.conflictWorkspace old hold)
  · have hids := congrArg (List.map Prod.fst) (commitWritten_workspaces hw).2
    rw [List.map_map, List.map_map] at hids
    have hnodup := h.oneWorkspace
    change (db'.workspaces.map (Prod.fst ∘ fun row : WorkspaceRow =>
      (row.resourceId, row.workspaceUserId))).Nodup
    rw [hids]
    exact hnodup
  · exact hw.oneConflict h.oneConflict
  · exact hstored.agree
  · intro resourceId user branch hbranch
    exact commitWritten_branch h hw hstored hworkspace hexpected hretained
      hbranch
  · rw [commitWritten_operationKey hw]
    exact h.operationKey
  · intro row hrow
    exact commitWritten_operations_sound h hw hext hlocked huser hoperation
      hintent hrow
  · intro row hrow
    rw [hw.imports] at hrow
    exact h.imports row hrow

end Commit

end Denju
