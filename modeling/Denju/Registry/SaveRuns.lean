import Denju.Registry.SaveSafety
import Denju.Core.ContentAddressing

/-!
# Runs of the save protocol

Every call keeps the invariant, so every run does.  From it follow the promises
of the protocol: how the head moves, that no answered save is lost, what an
unresolved conflict looks like, and what a repeated commit is answered.
-/

namespace Denju

open Lib

section Steps

variable {registry : Registry} {directory : Directory}
  {events : List SaveEvent} {event : SaveEvent}
  {server server' : Server registry}

/-- The rows of operations survive, and the settled ones unchanged. -/
def KeepsOperations (db db' : Db) : Prop :=
  forall row, row ∈ db.revisionOperations ->
    exists row', row' ∈ db'.revisionOperations ∧ row.SameIntent row' ∧
      (row.state ≠ .prepared -> row' = row)

theorem KeepsOperations.of_subset {db db' : Db}
    (h : forall row, row ∈ db.revisionOperations ->
      row ∈ db'.revisionOperations) : KeepsOperations db db' := by
  intro row hrow
  exact ⟨row, h row hrow, rfl, fun _ => rfl⟩

theorem SaveInvariant.extend (h : SaveInvariant directory events server)
    (hext : Db.Extends server.db server'.db)
    (hrows : KeepsOperations server.db server'.db)
    (htables : TablesSound registry.ext
      (hashedRevisions directory (events ++ [event])) server'.db)
    (hplans : forall plan, plan ∈ server'.inFlight ->
      PlanSound server.db plan)
    (hanswer : forall userId request outcome,
      event.2 = .committed userId request (.ok outcome) ->
        Recorded server'.db userId request outcome) :
    SaveInvariant directory (events ++ [event]) server' where
  users := by
    rw [hext.savesOnly.directory]
    exact h.users
  tables := htables
  plans := by
    intro plan hplan
    refine (hplans plan hplan).mono hext h.tables.proposals ?_
    intro row hrow
    rcases hrows row hrow with ⟨row', hrow', hintent, _⟩
    exact ⟨row', hrow', hintent⟩
  answers := by
    intro past hpast userId request outcome hpastAnswer
    rcases List.mem_append.mp hpast with hold | hlast
    · rcases h.answers past hold userId request outcome hpastAnswer with
        ⟨row, hrow, huser, hoperation, hhash, hstate, houtcome⟩
      rcases hrows row hrow with ⟨row', hrow', _, hsame⟩
      rw [hsame hstate] at hrow'
      exact ⟨row, hrow', huser, hoperation, hhash, hstate, houtcome⟩
    · rw [List.mem_singleton.mp hlast] at hpastAnswer
      exact hanswer userId request outcome hpastAnswer

theorem Db.Extends.refl (db : Db) : Db.Extends db db :=
  Db.Extends.of_operations

/-- A call that leaves the database alone. -/
theorem SaveInvariant.stutter (h : SaveInvariant directory events server)
    (hdb : server'.db = server.db)
    (hplans : forall plan, plan ∈ server'.inFlight ->
      PlanSound server.db plan)
    (hanswer : forall userId request outcome,
      event.2 = .committed userId request (.ok outcome) ->
        Recorded server.db userId request outcome) :
    SaveInvariant directory (events ++ [event]) server' := by
  refine h.extend ?_ ?_ ?_ hplans ?_
  · rw [hdb]
    exact Db.Extends.refl server.db
  · rw [hdb]
    exact .of_subset fun _ hrow => hrow
  · rw [hdb]
    exact h.tables.mono (hashedRevisions_mono events event)
  · rw [hdb]
    exact hanswer

/-- The operation that a commit in flight finds again is the one it has read. -/
theorem PlanSound.sameIntent {db : Db} {plan : PendingCommit registry.ext}
    (h : PlanSound db plan)
    (hkey : (db.revisionOperations.map fun row =>
      (row.userId, row.operationId)).Nodup)
    {locked : RevisionOperationRow}
    (hlocked : db.findRevisionOperation plan.authority.userId
      plan.request.operationId = some locked) :
    locked.SameIntent plan.operation := by
  rcases h.recorded with ⟨row, hrow, hintent⟩
  have huser : row.userId = plan.authority.userId := by
    rw [← h.user, ← hintent]
  have hoperation : row.operationId = plan.request.operationId := by
    rw [← h.operationId, ← hintent]
  have hfound := findRevisionOperation_of_mem hkey hrow
  rw [huser, hoperation, hlocked] at hfound
  cases hfound
  exact hintent

/-- The parents of a save in flight are stored with it. -/
theorem PlanSound.stored {known : List Revision} {db db' : Db}
    {plan : PendingCommit registry.ext} {newConflictId : Uuid}
    {workspace : WorkspaceRow} {outcome : PrivateRevisionCommitResponse}
    (h : PlanSound db plan) (htables : TablesSound registry.ext known db)
    (hno : NoRevisionCollision registry.ext known)
    {locked : RevisionOperationRow}
    (hlocked : db.findRevisionOperation plan.authority.userId
      plan.request.operationId = some locked)
    (hw : Registry.CommitWritten newConflictId plan workspace outcome db
      db') :
    Db.ParentsStored registry.ext known plan.operation.revisionId plan.parents
      db db' := by
  have hintent := h.sameIntent htables.operationKey hlocked
  have hhashed := (htables.operations locked
    (findRevisionOperation_eq_some hlocked).1).revision
  have hrevision : locked.revisionId = plan.operation.revisionId := by
    rw [← hintent]
  have hparents : locked.parents = plan.parents := by
    rw [h.parents, ← hintent]
  rw [hrevision, hparents] at hhashed
  exact parentsStored_of_hashed hno htables hhashed hw.parents

/-!
## Every call keeps the invariant
-/

theorem Registry.Verified.planSound {db : Db}
    {plan : PendingCommit registry.ext} {userId : Uuid}
    {request : CommitRequest}
    (h : Registry.Verified plan userId request db) : PlanSound db plan := by
  rcases findRevisionOperation_eq_some h.operation with
    ⟨hmem, huser, hoperation⟩
  rcases Directory.userAuthority_eq_ok h.authority with ⟨_, _, _, hid, _⟩
  constructor
  · rw [hid]
    exact h.authority
  · exact huser
  · rw [hoperation, h.requested]
  · rw [h.requestHash, h.requested]
  · exact h.parents
  · exact ⟨plan.operation, hmem, rfl⟩
  · exact h.target

/-- A stored operation is new, and its expected head is retained. -/
theorem TablesSound.storePrivateRevision {known : List Revision} {db db' : Db}
    {fresh : BlobId -> Uuid} {authority : UserAuthority}
    {request : PrivateRevisionRequest} {blobs : Blobs}
    {author : AuthorPrincipalId} {revision : Revision}
    {answer : PrivateRevisionPrepareResponse}
    (h : TablesSound registry.ext known db)
    (hauthority : db.directory.userAuthority authority.userId =
      .ok authority)
    (hknown : revision ∈ known)
    (hparents : revision.parents = request.parentRevisionIds)
    (hexpected : request.expectedHeadRevisionId ∈ request.parentRevisionIds)
    (hnone : db.findRevisionOperation authority.userId request.operationId =
      none)
    (hstore : Registry.storePrivateRevision fresh authority request blobs
      author (revision.id registry.ext) db = .ok (answer, db')) :
    exists row, db' = { db with
        revisionOperations := db.revisionOperations ++ [row] } ∧
      TablesSound registry.ext known db' := by
  rcases Registry.storePrivateRevision_eq_ok hstore with
    ⟨target, start, workspace, generation, staging, _, hstart, hworkspace,
      hhead, hdb'⟩
  have hsame : start = db := by
    rcases hstart with hsame | hensured
    · exact hsame
    · rw [hensured, ensurePrivateWorkspaceForUser_eq_self h.releases]
  rw [hsame] at hworkspace hhead hdb'
  refine ⟨_, hdb', ?_⟩
  rw [hdb']
  refine h.prepare hnone ?_
  constructor
  · exact ⟨authority, hauthority⟩
  · exact ⟨revision, hknown, rfl, hparents⟩
  · exact hexpected
  · exact Option.isSome_iff_exists.mpr ⟨workspace, hworkspace⟩
  · rcases Registry.checkPreparedHead_eq_ok hhead with hmatches | hkept
    · have hretained := retains_of_branch h hworkspace
      rw [hmatches] at hretained
      exact hretained
    · exact Db.findSnapshot_isSome.mp hkept
  · exact .inl ⟨rfl, rfl⟩

theorem SaveInvariant.step (h : SaveInvariant directory events server)
    (hno : NoRevisionCollision registry.ext
      (hashedRevisions directory (events ++ [event])))
    (hstep : Server.Step server event server') :
    SaveInvariant directory (events ++ [event]) server' := by
  have htables := h.tables.mono (hashedRevisions_mono events event)
  cases step_cases hstep with
  | quiet hdb hplans hanswer =>
      exact h.stutter hdb (fun plan hplan => h.plans plan (hplans plan hplan))
        hanswer
  | verified plan userId request hanswer hserver' hverified =>
      subst hserver'
      refine h.stutter rfl ?_ (by simp [hanswer])
      intro other hother
      rcases List.mem_append.mp hother with hold | hlast
      · exact h.plans other hold
      · rw [List.mem_singleton.mp hlast]
        exact hverified.planSound
  | importPrepared row revision answer hanswer hrevision hid hparents
      hserver' =>
      subst hserver'
      rw [h.users] at hrevision
      refine h.extend Db.Extends.of_operations
        (.of_subset fun _ hrow => hrow) ?_ h.plans (by simp [hanswer])
      exact htables.prepareImport
        ⟨revision, mem_hashedRevisions_last hrevision, hid, hparents⟩
  | imported plan answer hanswer hoperation hw hplans =>
      have hhashed := htables.imports plan.operation hoperation
      have hstored := parentsStored_of_hashed hno htables hhashed hw.parents
      refine h.extend (importWritten_extends hw hstored) ?_
        (htables.importSkill hw hstored) (by rw [hplans]; exact h.plans)
        (by simp [hanswer])
      refine .of_subset fun row hrow => ?_
      rw [hw.operations]
      exact hrow
  | prepared authority request author revision blobs fresh answer hanswer
      hauthority hrevision hparents hexpected hnone hstore hplans =>
      rw [h.users] at hrevision
      rcases htables.storePrivateRevision hauthority
        (mem_hashedRevisions_last hrevision) hparents hexpected hnone
        hstore with ⟨row, hdb', htables'⟩
      refine h.extend ?_ ?_ htables' (by rw [hplans]; exact h.plans)
        (by simp [hanswer])
      · rw [hdb']
        exact Db.Extends.of_operations
      · rw [hdb']
        exact .of_subset fun _ hrow => List.mem_append_left _ hrow
  | written plan newConflictId locked workspace outcome hplan hanswer
      hworkspace hlocked hhash hstate hw hplans =>
      have hsound := h.plans plan hplan
      have hintent := hsound.sameIntent htables.operationKey hlocked
      have hstored := hsound.stored htables hno hlocked hw
      rcases findRevisionOperation_eq_some hlocked with
        ⟨hmem, huser, hoperation⟩
      refine h.extend (commitWritten_extends hw hstored) ?_
        (htables.commit hw hstored hworkspace hmem huser hoperation hintent
          hsound.parents)
        (fun other hother => h.plans other (hplans other hother)) ?_
      · intro row hrow
        rcases commitWritten_keeps_intent hw hrow with
          ⟨row', hrow', hsame, hkept, _⟩
        exact ⟨row', hrow', hsame, hkept⟩
      · intro user request stored hstoredAnswer
        rw [hanswer] at hstoredAnswer
        cases hstoredAnswer
        rcases commitWritten_keeps_intent hw hmem with
          ⟨row, hrow, hsame, _, hdone⟩
        refine ⟨row, hrow, ?_, ?_, ?_, hdone huser hoperation hstate⟩
        · rw [← huser, ← hsame]
        · rw [← hoperation, ← hsame]
        · rw [← hhash, ← hsame]

theorem saveInvariant_empty (registry : Registry) (directory : Directory) :
    SaveInvariant directory [] (Server.empty registry directory) where
  users := rfl
  tables := by
    constructor
    · rfl
    · rfl
    · simp [Server.empty]
    · simp [Server.empty]
    · rintro resourceId revision ⟨row, hrow, _⟩
      cases hrow
    · simp [Server.empty]
    · exact List.nodup_nil
    · intro resourceId user
      exact Nat.zero_le 1
    · intro row hrow
      cases hrow
    · intro resourceId user branch hbranch
      cases hbranch
    · exact List.nodup_nil
    · intro row hrow
      cases hrow
    · intro row hrow
      cases hrow
  plans := by simp [Server.empty]
  answers := by simp

theorem saveInvariant_of_run
    (hrun : Run Server.Step (Server.empty registry directory) events server)
    (hno : NoRevisionCollision registry.ext
      (hashedRevisions directory events)) :
    SaveInvariant directory events server := by
  refine Run.invariantOfHistory
    (P := fun events server =>
      NoRevisionCollision registry.ext (hashedRevisions directory events) ->
        SaveInvariant directory events server) ?_ ?_ hrun hno
  · intro _
    exact saveInvariant_empty registry directory
  · intro past s last t hinvariant hstep hno
    have hpast := hno.mono (hashedRevisions_mono past last)
    exact (hinvariant hpast).step hno hstep

/-!
## How the head moves
-/

/-- A call leaves a workspace as it is, or it is a commit answered `advanced`
that moves the head from one of its parents to its revision, and the generation
by one. -/
def MovesHead (event : SaveEvent) (db' : Db) (resourceId user : Uuid)
    (before : WorkspaceRow) : Prop :=
  db'.workspace resourceId user = some before ∨
    exists after request revision row,
      db'.workspace resourceId user = some after ∧
      event.2 = .committed user request (.ok (.advanced revision)) ∧
      revision.resourceId = resourceId ∧
      revision.revisionId = after.revisionId ∧
      revision.generation = after.generation.value ∧
      after.generation.value = before.generation.value + 1 ∧
      row ∈ db'.revisionOperations ∧ row.userId = user ∧
      row.operationId = request.operationId ∧
      row.revisionId = after.revisionId ∧ before.revisionId ∈ row.parents ∧
      (after.revisionId, before.revisionId) ∈ db'.edges

theorem PlanSound.movesHead {known : List Revision} {db db' : Db}
    {plan : PendingCommit registry.ext} {newConflictId : Uuid}
    {workspace before : WorkspaceRow}
    {outcome : PrivateRevisionCommitResponse} {resourceId user : Uuid}
    (h : PlanSound db plan) (htables : TablesSound registry.ext known db)
    (hno : NoRevisionCollision registry.ext known)
    {locked : RevisionOperationRow}
    (hworkspace : db.workspace plan.operation.resourceId
      plan.authority.userId = some workspace)
    (hlocked : db.findRevisionOperation plan.authority.userId
      plan.request.operationId = some locked)
    (hw : Registry.CommitWritten newConflictId plan workspace outcome db db')
    (hanswer : event.2 = .committed plan.authority.userId plan.request
      (.ok outcome))
    (hbefore : db.workspace resourceId user = some before) :
    MovesHead event db' resourceId user before := by
  cases hw.written with
  | diverge _ _ _ _ hworkspaces _ _ _ =>
      refine .inl ?_
      unfold Db.workspace
      rw [hworkspaces]
      exact hbefore
  | advance generation hmatches hgeneration houtcome hworkspaces _ =>
      have hafter := Db.workspace_of_setWorkspace hworkspaces resourceId user
      rw [hbefore, Option.map_some] at hafter
      by_cases hkeys : resourceId = plan.operation.resourceId ∧
          user = plan.authority.userId
      · rw [if_pos hkeys] at hafter
        rcases hkeys with ⟨rfl, rfl⟩
        rw [hworkspace] at hbefore
        cases hbefore
        have hintent := h.sameIntent htables.operationKey hlocked
        have hstored := h.stored htables hno hlocked hw
        rcases findRevisionOperation_eq_some hlocked with
          ⟨hmem, huser, hoperation⟩
        have hexpected : workspace.revisionId ∈ plan.parents := by
          rw [hmatches, h.parents, ← hintent]
          exact (htables.operations locked hmem).expected
        rcases commitWritten_keeps_intent hw hmem with
          ⟨row, hrow, hsame, _, _⟩
        refine .inr ⟨_, plan.request, _, row, hafter,
          by rw [hanswer, houtcome], rfl, rfl, rfl,
          Generation.checkedSucc_eq_some hgeneration, hrow, ?_, ?_, ?_, ?_,
          hstored.edges _ hexpected⟩
        · rw [← huser, ← hsame]
        · rw [← hoperation, ← hsame]
        · rw [← hsame, ← hintent]
        · rw [h.parents, ← hintent] at hexpected
          rw [← hsame]
          exact hexpected
      · rw [if_neg hkeys] at hafter
        exact .inl hafter

theorem SaveInvariant.movesHead (h : SaveInvariant directory events server)
    (hno : NoRevisionCollision registry.ext
      (hashedRevisions directory events))
    (hstep : Server.Step server event server') {resourceId user : Uuid}
    {before : WorkspaceRow}
    (hbefore : server.db.workspace resourceId user = some before) :
    MovesHead event server'.db resourceId user before := by
  cases step_cases hstep with
  | quiet hdb _ _ =>
      refine .inl ?_
      rw [hdb]
      exact hbefore
  | verified _ _ _ _ hserver' _ =>
      subst hserver'
      exact .inl hbefore
  | importPrepared _ _ _ _ _ _ _ hserver' =>
      subst hserver'
      exact .inl hbefore
  | imported plan _ _ _ hw _ =>
      rcases hw.workspaces with ⟨row, _, _, _, hworkspaces⟩
      refine .inl ?_
      rw [workspace_concat hworkspaces, hbefore]
      rfl
  | prepared authority request author revision blobs fresh answer _ _ _ _ _ _
      hstore _ =>
      rcases Registry.storePrivateRevision_eq_ok hstore with
        ⟨_, start, _, _, _, _, hstart, _, _, hdb'⟩
      have hsame : start = server.db := by
        rcases hstart with hsame | hensured
        · exact hsame
        · rw [hensured, ensurePrivateWorkspaceForUser_eq_self
            h.tables.releases]
      rw [hdb', hsame]
      exact .inl hbefore
  | written plan newConflictId locked workspace outcome hplan hanswer
      hworkspace hlocked _ _ hw _ =>
      exact (h.plans plan hplan).movesHead h.tables hno hworkspace hlocked hw
        hanswer hbefore

/-!
## What an answer promises
-/

/-- A revision that a user has saved: behind the head of the workspace, or a
head of the unresolved conflict. -/
def Kept (db : Db) (resourceId user : Uuid) (revision : RevisionId) : Prop :=
  exists workspace, db.workspace resourceId user = some workspace ∧
    (Ancestor db.edges revision workspace.revisionId ∨
      exists conflict, db.activeConflict resourceId user = some conflict ∧
        (revision = conflict.headARevisionId ∨
          revision = conflict.headBRevisionId))

theorem branch_of_workspace {db : Db} {resourceId user : Uuid}
    {workspace : WorkspaceRow}
    (h : db.workspace resourceId user = some workspace) :
    db.branch resourceId user = some
      { head := workspace.revisionId
        saved := Db.Retains db.snapshots resourceId
        conflict := (db.activeConflict resourceId user).map
          WorkspaceConflictRow.conflict } := by
  unfold Db.branch
  rw [h]
  rfl

theorem TablesSound.kept {known : List Revision} {db : Db}
    (h : TablesSound registry.ext known db) {userId : Uuid}
    {request : CommitRequest} {outcome : PrivateRevisionCommitResponse}
    (hrecorded : Recorded db userId request outcome) :
    Kept db outcome.resourceId userId outcome.revisionId := by
  rcases hrecorded with ⟨row, hrow, huser, _, _, hstate, houtcome⟩
  have hsound := h.operations row hrow
  rcases hsound.settled with ⟨hprepared, _⟩ | ⟨_, stored, hstored, hid, hrev,
    hretained⟩
  · exact absurd hprepared hstate
  · rw [houtcome] at hstored
    cases hstored
    rcases Option.isSome_iff_exists.mp hsound.workspace with
      ⟨workspace, hworkspace⟩
    rw [huser, ← hid] at hworkspace
    rw [← hid, ← hrev] at hretained
    refine ⟨workspace, hworkspace, ?_⟩
    rcases (h.branches _ _ _ (branch_of_workspace hworkspace)).kept _
      hretained with hbehind | ⟨conflict, hconflict, hside⟩
    · exact .inl hbehind
    · rcases Option.map_eq_some_iff.mp hconflict with ⟨active, hactive, rfl⟩
      exact .inr ⟨active, hactive, hside⟩

/-- An unresolved conflict: the head of the workspace is one of its heads, and
the base is an ancestor of both. -/
def ConflictFits (db : Db) (row : WorkspaceConflictRow) : Prop :=
  exists workspace,
    db.workspace row.resourceId row.workspaceUserId = some workspace ∧
      (workspace.revisionId = row.headARevisionId ∨
        workspace.revisionId = row.headBRevisionId) ∧
      Ancestor db.edges row.baseRevisionId row.headARevisionId ∧
        Ancestor db.edges row.baseRevisionId row.headBRevisionId

theorem TablesSound.conflictFits {known : List Revision} {db : Db}
    (h : TablesSound registry.ext known db) {row : WorkspaceConflictRow}
    (hrow : row ∈ db.conflicts) (hopen : row.resolutionRevisionId = none) :
    ConflictFits db row := by
  rcases Option.isSome_iff_exists.mp (h.conflictWorkspace row hrow) with
    ⟨workspace, hworkspace⟩
  have hactive := Db.activeConflict_of_mem h.oneConflict hrow
    (Db.unresolvedFor_eq_true.mpr ⟨rfl, rfl, hopen⟩)
  have hsound := h.branches _ _ _ (branch_of_workspace hworkspace)
  have hconflict : (db.activeConflict row.resourceId
      row.workspaceUserId).map WorkspaceConflictRow.conflict =
        some row.conflict := by
    rw [hactive]
    rfl
  exact ⟨workspace, hworkspace, hsound.headSide _ hconflict,
    hsound.baseBehind _ hconflict⟩

/-- The error of an operation that is repeated with another payload. -/
def operationReused : ApiError :=
  ApiError.new .operationConflict
    "operation_id was already used with different request content"

/-- A repeated commit is answered what is stored, from either transaction, and
one with another hash is refused; neither changes the database. -/
structure Replays (server : Server registry) (userId : Uuid)
    (request : CommitRequest) (outcome : PrivateRevisionCommitResponse) :
    Prop where
  same : forall store, server.save (.commit store userId request) =
    (.committed userId request (.ok outcome), server)
  otherHash : forall store other, other.operationId = request.operationId ->
    other.requestHash ≠ request.requestHash ->
      server.save (.commit store userId other) =
        (.committed userId other (.error operationReused), server)
  inFlight : forall index newConflictId plan,
    server.inFlight[index]? = some plan -> plan.authority.userId = userId ->
      plan.request.operationId = request.operationId ->
        server.save (.write index newConflictId) =
          (.committed userId request (.ok outcome),
            { server with inFlight := server.inFlight.eraseIdx index })

/-- The second transaction of a save that is already settled. -/
theorem PlanSound.writes_stored {known : List Revision} {db : Db}
    {plan : PendingCommit registry.ext}
    (h : PlanSound db plan) (htables : TablesSound registry.ext known db)
    {row : RevisionOperationRow}
    (hrow : db.findRevisionOperation plan.authority.userId
      plan.request.operationId = some row)
    (hstate : row.state ≠ .prepared)
    {outcome : PrivateRevisionCommitResponse}
    (houtcome : row.outcome = some outcome) (newConflictId : Uuid) :
    Registry.writePrivateRevision newConflictId plan db =
      .ok (outcome, db) := by
  rcases h.target with ⟨target, htarget, hspace⟩
  rcases Db.authorizeResourcePublish_eq_ok htarget with
    ⟨resource, _, hresource, hlive, _, _, howner, _⟩
  have hintent := h.sameIntent htables.operationKey hrow
  rcases findRevisionOperation_eq_some hrow with ⟨hmem, huser, _⟩
  have hkind := htables.skills resource
    (Db.mem_of_findResource_eq_some hresource).1
  have hcurrent : exists workspace, db.currentWorkspace
      plan.operation.resourceId plan.authority.userId
      "private skill not found" = .ok (resource, workspace) := by
    have hhome := (htables.operations row hmem).workspace
    have hid : row.resourceId = plan.operation.resourceId := by
      rw [← hintent]
    rw [hid, huser] at hhome
    rcases Option.isSome_iff_exists.mp hhome with ⟨workspace, hworkspace⟩
    refine ⟨workspace, bind_eq_ok.mpr ⟨resource, ?_, ?_⟩⟩
    · rw [okOr_eq_ok, Option.filter_eq_some_iff]
      exact ⟨hresource, by simp [hkind, hlive]⟩
    · exact bind_eq_ok.mpr ⟨workspace, okOr_eq_ok.mpr hworkspace, rfl⟩
  rcases hcurrent with ⟨workspace, hcurrent⟩
  refine bind_eq_ok.mpr ⟨target, htarget, ?_⟩
  refine bind_eq_ok.mpr ⟨(), ensure_eq_ok.mpr (by simp [hspace]), ?_⟩
  refine bind_eq_ok.mpr ⟨(resource, workspace), hcurrent, ?_⟩
  refine bind_eq_ok.mpr ⟨(), ensure_eq_ok.mpr ?_, ?_⟩
  · rw [← howner, hspace]
    exact beq_self_eq_true _
  refine bind_eq_ok.mpr ⟨row, okOr_eq_ok.mpr hrow, ?_⟩
  refine bind_eq_ok.mpr ⟨(), ensure_eq_ok.mpr ?_, ?_⟩
  · rw [← h.requestHash, ← hintent]
    exact beq_self_eq_true _
  rw [if_neg hstate]
  exact bind_eq_ok.mpr ⟨outcome, okOr_eq_ok.mpr houtcome, rfl⟩

theorem SaveInvariant.replays (h : SaveInvariant directory events server)
    {userId : Uuid} {request : CommitRequest}
    {outcome : PrivateRevisionCommitResponse}
    (hrecorded : Recorded server.db userId request outcome) :
    Replays server userId request outcome := by
  rcases hrecorded with
    ⟨row, hrow, huser, hoperation, hhash, hstate, houtcome⟩
  have hfound := findRevisionOperation_of_mem h.tables.operationKey hrow
  rw [huser, hoperation] at hfound
  rcases (h.tables.operations row hrow).user with ⟨authority, hauthority⟩
  rw [huser] at hauthority
  rcases Directory.userAuthority_eq_ok hauthority with ⟨_, _, _, hid, _⟩
  constructor
  · intro store
    have hread : registry.readPrivateRevision store userId request server.db =
        .ok (.inl outcome) := by
      unfold Registry.readPrivateRevision
      rw [hauthority]
      simp only [bind, Except.bind, hid, hfound, okOr, ensureRequestHash,
        ensure, hhash, beq_self_eq_true, if_true, hstate, if_false,
        decodeRevisionOutcome, houtcome, pure, Except.pure]
    unfold Server.save
    dsimp only
    rw [hread]
  · intro store other hsame hother
    have hread : registry.readPrivateRevision store userId other server.db =
        .error operationReused := by
      unfold Registry.readPrivateRevision
      rw [hauthority]
      have hne : (row.requestHash == other.requestHash) = false := by
        rw [hhash]
        exact beq_eq_false_iff_ne.mpr (Ne.symm hother)
      simp only [bind, Except.bind, hid, hsame, hfound, okOr,
        ensureRequestHash, ensure, hne]
      rfl
    unfold Server.save
    dsimp only
    rw [hread]
  · intro index newConflictId plan hplan hplanUser hplanOperation
    have hsound := h.plans plan (List.mem_of_getElem? hplan)
    rw [← hplanUser, ← hplanOperation] at hfound
    have hintent := hsound.sameIntent h.tables.operationKey hfound
    have hrequest : plan.request = request := by
      have hsame : plan.request.requestHash = request.requestHash := by
        rw [← hsound.requestHash, ← hhash, ← hintent]
      cases hplanRequest : plan.request
      cases request
      rw [hplanRequest] at hsame hplanOperation
      simp_all
    have hwrite := hsound.writes_stored h.tables hfound hstate houtcome
      newConflictId
    unfold Server.save
    dsimp only
    rw [hplan]
    dsimp only
    rw [hwrite, hplanUser, hrequest]
    rfl

/-- What the protocol promises in every run: how the head moves, that every
answered save is kept and answered again, that a user has at most one
unresolved conflict in a skill, and how it fits the head and the history. -/
theorem privateSaves_kept
    (hrun : Run Server.Step (Server.empty registry directory) events server)
    (hno : NoRevisionCollision registry.ext
      (hashedRevisions directory events)) :
    (forall event server', Server.Step server event server' ->
      forall resourceId user before,
        server.db.workspace resourceId user = some before ->
          MovesHead event server'.db resourceId user before) ∧
    (forall event, event ∈ events ->
      forall userId request outcome,
        event.2 = .committed userId request (.ok outcome) ->
          Kept server.db outcome.resourceId userId outcome.revisionId ∧
            Replays server userId request outcome) ∧
    (forall resourceId user,
      (server.db.conflicts.filter
        (Db.unresolvedFor resourceId user)).length ≤ 1) ∧
    (forall row, row ∈ server.db.conflicts ->
      row.resolutionRevisionId = none -> ConflictFits server.db row) := by
  have h := saveInvariant_of_run hrun hno
  refine ⟨?_, ?_, h.tables.oneConflict, ?_⟩
  · intro event server' hstep resourceId user before hbefore
    exact h.movesHead hno hstep hbefore
  · intro event hevent userId request outcome hanswer
    have hrecorded := h.answers event hevent userId request outcome hanswer
    exact ⟨h.tables.kept hrecorded, h.replays hrecorded⟩
  · intro row hrow hopen
    exact h.tables.conflictFits hrow hopen

end Steps

theorem Server.run_play {registry : Registry} {init server : Server registry}
    {past : List SaveEvent} (hrun : Run Server.Step init past server)
    (calls : List SaveCall) :
    Run Server.Step init (past ++ (server.play calls).1)
      (server.play calls).2 := by
  induction calls generalizing past server with
  | nil =>
      rw [Server.play, List.append_nil]
      exact hrun
  | cons call rest ih =>
      have hstep : Server.Step server (call, (server.save call).1)
          (server.save call).2 := rfl
      have hplayed := ih (hrun.snoc hstep)
      rw [List.append_assoc] at hplayed
      exact hplayed

/-!
## Two devices and one skill

A user imports a skill, and two devices save it from the same head.  The first
save moves the head, the second diverges, and a merge joins both.
-/

namespace Sample

def uuid (n : UInt8) : Uuid :=
  #v[0x01, 0x89, 0x0f, 0x47, 0x6a, 0x1d, 0x7a, 0xd0, 0x8f, 0x43, 0x9a, 0x4d,
    0x8c, 0x29, 0xf0, n]

theorem uuid_version (n : UInt8) : (uuid n).get 6 >>> 4 = 7 := by
  change (0x7a : UInt8) >>> 4 = 7
  decide

def operationId (n : UInt8) : OperationId :=
  ⟨⟨uuid n, uuid_version n⟩⟩

def principalId (n : UInt8) : AuthorPrincipalId :=
  ⟨⟨uuid n, uuid_version n⟩⟩

def secondGeneration : Generation :=
  ⟨2, by decide, by decide⟩

def amy : User where
  id := uuid 1
  namespaceId := uuid 2
  authorPrincipalId := principalId 3

def directory : Directory where
  namespaces := [⟨uuid 2, "amy".toList, .user⟩]
  users := [amy]
  teams := []
  memberships := []
  authorLinks := [⟨amy.authorPrincipalId, amy.id⟩]
  namespaceKey := by decide
  slugUnique := by decide
  userKey := by decide
  userNamespaceUnique := by decide
  teamKey := by decide
  membershipKey := by decide
  authorKey := by decide
  usersLinked := by decide
  usersPersonal := by decide
  teamsTeam := by decide

/-- The root of a skill that is only its document. -/
def documentRoot : TreeId :=
  ⟨digestOfNat
    0x5088a610ea6e6d8c391894de6c798ed87fe9da7ec16a416bcd05499d093ac7de⟩

def documentManifest : SkillManifest where
  rootTree := documentRoot
  entries := [.file skillMdPath ⟨skillMdDigest⟩ 31 false]

def documentArchive : Bytes :=
  bytesOfNat 102
    0x28b52ffd0460cd020052c40f169059072c3c32272d1dc3a1efbaf680a3e28539c93019a9ccac6a914b5854d843e052da8b566ba7cc9cbbaf235cf2393c3847f89fc610ff9faa012915c6110800e80efc8f0e280e70c97662f0b2d10a026038388123d1ef8d82

def documentRecords : List TarRecord :=
  [⟨.regular, skillMdPath, 0o644, none, skillMd⟩]

def archiveDigest : Digest :=
  digestOfNat
    0x44094b54df4c325d4ca39753c35e9b8617ccabf33227c0cb77a76ab0f36fc74d

def revisionTranscriptBy (author : UInt8) (parents : List RevisionId)
    (operation : UInt8) : Bytes :=
  revisionDomain ++ documentRoot.bytes.toList ++
    u32BigEndian parents.length ++
    (parents.flatMap fun parent => parent.bytes.toList) ++
    (uuid author).toList ++ (uuid operation).toList

def revisionTranscript (parents : List RevisionId) (operation : UInt8) :
    Bytes :=
  revisionTranscriptBy 3 parents operation

def imported : RevisionId :=
  ⟨digestOfNat
    0x8d7c2b3f769cb1ff6cf1ff2b8bc98b8854a4fced9070b8cdbd86a301a0ab5cea⟩

def savedFirst : RevisionId :=
  ⟨digestOfNat
    0xb91f08202fa9e166e328c9cb2f0c73d60833456293a257c80077e63095362be9⟩

def savedSecond : RevisionId :=
  ⟨digestOfNat
    0x167fb867c1db68e82b4c81250f6ae0f32174992a84931bb54a6aa08381bd5645⟩

def merged : RevisionId :=
  ⟨digestOfNat
    0x0c6a3f0b80f005a8570da1a7f1225e9656a8166b18b6cf846f6513feda589e96⟩

def saveDigests : List (Bytes × Digest) :=
  [ (skillMd, skillMdDigest),
    (transcript [("SKILL.md", .file ⟨skillMdDigest⟩ false)],
      documentRoot.bytes),
    (documentArchive, archiveDigest),
    (revisionTranscript [] 5, imported.bytes),
    (revisionTranscript [imported] 6, savedFirst.bytes),
    (revisionTranscript [imported] 7, savedSecond.bytes),
    (revisionTranscript [savedSecond, savedFirst] 8, merged.bytes) ]

/-- External functions with the given digests. -/
def externalsOf (digests : List (Bytes × Digest)) : Externals :=
  { externals with
    sha256 := fun bytes =>
      (digests.lookup bytes).getD (Vector.replicate 32 0)
    archiveWrite := fun written =>
      if written = documentRecords then .ok documentArchive else .error []
    archiveRead := fun bytes =>
      if bytes = documentArchive then
        .ok (documentRecords.map fun record => .ok record.toItem)
      else
        .error [] }

def saveHashes : List (Uuid × RequestHash) :=
  [ (uuid 5, digestOfNat
      0xabf08bfb66746a11f90a2e921ff7b96112eb437d86c268a4ede5778ddc4de3b0),
    (uuid 6, digestOfNat
      0xe37aabc8323e2e437e9e834a48cae4e08988c97534712c20f6d83fb036753b6d),
    (uuid 7, digestOfNat
      0x96a270892ce4ce8e82da2990e4bf37db7736b88247fedbfd86976d1032b53073),
    (uuid 8, digestOfNat
      0x600e92bc46e8edf65785b98757e0b7311370b42460e051eea4107a245cc90366) ]

def requestHash (hashes : List (Uuid × RequestHash))
    (operation : OperationId) : Except Text RequestHash :=
  match hashes.lookup operation.asUuid with
  | some hash => .ok hash
  | none => .error []

/-- A registry that computes the given digests and request hashes. -/
def registryOf (digests : List (Bytes × Digest))
    (hashes : List (Uuid × RequestHash)) : Registry where
  ext := externalsOf digests
  limits :=
    { maxObjectBytes := 1024
      maxReleaseBytes := 1024
      maxTransferBytes := 1024
      namespaceStorageBytes := 4096 }
  hashes :=
    { privateRevision := fun input => requestHash hashes input.operationId
      privateSkillImport := fun input =>
        requestHash hashes input.operationId
      publishSkill := fun input => requestHash hashes input.operationId
      restoreSkill := fun input => requestHash hashes input.operationId
      renameSkill := fun input => requestHash hashes input.operationId
      unpublishSkill := fun input => requestHash hashes input.operationId
      historyPrune := fun input => requestHash hashes input.operationId
      resourceTransfer := fun input => requestHash hashes input.operationId
      proposalCreate := fun input => requestHash hashes input.operationId
      proposalAccept := fun input => requestHash hashes input.operationId
      deleteSkill := fun input => requestHash hashes input.operationId
      deprecateSkill := fun input => requestHash hashes input.operationId
      shareSkill := fun _ input => requestHash hashes input.operationId
      adminQuarantine := fun _ input => requestHash hashes input.operationId
      packCreate := fun input => requestHash hashes input.operationId
      packMutation := fun _ input => requestHash hashes input.operationId
      packPublish := fun input => requestHash hashes input.operationId
      packRename := fun input => requestHash hashes input.operationId
      packUnpublish := fun input => requestHash hashes input.operationId
      packDelete := fun input => requestHash hashes input.operationId
      subscription := fun _ input => requestHash hashes input.operationId
      packSubscription := fun _ input => requestHash hashes input.operationId
      teamPackAssignment := fun _ input =>
        requestHash hashes input.operationId
      teamMemberRemove := fun input => requestHash hashes input.operationId
      teamLeave := fun input => requestHash hashes input.operationId }

def registry : Registry :=
  registryOf saveDigests saveHashes

/-- An object store that holds the archive of the document, and the document
itself under every other key. -/
def store : ObjectStore where
  get key :=
    if key = snapshotKeyOf ⟨archiveDigest⟩ then .ok documentArchive
    else .ok skillMd
  put _ _ := .ok ()

def hashOf (operation : UInt8) : RequestHash :=
  (saveHashes.lookup (uuid operation)).getD (Vector.replicate 32 0)

def commitOf (operation : UInt8) : CommitRequest where
  operationId := operationId operation
  requestHash := hashOf operation

def importRequest : PrivateSkillImportRequest where
  operationId := operationId 5
  expectedGeneration := 0
  owner := "amy".toList
  name := name
  manifest := documentManifest
  snapshotSha256 := ⟨archiveDigest⟩
  snapshotSizeBytes := 102
  revisionAuthorPrincipalId := none
  fork := none
  requestHash := hashOf 5

def importCall : SaveCall :=
  .prepareImport (uuid 4) (fun _ => uuid 9) amy.id importRequest

def saveRequest (operation : UInt8) (generation : UInt64) (head : RevisionId)
    (parents : List RevisionId) : PrivateRevisionRequest where
  operationId := operationId operation
  resourceId := uuid 4
  expectedGeneration := generation
  expectedHeadRevisionId := head
  parentRevisionIds := parents
  manifest := documentManifest
  revisionAuthorPrincipalId := none
  forkSync := none
  historicalSkillName := none
  requestHash := hashOf operation

def saveCall (operation : UInt8) (generation : UInt64) (head : RevisionId)
    (parents : List RevisionId) : SaveCall :=
  .prepare (fun _ => uuid 9) amy.id
    (saveRequest operation generation head parents)

def commitCall (operation : UInt8) : SaveCall :=
  .commit store amy.id (commitOf operation)

/-- The commits of both devices overlap; the first one writes first. -/
def saveCalls : List SaveCall :=
  [ importCall, .commitImport store amy.id (commitOf 5),
    saveCall 6 1 imported [imported], saveCall 7 1 imported [imported],
    commitCall 6, commitCall 7, .write 0 (uuid 8), .write 0 (uuid 8),
    commitCall 7,
    saveCall 8 2 savedFirst [savedSecond, savedFirst],
    commitCall 8, .write 0 (uuid 8) ]

def played : List SaveEvent × Server registry :=
  (Server.empty registry directory).play saveCalls

def outcomes : List (Option PrivateRevisionCommitResponse) :=
  played.1.map fun event =>
    match event.2 with
    | .committed _ _ (.ok outcome) => some outcome
    | _ => none

theorem noRevisionCollision : NoRevisionCollision registry.ext
    (hashedRevisions directory played.1) := by
  unfold NoRevisionCollision
  decide +kernel

end Sample

theorem privateSaves_kept_played :
    Sample.outcomes.map (Option.map PrivateRevisionCommitResponse.revisionId) =
      [ none, none, none, none, none, none, some Sample.savedFirst,
        some Sample.savedSecond, some Sample.savedSecond, none, none,
        some Sample.merged ] ∧
    forall event, event ∈ Sample.played.1 ->
      forall userId request outcome,
        event.2 = .committed userId request (.ok outcome) ->
          Kept Sample.played.2.db outcome.resourceId userId
            outcome.revisionId := by
  refine ⟨by decide +kernel, ?_⟩
  intro event hevent userId request outcome hanswer
  have hkept := privateSaves_kept (Server.run_play .nil Sample.saveCalls)
    Sample.noRevisionCollision
  exact (hkept.2.1 event hevent userId request outcome hanswer).1

end Denju
