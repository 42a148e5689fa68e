import Denju.Registry.RecordedCalls

/-!
# The calls on packs that are answered once

A call on a pack first lets it follow the releases that it has not seen.  Where
there are some, they are kept and the caller is told to retry: such an answer is
not recorded.
-/

namespace Denju

open Lib

namespace Db

variable {db db' : Db} {pack : PackRow} {packId : Uuid}

/-!
## Changes that record nothing
-/

theorem operations_writePackVersion {version generation : Generation}
    {members : List ResolvedPackMember} {source : Option Nat} :
    (db.writePackVersion packId version generation members source).operations =
      db.operations := by
  funext table
  cases table <;> rfl

theorem operations_insertPackRevision {members : List ResolvedPackMember}
    {source : Option Nat} {next : PackRow}
    (h : db.insertPackRevision pack members source = .ok (next, db')) :
    db'.operations = db.operations := by
  rcases insertPackRevision_eq_ok h with ⟨_, _, _, _, rfl, rfl⟩
  exact operations_writePackVersion

theorem operations_advancePackEvent {session : Session}
    {event : PackReleaseEvent} {advanced : Option PackRow}
    (h : db.advancePackEvent session packId event = .ok (advanced, db')) :
    db'.operations = db.operations := by
  unfold advancePackEvent at h
  split at h
  · cases h
    rfl
  · rcases bind_eq_ok.mp h with ⟨release, _, h⟩
    rcases bind_eq_ok.mp h with ⟨_, _, h⟩
    dsimp only at h
    split at h
    · cases h
      rfl
    · rcases bind_eq_ok.mp h with ⟨_, _, h⟩
      rcases bind_eq_ok.mp h with ⟨⟨next, stored⟩, hstored, h⟩
      cases h
      exact operations_insertPackRevision hstored

theorem operations_catchUpStep {session : Session} {event : PackReleaseEvent}
    {state next : Option Generation × PackRow × Db}
    (h : catchUpStep session packId state event = .ok next) :
    next.2.2.operations = state.2.2.operations := by
  rcases bind_eq_ok.mp h with ⟨⟨advanced, stored⟩, hstored, h⟩
  have hsame := operations_advancePackEvent hstored
  cases advanced with
  | none =>
      cases h
      exact hsame
  | some last =>
      cases h
      exact hsame

theorem operations_lockAndCatchUpPack {user : Uuid}
    {state : Option Generation × PackRow × Db}
    (h : db.lockAndCatchUpPack user pack = .ok state) :
    state.2.2.operations = db.operations := by
  rcases bind_eq_ok.mp h with ⟨_, _, h⟩
  refine foldlM_invariant
    (P := fun state : Option Generation × PackRow × Db =>
      state.2.2.operations = db.operations) ?_ rfl h
  intro before event after hbefore hstep
  exact (operations_catchUpStep hstep).trans hbefore

end Db

/-- A call on a pack answers with an error and records nothing, or it changes
the pack as it was found. -/
theorem onCurrentPack_operations {α : Type} {db db' : Db} {user : Uuid}
    {pack : PackRow} {change : PackRow -> Db -> Except ApiError (α × Db)}
    {answer : Except ApiError α}
    (h : onCurrentPack user pack change db = .ok (answer, db')) :
    (exists error, answer = .error error ∧ db'.operations = db.operations) ∨
      exists outcome, answer = .ok outcome ∧
        change pack db = .ok (outcome, db') := by
  rcases bind_eq_ok.mp h with ⟨⟨advanced, current, caught⟩, hcaught, h⟩
  have hsame := Db.operations_lockAndCatchUpPack hcaught
  have hstate := Db.lockAndCatchUpPack_eq_ok hcaught
  cases advanced with
  | some generation =>
      cases h
      exact .inl ⟨_, rfl, hsame⟩
  | none =>
      rcases bind_eq_ok.mp h with ⟨⟨outcome, changed⟩, hchanged, h⟩
      cases h
      cases hstate.2.2 rfl
      exact .inr ⟨outcome, rfl, hchanged⟩

namespace Registry

variable {self : Registry} {draw userId : Uuid} {db db' : Db} {pack : PackRow}

/-!
## A call on a pack
-/

/-- A call that looks for a pack operation, and then for the pack. -/
def packCall {β : Type} (userId : Uuid) (operationId : OperationId)
    (requestHash : RequestHash) (select : PackOutcome -> Option β)
    (outcome : β -> PackOutcome) (checks : Except ApiError Unit)
    (change : UserAuthority -> Db -> Except ApiError (Except ApiError β × Db)) :
    RecordedCall .pack β UserAuthority where
  userId
  operationId
  fits := SameHash requestHash
  select
  outcome
  check := signedIn userId checks
  replay := fun db authority =>
    db.replayPackOperation select authority.userId operationId requestHash
  change := fun _ authority db => change authority db

/-- An answer of a call on a pack is recorded, with whatever target. -/
def RecordsPack {β : Type} (operationId : OperationId)
    (requestHash : RequestHash) (outcome : β -> PackOutcome)
    (authority : UserAuthority) (given : β) (db db' : Db) : Prop :=
  exists target, Db.Records db db' .pack
    { userId := authority.userId
      operationId
      requestHash
      target
      outcome := outcome given }

theorem packCall_lawful {β : Type} {operationId : OperationId}
    {requestHash : RequestHash} {select : PackOutcome -> Option β}
    {outcome : β -> PackOutcome} {checks : Except ApiError Unit}
    {change : UserAuthority -> Db ->
      Except ApiError (Except ApiError β × Db)}
    (hselects : forall found given,
      select found = some given <-> found = outcome given)
    (hchange : forall authority db db' answer,
      change authority db = .ok (answer, db') ->
        (exists error, answer = .error error ∧
          db'.operations = db.operations) ∨
        exists given, answer = .ok given ∧
          RecordsPack operationId requestHash outcome authority given db db') :
    (packCall userId operationId requestHash select outcome checks
      change).Lawful where
  selects := fun h => (hselects _ _).mp h
  replays := by
    intro db authority hchecked
    rw [← signedIn_eq_ok hchecked]
    exact Db.replayPackOperation_replays
  leaves := by
    intro draw db db' authority answer hchecked h
    rcases hchange authority db db' answer h with
      ⟨error, rfl, hsame⟩ | ⟨given, rfl, target, hrecords⟩
    · exact hsame
    · exact ⟨_, hrecords, signedIn_eq_ok hchecked, rfl, rfl, rfl,
        (hselects _ _).mpr rfl⟩

/-- The change of a call on a pack that its caller may publish. -/
theorem onOwnedPack_records {β : Type} {operationId : OperationId}
    {requestHash : RequestHash} {outcome : β -> PackOutcome}
    {authority : UserAuthority}
    {change : PackRow -> Db -> Except ApiError (β × Db)}
    {answer : Except ApiError β}
    (hrecords : forall given, change pack db = .ok (given, db') ->
      RecordsPack operationId requestHash outcome authority given db db')
    (h : onCurrentPack authority.userId pack change db = .ok (answer, db')) :
    (exists error, answer = .error error ∧ db'.operations = db.operations) ∨
      exists given, answer = .ok given ∧
        RecordsPack operationId requestHash outcome authority given db db' := by
  rcases onCurrentPack_operations h with hkept | ⟨given, hgiven, hchanged⟩
  · exact .inl hkept
  · exact .inr ⟨given, hgiven, hrecords given hchanged⟩

/-!
## The changes of the members
-/

theorem operations_wakePack {changed : Bool} :
    (wakePack changed pack db).operations = db.operations := by
  unfold wakePack
  split
  · funext table
    cases table <;> rfl
  · rfl

theorem operations_editMember {kind : PackMutationKind}
    {authority : UserAuthority} {target : NamespacePublishAuthority}
    {edit next : PackEdit} {member : PackMemberTarget}
    (h : editMember kind authority target pack edit member = .ok next) :
    next.db.operations = edit.db.operations := by
  cases kind with
  | add =>
      rcases bind_eq_ok.mp h with ⟨resolved, _, h⟩
      dsimp only at h
      split at h
      · cases h
        rfl
      · cases h
        unfold upsertPackMember
        split
        · funext table
          cases table <;> rfl
        · funext table
          cases table <;> rfl
  | remove =>
      cases h
      unfold removeMember
      split
      · funext table
        cases table <;> rfl
      · rfl

theorem operations_storeEdit {user : Uuid} {edit : PackEdit} {next : PackRow}
    (h : storeEdit user pack edit = .ok (next, db')) :
    db'.operations = edit.db.operations := by
  unfold storeEdit at h
  split at h
  · rcases bind_eq_ok.mp h with ⟨members, _, h⟩
    exact Db.operations_insertPackRevision h
  · cases h
    rfl

theorem changeMembers_records {kind : PackMutationKind}
    {authority : UserAuthority} {target : NamespacePublishAuthority}
    {request : PackMutationRequest} {outcome : PackMutationResponse}
    (h : changeMembers kind authority target request pack db =
      .ok (outcome, db')) :
    RecordsPack request.operationId request.requestHash kind.outcome authority
      outcome db db' := by
  rcases bind_eq_ok.mp h with ⟨_, _, h⟩
  rcases bind_eq_ok.mp h with ⟨edit, hedit, h⟩
  rcases bind_eq_ok.mp h with ⟨⟨next, stored⟩, hstored, h⟩
  rcases bind_eq_ok.mp h with ⟨recorded, hrecorded, h⟩
  have hedited : edit.db.operations = db.operations := by
    refine foldlM_invariant
      (P := fun edit : PackEdit => edit.db.operations = db.operations)
      ?_ rfl hedit
    intro before member after hbefore hstep
    exact (operations_editMember hstep).trans hbefore
  have hsame := (operations_storeEdit hstored).trans hedited
  have hrecords := Db.recordPackOperation_records hrecorded hsame
  cases h
  exact ⟨_, hrecords.followed operations_wakePack⟩

theorem operations_setPublished {visibilityChanged resolutionChanged : Bool}
    {next : PackRow}
    (h : setPublished db pack visibilityChanged resolutionChanged =
      .ok (next, db')) : db'.operations = db.operations := by
  unfold setPublished at h
  split at h
  · rcases bind_eq_ok.mp h with ⟨generation, _, h⟩
    cases h
    funext table
    cases table <;> rfl
  · split at h
    · cases h
      funext table
      cases table <;> rfl
    · cases h
      rfl

theorem releasePack_records {authority : UserAuthority}
    {target : NamespacePublishAuthority} {request : PackPublishRequest}
    {outcome : PackMutationResponse}
    (h : releasePack authority target request pack db = .ok (outcome, db')) :
    RecordsPack request.operationId request.requestHash .publish authority
      outcome db db' := by
  rcases bind_eq_ok.mp h with ⟨_, _, h⟩
  rcases bind_eq_ok.mp h with ⟨resolved, _, h⟩
  dsimp only at h
  split at h
  · rcases bind_eq_ok.mp h with ⟨⟨next, stored⟩, hstored, h⟩
    rcases bind_eq_ok.mp h with ⟨⟨last, published⟩, hpublished, h⟩
    rcases bind_eq_ok.mp h with ⟨recorded, hrecorded, h⟩
    have hsame := (operations_setPublished hpublished).trans
      (Db.operations_insertPackRevision hstored)
    have hrecords := Db.recordPackOperation_records hrecorded hsame
    cases h
    exact ⟨_, hrecords.followed operations_wakePack⟩
  · rcases bind_eq_ok.mp h with ⟨⟨next, stored⟩, hstored, h⟩
    cases hstored
    rcases bind_eq_ok.mp h with ⟨⟨last, published⟩, hpublished, h⟩
    rcases bind_eq_ok.mp h with ⟨recorded, hrecorded, h⟩
    have hsame := operations_setPublished hpublished
    have hrecords := Db.recordPackOperation_records hrecorded hsame
    cases h
    exact ⟨_, hrecords.followed operations_wakePack⟩

/-!
## The changes of the pack
-/

theorem finishPackCall_records {start : Db} {authority : UserAuthority}
    {operationId : OperationId} {hash : RequestHash}
    {given outcome : PackLifecycleResponse}
    {kind : PackLifecycleResponse -> PackOutcome}
    (h : finishPackCall authority.userId operationId hash given kind pack
      start = .ok (outcome, db'))
    (hstart : start.operations = db.operations) :
    RecordsPack operationId hash kind authority outcome db db' := by
  rcases bind_eq_ok.mp h with ⟨recorded, hrecorded, h⟩
  have hrecords := Db.recordPackOperation_records hrecorded hstart
  cases h
  refine ⟨_, hrecords.followed ?_⟩
  funext table
  cases table <;> rfl

theorem movePack_records {authority : UserAuthority}
    {target : NamespacePublishAuthority} {request : PackRenameRequest}
    {outcome : PackLifecycleResponse}
    (h : movePack authority target request pack db = .ok (outcome, db')) :
    RecordsPack request.operationId request.requestHash .rename authority
      outcome db db' := by
  rcases bind_eq_ok.mp h with ⟨_, _, h⟩
  rcases bind_eq_ok.mp h with ⟨_, _, h⟩
  rcases bind_eq_ok.mp h with ⟨_, _, h⟩
  rcases bind_eq_ok.mp h with ⟨generation, _, h⟩
  rcases bind_eq_ok.mp h with ⟨redirected, hredirected, h⟩
  rcases upsertPackRedirect_eq_ok hredirected with ⟨redirects, rfl, _⟩
  apply finishPackCall_records h
  funext table
  cases table <;> rfl

theorem hidePack_records {authority : UserAuthority}
    {request : ResourceLifecycleRequest} {outcome : PackLifecycleResponse}
    (h : hidePack authority request pack db = .ok (outcome, db')) :
    RecordsPack request.operationId request.requestHash .unpublish authority
      outcome db db' := by
  rcases bind_eq_ok.mp h with ⟨_, _, h⟩
  rcases bind_eq_ok.mp h with ⟨_, _, h⟩
  rcases bind_eq_ok.mp h with ⟨generation, _, h⟩
  apply finishPackCall_records h
  funext table
  cases table <;> rfl

theorem tombstonePack_records {authority : UserAuthority}
    {request : ResourceLifecycleRequest} {outcome : PackLifecycleResponse}
    (h : tombstonePack authority request pack db = .ok (outcome, db')) :
    RecordsPack request.operationId request.requestHash .delete authority
      outcome db db' := by
  rcases bind_eq_ok.mp h with ⟨_, _, h⟩
  rcases bind_eq_ok.mp h with ⟨generation, _, h⟩
  apply finishPackCall_records h
  funext table
  cases table <;> rfl

/-!
## The calls
-/

variable (self)

def createPackCall (userId : Uuid) (request : PackCreateRequest) :
    RecordedCall .pack PackSummary
      (UserAuthority × NamespacePublishAuthority) where
  userId
  operationId := request.operationId
  fits := SameHash request.requestHash
  select := PackOutcome.create?
  outcome := .create
  check := fun directory => do
    let authority <- signedIn userId
      (checkPackHash request.requestHash
        (self.hashes.packCreate request.toPackCreateRequestHashInput)) directory
    let owner <- directory.authorizeNamespacePublish authority request.owner
    return (authority, owner)
  replay := fun db (authority, _) =>
    db.replayPackOperation PackOutcome.create? authority.userId
      request.operationId request.requestHash
  change := fun newResourceId (authority, owner) db => answered do
    ensure (!packTaken db owner.namespaceId request.name)
      (ApiError.new .invalidRequest "pack name is already in use")
    let db <- insertPack db newResourceId owner.namespaceId request.name
    let outcome : PackSummary :=
      { resourceId := newResourceId
        locator := packLocator request.owner request.name
        generation := 1
        version := 1
        visibility := .priv
        memberCount := 0
        degraded := false }
    let db <- db.recordPackOperation
      { userId := authority.userId
        operationId := request.operationId
        requestHash := request.requestHash
        target := newResourceId
        outcome := .create outcome }
    return (outcome, db)

def mutatePackCall (kind : PackMutationKind) (userId : Uuid)
    (request : PackMutationRequest) :
    RecordedCall .pack PackMutationResponse UserAuthority :=
  packCall userId request.operationId request.requestHash
    (PackOutcome.mutation? kind) kind.outcome
    (do
      ensure (!request.members.isEmpty)
        (ApiError.new .invalidRequest
          "pack mutation requires at least one skill")
      ensure (decide (request.members.map PackMemberTarget.resourceId).Nodup)
        (ApiError.new .invalidRequest
          "pack mutation contains the same skill more than once")
      checkPackHash request.requestHash
        (self.hashes.packMutation kind request.toPackMutationRequestHashInput))
    fun authority db => do
      let target <- db.authorizeResourcePublish authority request.resourceId
      let pack <- db.loadOwnedPackForUpdate authority.userId
        request.resourceId target.namespaceId
      onCurrentPack authority.userId pack
        (changeMembers kind authority target request) db

def publishPackCall (userId : Uuid) (request : PackPublishRequest) :
    RecordedCall .pack PackMutationResponse UserAuthority :=
  packCall userId request.operationId request.requestHash
    PackOutcome.publish? .publish
    (checkPackHash request.requestHash
      (self.hashes.packPublish request.toPackPublishRequestHashInput))
    fun authority db => do
      let target <- db.authorizeResourcePublish authority request.resourceId
      let pack <- db.loadOwnedPackForUpdate authority.userId
        request.resourceId target.namespaceId
      onCurrentPack authority.userId pack
        (releasePack authority target request) db

def renamePackCall (userId : Uuid) (request : PackRenameRequest) :
    RecordedCall .pack PackLifecycleResponse UserAuthority :=
  packCall userId request.operationId request.requestHash
    PackOutcome.rename? .rename
    (checkPackHash request.requestHash
      (self.hashes.packRename request.toPackRenameRequestHashInput))
    fun authority db => do
      let target <- db.authorizeResourcePublish authority request.resourceId
      let pack <- db.loadOwnedPackForUpdate authority.userId
        request.resourceId target.namespaceId
      onCurrentPack authority.userId pack (movePack authority target request) db

def unpublishPackCall (userId : Uuid) (request : ResourceLifecycleRequest) :
    RecordedCall .pack PackLifecycleResponse UserAuthority :=
  packCall userId request.operationId request.requestHash
    PackOutcome.unpublish? .unpublish
    (checkPackHash request.requestHash
      (self.hashes.packUnpublish request.toResourceLifecycleRequestHashInput))
    fun authority db => do
      let target <- db.authorizeResourcePublish authority request.resourceId
      let pack <- db.loadOwnedPackForUpdate authority.userId
        request.resourceId target.namespaceId
      onCurrentPack authority.userId pack (hidePack authority request) db

def deletePackCall (userId : Uuid) (request : ResourceLifecycleRequest) :
    RecordedCall .pack PackLifecycleResponse UserAuthority :=
  packCall userId request.operationId request.requestHash
    PackOutcome.delete? .delete
    (checkPackHash request.requestHash
      (self.hashes.packDelete request.toResourceLifecycleRequestHashInput))
    fun authority db => do
      let target <- db.authorizeResourcePublish authority request.resourceId
      ensure (!target.isTeam)
        (ApiError.new .invalidRequest
          "team pack deletion requires the owner-only team lifecycle rules")
      let pack <- db.loadOwnedPackForUpdate authority.userId
        request.resourceId target.namespaceId
      onCurrentPack authority.userId pack (tombstonePack authority request) db

def assignPackCall (kind : TeamPackAssignmentMutationKind) (userId : Uuid)
    (request : TeamPackAssignmentRequest) :
    RecordedCall .team TeamPackAssignmentResponse UserAuthority where
  userId
  operationId := request.operationId
  fits := SameHash request.requestHash
  select := TeamOperationOutcome.assignment? kind
  outcome := .assignment
  check := signedIn userId
    (checkTeamHash request.requestHash
      (self.hashes.teamPackAssignment kind
        request.toTeamPackAssignmentRequestHashInput))
  replay := fun db authority =>
    db.replayTeamOperation (TeamOperationOutcome.assignment? kind)
      authority.userId request.operationId request.requestHash
  change := fun _ authority db =>
    answered (assignTeamPack kind authority request db)

/-!
## The calls are the endpoints
-/

variable {self}

theorem createPackCall_run {newResourceId : Uuid}
    {request : PackCreateRequest} :
    (self.createPackCall userId request).run newResourceId db =
      answered (self.createPack newResourceId userId request db) := by
  simp only [RecordedCall.run, createPackCall, signedIn, createPack,
    answered_bind, bind_assoc, pure_bind]
  refine bind_congr fun _ => bind_congr fun _ => bind_congr fun _ =>
    bind_congr fun replay => ?_
  cases replay with
  | none => simp only [answered_bind]
  | some outcome => rfl

theorem mutatePackCall_run {kind : PackMutationKind}
    {request : PackMutationRequest} :
    (self.mutatePackCall kind userId request).run draw db =
      self.mutatePack kind userId request db := by
  simp only [RecordedCall.run, mutatePackCall, packCall, signedIn, mutatePack,
    bind_assoc, pure_bind]
  refine bind_congr fun _ => bind_congr fun _ => bind_congr fun _ =>
    bind_congr fun _ => bind_congr fun replay => ?_
  cases replay with
  | none => rfl
  | some outcome => rfl

theorem publishPackCall_run {request : PackPublishRequest} :
    (self.publishPackCall userId request).run draw db =
      self.publishPack userId request db := by
  simp only [RecordedCall.run, publishPackCall, packCall, signedIn,
    publishPack, bind_assoc, pure_bind]
  refine bind_congr fun _ => bind_congr fun _ => bind_congr fun replay => ?_
  cases replay with
  | none => rfl
  | some outcome => rfl

theorem renamePackCall_run {request : PackRenameRequest} :
    (self.renamePackCall userId request).run draw db =
      self.renamePack userId request db := by
  simp only [RecordedCall.run, renamePackCall, packCall, signedIn, renamePack,
    bind_assoc, pure_bind]
  refine bind_congr fun _ => bind_congr fun _ => bind_congr fun replay => ?_
  cases replay with
  | none => rfl
  | some outcome => rfl

theorem unpublishPackCall_run {request : ResourceLifecycleRequest} :
    (self.unpublishPackCall userId request).run draw db =
      self.unpublishPack userId request db := by
  simp only [RecordedCall.run, unpublishPackCall, packCall, signedIn,
    unpublishPack, bind_assoc, pure_bind]
  refine bind_congr fun _ => bind_congr fun _ => bind_congr fun replay => ?_
  cases replay with
  | none => rfl
  | some outcome => rfl

theorem deletePackCall_run {request : ResourceLifecycleRequest} :
    (self.deletePackCall userId request).run draw db =
      self.deletePack userId request db := by
  simp only [RecordedCall.run, deletePackCall, packCall, signedIn, deletePack,
    bind_assoc, pure_bind]
  refine bind_congr fun _ => bind_congr fun _ => bind_congr fun replay => ?_
  cases replay with
  | none => rfl
  | some outcome => rfl

theorem assignPackCall_run {kind : TeamPackAssignmentMutationKind}
    {request : TeamPackAssignmentRequest} :
    (self.assignPackCall kind userId request).run draw db =
      answered (self.mutateTeamPackAssignment kind userId request db) := by
  simp only [RecordedCall.run, assignPackCall, signedIn,
    mutateTeamPackAssignment, answered_bind, bind_assoc, pure_bind]
  refine bind_congr fun _ => bind_congr fun _ => bind_congr fun replay => ?_
  cases replay with
  | none => rfl
  | some outcome => rfl

/-!
## The calls read their records as they write them
-/

theorem operations_insertPack {resourceId namespaceId : Uuid} {name : Text}
    (h : insertPack db resourceId namespaceId name = .ok db') :
    db'.operations = db.operations := by
  rcases bind_eq_ok.mp h with ⟨placed, hplaced, h⟩
  rcases bind_eq_ok.mp h with ⟨_, _, h⟩
  rcases bind_eq_ok.mp hplaced with ⟨_, _, hplaced⟩
  cases h
  cases hplaced
  funext table
  cases table <;> rfl

theorem createPackCall_lawful {request : PackCreateRequest} :
    (self.createPackCall userId request).Lawful where
  selects := by
    intro found outcome h
    cases found <;> simp [createPackCall, PackOutcome.create?] at h ⊢
    exact h
  replays := by
    intro db checked hchecked
    rcases bind_eq_ok.mp hchecked with ⟨authority, hauthority, hchecked⟩
    rcases bind_eq_ok.mp hchecked with ⟨owner, _, hchecked⟩
    cases hchecked
    rw [← signedIn_eq_ok hauthority]
    exact Db.replayPackOperation_replays
  leaves := by
    intro draw db db' checked answer hchecked h
    rcases bind_eq_ok.mp hchecked with ⟨authority, hauthority, hchecked⟩
    rcases bind_eq_ok.mp hchecked with ⟨owner, _, hchecked⟩
    cases hchecked
    apply RecordedCall.leaves_answered ?_ h
    intro outcome hcreated
    rcases bind_eq_ok.mp hcreated with ⟨_, _, hcreated⟩
    rcases bind_eq_ok.mp hcreated with ⟨inserted, hinserted, hcreated⟩
    rcases bind_eq_ok.mp hcreated with ⟨recorded, hrecorded, hcreated⟩
    have hrecords := Db.recordPackOperation_records hrecorded
      (operations_insertPack hinserted)
    cases hcreated
    exact ⟨_, hrecords, signedIn_eq_ok hauthority, rfl, rfl, rfl, rfl⟩

theorem mutatePackCall_lawful {kind : PackMutationKind}
    {request : PackMutationRequest} :
    (self.mutatePackCall kind userId request).Lawful := by
  apply packCall_lawful
  · intro found outcome
    cases kind <;> cases found <;>
      simp [PackOutcome.mutation?, PackMutationKind.outcome]
  · intro authority db db' answer h
    rcases bind_eq_ok.mp h with ⟨target, _, h⟩
    rcases bind_eq_ok.mp h with ⟨pack, _, h⟩
    exact onOwnedPack_records (fun _ => changeMembers_records) h

theorem publishPackCall_lawful {request : PackPublishRequest} :
    (self.publishPackCall userId request).Lawful := by
  apply packCall_lawful
  · intro found outcome
    cases found <;> simp [PackOutcome.publish?]
  · intro authority db db' answer h
    rcases bind_eq_ok.mp h with ⟨target, _, h⟩
    rcases bind_eq_ok.mp h with ⟨pack, _, h⟩
    exact onOwnedPack_records (fun _ => releasePack_records) h

theorem renamePackCall_lawful {request : PackRenameRequest} :
    (self.renamePackCall userId request).Lawful := by
  apply packCall_lawful
  · intro found outcome
    cases found <;> simp [PackOutcome.rename?]
  · intro authority db db' answer h
    rcases bind_eq_ok.mp h with ⟨target, _, h⟩
    rcases bind_eq_ok.mp h with ⟨pack, _, h⟩
    exact onOwnedPack_records (fun _ => movePack_records) h

theorem unpublishPackCall_lawful {request : ResourceLifecycleRequest} :
    (self.unpublishPackCall userId request).Lawful := by
  apply packCall_lawful
  · intro found outcome
    cases found <;> simp [PackOutcome.unpublish?]
  · intro authority db db' answer h
    rcases bind_eq_ok.mp h with ⟨target, _, h⟩
    rcases bind_eq_ok.mp h with ⟨pack, _, h⟩
    exact onOwnedPack_records (fun _ => hidePack_records) h

theorem deletePackCall_lawful {request : ResourceLifecycleRequest} :
    (self.deletePackCall userId request).Lawful := by
  apply packCall_lawful
  · intro found outcome
    cases found <;> simp [PackOutcome.delete?]
  · intro authority db db' answer h
    rcases bind_eq_ok.mp h with ⟨target, _, h⟩
    rcases bind_eq_ok.mp h with ⟨_, _, h⟩
    rcases bind_eq_ok.mp h with ⟨pack, _, h⟩
    exact onOwnedPack_records (fun _ => tombstonePack_records) h

theorem operations_changeAssignment {kind : TeamPackAssignmentMutationKind}
    {team packId : Uuid} :
    (changeAssignment db kind team packId).2.operations = db.operations := by
  unfold changeAssignment
  dsimp only
  split
  · split
    · rfl
    · funext table
      cases table <;> rfl
  · funext table
    cases table <;> rfl

/-- An assignment is found by the kind that made it. -/
theorem assignment?_eq_some {kind : TeamPackAssignmentMutationKind}
    {found : TeamOperationOutcome} {outcome : TeamPackAssignmentResponse} :
    found.assignment? kind = some outcome <->
      found = .assignment outcome ∧
        outcome.assigned = decide (kind = .assign) := by
  cases found with
  | assignment stored =>
      unfold TeamOperationOutcome.assignment?
      constructor
      · intro h
        dsimp only at h
        split at h
        · rename_i hassigned
          cases h
          exact ⟨rfl, hassigned⟩
        · cases h
      · rintro ⟨h, hassigned⟩
        cases h
        exact if_pos hassigned
  | _ => simp [TeamOperationOutcome.assignment?]

theorem assignTeamPack_records {kind : TeamPackAssignmentMutationKind}
    {authority : UserAuthority} {request : TeamPackAssignmentRequest}
    {outcome : TeamPackAssignmentResponse}
    (h : assignTeamPack kind authority request db = .ok (outcome, db')) :
    outcome.assigned = decide (kind = .assign) ∧
      exists target, Db.Records db db' .team
        { userId := authority.userId
          operationId := request.operationId
          requestHash := request.requestHash
          target
          outcome := .assignment outcome } := by
  rcases bind_eq_ok.mp h with ⟨space, _, h⟩
  rcases bind_eq_ok.mp h with ⟨_, _, h⟩
  rcases bind_eq_ok.mp h with ⟨membership, _, h⟩
  rcases bind_eq_ok.mp h with ⟨_, _, h⟩
  rcases bind_eq_ok.mp h with ⟨pack, _, h⟩
  rcases bind_eq_ok.mp h with ⟨_, _, h⟩
  rcases bind_eq_ok.mp h with ⟨recorded, hrecorded, h⟩
  have hrecords := Db.recordTeamOperation_records hrecorded
    operations_changeAssignment
  cases h
  exact ⟨rfl, _, hrecords⟩

theorem assignPackCall_lawful {kind : TeamPackAssignmentMutationKind}
    {request : TeamPackAssignmentRequest} :
    (self.assignPackCall kind userId request).Lawful where
  selects := fun h => (assignment?_eq_some.mp h).1
  replays := by
    intro db authority hchecked
    rw [← signedIn_eq_ok hchecked]
    exact Db.replayTeamOperation_replays
  leaves := by
    intro draw db db' authority answer hchecked h
    apply RecordedCall.leaves_answered ?_ h
    intro outcome hassigned
    rcases assignTeamPack_records hassigned with ⟨hkind, target, hrecords⟩
    exact ⟨_, hrecords, signedIn_eq_ok hchecked, rfl, rfl, rfl,
      assignment?_eq_some.mpr ⟨rfl, hkind⟩⟩

end Registry
end Denju
