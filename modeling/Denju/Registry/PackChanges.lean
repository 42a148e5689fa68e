import Denju.Registry.Naming
import Denju.Registry.PackLifecycle

/-!
# What the operations on packs write

A change of the members of a pack, or of what they resolve to, touches the
tables of packs and the row of this pack, whose name stays.  The versions that
the pack has had keep their members.
-/

namespace Denju

open Lib

/-- A change of one pack that keeps its name and its earlier versions. -/
structure PackChange (packId : Uuid) (db db' : Db) : Prop where
  tables : exists resources packMembers packRevisions packRevisionMembers
      packStates packOperations authorityEvents authorityEventSequence,
    db' = { db with
      resources, packMembers, packRevisions, packRevisionMembers, packStates,
      packOperations, authorityEvents, authorityEventSequence }
  rows : exists f : ResourceRow -> ResourceRow,
    db'.resources = db.resources.map f ∧
      (forall row, (f row).named = row.named) ∧
        forall row, row.id ≠ packId -> f row = row
  states : db'.packStates.map PackStateRow.resourceId =
    db.packStates.map PackStateRow.resourceId
  versions : db.packRevisionMembers <+: db'.packRevisionMembers

namespace PackChange

variable {packId : Uuid} {db db' db'' : Db}

theorem refl (packId : Uuid) (db : Db) : PackChange packId db db where
  tables := ⟨_, _, _, _, _, _, _, _, rfl⟩
  rows := ⟨id, (List.map_id _).symm, fun _ => rfl, fun _ _ => rfl⟩
  states := rfl
  versions := List.prefix_rfl

theorem trans (h : PackChange packId db db')
    (h' : PackChange packId db' db'') : PackChange packId db db'' where
  tables := by
    rcases h.tables with ⟨_, _, _, _, _, _, _, _, rfl⟩
    rcases h'.tables with ⟨_, _, _, _, _, _, _, _, rfl⟩
    exact ⟨_, _, _, _, _, _, _, _, rfl⟩
  rows := by
    rcases h.rows with ⟨f, hf, hnamed, hother⟩
    rcases h'.rows with ⟨g, hg, hnamed', hother'⟩
    refine ⟨g ∘ f, ?_, fun row => (hnamed' _).trans (hnamed row), ?_⟩
    · rw [hg, hf, List.map_map]
    · intro row hrow
      show g (f row) = row
      rw [hother row hrow, hother' row hrow]
  states := h'.states.trans h.states
  versions := h.versions.trans h'.versions

theorem sameNames (h : PackChange packId db db') : Db.SameNames db db' where
  directory := by
    rcases h.tables with ⟨_, _, _, _, _, _, _, _, rfl⟩
    rfl
  redirects := by
    rcases h.tables with ⟨_, _, _, _, _, _, _, _, rfl⟩
    rfl
  resources := by
    rcases h.rows with ⟨f, hf, hnamed, _⟩
    rw [hf, List.map_map]
    exact List.map_congr_left fun row _ => hnamed row
  packStates := h.states

/-- A change that only reaches the tables beside the resources. -/
theorem ofTables {packMembers : List PackMemberRow}
    {packOperations : List (OperationRow PackOutcome)}
    {authorityEvents : List AuthorityEventRow} {sequence : Nat} :
    PackChange packId db { db with
      packMembers
      packOperations
      authorityEvents
      authorityEventSequence := sequence } where
  tables := ⟨_, _, _, _, _, _, _, _, rfl⟩
  rows := ⟨id, (List.map_id _).symm, fun _ => rfl, fun _ _ => rfl⟩
  states := rfl
  versions := List.prefix_rfl

theorem ofRow {f : ResourceRow -> ResourceRow}
    (hnamed : forall row, (f row).named = row.named) :
    PackChange packId db { db with
      resources := updateWhere (fun row => row.id = packId) f
        db.resources } where
  tables := ⟨_, _, _, _, _, _, _, _, rfl⟩
  rows := by
    refine ⟨_, rfl, ?_, ?_⟩
    · intro row
      dsimp only
      split
      · exact hnamed row
      · rfl
    · intro row hrow
      simp [hrow]
  states := rfl
  versions := List.prefix_rfl

theorem wake (h : PackChange packId db db') {id : Uuid} {generation : Nat} :
    PackChange packId db (db'.enqueueResourceWake id generation) :=
  h.trans ofTables

end PackChange

namespace Db

variable {db db' : Db} {packId : Uuid} {pack : PackRow}

/-- The live pack behind a locked row. -/
structure PackFound (db : Db) (packId : Uuid) (pack : PackRow)
    (row : ResourceRow) : Prop where
  found : db.findResource packId = some row
  kind : row.kind = .pack
  live : row.deleted = false
  id : pack.id = packId
  owner : pack.ownerNamespaceId = row.ownerNamespaceId
  name : pack.name = row.slug

theorem lockPack_eq_some {session : Session}
    (h : db.lockPack session packId = some pack) :
    exists row, PackFound db packId pack row ∧
      db.canManage session packId = true := by
  rcases Option.bind_eq_some_iff.mp h with ⟨row, hrow, hpack⟩
  have hfound := Option.filter_eq_some_iff.mp hrow
  have hlive := hfound.2
  simp only [Bool.and_eq_true, decide_eq_true_eq, Bool.not_eq_true'] at hlive
  have hid : row.id = packId := by
    simpa using List.find?_some hfound.1
  unfold packRow at hpack
  rcases Option.bind_eq_some_iff.mp hpack with ⟨owner, _, hpack⟩
  rcases Option.bind_eq_some_iff.mp hpack with ⟨state, _, hpack⟩
  cases hpack
  exact ⟨row, ⟨hfound.1, hlive.1.1.1, hlive.1.1.2, hid, rfl, rfl⟩, hlive.2⟩

theorem loadOwnedPackForUpdate_eq_ok {user namespaceId : Uuid}
    (h : db.loadOwnedPackForUpdate user packId namespaceId = .ok pack) :
    exists row, PackFound db packId pack row ∧
      row.ownerNamespaceId = namespaceId := by
  rcases bind_eq_ok.mp h with ⟨locked, hlocked, h⟩
  rcases bind_eq_ok.mp h with ⟨_, howner, h⟩
  cases h
  rcases lockPack_eq_some (okOr_eq_ok.mp hlocked) with ⟨row, hfound, _⟩
  refine ⟨row, hfound, ?_⟩
  rw [← hfound.owner]
  exact beq_iff_eq.mp (ensure_eq_ok.mp howner)

theorem recordPackOperation_eq_ok {row : OperationRow PackOutcome}
    (h : db.recordPackOperation row = .ok db') :
    exists packOperations, db' = { db with packOperations } := by
  rcases bind_eq_ok.mp h with ⟨rows, _, h⟩
  cases h
  exact ⟨rows, rfl⟩

theorem replayPackOperation_eq_none {β : Type}
    {select : PackOutcome -> Option β} {user : Uuid}
    {operationId : OperationId} {hash : RequestHash}
    (h : db.replayPackOperation select user operationId hash = .ok none) :
    findOperation db.packOperations user operationId = none := by
  unfold replayPackOperation at h
  split at h
  · assumption
  · rcases bind_eq_ok.mp h with ⟨_, _, h⟩
    rcases bind_eq_ok.mp h with ⟨_, _, h⟩
    cases h

/-!
## Versions
-/

theorem writePackVersion_change {version generation : Generation}
    {members : List ResolvedPackMember} {source : Option Nat} :
    PackChange packId db
      (db.writePackVersion packId version generation members source) where
  tables := ⟨_, _, _, _, _, _, _, _, rfl⟩
  rows := by
    refine ⟨_, rfl, ?_, ?_⟩
    · intro row
      dsimp only
      split
      · rfl
      · rfl
    · intro row hrow
      simp [hrow]
  states := by
    unfold writePackVersion updateWhere
    rw [List.map_map]
    refine List.map_congr_left fun row _ => ?_
    show (if decide (row.resourceId = packId) then
      { row with currentVersion := version } else row).resourceId =
        row.resourceId
    split
    · rfl
    · rfl
  versions := List.prefix_append _ _

theorem insertPackRevision_eq_ok {members : List ResolvedPackMember}
    {source : Option Nat} {next : PackRow}
    (h : db.insertPackRevision pack members source = .ok (next, db')) :
    exists version generation,
      pack.currentVersion.checkedSucc = some version ∧
        pack.generation.checkedSucc = some generation ∧
        next = { pack with generation, currentVersion := version } ∧
        db' = db.writePackVersion pack.id version generation members
          source := by
  rcases bind_eq_ok.mp h with ⟨version, hversion, h⟩
  rcases bind_eq_ok.mp h with ⟨generation, hgeneration, h⟩
  rcases bind_eq_ok.mp h with ⟨_, _, h⟩
  rcases bind_eq_ok.mp h with ⟨_, _, h⟩
  rcases bind_eq_ok.mp h with ⟨_, _, h⟩
  rcases bind_eq_ok.mp h with ⟨_, _, h⟩
  cases h
  exact ⟨version, generation, okOr_eq_ok.mp hversion,
    okOr_eq_ok.mp hgeneration, rfl, rfl⟩

theorem insertPackRevision_change {members : List ResolvedPackMember}
    {source : Option Nat} {next : PackRow}
    (h : db.insertPackRevision pack members source = .ok (next, db')) :
    PackChange pack.id db db' ∧ next.id = pack.id := by
  rcases insertPackRevision_eq_ok h with ⟨_, _, _, _, rfl, rfl⟩
  exact ⟨writePackVersion_change, rfl⟩

/-!
## Following releases
-/

/-- An event advances the pack, or does nothing. -/
theorem advancePackEvent_eq_ok {session : Session} {event : PackReleaseEvent}
    {advanced : Option PackRow}
    (h : db.advancePackEvent session packId event = .ok (advanced, db')) :
    (advanced = none ∧ db' = db) ∨
      (exists pack, advanced = some pack) ∧ PackChange packId db db' := by
  unfold advancePackEvent at h
  split at h
  · cases h
    exact .inl ⟨rfl, rfl⟩
  · rcases bind_eq_ok.mp h with ⟨release, _, h⟩
    rcases bind_eq_ok.mp h with ⟨_, _, h⟩
    dsimp only at h
    split at h
    · cases h
      exact .inl ⟨rfl, rfl⟩
    · rename_i pack hpack
      rcases lockPack_eq_some hpack with ⟨row, hfound, _⟩
      rcases bind_eq_ok.mp h with ⟨_, _, h⟩
      rcases bind_eq_ok.mp h with ⟨⟨next, stored⟩, hstored, h⟩
      cases h
      have hchange := (insertPackRevision_change hstored).1
      rw [hfound.id] at hchange
      exact .inr ⟨⟨next, rfl⟩, hchange⟩

/-- The pack that has not advanced is the pack that was there before. -/
def Caught (packId : Uuid) (pack : PackRow) (db : Db)
    (state : Option Generation × PackRow × Db) : Prop :=
  PackChange packId db state.2.2 ∧ state.2.1.id = pack.id ∧
    (state.1 = none -> state.2 = (pack, db))

theorem catchUpStep_caught {session : Session} {event : PackReleaseEvent}
    {state next : Option Generation × PackRow × Db}
    (hstate : Caught packId pack db state)
    (h : catchUpStep session packId state event = .ok next) :
    Caught packId pack db next := by
  rcases bind_eq_ok.mp h with ⟨⟨advanced, stored⟩, hstored, h⟩
  rcases advancePackEvent_eq_ok hstored with
    ⟨rfl, rfl⟩ | ⟨⟨last, rfl⟩, hchange⟩
  · cases h
    exact hstate
  · cases h
    refine ⟨hstate.1.trans hchange, hstate.2.1, fun hnone => ?_⟩
    cases hnone

theorem lockAndCatchUpPack_eq_ok {user : Uuid}
    {state : Option Generation × PackRow × Db}
    (h : db.lockAndCatchUpPack user pack = .ok state) :
    Caught pack.id pack db state := by
  rcases bind_eq_ok.mp h with ⟨_, _, h⟩
  refine foldlM_invariant (P := Caught pack.id pack db) ?_
    ⟨.refl _ _, rfl, fun _ => rfl⟩ h
  intro before event after hbefore hstep
  exact catchUpStep_caught hbefore hstep

end Db

variable {α : Type} {db db' : Db} {user : Uuid} {pack : PackRow}

/-- A call on a pack either only lets it follow releases, or changes it as it
was found. -/
theorem onCurrentPack_eq_ok
    {change : PackRow -> Db -> Except ApiError (α × Db)}
    {answer : Except ApiError α}
    (h : onCurrentPack user pack change db = .ok (answer, db')) :
    PackChange pack.id db db' ∨
      exists outcome, answer = .ok outcome ∧
        change pack db = .ok (outcome, db') := by
  rcases bind_eq_ok.mp h with ⟨⟨advanced, current, caught⟩, hcaught, h⟩
  have hstate := Db.lockAndCatchUpPack_eq_ok hcaught
  dsimp only at h
  split at h
  · cases h
    exact .inl hstate.1.wake
  · rcases bind_eq_ok.mp h with ⟨⟨outcome, changed⟩, hchanged, h⟩
    cases h
    have hsame := hstate.2.2 rfl
    cases hsame
    exact .inr ⟨outcome, rfl, hchanged⟩

theorem advancePackForReleaseEvent_change {packId : Uuid} {event : PackReleaseEvent}
    {advanced : Option PackRow}
    (h : db.advancePackEvent .worker packId event = .ok (advanced, db')) :
    PackChange packId db db' := by
  rcases Db.advancePackEvent_eq_ok h with ⟨_, rfl⟩ | ⟨_, hchange⟩
  · exact .refl _ _
  · exact hchange

namespace Registry

variable {self : Registry}

/-!
## Changing the members
-/

theorem wakePack_change {changed : Bool} (next : PackRow)
    (h : PackChange pack.id db db') :
    PackChange pack.id db (wakePack changed next db') := by
  unfold wakePack
  split
  · exact h.wake
  · exact h

theorem recordPack_change {row : OperationRow PackOutcome} {packId : Uuid}
    (h : db.recordPackOperation row = .ok db') :
    PackChange packId db db' := by
  rcases Db.recordPackOperation_eq_ok h with ⟨operations, rfl⟩
  exact .ofTables

theorem upsertPackMember_change {row : PackMemberRow} {packId : Uuid} :
    PackChange packId db (upsertPackMember db row) := by
  unfold upsertPackMember
  split
  · exact .ofTables
  · exact .ofTables

theorem editMember_change {kind : PackMutationKind}
    {authority : UserAuthority} {target : NamespacePublishAuthority}
    {edit next : PackEdit} {member : PackMemberTarget}
    (h : editMember kind authority target pack edit member = .ok next) :
    PackChange pack.id edit.db next.db := by
  cases kind with
  | add =>
      rcases bind_eq_ok.mp h with ⟨resolved, _, h⟩
      dsimp only at h
      split at h
      · cases h
        exact .refl _ _
      · cases h
        exact upsertPackMember_change
  | remove =>
      cases h
      unfold removeMember
      split
      · exact .ofTables
      · exact .refl _ _

theorem storeEdit_change {edit : PackEdit} {next : PackRow}
    (h : storeEdit user pack edit = .ok (next, db')) :
    PackChange pack.id edit.db db' := by
  unfold storeEdit at h
  split at h
  · rcases bind_eq_ok.mp h with ⟨members, _, h⟩
    exact (Db.insertPackRevision_change h).1
  · cases h
    exact .refl _ _

theorem changeMembers_eq_ok {kind : PackMutationKind}
    {authority : UserAuthority} {target : NamespacePublishAuthority}
    {request : PackMutationRequest} {outcome : PackMutationResponse}
    (h : changeMembers kind authority target request pack db =
      .ok (outcome, db')) : PackChange pack.id db db' := by
  rcases bind_eq_ok.mp h with ⟨_, _, h⟩
  rcases bind_eq_ok.mp h with ⟨edit, hedit, h⟩
  rcases bind_eq_ok.mp h with ⟨⟨next, stored⟩, hstored, h⟩
  rcases bind_eq_ok.mp h with ⟨recorded, hrecorded, h⟩
  cases h
  have hedited : PackChange pack.id db edit.db := by
    refine foldlM_invariant
      (P := fun edit : PackEdit => PackChange pack.id db edit.db)
      ?_ (PackChange.refl _ _) hedit
    intro before member after hbefore hstep
    exact hbefore.trans (editMember_change hstep)
  exact wakePack_change next
    ((hedited.trans (storeEdit_change hstored)).trans
      (recordPack_change hrecorded))

theorem mutatePack_eq_ok {kind : PackMutationKind} {userId : Uuid}
    {request : PackMutationRequest}
    {answer : Except ApiError PackMutationResponse}
    (h : self.mutatePack kind userId request db = .ok (answer, db')) :
    PackChange request.resourceId db db' := by
  rcases bind_eq_ok.mp h with ⟨authority, _, h⟩
  rcases bind_eq_ok.mp h with ⟨_, _, h⟩
  rcases bind_eq_ok.mp h with ⟨_, _, h⟩
  rcases bind_eq_ok.mp h with ⟨_, _, h⟩
  rcases bind_eq_ok.mp h with ⟨replay, _, h⟩
  split at h
  · cases h
    exact .refl _ _
  · rcases bind_eq_ok.mp h with ⟨target, _, h⟩
    rcases bind_eq_ok.mp h with ⟨pack, hpack, h⟩
    rcases Db.loadOwnedPackForUpdate_eq_ok hpack with ⟨row, hfound, _⟩
    rw [← hfound.id]
    rcases onCurrentPack_eq_ok h with hcaught | ⟨_, _, hchanged⟩
    · exact hcaught
    · exact changeMembers_eq_ok hchanged

/-!
## Publishing and hiding
-/

theorem setPublished_change {visibilityChanged resolutionChanged : Bool}
    {next : PackRow}
    (h : setPublished db pack visibilityChanged resolutionChanged =
      .ok (next, db')) : PackChange pack.id db db' := by
  unfold setPublished at h
  split at h
  · rcases bind_eq_ok.mp h with ⟨generation, _, h⟩
    cases h
    exact .ofRow fun _ => rfl
  · split at h
    · cases h
      exact .ofRow fun _ => rfl
    · cases h
      exact .refl _ _

theorem releasePack_eq_ok {authority : UserAuthority}
    {target : NamespacePublishAuthority} {request : PackPublishRequest}
    {outcome : PackMutationResponse}
    (h : releasePack authority target request pack db =
      .ok (outcome, db')) : PackChange pack.id db db' := by
  rcases bind_eq_ok.mp h with ⟨_, _, h⟩
  rcases bind_eq_ok.mp h with ⟨resolved, _, h⟩
  have hfinish : forall {next : PackRow} {stored : Db}
      {visibilityChanged resolutionChanged : Bool},
      PackChange pack.id db stored -> next.id = pack.id ->
      (setPublished stored next visibilityChanged resolutionChanged >>=
        fun published => do
          let recorded <- published.2.recordPackOperation
            { userId := authority.userId
              operationId := request.operationId
              requestHash := request.requestHash
              target := published.1.id
              outcome := .publish
                { pack := published.2.packSummary published.1
                  changed := visibilityChanged || resolutionChanged } }
          return (PackMutationResponse.mk
              (published.2.packSummary published.1)
              (visibilityChanged || resolutionChanged),
            wakePack (visibilityChanged || resolutionChanged) published.1
              recorded)) = .ok (outcome, db') ->
      PackChange pack.id db db' := by
    intro next stored visibilityChanged resolutionChanged hversion hid h
    rcases bind_eq_ok.mp h with ⟨⟨last, published⟩, hpublished, h⟩
    rcases bind_eq_ok.mp h with ⟨recorded, hrecorded, h⟩
    cases h
    have hvisible := setPublished_change hpublished
    rw [hid] at hvisible
    exact wakePack_change last
      ((hversion.trans hvisible).trans (recordPack_change hrecorded))
  dsimp only at h
  split at h
  · rcases bind_eq_ok.mp h with ⟨⟨next, stored⟩, hstored, h⟩
    rcases Db.insertPackRevision_change hstored with ⟨hversion, hid⟩
    exact hfinish hversion hid h
  · exact hfinish (.refl _ _) rfl h

theorem publishPack_eq_ok {userId : Uuid} {request : PackPublishRequest}
    {answer : Except ApiError PackMutationResponse}
    (h : self.publishPack userId request db = .ok (answer, db')) :
    PackChange request.resourceId db db' := by
  rcases bind_eq_ok.mp h with ⟨authority, _, h⟩
  rcases bind_eq_ok.mp h with ⟨_, _, h⟩
  rcases bind_eq_ok.mp h with ⟨replay, _, h⟩
  split at h
  · cases h
    exact .refl _ _
  · rcases bind_eq_ok.mp h with ⟨target, _, h⟩
    rcases bind_eq_ok.mp h with ⟨pack, hpack, h⟩
    rcases Db.loadOwnedPackForUpdate_eq_ok hpack with ⟨row, hfound, _⟩
    rw [← hfound.id]
    rcases onCurrentPack_eq_ok h with hcaught | ⟨_, _, hchanged⟩
    · exact hcaught
    · exact releasePack_eq_ok hchanged

theorem finishPackCall_change {operationId : OperationId} {hash : RequestHash}
    {outcome answer : PackLifecycleResponse}
    {kind : PackLifecycleResponse -> PackOutcome} {packId : Uuid}
    (h : finishPackCall user operationId hash outcome kind pack db =
      .ok (answer, db')) : PackChange packId db db' := by
  rcases bind_eq_ok.mp h with ⟨recorded, hrecorded, h⟩
  cases h
  exact (recordPack_change hrecorded).wake

theorem hidePack_eq_ok {authority : UserAuthority}
    {request : ResourceLifecycleRequest} {outcome : PackLifecycleResponse}
    (h : hidePack authority request pack db = .ok (outcome, db')) :
    PackChange pack.id db db' := by
  rcases bind_eq_ok.mp h with ⟨_, _, h⟩
  rcases bind_eq_ok.mp h with ⟨_, _, h⟩
  rcases bind_eq_ok.mp h with ⟨generation, _, h⟩
  refine PackChange.trans ?_ (finishPackCall_change h)
  exact .ofRow fun _ => rfl

theorem unpublishPack_eq_ok {userId : Uuid}
    {request : ResourceLifecycleRequest}
    {answer : Except ApiError PackLifecycleResponse}
    (h : self.unpublishPack userId request db = .ok (answer, db')) :
    PackChange request.resourceId db db' := by
  rcases bind_eq_ok.mp h with ⟨authority, _, h⟩
  rcases bind_eq_ok.mp h with ⟨_, _, h⟩
  rcases bind_eq_ok.mp h with ⟨replay, _, h⟩
  split at h
  · cases h
    exact .refl _ _
  · rcases bind_eq_ok.mp h with ⟨target, _, h⟩
    rcases bind_eq_ok.mp h with ⟨pack, hpack, h⟩
    rcases Db.loadOwnedPackForUpdate_eq_ok hpack with ⟨row, hfound, _⟩
    rw [← hfound.id]
    rcases onCurrentPack_eq_ok h with hcaught | ⟨_, _, hchanged⟩
    · exact hcaught
    · exact hidePack_eq_ok hchanged

/-!
## Creating, moving and deleting
-/

/-- A new pack, which has no members. -/
structure PackCreated (newResourceId : Uuid) (space : Namespace)
    (name : Text) (db db' : Db) : Prop where
  fresh : db.findResource newResourceId = none
  unused : packTaken db space.id name = false
  tables : exists packOperations row, row.id = newResourceId ∧
    row.kind = .pack ∧ row.ownerNamespaceId = space.id ∧ row.slug = name ∧
      db' = { db with
        resources := db.resources ++ [row]
        packStates := db.packStates ++ [⟨newResourceId, .one⟩]
        packRevisions := db.packRevisions ++ [⟨newResourceId, .one, none⟩]
        packOperations }

theorem createPack_eq_ok {newResourceId userId : Uuid}
    {request : PackCreateRequest} {outcome : PackSummary}
    (h : self.createPack newResourceId userId request db =
      .ok (outcome, db')) :
    db' = db ∨ exists authority space,
      db.directory.userAuthority userId = .ok authority ∧
        Db.findOperation db.packOperations authority.userId
          request.operationId = none ∧
        db.directory.namespaceBySlug request.owner = some space ∧
        space ∈ db.directory.namespaces ∧
        PackCreated newResourceId space request.name db db' := by
  rcases bind_eq_ok.mp h with ⟨authority, hauthority, h⟩
  rcases bind_eq_ok.mp h with ⟨_, _, h⟩
  rcases bind_eq_ok.mp h with ⟨owner, howner, h⟩
  rcases bind_eq_ok.mp h with ⟨replay, hreplay, h⟩
  split at h
  · cases h
    exact .inl rfl
  · rcases bind_eq_ok.mp h with ⟨_, hunused, h⟩
    rcases bind_eq_ok.mp h with ⟨inserted, hinserted, h⟩
    rcases bind_eq_ok.mp h with ⟨recorded, hrecorded, h⟩
    rcases bind_eq_ok.mp hinserted with ⟨stored, hstored, hinserted⟩
    rcases bind_eq_ok.mp hinserted with ⟨_, _, hinserted⟩
    rcases bind_eq_ok.mp hstored with ⟨_, hfresh, hstored⟩
    rcases Db.recordPackOperation_eq_ok hrecorded with ⟨operations, rfl⟩
    rcases Directory.found_of_authorizeNamespacePublish howner with
      ⟨space, hfound, hspace, hid, _⟩
    cases hstored
    cases hinserted
    cases h
    rw [hid] at hunused ⊢
    refine .inr ⟨authority, space, hauthority,
      Db.replayPackOperation_eq_none hreplay, hfound, hspace, ?_, ?_,
      operations, _, rfl, rfl, rfl, rfl, rfl⟩
    · exact Option.isNone_iff_eq_none.mp (ensure_eq_ok.mp hfresh)
    · simpa using hunused

theorem upsertPackRedirect_eq_ok {session : Session}
    {namespaceId target : Uuid} {slug : Text}
    (h : db.upsertPackRedirect session namespaceId slug target = .ok db') :
    exists redirects, db' = { db with redirects } ∧
      Redirected .pack namespaceId slug target db.redirects redirects := by
  unfold Db.upsertPackRedirect at h
  split at h
  · cases h
    exact ⟨_, rfl, .append⟩
  · rcases bind_eq_ok.mp h with ⟨_, _, h⟩
    cases h
    exact ⟨_, rfl, .update fun row hat => by
      simpa [Db.packRedirectAt] using hat⟩

/-- A pack under a new name. -/
structure PackRenamed (authority : UserAuthority) (request : PackRenameRequest)
    (row : ResourceRow) (db db' : Db) : Prop where
  changed : row.slug ≠ request.newName
  unused : db.packTakenByOther row.ownerNamespaceId request.resourceId
    request.newName = false
  tables : exists redirects packOperations generation,
    Redirected .pack row.ownerNamespaceId row.slug request.resourceId
        (db.deletePackRedirect (.actor authority.userId) row.ownerNamespaceId
          request.newName).redirects redirects ∧
      db' = ({ db with
        resources := updateWhere (fun row => row.id = request.resourceId)
          (fun row => { row with slug := request.newName, generation })
          db.resources
        redirects
        packOperations } : Db).enqueueResourceWake request.resourceId
          generation.value

theorem movePack_eq_ok {authority : UserAuthority}
    {target : NamespacePublishAuthority} {request : PackRenameRequest}
    {row : ResourceRow} {outcome : PackLifecycleResponse}
    (hfound : Db.PackFound db request.resourceId pack row)
    (howner : row.ownerNamespaceId = target.namespaceId)
    (h : movePack authority target request pack db = .ok (outcome, db')) :
    PackRenamed authority request row db db' := by
  rcases bind_eq_ok.mp h with ⟨_, _, h⟩
  rcases bind_eq_ok.mp h with ⟨_, hchanged, h⟩
  rcases bind_eq_ok.mp h with ⟨_, hunused, h⟩
  rcases bind_eq_ok.mp h with ⟨generation, _, h⟩
  rcases bind_eq_ok.mp h with ⟨redirected, hredirected, h⟩
  rcases bind_eq_ok.mp h with ⟨recorded, hrecorded, h⟩
  rcases upsertPackRedirect_eq_ok hredirected with
    ⟨redirects, rfl, hleads⟩
  rcases Db.recordPackOperation_eq_ok hrecorded with ⟨operations, rfl⟩
  cases h
  rw [hfound.id, ← howner] at hunused
  rw [hfound.name] at hchanged
  simp only [ensure_eq_ok, bne_iff_ne, ne_eq] at hchanged
  simp only [ensure_eq_ok, Bool.not_eq_true'] at hunused
  refine ⟨hchanged, hunused, redirects, operations, generation, ?_, ?_⟩
  · rw [hfound.id, hfound.name, ← howner] at hleads
    exact hleads
  · dsimp only
    rw [hfound.id]
    rfl

theorem renamePack_eq_ok {userId : Uuid} {request : PackRenameRequest}
    {answer : Except ApiError PackLifecycleResponse}
    (h : self.renamePack userId request db = .ok (answer, db')) :
    PackChange request.resourceId db db' ∨ exists authority row,
      db.directory.userAuthority userId = .ok authority ∧
        db.findResource request.resourceId = some row ∧ row.kind = .pack ∧
        row.deleted = false ∧ PackRenamed authority request row db db' := by
  rcases bind_eq_ok.mp h with ⟨authority, hauthority, h⟩
  rcases bind_eq_ok.mp h with ⟨_, _, h⟩
  rcases bind_eq_ok.mp h with ⟨replay, _, h⟩
  split at h
  · cases h
    exact .inl (.refl _ _)
  · rcases bind_eq_ok.mp h with ⟨target, _, h⟩
    rcases bind_eq_ok.mp h with ⟨pack, hpack, h⟩
    rcases Db.loadOwnedPackForUpdate_eq_ok hpack with ⟨row, hfound, howner⟩
    rcases onCurrentPack_eq_ok h with hcaught | ⟨_, _, hchanged⟩
    · rw [hfound.id] at hcaught
      exact .inl hcaught
    · exact .inr ⟨authority, row, hauthority, hfound.found, hfound.kind,
        hfound.live, movePack_eq_ok hfound howner hchanged⟩

/-- A deleted pack, whose redirects and subscriptions may go. -/
def PackDeleted (packId : Uuid) (db db' : Db) : Prop :=
  exists redirects installationSubscriptions subscriptions teamPackAssignments
      packOperations generation owner,
    (forall row, row ∈ redirects -> row ∈ db.redirects) ∧
    (forall row, row ∈ installationSubscriptions ->
      row ∈ db.installationSubscriptions) ∧
    (forall row, row ∈ subscriptions -> row ∈ db.subscriptions) ∧
    (forall row, row ∈ teamPackAssignments ->
      row ∈ db.teamPackAssignments) ∧
    db' = ({ db with
      resources := updateWhere (fun row => row.id = packId)
        (fun row => { row with
          visibility := .priv
          generation
          deleted := true
          tombstoneReleaseVersion := row.latestReleaseVersion
          deletedOwnerSlug := some owner })
        db.resources
      redirects, installationSubscriptions, subscriptions, teamPackAssignments,
      packOperations } : Db).enqueueResourceWake packId generation.value

theorem tombstonePack_eq_ok {authority : UserAuthority}
    {request : ResourceLifecycleRequest} {outcome : PackLifecycleResponse}
    (h : tombstonePack authority request pack db = .ok (outcome, db')) :
    PackDeleted pack.id db db' := by
  rcases bind_eq_ok.mp h with ⟨_, _, h⟩
  rcases bind_eq_ok.mp h with ⟨generation, _, h⟩
  rcases bind_eq_ok.mp h with ⟨recorded, hrecorded, h⟩
  rcases Db.recordPackOperation_eq_ok hrecorded with ⟨operations, rfl⟩
  cases h
  exact ⟨_, _, _, _, operations, generation, _,
    fun row hrow => (mem_deleteWhere.mp hrow).1,
    fun row hrow => (mem_deleteWhere.mp hrow).1,
    fun row hrow => (mem_deleteWhere.mp hrow).1,
    fun row hrow => (mem_deleteWhere.mp hrow).1, rfl⟩

theorem deletePack_eq_ok {userId : Uuid} {request : ResourceLifecycleRequest}
    {answer : Except ApiError PackLifecycleResponse}
    (h : self.deletePack userId request db = .ok (answer, db')) :
    PackChange request.resourceId db db' ∨ exists row,
      db.findResource request.resourceId = some row ∧ row.kind = .pack ∧
        row.deleted = false ∧ PackDeleted request.resourceId db db' := by
  rcases bind_eq_ok.mp h with ⟨authority, _, h⟩
  rcases bind_eq_ok.mp h with ⟨_, _, h⟩
  rcases bind_eq_ok.mp h with ⟨replay, _, h⟩
  split at h
  · cases h
    exact .inl (.refl _ _)
  · rcases bind_eq_ok.mp h with ⟨target, _, h⟩
    rcases bind_eq_ok.mp h with ⟨_, _, h⟩
    rcases bind_eq_ok.mp h with ⟨pack, hpack, h⟩
    rcases Db.loadOwnedPackForUpdate_eq_ok hpack with ⟨row, hfound, _⟩
    rcases onCurrentPack_eq_ok h with hcaught | ⟨_, _, hchanged⟩
    · rw [hfound.id] at hcaught
      exact .inl hcaught
    · have hdeleted := tombstonePack_eq_ok hchanged
      rw [hfound.id] at hdeleted
      exact .inr ⟨row, hfound.found, hfound.kind, hfound.live, hdeleted⟩

/-- A pack that its owner has moved to a team. -/
structure PackTransferred (authority : UserAuthority)
    (request : ResourceTransferRequest) (row : ResourceRow) (space : Namespace)
    (db db' : Db) : Prop where
  found : db.findResource request.resourceId = some row
  kind : row.kind = .pack
  live : row.deleted = false
  owned : row.ownerNamespaceId = authority.namespaceId
  destination : db.directory.namespaceBySlug request.destinationTeam =
    some space
  team : space.kind = .team
  unused : packTaken db space.id row.slug = false
  tables : exists redirects namespaceBlobs transferOperations generation,
    Redirected .pack row.ownerNamespaceId row.slug request.resourceId
        db.redirects redirects ∧
      db' = ({ db with
        namespaceBlobs
        redirects
        resources := updateWhere (fun row => row.id = request.resourceId)
          (fun row => { row with ownerNamespaceId := space.id, generation })
          db.resources
        transferOperations } : Db).enqueueResourceWake request.resourceId
          generation.value

theorem movePackToTeam_eq_ok {authority : UserAuthority}
    {request : ResourceTransferRequest} {outcome : ResourceTransferResponse}
    (h : self.movePackToTeam authority request db = .ok (outcome, db')) :
    exists row space, PackTransferred authority request row space db db' := by
  rcases bind_eq_ok.mp h with ⟨destination, hdestination, h⟩
  rcases bind_eq_ok.mp h with ⟨_, hteam, h⟩
  rcases bind_eq_ok.mp h with ⟨⟨row, owner⟩, hlocked, h⟩
  rcases bind_eq_ok.mp h with ⟨_, howner, h⟩
  rcases bind_eq_ok.mp h with ⟨_, _, h⟩
  rcases bind_eq_ok.mp h with ⟨_, _, h⟩
  rcases bind_eq_ok.mp h with ⟨_, hunused, h⟩
  rcases bind_eq_ok.mp h with ⟨_, _, h⟩
  rcases bind_eq_ok.mp h with ⟨_, _, h⟩
  rcases bind_eq_ok.mp h with ⟨moved, hmoved, h⟩
  rcases bind_eq_ok.mp h with ⟨generation, _, h⟩
  rcases bind_eq_ok.mp h with ⟨redirected, hredirected, h⟩
  rcases bind_eq_ok.mp h with ⟨operations, _, h⟩
  cases h
  rcases bind_eq_ok.mp hlocked with ⟨found, hfound, hlocked⟩
  rcases bind_eq_ok.mp hlocked with ⟨_, _, hlocked⟩
  rcases bind_eq_ok.mp hmoved with ⟨_, _, hmoved⟩
  cases hlocked
  cases hmoved
  rcases upsertPackRedirect_eq_ok hredirected with
    ⟨redirects, rfl, hleads⟩
  rcases Directory.found_of_authorizeNamespacePublish hdestination with
    ⟨space, hfoundSpace, _, hid, hkind⟩
  have hrow := Option.filter_eq_some_iff.mp (okOr_eq_ok.mp hfound)
  have hlive := hrow.2
  simp only [Bool.and_eq_true, decide_eq_true_eq, Bool.not_eq_true'] at hlive
  simp only [ensure_eq_ok, Bool.not_eq_true', hid] at hunused
  refine ⟨row, space, hrow.1, hlive.1.1.1, hlive.1.1.2,
    beq_iff_eq.mp (ensure_eq_ok.mp howner), hfoundSpace,
    hkind (ensure_eq_ok.mp hteam), hunused, redirects,
    (db.namespaceBlobs.addAll (db.resourceReferences request.resourceId)
      fun blob => (destination.namespaceId, blob)).dropAll
        (db.resourceReferences request.resourceId)
        fun blob => (row.ownerNamespaceId, blob),
    operations, generation, hleads, ?_⟩
  rw [← hid]

theorem transferPack_eq_ok {userId : Uuid} {request : ResourceTransferRequest}
    {outcome : ResourceTransferResponse}
    (h : self.transferPack userId request db = .ok (outcome, db')) :
    db' = db ∨ exists authority row space,
      db.directory.userAuthority userId = .ok authority ∧
        Db.findOperation db.transferOperations authority.userId
          request.operationId = none ∧
        PackTransferred authority request row space db db' := by
  rcases bind_eq_ok.mp h with ⟨authority, hauthority, h⟩
  rcases bind_eq_ok.mp h with ⟨_, _, h⟩
  rcases bind_eq_ok.mp h with ⟨replay, hreplay, h⟩
  split at h
  · cases h
    exact .inl rfl
  · rcases movePackToTeam_eq_ok h with ⟨row, space, hmoved⟩
    exact .inr ⟨authority, row, space, hauthority,
      Db.replayOperation_eq_none hreplay, hmoved⟩

end Registry
end Denju
