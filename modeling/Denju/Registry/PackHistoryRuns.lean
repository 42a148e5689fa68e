import Denju.Registry.PackHistory

/-!
# Runs and the history of packs

Only operations on packs and the rounds of the drain add versions.  So what a
pack has been stays on record in every run.
-/

namespace Denju

open Lib

namespace Registry

open Db

variable {self : Registry} {db db' : Db} {userId : Uuid}

/-!
## Operations on skills
-/

theorem ensured_keepsVersions (db : Db) (resourceId user : Uuid) :
    KeepsVersions db (db.ensurePrivateWorkspaceForUser resourceId user) := by
  unfold Db.ensurePrivateWorkspaceForUser
  repeat' split
  all_goals exact ⟨rfl, rfl, rfl, List.prefix_rfl⟩

theorem wakeUnless_keepsVersions {isTeam : Bool} {id : Uuid}
    {generation : Nat} :
    KeepsVersions db
      (if isTeam then db else db.enqueueResourceWake id generation) := by
  split
  · exact .refl _
  · exact KeepsVersions.wake (.refl _)

theorem moveWorkspace_keepsVersions {newConflictId : Uuid}
    {plan : PendingCommit self.ext} {forkSync : Option ValidatedForkSync}
    {isTeam : Bool} {resource : ResourceRow} {workspace : WorkspaceRow}
    {effect : CommitEffect}
    (hnone : workspace.revisionId ≠ plan.operation.expectedHeadRevisionId ->
      db.activeConflict plan.operation.resourceId plan.authority.userId =
        none)
    (h : moveWorkspace newConflictId plan forkSync isTeam resource workspace
      db = .ok effect) : KeepsVersions db effect.db := by
  unfold moveWorkspace at h
  split at h
  · rcases advanceWorkspace_eq_ok h with
      ⟨generation, _, _, _, resourceGeneration, forks, htables⟩
    rw [htables]
    cases isTeam with
    | false => exact ⟨rfl, rfl, rfl, List.prefix_rfl⟩
    | true => exact ⟨rfl, rfl, rfl, List.prefix_rfl⟩
  · rename_i hstale
    rcases (divergeWorkspace_eq_ok h (hnone hstale)).tables with
      ⟨row, htables, _⟩
    rw [htables]
    exact ⟨rfl, rfl, rfl, List.prefix_rfl⟩

theorem writePrivateRevision_keepsVersions {newConflictId : Uuid}
    {plan : PendingCommit self.ext} {outcome : PrivateRevisionCommitResponse}
    (h : writePrivateRevision newConflictId plan db = .ok (outcome, db')) :
    KeepsVersions db db' := by
  rcases bind_eq_ok.mp h with ⟨target, _, h⟩
  rcases bind_eq_ok.mp h with ⟨_, _, h⟩
  rcases bind_eq_ok.mp h with ⟨⟨resource, workspace⟩, _, h⟩
  rcases bind_eq_ok.mp h with ⟨_, _, h⟩
  rcases bind_eq_ok.mp h with ⟨locked, _, h⟩
  rcases bind_eq_ok.mp h with ⟨_, _, h⟩
  split at h
  · rcases bind_eq_ok.mp h with ⟨_, _, h⟩
    rcases bind_eq_ok.mp h with ⟨_, hhead, h⟩
    rcases bind_eq_ok.mp h with ⟨stored, hstored, h⟩
    rcases bind_eq_ok.mp h with ⟨effect, heffect, h⟩
    cases h
    rcases storeCommit_eq_ok hstored with
      ⟨_, _, _, _, _, _, _, _, rfl, _⟩
    have hnone :
        workspace.revisionId ≠ plan.operation.expectedHeadRevisionId ->
          db.activeConflict plan.operation.resourceId plan.authority.userId =
            none := by
      intro hstale
      cases Db.checkCommitHead_eq_ok hhead with
      | advance hmatches _ _ _ => exact absurd hmatches hstale
      | merge _ hmatches _ _ _ _ _ _ => exact absurd hmatches hstale
      | diverge _ hnone _ _ => exact hnone
    have hmoved := moveWorkspace_keepsVersions (by exact hnone) heffect
    refine KeepsVersions.trans ?_ wakeUnless_keepsVersions
    exact ⟨hmoved.revisions, hmoved.members, hmoved.states, hmoved.events⟩
  · rcases bind_eq_ok.mp h with ⟨stored, _, h⟩
    cases h
    exact .refl _

theorem writePrivateSkillImport_keepsVersions {plan : PendingImport self.ext}
    {outcome : PrivateSkillImportResponse}
    (h : writePrivateSkillImport plan db = .ok (outcome, db')) :
    KeepsVersions db db' := by
  rcases bind_eq_ok.mp h with ⟨target, _, h⟩
  rcases bind_eq_ok.mp h with ⟨_, _, h⟩
  rcases bind_eq_ok.mp h with ⟨locked, _, h⟩
  rcases bind_eq_ok.mp h with ⟨_, _, h⟩
  split at h
  · rcases bind_eq_ok.mp h with ⟨_, _, h⟩
    cases h
    exact .refl _
  · rcases bind_eq_ok.mp h with ⟨provenance, _, h⟩
    rcases bind_eq_ok.mp h with ⟨_, _, h⟩
    rcases bind_eq_ok.mp h with ⟨stored, hstored, h⟩
    rcases bind_eq_ok.mp h with ⟨created, hcreated, h⟩
    rcases storeImport_eq_ok hstored with ⟨_, _, _, _, _, rfl⟩
    rcases createImportedSkill_eq_ok hcreated with
      ⟨_, _, _, _, _, rfl, _⟩
    cases h
    exact ⟨rfl, rfl, rfl, List.prefix_rfl⟩

theorem moveToAccepted_keepsVersions {authority : UserAuthority}
    {request : ProposalAcceptRequest} {isTeam : Bool} {view : ProposalView}
    {workspace : WorkspaceRow} {outcome : SkillProposal}
    (h : moveToAccepted self authority request isTeam view workspace db =
      .ok (outcome, db')) : KeepsVersions db db' := by
  rcases bind_eq_ok.mp h with ⟨attached, hattached, h⟩
  rcases bind_eq_ok.mp h with ⟨source, _, h⟩
  rcases bind_eq_ok.mp h with ⟨stored, _, h⟩
  rcases bind_eq_ok.mp h with ⟨generation, _, h⟩
  rcases bind_eq_ok.mp h with ⟨resourceGeneration, _, h⟩
  rcases bind_eq_ok.mp h with ⟨proposalGeneration, _, h⟩
  rcases bind_eq_ok.mp h with ⟨closed, _, h⟩
  rcases bind_eq_ok.mp h with ⟨shown, _, h⟩
  rcases bind_eq_ok.mp h with ⟨recorded, hrecorded, h⟩
  rcases bind_eq_ok.mp hrecorded with ⟨operations, _, hrecorded⟩
  rcases attachProposalRevision_frame hattached with ⟨_, _, _, _, rfl⟩
  cases hrecorded
  cases h
  refine KeepsVersions.trans ?_ wakeUnless_keepsVersions
  cases isTeam with
  | false => exact ⟨rfl, rfl, rfl, List.prefix_rfl⟩
  | true => exact ⟨rfl, rfl, rfl, List.prefix_rfl⟩

theorem acceptProposal_keepsVersions {request : ProposalAcceptRequest}
    {outcome : SkillProposal}
    (h : self.acceptProposal userId request db = .ok (outcome, db')) :
    KeepsVersions db db' := by
  rcases bind_eq_ok.mp h with ⟨authority, _, h⟩
  rcases bind_eq_ok.mp h with ⟨_, _, h⟩
  rcases bind_eq_ok.mp h with ⟨replay, _, h⟩
  split at h
  · cases h
    exact .refl _
  · rcases bind_eq_ok.mp h with ⟨view, _, h⟩
    rcases bind_eq_ok.mp h with ⟨target, _, h⟩
    rcases bind_eq_ok.mp h with ⟨_, _, h⟩
    rcases bind_eq_ok.mp h with ⟨workspace, _, h⟩
    refine KeepsVersions.trans ?_ (moveToAccepted_keepsVersions h)
    split
    · exact ensured_keepsVersions _ _ _
    · exact .refl _

theorem moveToRestored_keepsVersions {plan : PendingRestore}
    {target : NamespacePublishAuthority} {resource : ResourceRow}
    {workspace : WorkspaceRow} {outcome : PrivateRevisionResponse}
    (h : self.moveToRestored plan target resource workspace db =
      .ok (outcome, db')) : KeepsVersions db db' := by
  rcases bind_eq_ok.mp h with ⟨revision, _, h⟩
  rcases bind_eq_ok.mp h with ⟨generation, _, h⟩
  rcases bind_eq_ok.mp h with ⟨resourceGeneration, _, h⟩
  rcases bind_eq_ok.mp h with ⟨stored, hstored, h⟩
  rcases bind_eq_ok.mp h with ⟨recorded, hrecorded, h⟩
  rcases bind_eq_ok.mp hrecorded with ⟨operations, _, hrecorded⟩
  rcases storeRestored_frame hstored with ⟨_, _, _, _, _, rfl⟩
  cases hrecorded
  cases h
  refine KeepsVersions.trans ?_ wakeUnless_keepsVersions
  cases target.isTeam with
  | false => exact ⟨rfl, rfl, rfl, List.prefix_rfl⟩
  | true => exact ⟨rfl, rfl, rfl, List.prefix_rfl⟩

theorem writeRestore_keepsVersions {plan : PendingRestore}
    {outcome : PrivateRevisionResponse}
    (h : self.writeRestore plan db = .ok (outcome, db')) :
    KeepsVersions db db' := by
  rcases bind_eq_ok.mp h with ⟨target, _, h⟩
  rcases bind_eq_ok.mp h with ⟨⟨resource, workspace⟩, _, h⟩
  rcases bind_eq_ok.mp h with ⟨_, _, h⟩
  rcases bind_eq_ok.mp h with ⟨_, _, h⟩
  rcases bind_eq_ok.mp h with ⟨_, _, h⟩
  rcases bind_eq_ok.mp h with ⟨_, _, h⟩
  refine KeepsVersions.trans ?_ (moveToRestored_keepsVersions h)
  split
  · exact ensured_keepsVersions _ _ _
  · exact .refl _

/-- A publish stores at most one release event, as its last statement. -/
theorem publishSkill_keepsVersions {newConflictId : Uuid}
    {request : PublishSkillRequest}
    {answer : Except ApiError PublishSkillResponse}
    (h : self.publishSkill newConflictId userId request db =
      .ok (answer, db')) : KeepsVersions db db' := by
  rcases bind_eq_ok.mp h with ⟨authority, hauthority, h⟩
  rcases bind_eq_ok.mp h with ⟨_, _, h⟩
  rcases bind_eq_ok.mp h with ⟨_, _, h⟩
  rcases bind_eq_ok.mp h with ⟨replay, _, h⟩
  split at h
  · cases h
    exact .refl _
  · rcases bind_eq_ok.mp h with ⟨context, hcontext, h⟩
    have hwritten := publishWorkspace_eq_ok h
    rcases publishContext_eq_ok hcontext with ⟨rfl, rfl, hfound⟩
    cases hwritten with
    | kept hdb' =>
        rw [hdb']
        exact .refl _
    | madePublic generation operations _ hdb' =>
        rw [hdb']
        apply KeepsVersions.wake
        exact ⟨rfl, rfl, rfl, List.prefix_rfl⟩
    | released version generation releases operations _ _ hdb' =>
        rw [hdb']
        apply KeepsVersions.event
        exact ⟨rfl, rfl, rfl, List.prefix_rfl⟩
    | raised row base detached _ hdb' _ =>
        rw [hdb']
        exact ⟨rfl, rfl, rfl, List.prefix_rfl⟩

theorem mutatePrivateShare_keepsVersions {kind : ShareMutationKind}
    {request : ShareSkillRequest} {outcome : ShareSkillResponse}
    (h : self.mutatePrivateShare kind userId request db =
      .ok (outcome, db')) : KeepsVersions db db' := by
  rcases bind_eq_ok.mp h with ⟨authority, _, h⟩
  rcases bind_eq_ok.mp h with ⟨_, _, h⟩
  rcases bind_eq_ok.mp h with ⟨replay, _, h⟩
  split at h
  · cases h
    exact .refl _
  · rcases bind_eq_ok.mp h with ⟨resource, _, h⟩
    rcases bind_eq_ok.mp h with ⟨owner, _, h⟩
    rcases bind_eq_ok.mp h with ⟨_, _, h⟩
    rcases bind_eq_ok.mp h with ⟨⟨recipient, slug⟩, _, h⟩
    rcases bind_eq_ok.mp h with ⟨_, _, h⟩
    rcases bind_eq_ok.mp h with ⟨operations, _, h⟩
    cases h
    apply KeepsVersions.wake
    unfold changeShare
    repeat' split
    all_goals exact ⟨rfl, rfl, rfl, List.prefix_rfl⟩

theorem mutateQuarantine_keepsVersions {kind : AdminQuarantineMutationKind}
    {newQuarantineId operator : Uuid} {request : AdminQuarantineRequest}
    {outcome : AdminQuarantineResponse}
    (h : self.mutateQuarantine kind newQuarantineId operator request db =
      .ok (outcome, db')) : KeepsVersions db db' := by
  rcases bind_eq_ok.mp h with ⟨_, _, h⟩
  rcases bind_eq_ok.mp h with ⟨_, _, h⟩
  rcases bind_eq_ok.mp h with ⟨_, _, h⟩
  rcases bind_eq_ok.mp h with ⟨replay, _, h⟩
  split at h
  · cases h
    exact .refl _
  · rcases bind_eq_ok.mp h with ⟨resource, _, h⟩
    rcases bind_eq_ok.mp h with ⟨_, _, h⟩
    rcases bind_eq_ok.mp h with ⟨version, _, h⟩
    rcases changeQuarantine_frame db kind newQuarantineId resource.id version
      (trim request.reason) with ⟨quarantineId, changed, quarantines, hmarked⟩
    rw [hmarked] at h
    rcases bind_eq_ok.mp h with ⟨⟨generation, advanced⟩, hadvanced, h⟩
    rcases bind_eq_ok.mp h with ⟨operations, _, h⟩
    have hversions : KeepsVersions db advanced := by
      unfold advanceQuarantined at hadvanced
      split at hadvanced
      · rcases bind_eq_ok.mp hadvanced with ⟨next, _, hadvanced⟩
        cases hadvanced
        apply KeepsVersions.wake
        exact ⟨rfl, rfl, rfl, List.prefix_rfl⟩
      · cases hadvanced
        exact ⟨rfl, rfl, rfl, List.prefix_rfl⟩
    cases h
    exact hversions.trans ⟨rfl, rfl, rfl, List.prefix_rfl⟩

end Registry

/-!
## The operations of a site
-/

namespace Service

open Db

variable {registry : Registry} {service : Service registry} {db : Db}

theorem settle_keepsHistory {α : Type} {result : Except ApiError (α × Db)}
    (h : forall value db, result = .ok (value, db) ->
      KeepsHistory service.db db) :
    KeepsHistory service.db (service.settle result).db :=
  settle_of (P := fun next => KeepsHistory service.db next.db) (.refl _) h

theorem settle_keepsVersions {α : Type} {result : Except ApiError (α × Db)}
    (h : forall value db, result = .ok (value, db) ->
      KeepsVersions service.db db) :
    KeepsHistory service.db (service.settle result).db :=
  settle_keepsHistory fun value db hresult => (h value db hresult).keepsHistory

theorem await_keepsHistory {α β : Type} {plan : β -> Plan registry.ext}
    {result : Except ApiError (α ⊕ β)} :
    KeepsHistory service.db (service.await plan result).db :=
  await_of (P := fun next => KeepsHistory service.db next.db) (.refl _)
    fun _ _ => .refl _

theorem writePlan_keepsHistory (newConflictId : Uuid)
    (plan : Plan registry.ext) :
    KeepsHistory service.db (service.writePlan newConflictId plan).db := by
  cases plan with
  | importing plan =>
      exact settle_keepsVersions fun _ _ h =>
        Registry.writePrivateSkillImport_keepsVersions h
  | save plan =>
      exact settle_keepsVersions fun _ _ h =>
        Registry.writePrivateRevision_keepsVersions h
  | restore plan =>
      exact settle_keepsVersions fun _ _ h =>
        Registry.writeRestore_keepsVersions h
  | rename plan =>
      refine settle_keepsVersions fun _ _ h => ?_
      cases plan with
      | personal plan =>
          rcases Registry.writePersonalRename_eq_ok h with ⟨_, _, hw⟩
          rcases hw.tables with
            ⟨_, generation, _, _, _, _, _, hstored, _, _, _, rfl⟩
          rcases Registry.storeRenamed_frame hstored with
            ⟨_, _, _, _, _, _, _, _, _, rfl⟩
          apply KeepsVersions.wake
          exact ⟨rfl, rfl, rfl, List.prefix_rfl⟩
      | team plan =>
          rcases Registry.writeTeamRename_eq_ok h with ⟨_, hw⟩
          rcases hw.tables with
            ⟨_, _, _, generation, _, _, _, _, _, hstored, hmoved, _, _, _,
              rfl⟩
          rcases Registry.persistContents_frame hstored with
            ⟨_, _, _, _, _, _, _, _, _, _, rfl⟩
          rcases Registry.moveTeamWorkspaces_frame hmoved with ⟨_, rfl, _⟩
          apply KeepsVersions.wake
          exact ⟨rfl, rfl, rfl, List.prefix_rfl⟩

theorem serve_keepsHistory (call : ServiceCall) :
    KeepsHistory service.db (service.serve call).db := by
  cases call with
  | prepareImport =>
      refine settle_keepsVersions fun _ _ h => ?_
      rcases Registry.preparePrivateSkillImport_eq_ok h with
        ⟨_, _, _, rfl | ⟨_, _, _, rfl⟩⟩
      · exact .refl _
      · exact ⟨rfl, rfl, rfl, List.prefix_rfl⟩
  | commitImport => exact await_keepsHistory
  | prepare =>
      refine settle_keepsVersions fun _ _ h => ?_
      rcases Registry.preparePrivateRevision_eq_ok h with
        ⟨_, _, _, _, _, _, _, _, rfl | ⟨_, hstore⟩⟩
      · exact .refl _
      · rcases Registry.storePrivateRevision_eq_ok hstore with
          ⟨_, start, _, _, _, _, hstart, _, _, rfl⟩
        have hensured : KeepsVersions service.db start := by
          rcases hstart with rfl | rfl
          · exact .refl _
          · exact Registry.ensured_keepsVersions _ _ _
        exact hensured.trans ⟨rfl, rfl, rfl, List.prefix_rfl⟩
  | commit => exact await_keepsHistory
  | publish =>
      exact settle_keepsVersions fun _ _ => Registry.publishSkill_keepsVersions
  | restore => exact await_keepsHistory
  | rename => exact await_keepsHistory
  | createProposal =>
      refine settle_keepsVersions fun _ _ h => ?_
      rcases Registry.createProposal_eq_ok h with rfl | ⟨_, _, rfl, _⟩
      · exact .refl _
      · exact ⟨rfl, rfl, rfl, List.prefix_rfl⟩
  | acceptProposal =>
      exact settle_keepsVersions fun _ _ h =>
        Registry.acceptProposal_keepsVersions h
  | write index newConflictId =>
      refine writeAt_of (P := fun next => KeepsHistory service.db next.db)
        (.refl _) fun plan _ => ?_
      exact @writePlan_keepsHistory _
        { service with plans := service.plans.eraseIdx index }
        newConflictId plan

theorem act_keepsHistory (activity : Activity) :
    KeepsHistory service.db (service.act activity).db := by
  cases activity with
  | call call => exact serve_keepsHistory call
  | unpublish =>
      refine settle_keepsVersions fun _ _ h => ?_
      rcases Registry.unpublishSkill_eq_ok h with rfl | ⟨_, _, rfl⟩
      · exact .refl _
      · apply KeepsVersions.wake
        exact ⟨rfl, rfl, rfl, List.prefix_rfl⟩
  | prune =>
      refine settle_keepsVersions fun _ _ h => ?_
      rcases Registry.pruneSkillHistory_eq_ok h with rfl | ⟨_, _, _, hpruned⟩
      · exact .refl _
      · rcases hpruned.tables with ⟨_, _, _, _, _, _, _, _, _, _, _, rfl⟩
        apply KeepsVersions.wake
        exact ⟨rfl, rfl, rfl, List.prefix_rfl⟩
  | transfer =>
      refine settle_keepsVersions fun _ _ h => ?_
      rcases Registry.transferResource_eq_ok h with rfl | ⟨_, _, _, hmoved⟩
      · exact .refl _
      · rcases hmoved.resource with
          ⟨_, _, _, _, _, _, _, _, _, _, _, _, _, _, _, rfl⟩
        apply KeepsVersions.wake
        exact ⟨rfl, rfl, rfl, List.prefix_rfl⟩
  | collect =>
      refine settle_keepsVersions fun _ _ h => ?_
      rcases Registry.drainBlobGc_eq_ok h with ⟨_, _, rfl, _⟩
      exact ⟨rfl, rfl, rfl, List.prefix_rfl⟩

theorem mutate_keepsHistory (mutation : Mutation) :
    KeepsHistory service.db (service.mutate mutation).db := by
  cases mutation with
  | activity activity => exact act_keepsHistory activity
  | deleteSkill =>
      refine settle_keepsVersions fun _ _ h => ?_
      rcases Registry.deleteSkill_eq_ok h with rfl | ⟨_, hdeleted⟩
      · exact .refl _
      · rcases hdeleted.tables with ⟨_, _, _, _, _, rfl⟩
        apply KeepsVersions.wake
        exact ⟨rfl, rfl, rfl, List.prefix_rfl⟩
  | deprecateSkill =>
      refine settle_keepsVersions fun _ _ h => ?_
      rcases Registry.deprecateSkill_eq_ok h with rfl | ⟨_, _, rfl⟩
      · exact .refl _
      · apply KeepsVersions.wake
        exact ⟨rfl, rfl, rfl, List.prefix_rfl⟩
  | share =>
      exact settle_keepsVersions fun _ _ h =>
        Registry.mutatePrivateShare_keepsVersions h
  | quarantine =>
      exact settle_keepsVersions fun _ _ h =>
        Registry.mutateQuarantine_keepsVersions h
  | createPack =>
      exact settle_keepsHistory fun _ _ => Registry.createPack_keepsHistory
  | mutatePack =>
      exact settle_keepsHistory fun _ _ => Registry.mutatePack_keepsHistory
  | publishPack =>
      exact settle_keepsHistory fun _ _ => Registry.publishPack_keepsHistory
  | renamePack =>
      exact settle_keepsHistory fun _ _ => Registry.renamePack_keepsHistory
  | unpublishPack =>
      exact settle_keepsHistory fun _ _ => Registry.unpublishPack_keepsHistory
  | deletePack =>
      exact settle_keepsHistory fun _ _ => Registry.deletePack_keepsHistory
  | transferPack =>
      exact settle_keepsHistory fun _ _ => Registry.transferPack_keepsHistory
  | subscribe =>
      refine settle_keepsVersions fun _ _ h => ?_
      rcases Registry.mutateSubscription_eq_ok h with ⟨_, _, _, _, rfl⟩
      exact ⟨rfl, rfl, rfl, List.prefix_rfl⟩
  | subscribePack =>
      refine settle_keepsVersions fun _ _ h => ?_
      rcases Registry.mutatePackSubscription_eq_ok h with ⟨_, _, _, _, rfl⟩
      exact ⟨rfl, rfl, rfl, List.prefix_rfl⟩
  | assignPack =>
      refine settle_keepsVersions fun _ _ h => ?_
      rcases Registry.mutateTeamPackAssignment_eq_ok h with ⟨_, _, rfl⟩
      exact ⟨rfl, rfl, rfl, List.prefix_rfl⟩

end Service

/-!
## Runs with publishes in flight
-/

namespace Site

open Db

variable {registry : Registry} {site site' : Site registry}

/-- The versions of packs are recorded, and the rounds of the drain work on
visible events. -/
structure Recorded (site : Site registry) : Prop where
  history : PackHistory site.db
  tasks : forall task, task ∈ site.tasks ->
    task.event ∈ site.db.releaseEvents

theorem Recorded.keep (h : site.Recorded)
    (hkeeps : KeepsHistory site.db site'.db)
    (htasks : forall task, task ∈ site'.tasks ->
      exists old, old ∈ site.tasks ∧ task.event = old.event) :
    site'.Recorded where
  history := hkeeps.history h.history
  tasks := by
    intro task htask
    rcases htasks task htask with ⟨old, hold, hsame⟩
    rw [hsame]
    exact mem_releaseEvents_of_prefix hkeeps.events (h.tasks old hold)

theorem perform_keepsHistory {index : Nat} {task : DrainTask}
    (h : site.Recorded) (htask : site.tasks[index]? = some task) :
    (site.perform index task).Recorded ∧
      KeepsHistory site.db (site.perform index task).db := by
  have hfewer : forall other, other ∈ site.tasks.eraseIdx index ->
      exists old, old ∈ site.tasks ∧ other.event = old.event :=
    fun other hother => ⟨other, List.mem_of_mem_eraseIdx hother, rfl⟩
  have hmem := List.mem_of_getElem? htask
  cases task with
  | search event =>
      refine ⟨@Recorded.keep _ site (site.perform index (.search event)) h
        (.refl _) ?_, .refl _⟩
      intro other hother
      rcases List.mem_or_eq_of_mem_set hother with hold | hset
      · exact ⟨other, hold, rfl⟩
      · refine ⟨.search event, hmem, ?_⟩
        rw [hset]
        split
        · rfl
        · rfl
  | advance packId event =>
      have hkept : KeepsHistory site.db (site.service.settle
          (advancePackForReleaseEvent packId event site.db)).db := by
        refine Service.settle_keepsHistory fun _ _ hadvanced => ?_
        rcases bind_eq_ok.mp hadvanced with
          ⟨⟨advanced, stored⟩, hstored, hadvanced⟩
        have hfirst := advancePackEvent_keepsHistory
          (h.tasks _ hmem) hstored
        cases advanced with
        | none =>
            cases hadvanced
            exact hfirst
        | some pack =>
            cases hadvanced
            exact hfirst.trans wake_keepsHistory
      exact ⟨h.keep hkept hfewer, hkept⟩
  | complete event =>
      have hkept : KeepsHistory site.db
          (site.db.completeReleaseEvent event.id) := by
        apply KeepsVersions.keepsHistory
        unfold completeReleaseEvent
        split
        · exact .refl _
        · exact ⟨rfl, rfl, rfl, List.prefix_rfl⟩
      exact ⟨h.keep hkept hfewer, hkept⟩

theorem earliestPending_visible {db : Db} {event : PackReleaseEvent}
    (h : db.earliestPendingReleaseEvent = some event) :
    event ∈ db.releaseEvents := by
  have hmember := List.mem_of_find?_eq_some h
  unfold releaseEvents
  simp only [List.mem_filterMap, mem_sortByKey] at hmember ⊢
  exact hmember

theorem operate_keepsHistory (operation : Operation) (h : site.Recorded) :
    (site.operate operation).Recorded ∧
      KeepsHistory site.db (site.operate operation).db := by
  cases operation with
  | mutation mutation =>
      have hkept := @Service.mutate_keepsHistory _ site.service mutation
      exact ⟨h.keep hkept fun task htask => ⟨task, htask, rfl⟩, hkept⟩
  | drain =>
      unfold operate
      cases hearliest : site.db.earliestPendingReleaseEvent with
      | none => exact ⟨h, .refl _⟩
      | some event =>
          refine ⟨⟨h.history, ?_⟩, .refl _⟩
          intro task htask
          rcases List.mem_append.mp htask with hold | hlast
          · exact h.tasks task hold
          · rw [List.mem_singleton.mp hlast]
            exact earliestPending_visible hearliest
  | work index =>
      show (site.work index).Recorded ∧
        KeepsHistory site.db (site.work index).db
      unfold work
      cases htask : site.tasks[index]? with
      | none => exact ⟨h, .refl _⟩
      | some task => exact perform_keepsHistory h htask

end Site

namespace PublishingSite

open Db

variable {registry : Registry} {s later : PublishingSite registry}

theorem commit_keepsHistory {publish : PublishInFlight}
    {site : Site registry} : KeepsHistory site.db (publish.commit site).db := by
  refine Service.settle_keepsVersions fun answer db hmapped => ?_
  rcases map_eq_ok.mp hmapped with ⟨⟨answer', stored⟩, hresult, hstored⟩
  cases hstored
  have hkept := Registry.publishSkill_keepsVersions hresult
  exact ⟨hkept.revisions, hkept.members, hkept.states, hkept.events⟩

theorem step_keepsHistory (step : PublishingStep) (h : s.site.Recorded) :
    (s.step step).site.Recorded ∧
      KeepsHistory s.db (s.step step).db := by
  cases step with
  | operation operation => exact Site.operate_keepsHistory operation h
  | draw newConflictId userId request =>
      have hkept : KeepsHistory s.db
          (s.draw newConflictId userId request).db :=
        KeepsVersions.keepsHistory ⟨rfl, rfl, rfl, List.prefix_rfl⟩
      exact ⟨h.keep hkept fun task htask => ⟨task, htask, rfl⟩, hkept⟩
  | abort index => exact ⟨h, .refl _⟩
  | commit index =>
      cases hpublish : s.inFlight[index]? with
      | none =>
          have hsame : s.step (.commit index) = s := by
            simp only [PublishingSite.step, hpublish]
          rw [hsame]
          exact ⟨h, .refl _⟩
      | some publish =>
          have hcommitted : s.step (.commit index) =
              { site := publish.commit s.site
                inFlight := s.inFlight.eraseIdx index } := by
            simp only [PublishingSite.step, hpublish]
          rw [hcommitted]
          have hkept := @commit_keepsHistory _ publish s.site
          exact ⟨h.keep hkept fun task htask => ⟨task, htask, rfl⟩, hkept⟩

/-- Any step. -/
abbrev Steps : PublishingSite registry -> PublishingStep ->
    PublishingSite registry -> Prop :=
  Guarded (fun _ _ => True) step

theorem recorded_empty (directory : Directory) :
    (empty registry directory).site.Recorded where
  history :=
    { stated := fun _ h => absurd h List.not_mem_nil
      numbered := fun _ _ h => by cases h
      key := List.nodup_nil
      placed := fun _ h => absurd h List.not_mem_nil
      explained := fun _ _ h => absurd h List.not_mem_nil }
  tasks := fun _ h => absurd h List.not_mem_nil

theorem keepsHistory_of_run {steps : List PublishingStep}
    (h : s.site.Recorded) (hrun : Run Steps s steps later) :
    later.site.Recorded ∧ KeepsHistory s.db later.db := by
  refine hrun.invariant (P := fun later => later.site.Recorded ∧
    KeepsHistory s.db later.db) ⟨h, .refl _⟩ ?_
  intro before step after hbefore hstep
  rw [hstep.2]
  have hnext := step_keepsHistory step hbefore.1
  exact ⟨hnext.1, hbefore.2.trans hnext.2⟩

/-- Whatever publishes, drains and changes of packs have done, the versions of
a pack are numbered from one to its current one, a version that a release made
is the one before it with this release, and later steps change no version. -/
theorem pack_history_recorded {directory : Directory}
    {past steps : List PublishingStep}
    (hpast : Run Steps (empty registry directory) past s)
    (hrun : Run Steps s steps later) :
    (forall packId state, s.db.packState packId = some state ->
      forall number, (0 < number ∧ number ≤ state.currentVersion.value <->
        ∃! row, row ∈ s.db.packRevisions ∧ row.packResourceId = packId ∧
          row.version.value = number)) ∧
    (forall row number, row ∈ s.db.packRevisions ->
      row.sourceReleaseEventId = some number -> exists event,
        event.id = number ∧ s.db.MadeBy row event) ∧
    forall row, row ∈ s.db.packRevisions ->
      row ∈ later.db.packRevisions ∧
        later.db.loadPackRevisionMembers row.packResourceId row.version =
          s.db.loadPackRevisionMembers row.packResourceId row.version := by
  have hrecorded := (keepsHistory_of_run (recorded_empty directory) hpast).1
  refine ⟨?_, hrecorded.history.explained,
    (keepsHistory_of_run hrecorded hrun).2.versions hrecorded.history⟩
  intro packId state hstate number
  constructor
  · intro hnumber
    rcases hrecorded.history.numbered packId state hstate number hnumber.1
      hnumber.2 with ⟨row, hrow, hpack, hversion⟩
    refine ⟨row, ⟨hrow, hpack, hversion⟩, ?_⟩
    intro other hother
    apply List.inj_on_of_nodup_map hrecorded.history.key hother.1 hrow
    have hsame := Generation.eq_of_value_eq
      (hother.2.2.trans hversion.symm)
    rw [hother.2.1, hpack, hsame]
  · intro hunique
    rcases hunique with ⟨row, ⟨hrow, hpack, hversion⟩, _⟩
    rcases hrecorded.history.stated row hrow with ⟨found, hfound, hle⟩
    have hcurrent : s.db.packState row.packResourceId = some found := hfound
    rw [hpack, hstate] at hcurrent
    cases hcurrent
    rw [← hversion]
    exact ⟨row.version.positive, hle⟩

theorem pack_history_recorded_timely :
    (exists event, event.id = 2 ∧
        (Sample.orderingSite Sample.timelySteps).db.MadeBy
          (Sample.appliedVersion ⟨3, by decide, by decide⟩ 2) event) ∧
      (Sample.round.foldl step
          (Sample.orderingSite
            Sample.timelySteps)).db.loadPackRevisionMembers
          (Sample.uuid 50) ⟨3, by decide, by decide⟩ =
        (Sample.orderingSite Sample.timelySteps).db.loadPackRevisionMembers
          (Sample.uuid 50) ⟨3, by decide, by decide⟩ := by
  have hpast : Run Steps (empty Sample.ordering Sample.directory)
      Sample.timelySteps (Sample.orderingSite Sample.timelySteps) :=
    Run.guarded_of_all (by decide +kernel)
  have hrun : Run Steps (Sample.orderingSite Sample.timelySteps) Sample.round
      (Sample.round.foldl step (Sample.orderingSite Sample.timelySteps)) :=
    Run.guarded_of_all (by decide +kernel)
  have hrow : Sample.appliedVersion ⟨3, by decide, by decide⟩ 2 ∈
      (Sample.orderingSite Sample.timelySteps).db.packRevisions := by
    decide +kernel
  have hrecorded := (pack_history_recorded hpast hrun).2
  exact ⟨hrecorded.1 _ 2 hrow rfl, (hrecorded.2 _ hrow).2⟩

end PublishingSite
end Denju
