import Denju.Registry.ReleaseKeeping
import Denju.Registry.ObjectRuns

/-!
# Releases reach packs in order

A publish draws the number of its event inside its transaction and becomes
visible when it commits.  Other publishes may draw larger numbers and commit
before it.  Packs follow releases in order as long as a publish commits before
any pack that awaits it has applied, or is about to apply, a later event.
-/

namespace Denju

open Lib

namespace Registry

open Db

variable {registry : Registry} {db db' : Db} {userId : Uuid}

/-- A publish stores at most one release event, as its last statement. -/
theorem publishSkill_releases {newConflictId : Uuid}
    {request : PublishSkillRequest}
    {answer : Except ApiError PublishSkillResponse}
    (h : registry.publishSkill newConflictId userId request db =
      .ok (answer, db')) :
    Quiet db db' ∨ exists before generation release,
      Quiet db before ∧
        before.authorityEvents = db.authorityEvents ∧
        before.authorityEventSequence = db.authorityEventSequence ∧
        db' = before.enqueueSkillReleaseWake request.resourceId generation
          release := by
  rcases bind_eq_ok.mp h with ⟨authority, hauthority, h⟩
  rcases bind_eq_ok.mp h with ⟨_, _, h⟩
  rcases bind_eq_ok.mp h with ⟨_, _, h⟩
  rcases bind_eq_ok.mp h with ⟨replay, _, h⟩
  split at h
  · cases h
    exact .inl (.refl _)
  · rcases bind_eq_ok.mp h with ⟨context, hcontext, h⟩
    have hwritten := publishWorkspace_eq_ok h
    rcases publishContext_eq_ok hcontext with ⟨rfl, rfl, hfound⟩
    cases hwritten with
    | kept hdb' =>
        rw [hdb']
        exact .inl (.refl _)
    | madePublic generation operations _ hdb' =>
        rw [hdb']
        left
        apply Quiet.wake
        exact .ofRewrite ⟨rfl, rfl, rfl, rfl, rfl, Nat.le_refl _⟩ rfl
          (fun _ => rfl) fun _ hlive => hlive
    | released version generation releases operations _ _ hdb' =>
        refine .inr ⟨_, generation.value, _, ?_, ?_, ?_, hdb'⟩
        · exact .ofRewrite ⟨rfl, rfl, rfl, rfl, rfl, Nat.le_refl _⟩ rfl
            (fun _ => rfl) fun _ hlive => hlive
        · rfl
        · rfl
    | raised row base detached _ hdb' _ =>
        rw [hdb']
        left
        exact .ofSameResources ⟨rfl, rfl, rfl, rfl, rfl, Nat.le_refl _⟩ rfl

theorem publishSkill_keepsOrder {newConflictId : Uuid}
    {request : PublishSkillRequest}
    {answer : Except ApiError PublishSkillResponse}
    (h : registry.publishSkill newConflictId userId request db =
      .ok (answer, db')) : KeepsOrder db db' := by
  rcases publishSkill_releases h with
    hquiet | ⟨before, generation, release, hquiet, _, _, rfl⟩
  · exact hquiet.keepsOrder
  · exact hquiet.keepsOrder.trans (enqueueRelease_keepsOrder before)

theorem mutatePrivateShare_keepsFeed {kind : ShareMutationKind}
    {request : ShareSkillRequest} {outcome : ShareSkillResponse}
    (h : registry.mutatePrivateShare kind userId request db =
      .ok (outcome, db')) : KeepsFeed db db' := by
  rcases bind_eq_ok.mp h with ⟨authority, _, h⟩
  rcases bind_eq_ok.mp h with ⟨_, _, h⟩
  rcases bind_eq_ok.mp h with ⟨replay, _, h⟩
  split at h
  · cases h
    exact .refl _
  · rcases bind_eq_ok.mp h with ⟨resource, _, h⟩
    rcases bind_eq_ok.mp h with ⟨owner, _, h⟩
    rcases bind_eq_ok.mp h with ⟨_, _, h⟩
    rcases bind_eq_ok.mp h with ⟨⟨recipient, slug⟩, _, h⟩
    rcases bind_eq_ok.mp h with ⟨_, _, h⟩
    rcases bind_eq_ok.mp h with ⟨operations, _, h⟩
    cases h
    apply KeepsFeed.wake
    unfold changeShare
    repeat' split
    all_goals exact ⟨rfl, rfl, rfl, rfl, rfl, Nat.le_refl _⟩

theorem mutateQuarantine_keepsFeed {kind : AdminQuarantineMutationKind}
    {newQuarantineId operator : Uuid} {request : AdminQuarantineRequest}
    {outcome : AdminQuarantineResponse}
    (h : registry.mutateQuarantine kind newQuarantineId operator request db =
      .ok (outcome, db')) : KeepsFeed db db' := by
  rcases bind_eq_ok.mp h with ⟨_, _, h⟩
  rcases bind_eq_ok.mp h with ⟨_, _, h⟩
  rcases bind_eq_ok.mp h with ⟨_, _, h⟩
  rcases bind_eq_ok.mp h with ⟨replay, _, h⟩
  split at h
  · cases h
    exact .refl _
  · rcases bind_eq_ok.mp h with ⟨resource, _, h⟩
    rcases bind_eq_ok.mp h with ⟨_, _, h⟩
    rcases bind_eq_ok.mp h with ⟨version, _, h⟩
    rcases changeQuarantine_frame db kind newQuarantineId resource.id version
      (trim request.reason) with ⟨quarantineId, changed, quarantines, hmarked⟩
    rw [hmarked] at h
    rcases bind_eq_ok.mp h with ⟨⟨generation, advanced⟩, hadvanced, h⟩
    rcases bind_eq_ok.mp h with ⟨operations, _, h⟩
    have hfeed : KeepsFeed db advanced := by
      unfold advanceQuarantined at hadvanced
      split at hadvanced
      · rcases bind_eq_ok.mp hadvanced with ⟨next, _, hadvanced⟩
        cases hadvanced
        apply KeepsFeed.wake
        exact ⟨rfl, rfl, rfl, rfl, rfl, Nat.le_refl _⟩
      · cases hadvanced
        exact ⟨rfl, rfl, rfl, rfl, rfl, Nat.le_refl _⟩
    cases h
    exact hfeed.trans ⟨rfl, rfl, rfl, rfl, rfl, Nat.le_refl _⟩

end Registry

/-!
## The operations of a site
-/

namespace Service

open Db

variable {registry : Registry} {service : Service registry} {db : Db}

theorem settle_keepsOrder {α : Type} {result : Except ApiError (α × Db)}
    (h : forall value db, result = .ok (value, db) ->
      KeepsOrder service.db db) :
    KeepsOrder service.db (service.settle result).db :=
  settle_of (P := fun next => KeepsOrder service.db next.db) (.refl _) h

theorem await_keepsOrder {α β : Type} {plan : β -> Plan registry.ext}
    {result : Except ApiError (α ⊕ β)} :
    KeepsOrder service.db (service.await plan result).db :=
  await_of (P := fun next => KeepsOrder service.db next.db) (.refl _)
    fun _ _ => .refl _

theorem writePlan_keepsOrder (newConflictId : Uuid)
    (plan : Plan registry.ext) :
    KeepsOrder service.db (service.writePlan newConflictId plan).db := by
  cases plan with
  | importing plan =>
      refine settle_keepsOrder fun _ _ h => ?_
      apply Quiet.keepsOrder
      have hfeed := Registry.writePrivateSkillImport_keepsFeed h
      rcases Registry.writePrivateSkillImport_eq_ok h with rfl | ⟨_, _, hw⟩
      · exact .refl _
      · rcases hw.resources with ⟨row, _, _, hresources⟩
        exact .ofInsert hfeed hresources
  | save plan =>
      refine settle_keepsOrder fun _ _ h => Quiet.keepsOrder ?_
      exact .ofNamed (Registry.writePrivateRevision_keepsFeed h)
        (writeSave_sameNames h)
  | restore plan =>
      refine settle_keepsOrder fun _ _ h => Quiet.keepsOrder ?_
      exact .ofNamed (Registry.writeRestore_keepsFeed h)
        (writeRestore_sameNames h)
  | rename plan =>
      refine settle_keepsOrder fun _ _ h => Quiet.keepsOrder ?_
      cases plan with
      | personal plan =>
          rcases Registry.writePersonalRename_eq_ok h with ⟨_, _, hw⟩
          rcases hw.tables with
            ⟨_, generation, _, _, _, _, _, hstored, _, _, _, rfl⟩
          rcases Registry.storeRenamed_frame hstored with
            ⟨_, _, _, _, _, _, _, _, _, rfl⟩
          apply Quiet.wake
          exact .ofRewrite ⟨rfl, rfl, rfl, rfl, rfl, Nat.le_refl _⟩ rfl
            (fun _ => rfl) fun _ hlive => hlive
      | team plan =>
          rcases Registry.writeTeamRename_eq_ok h with ⟨_, hw⟩
          rcases hw.tables with
            ⟨_, _, _, generation, _, _, _, _, _, hstored, hmoved, _, _, _,
              rfl⟩
          rcases Registry.persistContents_frame hstored with
            ⟨_, _, _, _, _, _, _, _, _, _, rfl⟩
          rcases Registry.moveTeamWorkspaces_frame hmoved with ⟨_, rfl, _⟩
          apply Quiet.wake
          exact .ofRewrite ⟨rfl, rfl, rfl, rfl, rfl, Nat.le_refl _⟩ rfl
            (fun _ => rfl) fun _ hlive => hlive

theorem serve_keepsOrder (call : ServiceCall) :
    KeepsOrder service.db (service.serve call).db := by
  cases call with
  | prepareImport =>
      refine settle_keepsOrder fun _ _ h => Quiet.keepsOrder ?_
      rcases Registry.preparePrivateSkillImport_eq_ok h with
        ⟨_, _, _, rfl | ⟨_, _, _, rfl⟩⟩
      · exact .refl _
      · exact .ofSameResources ⟨rfl, rfl, rfl, rfl, rfl, Nat.le_refl _⟩ rfl
  | commitImport => exact await_keepsOrder
  | prepare =>
      refine settle_keepsOrder fun _ _ h => Quiet.keepsOrder ?_
      refine .ofNamed ?_ (prepare_sameNames h)
      rcases Registry.preparePrivateRevision_eq_ok h with
        ⟨_, _, _, _, _, _, _, _, rfl | ⟨_, hstore⟩⟩
      · exact .refl _
      · rcases Registry.storePrivateRevision_eq_ok hstore with
          ⟨_, start, _, _, _, _, hstart, _, _, rfl⟩
        have hensured : KeepsFeed service.db start := by
          rcases hstart with rfl | rfl
          · exact .refl _
          · exact Registry.ensured_keepsFeed _ _ _
        exact hensured.trans ⟨rfl, rfl, rfl, rfl, rfl, Nat.le_refl _⟩
  | commit => exact await_keepsOrder
  | publish =>
      exact settle_keepsOrder fun _ _ => Registry.publishSkill_keepsOrder
  | restore => exact await_keepsOrder
  | rename => exact await_keepsOrder
  | createProposal =>
      refine settle_keepsOrder fun _ _ h => Quiet.keepsOrder ?_
      rcases Registry.createProposal_eq_ok h with rfl | ⟨_, _, rfl, _⟩
      · exact .refl _
      · exact .ofSameResources ⟨rfl, rfl, rfl, rfl, rfl, Nat.le_refl _⟩ rfl
  | acceptProposal =>
      refine settle_keepsOrder fun _ _ h => Quiet.keepsOrder ?_
      exact .ofNamed (Registry.acceptProposal_keepsFeed h)
        (acceptProposal_sameNames h)
  | write index newConflictId =>
      refine writeAt_of (P := fun next => KeepsOrder service.db next.db)
        (.refl _) fun plan _ => ?_
      exact @writePlan_keepsOrder _
        { service with plans := service.plans.eraseIdx index }
        newConflictId plan

theorem act_keepsOrder (activity : Activity) :
    KeepsOrder service.db (service.act activity).db := by
  cases activity with
  | call call => exact serve_keepsOrder call
  | unpublish =>
      refine settle_keepsOrder fun _ _ h => Quiet.keepsOrder ?_
      rcases Registry.unpublishSkill_eq_ok h with rfl | ⟨_, _, rfl⟩
      · exact .refl _
      · apply Quiet.wake
        exact .ofRewrite ⟨rfl, rfl, rfl, rfl, rfl, Nat.le_refl _⟩ rfl
          (fun _ => rfl) fun _ hlive => hlive
  | prune =>
      refine settle_keepsOrder fun _ _ h => Quiet.keepsOrder ?_
      rcases Registry.pruneSkillHistory_eq_ok h with rfl | ⟨_, _, _, hpruned⟩
      · exact .refl _
      · rcases hpruned.tables with ⟨_, _, _, _, _, _, _, _, _, _, _, rfl⟩
        apply Quiet.wake
        exact .ofRewrite ⟨rfl, rfl, rfl, rfl, rfl, Nat.le_refl _⟩ rfl
          (fun _ => rfl) fun _ hlive => hlive
  | transfer =>
      refine settle_keepsOrder fun _ _ h => Quiet.keepsOrder ?_
      rcases Registry.transferResource_eq_ok h with rfl | ⟨_, _, _, hmoved⟩
      · exact .refl _
      · rcases hmoved.resource with
          ⟨_, _, _, _, _, _, _, _, _, _, _, _, _, _, _, rfl⟩
        apply Quiet.wake
        exact .ofRewrite ⟨rfl, rfl, rfl, rfl, rfl, Nat.le_refl _⟩ rfl
          (fun _ => rfl) fun _ hlive => hlive
  | collect =>
      refine settle_keepsOrder fun _ _ h => Quiet.keepsOrder ?_
      rcases Registry.drainBlobGc_eq_ok h with ⟨_, _, rfl, _⟩
      exact .ofSameResources ⟨rfl, rfl, rfl, rfl, rfl, Nat.le_refl _⟩ rfl

theorem mutate_keepsOrder (mutation : Mutation) :
    KeepsOrder service.db (service.mutate mutation).db := by
  cases mutation with
  | activity activity => exact act_keepsOrder activity
  | deleteSkill =>
      refine settle_keepsOrder fun _ _ h => Quiet.keepsOrder ?_
      rcases Registry.deleteSkill_eq_ok h with rfl | ⟨_, hdeleted⟩
      · exact .refl _
      · rcases hdeleted.tables with ⟨_, _, _, _, _, rfl⟩
        apply Quiet.wake
        refine .ofRewrite ⟨rfl, rfl, rfl, rfl, rfl, Nat.le_refl _⟩ rfl
          (fun _ => rfl) ?_
        intro row hlive
        cases hlive
  | deprecateSkill =>
      refine settle_keepsOrder fun _ _ h => Quiet.keepsOrder ?_
      rcases Registry.deprecateSkill_eq_ok h with rfl | ⟨_, _, rfl⟩
      · exact .refl _
      · apply Quiet.wake
        exact .ofRewrite ⟨rfl, rfl, rfl, rfl, rfl, Nat.le_refl _⟩ rfl
          (fun _ => rfl) fun _ hlive => hlive
  | share =>
      refine settle_keepsOrder fun _ _ h => Quiet.keepsOrder ?_
      refine .ofSameResources (Registry.mutatePrivateShare_keepsFeed h) ?_
      rcases Registry.mutatePrivateShare_eq_ok h with ⟨_, _, _, _, rfl⟩
      rfl
  | quarantine =>
      refine settle_keepsOrder fun _ _ h => Quiet.keepsOrder ?_
      exact .ofNamed (Registry.mutateQuarantine_keepsFeed h)
        (quarantine_sameNames h)
  | createPack =>
      exact settle_keepsOrder fun _ _ => Registry.createPack_keepsOrder
  | mutatePack =>
      exact settle_keepsOrder fun _ _ => Registry.mutatePack_keepsOrder
  | publishPack =>
      exact settle_keepsOrder fun _ _ => Registry.publishPack_keepsOrder
  | renamePack =>
      exact settle_keepsOrder fun _ _ => Registry.renamePack_keepsOrder
  | unpublishPack =>
      exact settle_keepsOrder fun _ _ => Registry.unpublishPack_keepsOrder
  | deletePack =>
      exact settle_keepsOrder fun _ _ => Registry.deletePack_keepsOrder
  | transferPack =>
      exact settle_keepsOrder fun _ _ => Registry.transferPack_keepsOrder
  | subscribe =>
      refine settle_keepsOrder fun _ _ h => Quiet.keepsOrder ?_
      rcases Registry.mutateSubscription_eq_ok h with ⟨_, _, _, _, rfl⟩
      exact .ofSameResources ⟨rfl, rfl, rfl, rfl, rfl, Nat.le_refl _⟩ rfl
  | subscribePack =>
      refine settle_keepsOrder fun _ _ h => Quiet.keepsOrder ?_
      rcases Registry.mutatePackSubscription_eq_ok h with ⟨_, _, _, _, rfl⟩
      exact .ofSameResources ⟨rfl, rfl, rfl, rfl, rfl, Nat.le_refl _⟩ rfl
  | assignPack =>
      refine settle_keepsOrder fun _ _ h => Quiet.keepsOrder ?_
      rcases Registry.mutateTeamPackAssignment_eq_ok h with ⟨_, _, rfl⟩
      exact .ofSameResources ⟨rfl, rfl, rfl, rfl, rfl, Nat.le_refl _⟩ rfl

end Service

/-!
## The rounds of the drain
-/

def DrainTask.event : DrainTask -> PackReleaseEvent
  | .search event => event
  | .advance _ event => event
  | .complete event => event

namespace Db

/-- A round works on the first event that packs may still await, and completes
one that none does. -/
def TaskSound (db : Db) (task : DrainTask) : Prop :=
  task.event ∈ db.releaseEvents ∧
    match task with
    | .complete event => db.feed.Done event
    | .search event => db.feed.Settled PackReleaseEvent.id event
    | .advance _ event => db.feed.Settled PackReleaseEvent.id event

/-- A completed event is visible and awaited by no pack. -/
structure Drained (db : Db) (tasks : List DrainTask) : Prop where
  tasks : forall task, task ∈ tasks -> db.TaskSound task
  completed : forall id, id ∈ db.packReleaseEventCompletions ->
    exists event, event ∈ db.releaseEvents ∧ event.id = id ∧
      db.feed.Done event

variable {db db' : Db} {tasks : List DrainTask}

theorem Drained.mono {fewer : List DrainTask} (h : Drained db tasks)
    (hsub : forall task, task ∈ fewer -> task ∈ tasks) : Drained db fewer where
  tasks := fun task htask => h.tasks task (hsub task htask)
  completed := h.completed

theorem TaskSound.carry {task : DrainTask} (h : db.TaskSound task)
    (heases : Feed.Eases db.feed db'.feed)
    (hnew : forall event, event ∈ db'.releaseEvents ->
      event ∉ db.releaseEvents -> event.id < task.event.id ->
        forall packId, db'.awaits packId event = true ->
          ¬db.awaits packId task.event = true) : db'.TaskSound task := by
  refine ⟨heases.visible _ h.1, ?_⟩
  cases task with
  | complete event => exact Feed.Done.ease h.2 heases h.1
  | search event => exact Feed.Settled.ease h.2 heases h.1 hnew
  | advance packId event => exact Feed.Settled.ease h.2 heases h.1 hnew

theorem Drained.carry (h : Drained db tasks)
    (heases : Feed.Eases db.feed db'.feed)
    (hcompletions : db'.packReleaseEventCompletions =
      db.packReleaseEventCompletions)
    (hnew : forall task, task ∈ tasks -> forall event,
      event ∈ db'.releaseEvents -> event ∉ db.releaseEvents ->
        event.id < task.event.id -> forall packId,
          db'.awaits packId event = true ->
            ¬db.awaits packId task.event = true) : Drained db' tasks where
  tasks := fun task htask => (h.tasks task htask).carry heases (hnew task htask)
  completed := by
    intro id hid
    rw [hcompletions] at hid
    rcases h.completed id hid with ⟨event, hevent, hsame, hdone⟩
    exact ⟨event, heases.visible event hevent, hsame,
      hdone.ease heases hevent⟩

/-- What becomes visible with a larger number disturbs no round. -/
theorem Drained.keep (hdb : FollowsInOrder db) (h : Drained db tasks)
    (hcarries : Carries db db') : Drained db' tasks := by
  refine h.carry hcarries.eases hcarries.completions ?_
  intro task htask event hevent hunseen hlt
  rcases hcarries.fresh event hevent with hold | hlater
  · exact absurd hold hunseen
  · have hknown := hdb.known task.event (h.tasks task htask).1
    exact absurd (Nat.lt_trans hlt (Nat.lt_of_le_of_lt hknown hlater))
      (Nat.lt_irrefl _)

/-- The first event that is not completed is settled. -/
theorem earliestPending_sound {event : PackReleaseEvent}
    (h : Drained db tasks) (hdb : FollowsInOrder db)
    (hearliest : db.earliestPendingReleaseEvent = some event) :
    db.TaskSound (.search event) := by
  unfold earliestPendingReleaseEvent at hearliest
  have hsorted : ((sortByKey AuthorityEventRow.id
      db.authorityEvents).filterMap
        AuthorityEventRow.packReleaseEvent).Pairwise fun a b =>
          a.id ≤ b.id := by
    refine List.Pairwise.filterMap _ ?_
      (sortByKey_pairwise AuthorityEventRow.id db.authorityEvents)
    intro a b hle first hfirst second hsecond
    rcases Option.map_eq_some_iff.mp hfirst with ⟨_, _, rfl⟩
    rcases Option.map_eq_some_iff.mp hsecond with ⟨_, _, rfl⟩
    exact hle
  have hmember : forall other, other ∈ (sortByKey AuthorityEventRow.id
      db.authorityEvents).filterMap AuthorityEventRow.packReleaseEvent <->
        other ∈ db.releaseEvents := by
    intro other
    unfold releaseEvents
    simp only [List.mem_filterMap, mem_sortByKey]
  refine ⟨(hmember event).mp (List.mem_of_find?_eq_some hearliest), ?_⟩
  apply Feed.settled_of_done
  intro earlier hvisible hlt
  rcases List.find?_eq_some_iff_append.mp hearliest with
    ⟨_, before, after, hsplit, hbefore⟩
  have hmem := (hmember earlier).mpr hvisible
  rw [hsplit] at hmem hsorted
  rcases List.mem_append.mp hmem with hleft | hright
  · have hcompleted := hbefore earlier hleft
    simp only [Bool.not_not, eventCompleted, List.any_eq_true,
      decide_eq_true_eq] at hcompleted
    rcases hcompleted with ⟨id, hid, rfl⟩
    rcases h.completed earlier.id hid with ⟨other, hother, hsame, hdone⟩
    rw [← List.inj_on_of_nodup_map hdb.keyed hother hvisible hsame]
    exact hdone
  · rcases List.mem_cons.mp hright with rfl | hafter
    · exact absurd hlt (Nat.lt_irrefl _)
    · have hle := List.rel_of_pairwise_cons
        (List.pairwise_append.mp hsorted).2.1 hafter
      exact absurd hlt (Nat.not_lt_of_le hle)

/-- No pack is found for an event that none awaits. -/
theorem done_of_nextPack_eq_none {event : PackReleaseEvent}
    (h : db.nextPackForReleaseEvent event = none) : db.feed.Done event := by
  intro packId hawaits
  rcases awaits_iff.mp hawaits with ⟨hlive, hfollows, hnew⟩
  unfold nextPackForReleaseEvent at h
  rw [Option.map_eq_none_iff, List.find?_eq_none] at h
  rcases (Option.any_eq_true_iff_get _ _).mp hfollows with ⟨hsome, hrow⟩
  rcases Option.isSome_iff_exists.mp hsome with ⟨row, hfound⟩
  simp only [hfound, Option.get_some, Bool.and_eq_true,
    decide_eq_true_eq] at hrow
  have hkeys := List.find?_some hfound
  simp only [decide_eq_true_eq] at hkeys
  have hskipped := h row
    (mem_sortByKey.mpr (List.mem_of_find?_eq_some hfound))
  unfold livePack at hlive
  simp [hkeys.1, hkeys.2, hrow.1, hrow.2, hnew, hlive] at hskipped

theorem completeReleaseEvent_inOrder (hdb : FollowsInOrder db) (id : Nat) :
    FollowsInOrder (db.completeReleaseEvent id) := by
  unfold completeReleaseEvent
  split
  · exact hdb
  · exact ⟨hdb.keyed, hdb.known, hdb.sourced, hdb.held, hdb.versions,
      hdb.increasing, hdb.caught⟩

theorem completeReleaseEvent_drained {event : PackReleaseEvent}
    (h : Drained db tasks) (hsound : db.TaskSound (.complete event)) :
    Drained (db.completeReleaseEvent event.id) tasks := by
  unfold completeReleaseEvent
  split
  · exact h
  · refine ⟨h.tasks, ?_⟩
    intro id hid
    rcases List.mem_append.mp hid with hold | hlast
    · exact h.completed id hold
    · exact ⟨event, hsound.1, (List.mem_singleton.mp hlast).symm, hsound.2⟩

theorem advancePackForReleaseEvent_keepsOrder {packId : Uuid}
    {event : PackReleaseEvent} {advanced : Bool}
    (hsound : db.TaskSound (.advance packId event))
    (h : advancePackForReleaseEvent packId event db = .ok (advanced, db')) :
    KeepsOrder db db' := by
  rcases bind_eq_ok.mp h with ⟨⟨advanced, stored⟩, hstored, h⟩
  have hkept : KeepsOrder db stored :=
    advancePackEvent_keepsOrder hsound.1
      (fun hawaits => hsound.2.least hawaits) hstored
  cases advanced with
  | none =>
      cases h
      exact hkept
  | some pack =>
      cases h
      exact hkept.trans wake_keepsOrder

end Db

namespace Site

open Db

variable {registry : Registry} {site : Site registry}

/-- Packs follow in order, and the rounds of the drain work on events that are
due. -/
structure InOrder (site : Site registry) : Prop where
  follows : FollowsInOrder site.db
  drained : Drained site.db site.tasks

/-- A step that keeps the order, and what becomes visible in it gets a larger
number. -/
structure Proceeds (site site' : Site registry) : Prop where
  inOrder : site'.InOrder
  fresh : forall event, event ∈ site'.db.releaseEvents ->
    event ∈ site.db.releaseEvents ∨
      site.db.authorityEventSequence < event.id
  sequence : site.db.authorityEventSequence ≤ site'.db.authorityEventSequence

theorem perform_proceeds {index : Nat} {task : DrainTask}
    (h : site.InOrder) (htask : site.tasks[index]? = some task) :
    Proceeds site (site.perform index task) := by
  have hsound := h.drained.tasks task (List.mem_of_getElem? htask)
  have hfewer : Drained site.db (site.tasks.eraseIdx index) :=
    h.drained.mono fun _ => List.mem_of_mem_eraseIdx
  cases task with
  | search event =>
      refine ⟨⟨h.follows, ?_, h.drained.completed⟩, fun _ => .inl,
        Nat.le_refl _⟩
      intro task hmem
      rcases List.mem_or_eq_of_mem_set hmem with hold | rfl
      · exact h.drained.tasks task hold
      · show site.db.TaskSound _
        cases hnext : site.db.nextPackForReleaseEvent event with
        | none => exact ⟨hsound.1, done_of_nextPack_eq_none hnext⟩
        | some packId => exact hsound
  | advance packId event =>
      have hkept : KeepsOrder site.db (site.service.settle
          (advancePackForReleaseEvent packId event site.db)).db :=
        Service.settle_keepsOrder fun _ _ hadvanced =>
          advancePackForReleaseEvent_keepsOrder hsound hadvanced
      rcases hkept h.follows with ⟨hfollows, hcarries⟩
      exact ⟨⟨hfollows, hfewer.keep h.follows hcarries⟩, hcarries.fresh,
        hcarries.sequence⟩
  | complete event =>
      refine ⟨⟨completeReleaseEvent_inOrder h.follows event.id,
        completeReleaseEvent_drained hfewer hsound⟩, ?_, ?_⟩
      · intro other hother
        left
        have hmember : other ∈
            (site.db.completeReleaseEvent event.id).releaseEvents := hother
        unfold completeReleaseEvent at hmember
        split at hmember
        · exact hmember
        · exact hmember
      · show _ ≤ (site.db.completeReleaseEvent event.id).authorityEventSequence
        unfold completeReleaseEvent
        split
        · exact Nat.le_refl _
        · exact Nat.le_refl _

theorem Proceeds.refl (h : site.InOrder) : Proceeds site site :=
  ⟨h, fun _ => .inl, Nat.le_refl _⟩

theorem operate_proceeds (operation : Operation) (h : site.InOrder) :
    Proceeds site (site.operate operation) := by
  cases operation with
  | mutation mutation =>
      rcases @Service.mutate_keepsOrder _ site.service mutation
        h.follows with ⟨hfollows, hcarries⟩
      exact ⟨⟨hfollows, h.drained.keep h.follows hcarries⟩, hcarries.fresh,
        hcarries.sequence⟩
  | drain =>
      unfold operate
      cases hearliest : site.db.earliestPendingReleaseEvent with
      | none => exact .refl h
      | some event =>
          refine ⟨⟨h.follows, ?_, h.drained.completed⟩, fun _ => .inl,
            Nat.le_refl _⟩
          intro task hmem
          rcases List.mem_append.mp hmem with hold | hlast
          · exact h.drained.tasks task hold
          · rw [List.mem_singleton.mp hlast]
            exact earliestPending_sound h.drained h.follows hearliest
  | work index =>
      show Proceeds site (site.work index)
      unfold work
      cases htask : site.tasks[index]? with
      | none => exact .refl h
      | some task => exact perform_proceeds h htask

end Site

/-!
## Publishes in flight
-/

/-- A publish that has drawn the next number of the sequence and has not
committed. -/
structure PublishInFlight where
  drawnAfter : Nat
  newConflictId : Uuid
  userId : Uuid
  request : PublishSkillRequest

namespace PublishInFlight

def eventId (publish : PublishInFlight) : Nat :=
  publish.drawnAfter + 1

variable {registry : Registry}

/-- The transaction becomes visible with the number that it has drawn. -/
def commit (publish : PublishInFlight) (site : Site registry) :
    Site registry :=
  { site with
    service := site.service.settle
      ((registry.publishSkill publish.newConflictId publish.userId
          publish.request
          { site.db with
            authorityEventSequence := publish.drawnAfter }).map
        fun (answer, db) => (answer,
          { db with
            authorityEventSequence := site.db.authorityEventSequence })) }

end PublishInFlight

structure PublishingSite (registry : Registry) where
  site : Site registry
  inFlight : List PublishInFlight

/-- An operation of the site, or a step of a publish: it draws its number, and
later commits or aborts. -/
inductive PublishingStep where
  | operation (operation : Operation)
  | draw (newConflictId userId : Uuid) (request : PublishSkillRequest)
  | commit (index : Nat)
  | abort (index : Nat)

namespace PublishingSite

open Db

variable {registry : Registry}

variable (registry) in
def empty (directory : Directory) : PublishingSite registry where
  site := .empty registry directory
  inFlight := []

def db (s : PublishingSite registry) : Db :=
  s.site.db

/-- The numbers of the sequence are drawn outside of any transaction. -/
def draw (s : PublishingSite registry) (newConflictId userId : Uuid)
    (request : PublishSkillRequest) : PublishingSite registry where
  site := { s.site with
    service := { s.site.service with
      db := { s.db with
        authorityEventSequence := s.db.authorityEventSequence + 1 } } }
  inFlight := s.inFlight ++
    [{ drawnAfter := s.db.authorityEventSequence
       newConflictId, userId, request }]

def step (s : PublishingSite registry) :
    PublishingStep -> PublishingSite registry
  | .operation operation => { s with site := s.site.operate operation }
  | .draw newConflictId userId request => s.draw newConflictId userId request
  | .commit index =>
      match s.inFlight[index]? with
      | none => s
      | some publish =>
          { site := publish.commit s.site
            inFlight := s.inFlight.eraseIdx index }
  | .abort index => { s with inFlight := s.inFlight.eraseIdx index }

/-- A pack that awaits the event has applied a later one, or a round of the
drain works on a later one that it awaits. -/
def overtaken (s : PublishingSite registry) (publish : PublishInFlight)
    (packId : Uuid) : Bool :=
  s.db.awaitsNumber packId publish.request.resourceId publish.eventId &&
    ((s.db.packRevisions.any fun row =>
      decide (row.packResourceId = packId) &&
        row.sourceReleaseEventId.any fun past =>
          decide (publish.eventId < past)) ||
      s.site.tasks.any fun task =>
        decide (publish.eventId < task.event.id) &&
          s.db.awaits packId task.event)

/-- A publish commits only while it is overtaken for no pack. -/
def inTurn (s : PublishingSite registry) : PublishingStep -> Bool
  | .commit index =>
      (s.inFlight[index]?).all fun publish =>
        s.db.packMembers.all fun row =>
          !s.overtaken publish row.packResourceId
  | _ => true

/-- What holds between the steps. -/
structure Sound (s : PublishingSite registry) : Prop where
  inOrder : s.site.InOrder
  drawn : forall publish, publish ∈ s.inFlight ->
    publish.eventId ≤ s.db.authorityEventSequence
  unseen : forall publish, publish ∈ s.inFlight ->
    forall event, event ∈ s.db.releaseEvents -> event.id ≠ publish.eventId
  distinct : (s.inFlight.map PublishInFlight.eventId).Nodup

variable {s : PublishingSite registry}

theorem sound_empty (directory : Directory) :
    (empty registry directory).Sound where
  inOrder :=
    { follows :=
        { keyed := .nil
          known := fun _ h => absurd h List.not_mem_nil
          sourced := fun _ _ h => absurd h (by simp [packHasEvent, empty,
            Site.empty, Site.db, Service.empty])
          held := fun _ h => absurd h List.not_mem_nil
          versions := fun _ h => absurd h List.not_mem_nil
          increasing := fun _ _ _ _ h => absurd h List.not_mem_nil
          caught := fun _ _ _ h => absurd h List.not_mem_nil }
      drained :=
        { tasks := fun _ h => absurd h List.not_mem_nil
          completed := fun _ h => absurd h List.not_mem_nil } }
  drawn := fun _ h => absurd h List.not_mem_nil
  unseen := fun _ h => absurd h List.not_mem_nil
  distinct := .nil

theorem draw_sound (hs : s.Sound) (newConflictId userId : Uuid)
    (request : PublishSkillRequest) :
    (s.draw newConflictId userId request).Sound := by
  have hquiet : Quiet s.db { s.db with
      authorityEventSequence := s.db.authorityEventSequence + 1 } :=
    .ofSameResources ⟨rfl, rfl, rfl, rfl, rfl, Nat.le_succ _⟩ rfl
  rcases hquiet.keepsOrder hs.inOrder.follows with ⟨hfollows, hcarries⟩
  refine ⟨⟨hfollows, hs.inOrder.drained.keep hs.inOrder.follows hcarries⟩,
    ?_, ?_, ?_⟩
  · intro publish hpublish
    rcases List.mem_append.mp hpublish with hold | hlast
    · exact Nat.le_succ_of_le (hs.drawn publish hold)
    · rw [List.mem_singleton.mp hlast]
      exact Nat.le_refl _
  · intro publish hpublish event hevent
    rcases List.mem_append.mp hpublish with hold | hlast
    · exact hs.unseen publish hold event hevent
    · rw [List.mem_singleton.mp hlast]
      exact Nat.ne_of_lt
        (Nat.lt_succ_of_le (hs.inOrder.follows.known event hevent))
  · show (List.map _ (s.inFlight ++ [_])).Nodup
    rw [List.map_append]
    refine List.nodup_append.mpr ⟨hs.distinct, List.nodup_singleton _, ?_⟩
    rintro _ hold _ hlast rfl
    rcases List.mem_map.mp hold with ⟨publish, hpublish, hsame⟩
    have hdrawn := hs.drawn publish hpublish
    rw [hsame, List.mem_singleton.mp hlast] at hdrawn
    exact absurd hdrawn (Nat.not_succ_le_self _)

theorem erase_sound (hs : s.Sound) (index : Nat) :
    Sound { s with inFlight := s.inFlight.eraseIdx index } where
  inOrder := hs.inOrder
  drawn := fun publish h => hs.drawn publish (List.mem_of_mem_eraseIdx h)
  unseen := fun publish h => hs.unseen publish (List.mem_of_mem_eraseIdx h)
  distinct := hs.distinct.sublist
    ((List.eraseIdx_sublist _ _).map PublishInFlight.eventId)

theorem operate_sound (hs : s.Sound) (operation : Operation) :
    Sound { s with site := s.site.operate operation } := by
  have hproceeds := Site.operate_proceeds operation hs.inOrder
  refine ⟨hproceeds.inOrder, ?_, ?_, hs.distinct⟩
  · intro publish hpublish
    exact Nat.le_trans (hs.drawn publish hpublish) hproceeds.sequence
  · intro publish hpublish event hevent
    rcases hproceeds.fresh event hevent with hold | hlater
    · exact hs.unseen publish hpublish event hold
    · exact Nat.ne_of_gt
        (Nat.lt_of_le_of_lt (hs.drawn publish hpublish) hlater)

/-- A committed publish shows at most one event, under its number. -/
theorem commit_db {publish : PublishInFlight} {site : Site registry} :
    Quiet site.db (publish.commit site).db ∨
      exists before generation release, Quiet site.db before ∧
        (publish.commit site).db =
          { before with
            authorityEvents := before.authorityEvents ++
              [{ id := publish.eventId
                 resourceId := publish.request.resourceId
                 resourceGeneration := generation
                 release := some release }]
            authorityEventSequence := before.authorityEventSequence } := by
  refine Service.settle_of (P := fun next => Quiet site.db next.db ∨
    exists before generation release, Quiet site.db before ∧
      next.db =
        { before with
          authorityEvents := before.authorityEvents ++
            [{ id := publish.eventId
               resourceId := publish.request.resourceId
               resourceGeneration := generation
               release := some release }]
          authorityEventSequence := before.authorityEventSequence })
    (.inl (.refl _)) ?_
  intro answer db hmapped
  rcases map_eq_ok.mp hmapped with ⟨⟨answer', stored⟩, hresult, hstored⟩
  cases hstored
  have hrestored : forall {next : Db},
      Quiet { site.db with authorityEventSequence := publish.drawnAfter }
        next ->
      Quiet site.db { next with
        authorityEventSequence := site.db.authorityEventSequence } :=
    fun h => ⟨⟨h.members, h.revisions, h.states, h.completions, h.events,
      Nat.le_refl _⟩, h.found, h.live⟩
  rcases Registry.publishSkill_releases hresult with
    hquiet | ⟨before, generation, release, hquiet, _, hsequence, rfl⟩
  · exact .inl (hrestored hquiet)
  · refine .inr ⟨_, generation, release, hrestored hquiet, ?_⟩
    simp only [enqueueSkillReleaseWake, enqueueWake, hsequence]
    rfl

theorem not_overtaken {publish : PublishInFlight}
    (hturn : s.db.packMembers.all fun row =>
      !s.overtaken publish row.packResourceId)
    {packId : Uuid}
    (hawaits : s.db.awaitsNumber packId publish.request.resourceId
      publish.eventId = true) :
    (forall past, s.db.packHasEvent packId past = true ->
      past < publish.eventId) ∧
    forall task, task ∈ s.site.tasks -> publish.eventId < task.event.id ->
      ¬s.db.awaits packId task.event = true := by
  have hnew : s.db.packHasEvent packId publish.eventId = false := by
    simp only [awaitsNumber, Bool.and_eq_true, Bool.not_eq_true'] at hawaits
    exact hawaits.2
  have hmember : exists row, row ∈ s.db.packMembers ∧
      row.packResourceId = packId := by
    simp only [awaitsNumber, Bool.and_eq_true] at hawaits
    rcases (Option.any_eq_true_iff_get _ _).mp hawaits.1.2 with ⟨hsome, _⟩
    rcases Option.isSome_iff_exists.mp hsome with ⟨row, hrow⟩
    have hkeys := List.find?_some hrow
    simp only [decide_eq_true_eq] at hkeys
    exact ⟨row, List.mem_of_find?_eq_some hrow, hkeys.1⟩
  rcases hmember with ⟨row, hrow, rfl⟩
  have hfree := List.all_eq_true.mp hturn row hrow
  simp only [overtaken, hawaits, Bool.true_and, Bool.not_eq_true',
    Bool.or_eq_false_iff, List.any_eq_false, Bool.and_eq_true,
    decide_eq_true_eq, not_and] at hfree
  constructor
  · intro past hpast
    rcases packHasEvent_iff.mp hpast with ⟨version, hversion, hpack, hsource⟩
    have hbehind := hfree.1 version hversion hpack
    simp only [hsource, Option.any_some, decide_eq_true_eq,
      not_lt] at hbehind
    refine Nat.lt_of_le_of_ne hbehind ?_
    rintro rfl
    rw [hpast] at hnew
    cases hnew
  · intro task htask hlt
    exact hfree.2 task htask hlt

theorem commit_sound {index : Nat} {publish : PublishInFlight} (hs : s.Sound)
    (hpublish : s.inFlight[index]? = some publish)
    (hturn : s.db.packMembers.all fun row =>
      !s.overtaken publish row.packResourceId) :
    Sound
      { site := publish.commit s.site
        inFlight := s.inFlight.eraseIdx index } := by
  have hmem := List.mem_of_getElem? hpublish
  have herased := erase_sound hs index
  have hothers : forall other, other ∈ s.inFlight.eraseIdx index ->
      other.eventId ≠ publish.eventId := by
    intro other hother hsame
    rcases List.mem_eraseIdx_iff_getElem?.mp hother with
      ⟨position, hne, hposition⟩
    have hkeys : (s.inFlight.map PublishInFlight.eventId)[position]? =
        (s.inFlight.map PublishInFlight.eventId)[index]? := by
      rw [List.getElem?_map, List.getElem?_map, hposition, hpublish]
      exact congrArg some hsame
    have hlt : position < (s.inFlight.map PublishInFlight.eventId).length := by
      rw [List.length_map]
      exact (List.getElem?_eq_some_iff.mp hposition).1
    exact hne ((List.getElem?_inj hlt hs.distinct).mp hkeys)
  rcases @commit_db _ publish s.site with
    hquiet | ⟨before, generation, release, hquiet, hdb⟩
  · rcases hquiet.keepsOrder hs.inOrder.follows with ⟨hfollows, hcarries⟩
    refine ⟨⟨hfollows, hs.inOrder.drained.keep hs.inOrder.follows hcarries⟩,
      ?_, ?_, herased.distinct⟩
    · intro other hother
      exact Nat.le_trans (herased.drawn other hother) hcarries.sequence
    · intro other hother event hevent
      have hmember : event ∈ (publish.commit s.site).db.releaseEvents := hevent
      rw [hquiet.events] at hmember
      exact herased.unseen other hother event hmember
  · rcases hquiet.keepsOrder hs.inOrder.follows with ⟨hfollows, hcarries⟩
    have hdrawn := Nat.le_trans (hs.drawn publish hmem) hcarries.sequence
    have hbefore : forall packId event,
        before.awaits packId event = true -> s.db.awaits packId event = true :=
      fun _ _ => hquiet.awaits hs.inOrder.follows
    rcases @FollowsInOrder.reveal _ hfollows
        { id := publish.eventId
          resourceId := publish.request.resourceId
          resourceGeneration := generation
          release := some release }
        { id := publish.eventId
          skillResourceId := publish.request.resourceId
          releaseVersion := release.releaseVersion
          revisionId := release.revisionId }
        _ rfl
        (fun event hevent => by
          rw [hquiet.events] at hevent
          exact hs.unseen publish hmem event hevent)
        (Nat.le_refl _) hdrawn
        (fun packId past hawaits hpast => by
          rw [hquiet.packHasEvent] at hpast
          exact (not_overtaken hturn (hbefore packId _ hawaits)).1 past
            hpast) with
      ⟨hrevealed, heases⟩
    rw [← hdb] at hrevealed heases
    have hevents : forall event,
        event ∈ (publish.commit s.site).db.releaseEvents ->
          event ∈ s.db.releaseEvents ∨
            event.id = publish.eventId ∧
              event.skillResourceId = publish.request.resourceId := by
      intro event hevent
      rw [hdb] at hevent
      have hmember : event ∈ (before.authorityEvents ++ [_]).filterMap
          AuthorityEventRow.packReleaseEvent := hevent
      rw [List.filterMap_append] at hmember
      rcases List.mem_append.mp hmember with hold | hlast
      · left
        show event ∈ s.site.db.releaseEvents
        rw [← hquiet.events]
        exact hold
      · rw [List.mem_singleton.mp hlast]
        exact .inr ⟨rfl, rfl⟩
    refine ⟨⟨hrevealed, ?_⟩, ?_, ?_, herased.distinct⟩
    · refine hs.inOrder.drained.carry (hcarries.eases.trans heases) ?_ ?_
      · rw [hdb]
        exact hquiet.completions
      · intro task htask event hevent hunseen hlt packId hawaits
        rcases hevents event hevent with hold | ⟨hid, hskill⟩
        · exact absurd hold hunseen
        · rw [hdb] at hawaits
          have hnow := hbefore packId event hawaits
          unfold awaits at hnow
          rw [hid, hskill] at hnow
          rw [hid] at hlt
          exact (not_overtaken hturn hnow).2 task htask hlt
    · intro other hother
      show other.eventId ≤ (publish.commit s.site).db.authorityEventSequence
      rw [hdb]
      exact Nat.le_trans (herased.drawn other hother) hcarries.sequence
    · intro other hother event hevent
      rcases hevents event hevent with hold | ⟨hid, _⟩
      · exact herased.unseen other hother event hold
      · rw [hid]
        exact (hothers other hother).symm

/-- A step in turn keeps what holds between the steps. -/
theorem step_sound {step : PublishingStep} (hs : s.Sound)
    (hturn : s.inTurn step = true) : (s.step step).Sound := by
  cases step with
  | operation operation => exact operate_sound hs operation
  | draw newConflictId userId request =>
      exact draw_sound hs newConflictId userId request
  | abort index => exact erase_sound hs index
  | commit index =>
      cases hpublish : s.inFlight[index]? with
      | none =>
          have hsame : s.step (.commit index) = s := by
            simp only [PublishingSite.step, hpublish]
          rw [hsame]
          exact hs
      | some publish =>
          have hcommitted : s.step (.commit index) =
              { site := publish.commit s.site
                inFlight := s.inFlight.eraseIdx index } := by
            simp only [PublishingSite.step, hpublish]
          simp only [inTurn, hpublish, Option.all_some] at hturn
          rw [hcommitted]
          exact commit_sound hs hpublish hturn

end PublishingSite

/-!
## A publish that commits late

A pack follows two skills.  The first one draws its number and is slow to
commit; the second one is published and reaches the pack meanwhile.
-/

namespace Sample

def orderHashes : List (Uuid × RequestHash) :=
  [ (uuid 91, digestOfNat
      0x7b0fc341dfa932d58a7b8f45be5af399e3eb0187bc9462da1daf9ad2c5c2c88b),
    (uuid 92, digestOfNat
      0xe75cd8a48287df6059f714cab72e0d58f07e35f1806d70ab76ff576d00bd2ff6),
    (uuid 93, digestOfNat
      0xba3e3dff21f6fff60709bd754898c5ebc30beaf256e1a2afb670bfdb0869c123),
    (uuid 94, digestOfNat
      0x73ab4eef8d408f0893ee790a38c55bbdaaff1e21f3957cd13186c7df77736e1b) ]

def orderHashOf (operation : UInt8) : RequestHash :=
  (orderHashes.lookup (uuid operation)).getD (Vector.replicate 32 0)

def ordering : Registry :=
  { sharing with
    hashes := (registryOf [] (orderHashes ++ sharingHashes)).hashes }

def releasing (operation resource : UInt8) : PublishSkillRequest where
  operationId := operationId operation
  resourceId := uuid resource
  expectedGeneration := 1
  isPublic := true
  message := none
  tags := []
  requestHash := orderHashOf operation

def activityStep (activity : Activity) : PublishingStep :=
  .operation (.mutation (.activity activity))

/-- Two skills, and a pack that follows both. -/
def followingSteps : List PublishingStep :=
  [activityStep (.call (.prepareImport (uuid 4) (fun _ => uuid 9) amy.id
    (sharedImport 41 "amy")))] ++ (commitsImport 41).map activityStep ++
  [activityStep (.call (.prepareImport (uuid 32) (fun _ => uuid 9) amy.id
    secondImport))] ++ (commitsImport 44).map activityStep ++
  [ .operation (.mutation (.createPack (uuid 50) amy.id
      { operationId := operationId 93
        owner := "amy".toList
        name := "p".toList
        requestHash := orderHashOf 93 })),
    .operation (.mutation (.mutatePack .add amy.id
      { operationId := operationId 94
        resourceId := uuid 50
        expectedGeneration := 1
        members := [⟨uuid 4, none⟩, ⟨uuid 32, none⟩]
        requestHash := orderHashOf 94 })) ]

/-- One round of the drain, with its search. -/
def round : List PublishingStep :=
  [.operation .drain, .operation (.work 0), .operation (.work 0)]

def drawing : List PublishingStep :=
  [.draw (uuid 8) amy.id (releasing 91 4),
    activityStep (.call (.publish (uuid 8) amy.id (releasing 92 32)))]

/-- The second release reaches the pack before the first one commits. -/
def lateSteps : List PublishingStep :=
  followingSteps ++ drawing ++ round ++ [.commit 0] ++ round

/-- The first release commits in time. -/
def timelySteps : List PublishingStep :=
  followingSteps ++ drawing ++ [.commit 0] ++ round ++ round ++ round

def orderingSite (steps : List PublishingStep) : PublishingSite ordering :=
  steps.foldl PublishingSite.step (.empty ordering directory)

/-- The events that made the versions of the packs. -/
def sources (s : PublishingSite ordering) : List (Nat × Option Nat) :=
  s.db.packRevisions.map fun row =>
    (row.version.value, row.sourceReleaseEventId)

def appliedVersion (version : Generation) (event : Nat) : PackRevisionRow where
  packResourceId := uuid 50
  version
  sourceReleaseEventId := some event

end Sample

namespace PublishingSite

end PublishingSite
end Denju
