import Denju.Registry.ReleaseOrder

/-!
# Drained releases

The drain completes an event when it finds no pack that still follows it.  As
long as publishes commit in turn nothing is missed: a completed event has made
one version of every pack that follows it.
-/

namespace Denju

open Lib

namespace Db

variable {db : Db} {packId : Uuid} {event : PackReleaseEvent}

/-- The pack has exactly one version that the event made. -/
def AppliedOnce (db : Db) (packId : Uuid) (event : PackReleaseEvent) : Prop :=
  ∃! row, row ∈ db.packRevisions ∧ row.packResourceId = packId ∧
    row.sourceReleaseEventId = some event.id

/-- No two versions of a pack come from one event, since the later one would
come from a later event. -/
theorem SourcesIncrease.once {past : Nat} (h : db.SourcesIncrease)
    {row other : PackRevisionRow} (hrow : row ∈ db.packRevisions)
    (hother : other ∈ db.packRevisions)
    (hpack : row.packResourceId = other.packResourceId)
    (hsource : row.sourceReleaseEventId = some past)
    (hsame : other.sourceReleaseEventId = some past) : row = other := by
  have hversion : row.version = other.version := by
    apply Generation.eq_of_value_eq
    rcases Nat.lt_trichotomy row.version.value other.version.value with
      hlt | heq | hgt
    · have hless := h row other past past hrow hother hpack hlt hsource hsame
      exact absurd hless (Nat.lt_irrefl _)
    · exact heq
    · have hless := h other row past past hother hrow hpack.symm hgt hsame
        hsource
      exact absurd hless (Nat.lt_irrefl _)
  cases row
  cases other
  cases hpack
  cases hversion
  cases hsource
  cases hsame
  rfl

theorem FollowsInOrder.appliedOnce (h : FollowsInOrder db)
    (hdone : db.feed.Done event) (hlive : db.livePack packId = true)
    (hfollows : db.packFollows packId event = true) :
    db.AppliedOnce packId event := by
  have happlied : db.packHasEvent packId event.id = true := by
    rw [← Bool.not_eq_false]
    intro hnew
    exact hdone packId (awaits_iff.mpr ⟨hlive, hfollows, hnew⟩)
  rcases packHasEvent_iff.mp happlied with ⟨row, hrow, hpack, hsource⟩
  refine ⟨row, ⟨hrow, hpack, hsource⟩, ?_⟩
  intro other hother
  exact h.increasing.once hother.1 hrow (hother.2.1.trans hpack.symm)
    hother.2.2 hsource

theorem eventCompleted_iff {id : Nat} :
    db.eventCompleted id = true <-> id ∈ db.packReleaseEventCompletions := by
  simp [eventCompleted]

theorem eventCompleted_of_drained (h : db.earliestPendingReleaseEvent = none)
    (hevent : event ∈ db.releaseEvents) :
    db.eventCompleted event.id = true := by
  unfold earliestPendingReleaseEvent at h
  have hmember : event ∈ (sortByKey AuthorityEventRow.id
      db.authorityEvents).filterMap AuthorityEventRow.packReleaseEvent := by
    unfold releaseEvents at hevent
    simp only [List.mem_filterMap, mem_sortByKey] at hevent ⊢
    exact hevent
  have hkept := List.find?_eq_none.mp h event hmember
  simpa using hkept

end Db

/-- Both releases reach the pack, and both are completed. -/
def Sample.drainedSteps : List PublishingStep :=
  timelySteps ++ round

namespace PublishingSite

open Db

variable {registry : Registry} {s : PublishingSite registry}

/-- In a run whose publishes commit in turn, a completed event has made exactly
one version of every live pack that follows it, and once no event is pending
every event is completed. -/
theorem drained_packs_follow {directory : Directory}
    {steps : List PublishingStep}
    (hrun : Run (Guarded (fun s step => inTurn s step = true) step)
      (empty registry directory) steps s) :
    (forall event, event ∈ s.db.releaseEvents ->
      s.db.eventCompleted event.id = true -> forall packId,
        s.db.livePack packId = true -> s.db.packFollows packId event = true ->
          s.db.AppliedOnce packId event) ∧
    (s.db.earliestPendingReleaseEvent = none -> forall event,
      event ∈ s.db.releaseEvents -> s.db.eventCompleted event.id = true) := by
  have hs : s.Sound := by
    refine hrun.invariant (sound_empty directory) ?_
    intro before step after hbefore hstep
    rw [hstep.2]
    exact step_sound hbefore hstep.1
  constructor
  · intro event hevent hcompleted packId hlive hfollows
    rcases hs.inOrder.drained.completed event.id
      (eventCompleted_iff.mp hcompleted) with ⟨other, hother, hsame, hdone⟩
    have heq : other = event :=
      List.inj_on_of_nodup_map hs.inOrder.follows.keyed hother hevent hsame
    rw [heq] at hdone
    exact hs.inOrder.follows.appliedOnce hdone hlive hfollows
  · intro hdrained event hevent
    exact eventCompleted_of_drained hdrained hevent

theorem drained_packs_follow_timely :
    (Sample.orderingSite Sample.drainedSteps).db.releaseEvents.map
        PackReleaseEvent.id = [3, 2] ∧
      forall event,
        event ∈ (Sample.orderingSite Sample.drainedSteps).db.releaseEvents ->
          (Sample.orderingSite Sample.drainedSteps).db.AppliedOnce
            (Sample.uuid 50) event := by
  have hrun : Run (Guarded (fun s step => inTurn s step = true) step)
      (empty Sample.ordering Sample.directory) Sample.drainedSteps
      (Sample.orderingSite Sample.drainedSteps) :=
    Run.guarded_of_all (by decide +kernel)
  have hpack :
      (Sample.orderingSite Sample.drainedSteps).db.livePack
          (Sample.uuid 50) = true ∧
        (Sample.orderingSite Sample.drainedSteps).db.earliestPendingReleaseEvent
          = none ∧
        (Sample.orderingSite Sample.drainedSteps).db.releaseEvents.all
          (fun event => (Sample.orderingSite Sample.drainedSteps).db.packFollows
            (Sample.uuid 50) event) = true ∧
        (Sample.orderingSite Sample.drainedSteps).db.releaseEvents.map
          PackReleaseEvent.id = [3, 2] := by
    decide +kernel
  refine ⟨hpack.2.2.2, ?_⟩
  intro event hevent
  have hcompleted :=
    (drained_packs_follow hrun).2 hpack.2.1 event hevent
  have hfollows := List.all_eq_true.mp hpack.2.2.1 event hevent
  exact (drained_packs_follow hrun).1 event hevent hcompleted (Sample.uuid 50)
    hpack.1 hfollows

end PublishingSite
end Denju
