import Denju.Registry.Activity
import Denju.Registry.Subscriptions
import Denju.Registry.Audience

/-!
# The operations of a registry

Everything that changes the registry: the activity on skills, the changes of
packs, of audiences and of subscriptions, and the worker that lets packs follow
releases.  The worker runs in small transactions, and any number of its rounds
may be under way.
-/

namespace Denju

open Lib

/-!
## Draining release events
-/

namespace Db

def eventCompleted (db : Db) (event : Nat) : Bool :=
  db.packReleaseEventCompletions.any fun done => done = event

/-- The first release event that is not completed. -/
def earliestPendingReleaseEvent (db : Db) : Option PackReleaseEvent :=
  ((sortByKey AuthorityEventRow.id db.authorityEvents).filterMap
    AuthorityEventRow.packReleaseEvent).find? fun event =>
      !db.eventCompleted event.id

/-- The first live pack that has still to apply the event. -/
def nextPackForReleaseEvent (db : Db) (event : PackReleaseEvent) :
    Option Uuid :=
  ((sortByKey (fun row : PackMemberRow => row.packResourceId.toList)
    db.packMembers).find? fun row =>
      decide (row.skillResourceId = event.skillResourceId ∧
        row.followAfterEventId < event.id) &&
        row.pinnedReleaseVersion.isNone &&
          ((db.findResource row.packResourceId).any fun pack =>
            !pack.deleted) &&
            !db.packHasEvent row.packResourceId event.id).map
    PackMemberRow.packResourceId

def completeReleaseEvent (db : Db) (event : Nat) : Db :=
  if db.eventCompleted event then db
  else { db with
    packReleaseEventCompletions :=
      db.packReleaseEventCompletions ++ [event] }

end Db

/-- Advance one pack by one release event. -/
def advancePackForReleaseEvent (packId : Uuid) (event : PackReleaseEvent)
    (db : Db) : Except ApiError (Bool × Db) := do
  let (advanced, db) <- db.advancePackEvent .worker packId event
  match advanced with
  | none => return (false, db)
  | some pack =>
      return (true, db.enqueueResourceWake packId pack.generation.value)

/-- Where a round of the drain is: it looks for a pack, advances one, or
completes the event. -/
inductive DrainTask where
  | search (event : PackReleaseEvent)
  | advance (packId : Uuid) (event : PackReleaseEvent)
  | complete (event : PackReleaseEvent)
deriving DecidableEq

/-- The service and the rounds of the drain. -/
structure Site (registry : Registry) where
  service : Service registry
  tasks : List DrainTask

/-- A change that somebody asks for.  The values that the registry draws at
random are part of it. -/
inductive Mutation where
  | activity (activity : Activity)
  | deleteSkill (userId : Uuid) (request : ResourceLifecycleRequest)
  | deprecateSkill (userId : Uuid) (request : DeprecateSkillRequest)
  | share (kind : ShareMutationKind) (userId : Uuid)
      (request : ShareSkillRequest)
  | quarantine (kind : AdminQuarantineMutationKind)
      (newQuarantineId operator : Uuid) (request : AdminQuarantineRequest)
  | createPack (newResourceId userId : Uuid) (request : PackCreateRequest)
  | mutatePack (kind : PackMutationKind) (userId : Uuid)
      (request : PackMutationRequest)
  | publishPack (userId : Uuid) (request : PackPublishRequest)
  | renamePack (userId : Uuid) (request : PackRenameRequest)
  | unpublishPack (userId : Uuid) (request : ResourceLifecycleRequest)
  | deletePack (userId : Uuid) (request : ResourceLifecycleRequest)
  | transferPack (userId : Uuid) (request : ResourceTransferRequest)
  | subscribe (subject : SubscriptionSubject) (kind : SubscriptionMutationKind)
      (request : SubscriptionMutationRequest)
  | subscribePack (subject : SubscriptionSubject)
      (kind : SubscriptionMutationKind) (request : ResourceLifecycleRequest)
  | assignPack (kind : TeamPackAssignmentMutationKind) (userId : Uuid)
      (request : TeamPackAssignmentRequest)

/-- What happens to a registry: a change, the start of a round of the drain, or
the next step of one that is under way. -/
inductive Operation where
  | mutation (mutation : Mutation)
  | drain
  | work (index : Nat)

namespace Service

variable {registry : Registry}

def mutate (service : Service registry) : Mutation -> Service registry
  | .activity activity => service.act activity
  | .deleteSkill userId request =>
      service.settle (registry.deleteSkill userId request service.db)
  | .deprecateSkill userId request =>
      service.settle (registry.deprecateSkill userId request service.db)
  | .share kind userId request =>
      service.settle
        (registry.mutatePrivateShare kind userId request service.db)
  | .quarantine kind newQuarantineId operator request =>
      service.settle (registry.mutateQuarantine kind newQuarantineId operator
        request service.db)
  | .createPack newResourceId userId request =>
      service.settle
        (registry.createPack newResourceId userId request service.db)
  | .mutatePack kind userId request =>
      service.settle (registry.mutatePack kind userId request service.db)
  | .publishPack userId request =>
      service.settle (registry.publishPack userId request service.db)
  | .renamePack userId request =>
      service.settle (registry.renamePack userId request service.db)
  | .unpublishPack userId request =>
      service.settle (registry.unpublishPack userId request service.db)
  | .deletePack userId request =>
      service.settle (registry.deletePack userId request service.db)
  | .transferPack userId request =>
      service.settle (registry.transferPack userId request service.db)
  | .subscribe subject kind request =>
      service.settle
        (registry.mutateSubscription subject kind request service.db)
  | .subscribePack subject kind request =>
      service.settle
        (registry.mutatePackSubscription subject kind request service.db)
  | .assignPack kind userId request =>
      service.settle
        (registry.mutateTeamPackAssignment kind userId request service.db)

end Service

namespace Site

variable {registry : Registry}

variable (registry) in
def empty (directory : Directory) : Site registry where
  service := .empty registry directory
  tasks := []

def db (site : Site registry) : Db :=
  site.service.db

/-- One step of a round that has its task. -/
def perform (site : Site registry) (index : Nat) :
    DrainTask -> Site registry
  | .search event =>
      { site with
        tasks := site.tasks.set index
          (match site.db.nextPackForReleaseEvent event with
          | some packId => .advance packId event
          | none => .complete event) }
  | .advance packId event =>
      { service := site.service.settle
          (advancePackForReleaseEvent packId event site.db)
        tasks := site.tasks.eraseIdx index }
  | .complete event =>
      { service :=
          { site.service with db := site.db.completeReleaseEvent event.id }
        tasks := site.tasks.eraseIdx index }

def work (site : Site registry) (index : Nat) : Site registry :=
  match site.tasks[index]? with
  | none => site
  | some task => site.perform index task

def operate (site : Site registry) : Operation -> Site registry
  | .mutation mutation => { site with service := site.service.mutate mutation }
  | .drain =>
      match site.db.earliestPendingReleaseEvent with
      | none => site
      | some event => { site with tasks := site.tasks ++ [.search event] }
  | .work index => site.work index

/-- One operation, allowed by a condition on the state before it. -/
abbrev Operates (allows : Site registry -> Operation -> Prop) :=
  Guarded allows operate

end Site
end Denju
