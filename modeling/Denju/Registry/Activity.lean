import Denju.Registry.Service
import Denju.Registry.Prune
import Denju.Registry.Transfer

/-!
# The activity of a registry

Besides the calls that make revisions, the owner of a skill may hide it, prune
its history or transfer it to a team, and a worker collects the blobs that a
prune has marked.  All of these may fall between the transactions of a call.
-/

namespace Denju

open Lib

/-- A call of a client, or one round of the collector. -/
inductive Activity where
  | call (call : ServiceCall)
  | unpublish (userId : Uuid) (request : ResourceLifecycleRequest)
  | prune (userId : Uuid) (request : ResourceLifecycleRequest)
  | transfer (userId : Uuid) (request : ResourceTransferRequest)
  | collect (blob : BlobId)

namespace Service

variable {registry : Registry}

def act (service : Service registry) : Activity -> Service registry
  | .call call => service.serve call
  | .unpublish userId request =>
      service.settle (registry.unpublishSkill userId request service.db)
  | .prune userId request =>
      service.settle (registry.pruneSkillHistory userId request service.db)
  | .transfer userId request =>
      service.settle (registry.transferResource userId request service.db)
  | .collect blob =>
      service.settle (Registry.drainBlobGc blob service.db)

/-- The service after a list of activities. -/
def perform (service : Service registry) (activities : List Activity) :
    Service registry :=
  activities.foldl act service

/-- One activity, allowed by a condition on the state before it. -/
def Acts (allows : Service registry -> Activity -> Prop)
    (service : Service registry) (activity : Activity)
    (service' : Service registry) : Prop :=
  allows service activity ∧ service' = service.act activity

/-- Every activity of a list is allowed where it happens. -/
def AdmitsAll (allows : Service registry -> Activity -> Prop) :
    Service registry -> List Activity -> Prop
  | _, [] => True
  | service, activity :: rest =>
      allows service activity ∧ AdmitsAll allows (service.act activity) rest

instance decidableAdmitsAll (allows : Service registry -> Activity -> Prop)
    [forall service activity, Decidable (allows service activity)] :
    forall service activities, Decidable (AdmitsAll allows service activities)
  | _, [] => .isTrue trivial
  | service, activity :: rest =>
      have := decidableAdmitsAll allows (service.act activity) rest
      inferInstanceAs (Decidable (_ ∧ _))

theorem run_perform {allows : Service registry -> Activity -> Prop}
    {init service : Service registry} {past : List Activity}
    (hrun : Run (Acts allows) init past service) {activities : List Activity}
    (hallows : AdmitsAll allows service activities) :
    Run (Acts allows) init (past ++ activities)
      (service.perform activities) := by
  induction activities generalizing past service with
  | nil =>
      rw [List.append_nil]
      exact hrun
  | cons activity rest ih =>
      have hperformed := ih (hrun.snoc ⟨hallows.1, rfl⟩) hallows.2
      rw [List.append_assoc] at hperformed
      exact hperformed

/-!
## The directory
-/

section Directory

variable {service : Service registry} {db db' : Db} {userId : Uuid}

theorem pruneSkillHistory_directory {request : ResourceLifecycleRequest}
    {outcome : HistoryPruneResponse}
    (h : registry.pruneSkillHistory userId request db = .ok (outcome, db')) :
    db'.directory = db.directory := by
  rcases Registry.pruneSkillHistory_eq_ok h with rfl | ⟨_, _, _, hpruned⟩
  · rfl
  · rcases hpruned.tables with ⟨_, _, _, _, _, _, _, _, _, _, _, rfl⟩
    rfl

theorem transferResource_directory {request : ResourceTransferRequest}
    {outcome : ResourceTransferResponse}
    (h : registry.transferResource userId request db = .ok (outcome, db')) :
    db'.directory = db.directory := by
  rcases Registry.transferResource_eq_ok h with rfl | ⟨_, _, _, hmoved⟩
  · rfl
  · rcases hmoved.resource with
      ⟨_, _, _, _, _, _, _, _, _, _, _, _, _, _, _, rfl⟩
    rfl

theorem act_directory (activity : Activity) :
    (service.act activity).db.directory = service.db.directory := by
  have hsettle : forall {α : Type} {result : Except ApiError (α × Db)},
      (forall value db, result = .ok (value, db) ->
        db.directory = service.db.directory) ->
      (service.settle result).db.directory = service.db.directory :=
    fun hok => settle_of (P := fun next =>
      next.db.directory = service.db.directory) rfl hok
  cases activity with
  | call call => exact serve_directory call
  | unpublish =>
      refine hsettle fun _ _ h => ?_
      rcases Registry.unpublishSkill_eq_ok h with rfl | ⟨_, _, rfl⟩
      · rfl
      · rfl
  | prune => exact hsettle fun _ _ => pruneSkillHistory_directory
  | transfer => exact hsettle fun _ _ => transferResource_directory
  | collect =>
      refine hsettle fun _ _ h => ?_
      rcases Registry.drainBlobGc_eq_ok h with ⟨_, _, rfl, _⟩
      rfl

end Directory
end Service
end Denju
