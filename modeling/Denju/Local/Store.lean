import Denju.Core.RoundTrip
import Denju.Lib.Routine
import Denju.Lib.Table
import Mathlib.Logic.Function.Basic

/-!
# The local state of a device

A device keeps a database of what it wants and of the operations that it has
begun, and three trees of files.  The canonical tree has a link for every
managed skill.  The links lead to generations, one directory for every revision
of a resource.  The objects hold the files by their content.

A directory is the list of its entries.  The model follows the Unix build; the
creation of parents, temporary links and temporary files, and the syncing of
directories are left to the operation that they belong to.
-/

namespace Denju.Local

open Lib

/-- The database keeps identifiers of resources as their text. -/
abbrev ResourceId := Text

/-- A skill in the canonical tree. -/
structure SkillPath where
  (owner name : Text)
deriving DecidableEq, Repr

/-- A directory below the generations. -/
inductive GenerationPath where
  | generation (resourceId : ResourceId) (revisionId : RevisionId)
  | stage (resourceId : ResourceId) (operationId : OperationId)
  | renameStage (resourceId : ResourceId) (operationId : OperationId)
deriving DecidableEq

inductive CanonicalEntry where
  | link (target : GenerationPath)
  | unmanaged
deriving DecidableEq

/-!
## Errors
-/

inductive JournalState where
  | planned
  | staged
  | verified
  | switched
  | complete
deriving DecidableEq, Repr

def JournalState.next : JournalState -> Option JournalState
  | .planned => some .staged
  | .staged => some .verified
  | .verified => some .switched
  | .switched => some .complete
  | .complete => none

inductive LocalDbError where
  | constraint (name : String)
  | queryReturnedNoRows
  | workerStopped
  | invalidJournalTransition (expected next : JournalState)
  | invalidLeaseTtl (ttl : Nat)
deriving DecidableEq, Repr

inductive CorruptSubject where
  | resource (resourceId : ResourceId)
  | blob (blob : BlobId)
  | directory (path : GenerationPath)
deriving DecidableEq

inductive MaterializationError where
  | snapshot (source : SnapshotError)
  | database (source : LocalDbError)
  | io (message : String)
  | manifestMismatch
  | corrupt (message : String) (subject : CorruptSubject)
  | busy (resourceId : ResourceId)
  | refuseOverwrite (path : SkillPath)
deriving DecidableEq

/-!
## Tables
-/

/-- The columns of a desired row that its three tables share. -/
structure DesiredRow where
  resourceId : ResourceId
  locator : Text
  owner : Text
  skillName : Text
  resourceGeneration : Nat
  desiredRevisionId : RevisionId
  harnessName : Option Text
deriving DecidableEq

structure SubscriptionRecord extends DesiredRow where
  releaseVersion : Nat
  materializedRevisionId : Option RevisionId
  retainOnDelete : Bool
  retainedAfterDelete : Bool
  livePrivate : Bool
  desiredRootTreeId : TreeId
deriving DecidableEq

structure OwnedSkillRecord extends DesiredRow where
  workspaceGeneration : Nat
  materializedRevisionId : Option RevisionId
deriving DecidableEq

structure PackMaterializedSkillRecord extends DesiredRow where
  desiredRootTreeId : TreeId
  materializedRevisionId : RevisionId
deriving DecidableEq

inductive SuppressedKind where
  | subscription
  | owned
deriving DecidableEq, Repr

structure MaterializationJournalPayload where
  resourceId : ResourceId
  revisionId : RevisionId
  stageDir : GenerationPath
  generationDir : GenerationPath
  canonicalPath : SkillPath
deriving DecidableEq

structure MaterializationJournal where
  operationId : OperationId
  state : JournalState
  payload : MaterializationJournalPayload
  createdAt : Nat
deriving DecidableEq

inductive ManagedDesiredKind where
  | subscription
  | owned
  | pack
deriving DecidableEq, Repr

/-- The removal of a managed skill. -/
structure LocalLifecyclePayload where
  resourceId : ResourceId
  owner : Text
  skillName : Text
  harnessName : Option Text
  desiredKind : ManagedDesiredKind
deriving DecidableEq

structure LocalLifecycleJournal where
  operationId : OperationId
  state : JournalState
  payload : LocalLifecyclePayload
  createdAt : Nat
deriving DecidableEq

structure PackApplySkillState where
  resourceId : ResourceId
  owner : Text
  skillName : Text
  revisionId : Option RevisionId
deriving DecidableEq

structure PackApplyJournalPayload where
  (oldSkills newSkills : List PackApplySkillState)
deriving DecidableEq

structure PackApplyJournal where
  operationId : OperationId
  payload : PackApplyJournalPayload
  complete : Bool
  updatedAt : Nat
deriving DecidableEq

structure WorkLease where
  resourceId : ResourceId
  holder : OperationId
  expiresAt : Nat
deriving DecidableEq

/-- A pack that requires a skill, as far as quarantine is concerned. -/
structure PackSkillSourceRecord where
  resourceId : ResourceId
  desiredRevisionId : RevisionId
  quarantined : Bool
deriving DecidableEq

/-- What a harness root has under a name. -/
inductive ProjectionEntry where
  | managedLink
  | other
deriving DecidableEq, Repr

structure LocalState where
  clock : Nat
  subscriptions : List SubscriptionRecord
  ownedSkills : List OwnedSkillRecord
  packSkills : List PackMaterializedSkillRecord
  packSkillSources : List PackSkillSourceRecord
  suppressions : List (SuppressedKind × ResourceId)
  materializations : List MaterializationJournal
  lifecycles : List LocalLifecycleJournal
  packApplies : List PackApplyJournal
  leases : List WorkLease
  skills : SkillPath -> Option CanonicalEntry
  directories : GenerationPath -> Option (List OwnedSkillEntry)
  objects : BlobId -> Option Bytes
  quarantine : ResourceId × RevisionId -> Option (List OwnedSkillEntry)
  projections : Nat × Text -> Option ProjectionEntry

abbrev LocalRoutine := Routine LocalState MaterializationError

/-- A transaction, which fails by itself or with the worker. -/
def transaction {α : Type}
    (f : LocalState -> Except LocalDbError (α × LocalState)) : LocalRoutine α :=
  .act (.database .workerStopped) fun s => (f s).mapError .database

/-- A call of the file system. -/
def filesystem {α : Type}
    (f : LocalState -> Except MaterializationError (α × LocalState)) : LocalRoutine α :=
  .act (.io "Input/output error") f

/-- A call that only looks. -/
def inspect {α : Type} (f : LocalState -> Except MaterializationError α) :
    LocalRoutine α :=
  .check (.io "Input/output error") f

def LocalRoutine.ofExcept {α : Type} : Except MaterializationError α -> LocalRoutine α
  | .ok value => return value
  | .error error => .fail error

namespace LocalState

def setSkill (path : SkillPath) (entry : Option CanonicalEntry)
    (s : LocalState) : LocalState :=
  { s with skills := Function.update s.skills path entry }

def setDirectory (path : GenerationPath) (tree : Option (List OwnedSkillEntry))
    (s : LocalState) : LocalState :=
  { s with directories := Function.update s.directories path tree }

@[simp] theorem skills_setSkill {s : LocalState} {path : SkillPath}
    {entry : Option CanonicalEntry} :
    (s.setSkill path entry).skills path = entry := by
  simp [setSkill]

theorem skills_setSkill_of_ne {s : LocalState} {path other : SkillPath}
    {entry : Option CanonicalEntry} (h : other ≠ path) :
    (s.setSkill path entry).skills other = s.skills other := by
  simp [setSkill, h]

@[simp] theorem directories_setDirectory {s : LocalState}
    {path : GenerationPath} {tree : Option (List OwnedSkillEntry)} :
    (s.setDirectory path tree).directories path = tree := by
  simp [setDirectory]

theorem directories_setDirectory_of_ne {s : LocalState}
    {path other : GenerationPath} {tree : Option (List OwnedSkillEntry)}
    (h : other ≠ path) :
    (s.setDirectory path tree).directories other = s.directories other := by
  simp [setDirectory, h]

/-!
## Desired rows
-/

def suppressed (s : LocalState) (kind : SuppressedKind)
    (resourceId : ResourceId) : Bool :=
  s.suppressions.contains (kind, resourceId)

/-- A row is desired at the revision, and no policy suppresses its source. -/
def subscriptionWants (s : LocalState) (resourceId : ResourceId)
    (revisionId : RevisionId) (row : SubscriptionRecord) : Bool :=
  row.resourceId = resourceId && row.desiredRevisionId = revisionId &&
    !s.suppressed .subscription row.resourceId

def ownedWants (s : LocalState) (resourceId : ResourceId)
    (revisionId : RevisionId) (row : OwnedSkillRecord) : Bool :=
  row.resourceId = resourceId && row.desiredRevisionId = revisionId &&
    !s.suppressed .owned row.resourceId

def packWants (resourceId : ResourceId) (revisionId : RevisionId)
    (row : PackMaterializedSkillRecord) : Bool :=
  row.resourceId = resourceId && row.desiredRevisionId = revisionId

/-- Some active source wants the revision of the resource. -/
def wants (s : LocalState) (resourceId : ResourceId)
    (revisionId : RevisionId) : Bool :=
  s.subscriptions.any (s.subscriptionWants resourceId revisionId) ||
    s.ownedSkills.any (s.ownedWants resourceId revisionId) ||
      s.packSkills.any (packWants resourceId revisionId)

/-- Stamp the rows that want the revision. -/
def stamp (resourceId : ResourceId) (revisionId : RevisionId)
    (s : LocalState) : LocalState :=
  { s with
    subscriptions := updateWhere (s.subscriptionWants resourceId revisionId)
      (fun row => { row with materializedRevisionId := some revisionId })
      s.subscriptions
    ownedSkills := updateWhere (s.ownedWants resourceId revisionId)
      (fun row => { row with materializedRevisionId := some revisionId })
      s.ownedSkills
    packSkills := updateWhere (packWants resourceId revisionId)
      (fun row => { row with materializedRevisionId := revisionId })
      s.packSkills }

def markSkillMaterialized (resourceId : ResourceId) (revisionId : RevisionId)
    (s : LocalState) : Except LocalDbError (Unit × LocalState) := do
  ensure (s.wants resourceId revisionId) .queryReturnedNoRows
  return ((), s.stamp resourceId revisionId)

theorem markSkillMaterialized_eq_ok {s t : LocalState}
    {resourceId : ResourceId} {revisionId : RevisionId} {u : Unit} :
    s.markSkillMaterialized resourceId revisionId = .ok (u, t) <->
      s.wants resourceId revisionId = true ∧
        t = s.stamp resourceId revisionId := by
  unfold markSkillMaterialized
  rw [bind_eq_ok]
  constructor
  · rintro ⟨_, hwants, hstamp⟩
    cases hstamp
    exact ⟨ensure_eq_ok.mp hwants, rfl⟩
  · rintro ⟨hwants, rfl⟩
    exact ⟨(), ensure_eq_ok.mpr hwants, rfl⟩

/-- What the rows want does not depend on the stamps. -/
@[simp] theorem wants_stamp {s : LocalState}
    {resourceId resourceId' : ResourceId} {revisionId revisionId' : RevisionId} :
    (s.stamp resourceId revisionId).wants resourceId' revisionId' =
      s.wants resourceId' revisionId' := by
  have hsubscription : (s.stamp resourceId revisionId).subscriptionWants
      resourceId' revisionId' = s.subscriptionWants resourceId' revisionId' :=
    rfl
  have howned : (s.stamp resourceId revisionId).ownedWants resourceId'
      revisionId' = s.ownedWants resourceId' revisionId' :=
    rfl
  unfold wants
  rw [hsubscription, howned]
  congr 1
  · congr 1
    · exact any_updateWhere fun _ _ => rfl
    · exact any_updateWhere fun _ _ => rfl
  · exact any_updateWhere fun _ _ => rfl

/-!
## Journals and leases
-/

/-- The journals of one table share their key. -/
def operationTaken (s : LocalState) (operationId : OperationId) : Bool :=
  (s.materializations.any fun row => row.operationId = operationId) ||
    s.lifecycles.any fun row => row.operationId = operationId

def materializationJournals (s : LocalState) : List MaterializationJournal :=
  sortByKey MaterializationJournal.createdAt
    (s.materializations.filter fun row => row.state ≠ .complete)

def createMaterializationJournal (operationId : OperationId)
    (payload : MaterializationJournalPayload) (s : LocalState) :
    Except LocalDbError (Unit × LocalState) := do
  ensure (!s.operationTaken operationId) (.constraint "operation_journal_pkey")
  return ((), { s with
    materializations := s.materializations ++
      [{ operationId, state := .planned, payload, createdAt := s.clock }] })

def atState (operationId : OperationId) (state : JournalState)
    (row : MaterializationJournal) : Bool :=
  row.operationId = operationId && row.state = state

def moveJournal (operationId : OperationId) (expected next : JournalState)
    (s : LocalState) : LocalState :=
  { s with
    materializations := updateWhere (atState operationId expected)
      (fun row => { row with state := next }) s.materializations }

def updateMaterializationJournal (operationId : OperationId)
    (expected next : JournalState) (s : LocalState) :
    Except LocalDbError (Unit × LocalState) := do
  ensure (expected.next = some next) (.invalidJournalTransition expected next)
  ensure (s.materializations.any (atState operationId expected))
    .queryReturnedNoRows
  return ((), s.moveJournal operationId expected next)

theorem updateMaterializationJournal_eq_ok {s t : LocalState}
    {operationId : OperationId} {expected next : JournalState} {u : Unit} :
    s.updateMaterializationJournal operationId expected next = .ok (u, t) <->
      expected.next = some next ∧
        s.materializations.any (atState operationId expected) = true ∧
          t = s.moveJournal operationId expected next := by
  unfold updateMaterializationJournal
  simp only [bind_eq_ok, ensure_eq_ok, decide_eq_true_eq]
  constructor
  · rintro ⟨_, hnext, _, hany, hmove⟩
    cases hmove
    exact ⟨hnext, hany, rfl⟩
  · rintro ⟨hnext, hany, rfl⟩
    exact ⟨(), hnext, (), hany, rfl⟩

theorem mem_moveJournal {s : LocalState} {operationId : OperationId}
    {expected next : JournalState} {journal : MaterializationJournal}
    (h : journal ∈ (s.moveJournal operationId expected next).materializations) :
    (journal ∈ s.materializations ∧
        atState operationId expected journal = false) ∨
      exists old, old ∈ s.materializations ∧
        atState operationId expected old = true ∧
          journal = { old with state := next } := by
  rcases mem_updateWhere.mp h with ⟨old, hold, hjournal⟩
  cases hstate : atState operationId expected old with
  | true =>
      rw [hstate, if_pos rfl] at hjournal
      exact .inr ⟨old, hold, hstate, hjournal.symm⟩
  | false =>
      rw [hstate, if_neg Bool.false_ne_true] at hjournal
      rw [← hjournal]
      exact .inl ⟨hold, hstate⟩

/-- A move keeps the keys of the journals. -/
theorem map_moveJournal {s : LocalState} {operationId : OperationId}
    {expected next : JournalState} :
    (s.moveJournal operationId expected next).materializations.map
        MaterializationJournal.operationId =
      s.materializations.map MaterializationJournal.operationId := by
  unfold moveJournal updateWhere
  rw [List.map_map]
  apply List.map_congr_left
  intro row hrow
  show (if _ then _ else row).operationId = row.operationId
  split
  · rfl
  · rfl

/-- The move of the one journal of an operation. -/
theorem mem_moveJournal_iff {s : LocalState} {expected next : JournalState}
    {journal other : MaterializationJournal}
    (hkeys : (s.materializations.map
      MaterializationJournal.operationId).Nodup)
    (hjournal : journal ∈ s.materializations)
    (hstate : journal.state = expected) :
    other ∈ (s.moveJournal journal.operationId expected next).materializations <->
      (other ∈ s.materializations ∧
          other.operationId ≠ journal.operationId) ∨
        other = { journal with state := next } := by
  have hself : forall old, old ∈ s.materializations ->
      old.operationId = journal.operationId -> old = journal :=
    fun old hold hkey => List.inj_on_of_nodup_map hkeys hold hjournal hkey
  constructor
  · intro hother
    rcases mem_moveJournal hother with ⟨hold, hcold⟩ | ⟨old, hold, hhot, rfl⟩
    · left
      refine ⟨hold, fun hkey => ?_⟩
      simp [atState, hself other hold hkey, hstate] at hcold
    · right
      simp only [atState, Bool.and_eq_true, decide_eq_true_eq] at hhot
      rw [hself old hold hhot.1]
  · intro hother
    rcases hother with ⟨hold, hkey⟩ | rfl
    · exact mem_updateWhere.mpr ⟨other, hold, by simp [atState, hkey]⟩
    · exact mem_updateWhere.mpr ⟨journal, hjournal, by simp [atState, hstate]⟩

def discardMaterializationJournal (operationId : OperationId)
    (s : LocalState) : LocalState :=
  { s with
    materializations := deleteWhere
      (fun row => row.operationId = operationId &&
        (row.state = .planned || row.state = .staged)) s.materializations }

/-- An expired lease is no obstacle. -/
def claimLease (resourceId : ResourceId) (holder : OperationId) (ttl : Nat)
    (s : LocalState) : Except LocalDbError (Bool × LocalState) := do
  ensure (0 < ttl) (.invalidLeaseTtl ttl)
  let held := deleteWhere (fun row => row.resourceId = resourceId &&
    row.expiresAt ≤ s.clock) s.leases
  if held.any fun row => row.resourceId = resourceId then
    return (false, { s with leases := held })
  else
    return (true, { s with
      leases := held ++ [{ resourceId, holder, expiresAt := s.clock + ttl }] })

def releaseLease (resourceId : ResourceId) (holder : OperationId)
    (s : LocalState) : LocalState :=
  { s with
    leases := deleteWhere (fun row => row.resourceId = resourceId &&
      row.holder = holder) s.leases }

end LocalState
end Denju.Local
