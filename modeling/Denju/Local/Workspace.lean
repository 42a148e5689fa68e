import Denju.Local.Store
import Mathlib.Data.Prod.Lex

/-!
# The workspace of an owned skill

The database keeps one row for the workspace of an owned skill: the revision
that the registry has, the newest local one, and a status.  Every save is a
local revision, which is queued until the registry has it.  A revision that the
registry did not take as the next one is kept there as the second head of a
conflict.

The model has the rows of one resource, as every statement selects by it.  A
transaction that fails changes nothing and has no result.
-/

namespace Denju.Local

open Lib

inductive WorkspaceStatus where
  | clean
  | queued
  | pausedValidation
  | pendingRename
  | conflict
  | quota
deriving DecidableEq, Repr

structure WorkspaceState where
  baseGeneration : Nat
  (baseRevisionId localHeadRevisionId : RevisionId)
  validRootTreeId : TreeId
  workingGenerationPath : Text
  status : WorkspaceStatus
  pendingRename : Option Text
deriving DecidableEq

inductive LocalRevisionState where
  | queued
  | synced
deriving DecidableEq, Repr

structure LocalRevision where
  operationId : OperationId
  (revisionId expectedHeadRevisionId : RevisionId)
  parentRevisionIds : List RevisionId
  expectedGeneration : Nat
  rootTreeId : TreeId
  state : LocalRevisionState
  createdAt : Nat
deriving DecidableEq

structure WorkspaceConflict where
  conflictId : OperationId
  headRevisionIds : List RevisionId
  activeRevisionId : RevisionId
  remoteGeneration : Nat
  workingRootTreeId : TreeId
  resolutionRequired : Bool
deriving DecidableEq

/-- What a workspace is based on. -/
structure Baseline where
  generation : Nat
  revisionId : RevisionId
  rootTreeId : TreeId
  workingGenerationPath : Text
deriving DecidableEq

structure Workspace where
  state : Option WorkspaceState
  revisions : List LocalRevision
  conflict : Option WorkspaceConflict
deriving DecidableEq

/-- A save that is not with the registry yet. -/
def LocalRevision.isQueued (revision : LocalRevision) : Bool :=
  revision.state = .queued

def LocalRevision.queueKey (revision : LocalRevision) : Nat ×ₗ Nat :=
  toLex (revision.expectedGeneration, revision.createdAt)

def WorkspaceState.ofBaseline (baseline : Baseline) : WorkspaceState where
  baseGeneration := baseline.generation
  baseRevisionId := baseline.revisionId
  localHeadRevisionId := baseline.revisionId
  validRootTreeId := baseline.rootTreeId
  workingGenerationPath := baseline.workingGenerationPath
  status := .clean
  pendingRename := none

namespace Workspace

def queued (w : Workspace) : List LocalRevision :=
  w.revisions.filter LocalRevision.isQueued

/-- The queue in the order in which it is uploaded. -/
def queuedLocalRevisions (w : Workspace) : List LocalRevision :=
  sortByKey LocalRevision.queueKey w.queued

/-!
## Baselines
-/

def ensureWorkspaceBaseline (baseline : Baseline) (w : Workspace) :
    Option Workspace :=
  match w.state with
  | some _ => some w
  | none =>
      if baseline.generation = 0 then
        none
      else
        some { w with state := some (.ofBaseline baseline) }

def advanceCleanWorkspaceBaseline (baseline : Baseline) (w : Workspace) :
    Option Workspace :=
  match w.state with
  | none => some w
  | some state =>
      if state.status ≠ .clean then
        some w
      else if baseline.generation = 0 then
        none
      else
        some { w with state := some (.ofBaseline baseline) }

def adoptRegistryRenameBaseline (baseline : Baseline) (w : Workspace) :
    Option Workspace :=
  match w.state with
  | none => none
  | some _ =>
      if baseline.generation = 0 then
        none
      else
        some { w with state := some (.ofBaseline baseline) }

def setWorkspaceWorkingGeneration (path : Text) (w : Workspace) : Workspace :=
  { w with
    state := w.state.map fun state =>
      { state with workingGenerationPath := path } }

/-!
## Pauses
-/

def pauseWorkspace (status : WorkspaceStatus) (pendingRename : Option Text)
    (w : Workspace) : Option Workspace :=
  if status = .clean ∨ status = .queued then
    none
  else
    w.state.map fun state =>
      { w with state := some { state with status, pendingRename } }

def resumeWorkspace (w : Workspace) : Option Workspace :=
  w.state.map fun state =>
    { w with
      state := some
        { state with
          status := if w.queued.isEmpty then .clean else .queued
          pendingRename := none } }

/-!
## Local revisions
-/

def operationTaken (operationId : OperationId) (w : Workspace) : Bool :=
  w.revisions.any fun revision => revision.operationId = operationId

def revisionTaken (revisionId : RevisionId) (w : Workspace) : Bool :=
  w.revisions.any fun revision => revision.revisionId = revisionId

/-- The keys and the checks of the table of local revisions. -/
def admitsRevision (revision : LocalRevision) (w : Workspace) : Bool :=
  !w.operationTaken revision.operationId &&
    !w.revisionTaken revision.revisionId &&
      revision.expectedGeneration ≠ 0

def enqueueLocalRevision (revision : LocalRevision) (now : Nat)
    (w : Workspace) : Option Workspace :=
  let parents := sortByKey RevisionId.key revision.parentRevisionIds
  if parents.isEmpty ∨ 2 < parents.length ∨ ¬parents.Nodup ∨
      revision.expectedHeadRevisionId ∉ parents then
    none
  else if w.admitsRevision revision then
    w.state.map fun state =>
      { w with
        revisions := w.revisions ++
          [{ revision with
              parentRevisionIds := parents
              state := .queued
              createdAt := now }]
        state := some
          { state with
            localHeadRevisionId := revision.revisionId
            validRootTreeId := revision.rootTreeId
            status := .queued
            pendingRename := none } }
  else
    none

def commitLocalOnlyRevision (revision : LocalRevision) (now : Nat)
    (w : Workspace) : Option Workspace :=
  let nextGeneration := revision.expectedGeneration + 1
  if revision.parentRevisionIds ≠ [revision.expectedHeadRevisionId] ∨
      2 ^ 63 ≤ nextGeneration then
    none
  else if w.admitsRevision revision then
    some
      { w with
        revisions := w.revisions ++
          [{ revision with state := .synced, createdAt := now }]
        state := w.state.map fun state =>
          { state with
            baseGeneration := nextGeneration
            baseRevisionId := revision.revisionId
            localHeadRevisionId := revision.revisionId
            validRootTreeId := revision.rootTreeId
            status := .clean
            pendingRename := none } }
  else
    none

/-- The revision of the operation is no longer queued. -/
def setSynced (operationId : OperationId) (w : Workspace) : Workspace :=
  { w with
    revisions := updateWhere (fun row => row.operationId = operationId)
      (fun row => { row with state := .synced }) w.revisions }

def markLocalRevisionSynced (operationId : OperationId) (generation : Nat)
    (revisionId : RevisionId) (w : Workspace) : Option Workspace :=
  let synced := w.setSynced operationId
  if !(w.revisions.any fun row =>
      row.operationId = operationId && row.revisionId = revisionId) ∨
        (w.state.isSome ∧ generation = 0) then
    none
  else
    some
      { synced with
        state := w.state.map fun state =>
          let moved := { state with
            baseGeneration := generation
            baseRevisionId := revisionId }
          if synced.queued.isEmpty then
            { moved with status := .clean, pendingRename := none }
          else
            moved }

def markLocalRevisionDetachedStored (operationId : OperationId)
    (w : Workspace) : Option Workspace :=
  if w.queued.any fun row => row.operationId = operationId then
    some (w.setSynced operationId)
  else
    none

def saveWorkspaceContentConflict (conflict : WorkspaceConflict)
    (w : Workspace) : Option Workspace :=
  if conflict.headRevisionIds.length ≠ 2 ∨ ¬conflict.headRevisionIds.Nodup ∨
      conflict.remoteGeneration = 0 then
    none
  else
    some { w with conflict := some conflict }

end Workspace

/-!
## Uploads
-/

inductive UploadOutcome where
  | advanced (generation : Nat) (revisionId : RevisionId)
  | diverged (revisionId : RevisionId) (conflict : WorkspaceConflict)
  | quotaExceeded
  | generationConflict
  | failed
deriving DecidableEq

namespace Workspace

/-- A transaction that fails leaves what was there before. -/
def after (result : Workspace -> Option Workspace) (w : Workspace) :
    Workspace :=
  (result w).getD w

/-- The two transactions, and whether both have succeeded. -/
def persistWorkspaceConflict (conflict : WorkspaceConflict) (w : Workspace) :
    Workspace × Bool :=
  if 2 ^ 63 ≤ conflict.remoteGeneration then
    (w, false)
  else
    match w.saveWorkspaceContentConflict conflict with
    | none => (w, false)
    | some saved =>
        match saved.pauseWorkspace .conflict none with
        | none => (saved, false)
        | some paused => (paused, true)

/-- What `upload_one` records of the answer to a request, and whether the drain
goes on with the resource. -/
def recordUpload (revision : LocalRevision) (outcome : UploadOutcome)
    (w : Workspace) : Workspace × Bool :=
  match outcome with
  | .advanced generation revisionId =>
      if revisionId = revision.revisionId ∧ generation < 2 ^ 63 then
        match w.markLocalRevisionSynced revision.operationId generation
            revisionId with
        | none => (w, false)
        | some synced => (synced, true)
      else
        (w, false)
  | .diverged revisionId conflict =>
      if revisionId = revision.revisionId then
        match w.markLocalRevisionDetachedStored revision.operationId with
        | none => (w, false)
        | some detached =>
            detached.persistWorkspaceConflict
              { conflict with
                workingRootTreeId := revision.rootTreeId
                resolutionRequired := false }
      else
        (w, false)
  | .quotaExceeded => (w.after (pauseWorkspace .quota none), false)
  | .generationConflict => (w.after (pauseWorkspace .conflict none), false)
  | .failed => (w, false)

end Workspace

/-!
## Captures

A pass scans the visible tree and then takes one access of the database after
the other, between which other processes have theirs.
-/

inductive ScanOutcome where
  | scanned (rootTreeId : TreeId) (workingGenerationPath : Text)
  | divergedDerivedEdit
  | pendingRename (requested : Text)
  | validation
  | failed
deriving DecidableEq

/-- What a pass starts with, besides the database. -/
structure CaptureInput where
  scan : ScanOutcome
  author : AuthorPrincipalId
  operationId : OperationId
  localOnly : Bool
  workspaceGeneration : Nat
  desiredRevisionId : RevisionId
deriving DecidableEq

/-- A pass, by the access of the database that comes next. -/
inductive Capture where
  | failing (status : WorkspaceStatus) (pendingRename : Option Text)
  | pausing (status : WorkspaceStatus) (pendingRename : Option Text)
  | starting (input : CaptureInput) (root : TreeId) (path : Text)
  | baselining (input : CaptureInput) (root : TreeId) (path : Text)
  | rereading (input : CaptureInput) (root : TreeId) (path : Text)
  | relocating (input : CaptureInput) (root : TreeId) (path : Text)
      (state : WorkspaceState)
  | resuming
  | consulting (input : CaptureInput) (root : TreeId) (state : WorkspaceState)
  | resolving (input : CaptureInput) (root : TreeId)
      (conflict : WorkspaceConflict)
  | basing (input : CaptureInput) (root : TreeId) (state : WorkspaceState)
  | enqueueing (revision : LocalRevision)
  | committing (revision : LocalRevision)
  | ended
deriving DecidableEq

namespace Capture

/-- The scan decides what the pass is about. -/
def start (input : CaptureInput) : Capture :=
  match input.scan with
  | .scanned root path => .starting input root path
  | .divergedDerivedEdit => .failing .conflict none
  | .pendingRename requested => .failing .pendingRename (some requested)
  | .validation => .failing .pausedValidation none
  | .failed => .ended

variable (ext : Externals)

/-- The revision of a save. -/
def savedRevision (root : TreeId) (parents : List RevisionId)
    (author : AuthorPrincipalId) (operationId : OperationId)
    (expectedHead : RevisionId) (expectedGeneration : Nat) :
    Option LocalRevision :=
  match Revision.new root parents author operationId with
  | .error _ => none
  | .ok revision => some
      { operationId
        revisionId := revision.id ext
        expectedHeadRevisionId := expectedHead
        parentRevisionIds := revision.parents
        expectedGeneration
        rootTreeId := root
        state := .queued
        createdAt := 0 }

def enqueueOf : Option LocalRevision -> Capture
  | some revision => .enqueueing revision
  | none => .ended

/-- Behind the branch of a conflict. -/
def saveOrdinary (input : CaptureInput) (root : TreeId)
    (state : WorkspaceState) : Capture :=
  if input.localOnly then
    match savedRevision ext root [state.localHeadRevisionId] input.author
        input.operationId state.localHeadRevisionId state.baseGeneration with
    | some revision => .committing revision
    | none => .ended
  else
    .basing input root state

/-- Compare the scan with the state that the pass has read. -/
def compare (input : CaptureInput) (root : TreeId) (state : WorkspaceState) :
    Capture :=
  if state.validRootTreeId = root then
    if state.status = .pausedValidation ∨ state.status = .pendingRename then
      .resuming
    else
      .ended
  else if state.status = .conflict then
    .consulting input root state
  else
    saveOrdinary ext input root state

def seen (input : CaptureInput) (root : TreeId) (path : Text)
    (state : WorkspaceState) : Capture :=
  if state.workingGenerationPath = path then
    compare ext input root state
  else
    .relocating input root path state

/-- The one with the greatest generation, the last of them. -/
def latest (queue : List LocalRevision) : Option LocalRevision :=
  queue.foldl
    (fun best revision =>
      match best with
      | none => some revision
      | some found =>
          if found.expectedGeneration ≤ revision.expectedGeneration then
            some revision
          else
            best) none

/-- The generation behind another one, in 64 bits with a sign. -/
def saturatingSucc (generation : Nat) : Nat :=
  min (generation + 1) (2 ^ 63 - 1)

/-- The save behind the latest queued one, or behind the state. -/
def ordinaryRevision (input : CaptureInput) (root : TreeId)
    (state : WorkspaceState) (queue : List LocalRevision) :
    Option LocalRevision :=
  match latest queue with
  | some revision =>
      savedRevision ext root [revision.revisionId] input.author
        input.operationId revision.revisionId
        (saturatingSucc revision.expectedGeneration)
  | none =>
      savedRevision ext root [state.localHeadRevisionId] input.author
        input.operationId state.localHeadRevisionId state.baseGeneration

/-- The merge of both heads of a conflict. -/
def resolvingRevision (input : CaptureInput) (root : TreeId)
    (conflict : WorkspaceConflict) : Option LocalRevision :=
  savedRevision ext root conflict.headRevisionIds input.author
    conflict.conflictId conflict.activeRevisionId conflict.remoteGeneration

/-- The baseline that a first pass records. -/
def baseline (input : CaptureInput) (root : TreeId) (path : Text) : Baseline :=
  ⟨input.workspaceGeneration, input.desiredRevisionId, root, path⟩

/-- One access of the database. -/
def next (now : Nat) (capture : Capture) (w : Workspace) :
    Capture × Workspace :=
  match capture with
  | .failing status pendingRename =>
      if w.state.isSome then
        (.pausing status pendingRename, w)
      else
        (.ended, w)
  | .pausing status pendingRename =>
      (.ended, w.after (Workspace.pauseWorkspace status pendingRename))
  | .starting input root path =>
      match w.state with
      | none => (.baselining input root path, w)
      | some state => (seen ext input root path state, w)
  | .baselining input root path =>
      match w.ensureWorkspaceBaseline (baseline input root path) with
      | some based => (.rereading input root path, based)
      | none => (.ended, w)
  | .rereading input root path =>
      match w.state with
      | none => (.ended, w)
      | some state => (seen ext input root path state, w)
  | .relocating input root path state =>
      (compare ext input root state, w.setWorkspaceWorkingGeneration path)
  | .resuming => (.ended, w.after Workspace.resumeWorkspace)
  | .consulting input root state =>
      match w.conflict with
      | some conflict => (.resolving input root conflict, w)
      | none => (saveOrdinary ext input root state, w)
  | .resolving input root conflict =>
      if !w.queuedLocalRevisions.isEmpty ∨ !conflict.resolutionRequired ∨
          root = conflict.workingRootTreeId then
        (.ended, w)
      else
        (enqueueOf (resolvingRevision ext input root conflict), w)
  | .basing input root state =>
      (enqueueOf
        (ordinaryRevision ext input root state w.queuedLocalRevisions), w)
  | .enqueueing revision =>
      (.ended, w.after (Workspace.enqueueLocalRevision revision now))
  | .committing revision =>
      (.ended, w.after (Workspace.commitLocalOnlyRevision revision now))
  | .ended => (.ended, w)

end Capture

/-!
## Renames
-/

/-- What admits the rename of a skill. -/
inductive RenameCommand where
  | rename (preserveWorking : Bool)
  | syncOwned (remoteName : Text)
deriving DecidableEq

/-- The guard of the command on the status of the workspace.  A rename that
does not preserve the working tree synchronizes first. -/
def RenameCommand.admits (command : RenameCommand) (state : WorkspaceState) :
    Bool :=
  match command with
  | .rename true =>
      state.status ≠ .queued && state.status ≠ .conflict &&
        state.status ≠ .quota
  | .rename false => true
  | .syncOwned remoteName =>
      state.status = .clean ||
        (state.status = .pendingRename &&
          state.pendingRename = some remoteName)

def Workspace.registryRename (command : RenameCommand) (baseline : Baseline)
    (w : Workspace) : Workspace :=
  match w.state with
  | none => w
  | some state =>
      if command.admits state then
        w.after (adoptRegistryRenameBaseline baseline)
      else
        w

end Denju.Local
