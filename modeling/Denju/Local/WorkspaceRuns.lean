import Denju.Local.WorkspaceOrder
import Denju.Local.Materialize
import Denju.Core.Merge
import Denju.Lib.Runs

/-!
# Runs of a workspace

Scans, drains of the queue and commands work on one workspace at the same time,
one access of the database after the other.
-/

namespace Denju.Local

open Lib

/-- A workspace with the passes under way and the lists that the drains have
read. -/
structure WorkspaceMachine where
  localOnly : Bool
  workspace : Workspace
  captures : List Capture
  drains : List (List LocalRevision)
deriving DecidableEq

inductive WorkspaceEvent where
  | begin (input : CaptureInput)
  | capture (index now : Nat)
  | stop (index : Nat)
  | list
  | upload (index : Nat) (outcome : UploadOutcome)
  | pause (status : WorkspaceStatus) (pendingRename : Option Text)
  | resume
  | ensureBaseline (baseline : Baseline)
  | advanceBaseline (baseline : Baseline)
  | rename (command : RenameCommand) (baseline : Baseline)
deriving DecidableEq

namespace WorkspaceMachine

def ofWorkspace (localOnly : Bool) (w : Workspace) : WorkspaceMachine :=
  ⟨localOnly, w, [], []⟩

variable (ext : Externals)

def captureNext (index now : Nat) (m : WorkspaceMachine) : WorkspaceMachine :=
  match m.captures[index]? with
  | none => m
  | some capture =>
      let after := capture.next ext now m.workspace
      { m with
        workspace := after.2
        captures :=
          if after.1 = .ended then
            m.captures.eraseIdx index
          else
            m.captures.set index after.1 }

def uploadNext (index : Nat) (outcome : UploadOutcome) (m : WorkspaceMachine) :
    WorkspaceMachine :=
  match m.drains[index]? with
  | some (revision :: rest) =>
      let recorded := m.workspace.recordUpload revision outcome
      { m with
        workspace := recorded.1
        drains := m.drains.set index (if recorded.2 then rest else []) }
  | _ => m

def next (m : WorkspaceMachine) (event : WorkspaceEvent) : WorkspaceMachine :=
  match event with
  | .begin input =>
      { m with
        captures := m.captures ++
          [Capture.start { input with localOnly := m.localOnly }] }
  | .capture index now => m.captureNext ext index now
  | .stop index => { m with captures := m.captures.eraseIdx index }
  | .list =>
      { m with drains := m.drains ++ [m.workspace.queuedLocalRevisions] }
  | .upload index outcome => m.uploadNext index outcome
  | .pause status pendingRename =>
      { m with
        workspace := m.workspace.after
          (Workspace.pauseWorkspace status pendingRename) }
  | .resume =>
      { m with workspace := m.workspace.after Workspace.resumeWorkspace }
  | .ensureBaseline baseline =>
      { m with
        workspace := m.workspace.after
          (Workspace.ensureWorkspaceBaseline baseline) }
  | .advanceBaseline baseline =>
      { m with
        workspace := m.workspace.after
          (Workspace.advanceCleanWorkspaceBaseline baseline) }
  | .rename command baseline =>
      { m with workspace := m.workspace.registryRename command baseline }

end WorkspaceMachine

/-!
## Transactions of a pass
-/

namespace Workspace

/-- Only the row of the workspace changes. -/
def OnlyState (w w' : Workspace) : Prop :=
  w'.revisions = w.revisions ∧ w'.conflict = w.conflict

/-- A local-only workspace has no uploads, and no conflict with a registry. -/
structure Sound (localOnly : Bool) (w : Workspace) : Prop where
  orderly : w.Orderly
  unshared : localOnly = true -> w.queued = [] ∧ w.conflict = none

structure Extends (localOnly : Bool) (w w' : Workspace) : Prop where
  sound : Sound localOnly w'
  grows : Grows w w'

variable {w w' : Workspace} {localOnly : Bool}

theorem OnlyState.queued (h : OnlyState w w') : w'.queued = w.queued := by
  unfold Workspace.queued
  rw [h.1]

theorem OnlyState.extends (h : OnlyState w w') (hw : Sound localOnly w)
    (horderly : w'.Orderly) : Extends localOnly w w' := by
  constructor
  · constructor
    · exact horderly
    · intro hlocal
      rw [h.queued, h.2]
      exact hw.unshared hlocal
  · exact Grows.of_revisions h.1

theorem Sound.extends_self (h : Sound localOnly w) : Extends localOnly w w :=
  ⟨h, Grows.refl w⟩

theorem Extends.after (hw : Sound localOnly w)
    {result : Workspace -> Option Workspace}
    (h : forall w', result w = some w' -> Extends localOnly w w') :
    Extends localOnly w (w.after result) := by
  unfold Workspace.after
  cases hresult : result w with
  | none => exact hw.extends_self
  | some w' => exact h w' hresult

theorem OnlyState.after {result : Workspace -> Option Workspace}
    (h : forall w', result w = some w' -> OnlyState w w') :
    OnlyState w (w.after result) := by
  unfold Workspace.after
  cases hresult : result w with
  | none => exact ⟨rfl, rfl⟩
  | some w' => exact h w' hresult

theorem onlyState_pause {status : WorkspaceStatus}
    {pendingRename : Option Text}
    (h : w.pauseWorkspace status pendingRename = some w') :
    OnlyState w w' := by
  unfold pauseWorkspace at h
  split at h
  · cases h
  · rcases Option.map_eq_some_iff.mp h with ⟨state, _, rfl⟩
    exact ⟨rfl, rfl⟩

theorem onlyState_resume (h : w.resumeWorkspace = some w') :
    OnlyState w w' := by
  rcases Option.map_eq_some_iff.mp h with ⟨state, _, rfl⟩
  exact ⟨rfl, rfl⟩

theorem onlyState_ensure {baseline : Baseline}
    (h : w.ensureWorkspaceBaseline baseline = some w') : OnlyState w w' := by
  unfold ensureWorkspaceBaseline at h
  split at h
  · cases h
    exact ⟨rfl, rfl⟩
  · split at h
    · cases h
    · cases h
      exact ⟨rfl, rfl⟩

theorem onlyState_advance {baseline : Baseline}
    (h : w.advanceCleanWorkspaceBaseline baseline = some w') :
    OnlyState w w' := by
  unfold advanceCleanWorkspaceBaseline at h
  split at h
  · cases h
    exact ⟨rfl, rfl⟩
  · split at h
    · cases h
      exact ⟨rfl, rfl⟩
    · split at h
      · cases h
      · cases h
        exact ⟨rfl, rfl⟩

theorem onlyState_adopt {baseline : Baseline}
    (h : w.adoptRegistryRenameBaseline baseline = some w') :
    OnlyState w w' := by
  unfold adoptRegistryRenameBaseline at h
  split at h
  · cases h
  · split at h
    · cases h
    · cases h
      exact ⟨rfl, rfl⟩

theorem Sound.pause (h : Sound localOnly w) (status : WorkspaceStatus)
    (pendingRename : Option Text) :
    Extends localOnly w (w.after (pauseWorkspace status pendingRename)) :=
  Extends.after h fun _ hrun =>
    (onlyState_pause hrun).extends h (h.orderly.pause hrun)

theorem Sound.resume (h : Sound localOnly w) (hsafe : w.SafeToResume) :
    Extends localOnly w (w.after resumeWorkspace) :=
  Extends.after h fun _ hrun =>
    (onlyState_resume hrun).extends h (h.orderly.resume hsafe hrun)

theorem Sound.setWorkingGeneration (h : Sound localOnly w) (path : Text) :
    Extends localOnly w (w.setWorkspaceWorkingGeneration path) :=
  OnlyState.extends ⟨rfl, rfl⟩ h (h.orderly.setWorkingGeneration path)

theorem Sound.enqueue (h : Sound false w) {revision : LocalRevision}
    {now : Nat} (hlater : forall other, other ∈ w.queued ->
      other.queueKey < toLex (revision.expectedGeneration, now)) :
    Extends false w (w.after (enqueueLocalRevision revision now)) := by
  apply Extends.after h
  intro w' hrun
  constructor
  · constructor
    · exact h.orderly.enqueue hlater hrun
    · intro hlocal
      cases hlocal
  · rcases enqueueLocalRevision_eq_some hrun with ⟨state, _, hfresh, rfl⟩
    constructor
    · unfold Workspace.operations
      rw [List.map_append]
      exact List.subset_append_left _ _
    · refine ⟨_, queued_concat _ _, ?_⟩
      intro new hnew
      rw [List.mem_singleton.mp (List.mem_of_mem_filter hnew)]
      exact hfresh

theorem Sound.commit (h : Sound true w) (revision : LocalRevision)
    (now : Nat) :
    Extends true w (w.after (commitLocalOnlyRevision revision now)) := by
  apply Extends.after h
  intro w' hrun
  have hempty := h.unshared rfl
  rcases h.orderly.commitLocalOnly hempty.1 hrun with
    ⟨horderly, hqueued, hconflict⟩
  constructor
  · exact ⟨horderly, fun _ => ⟨hqueued, hconflict.trans hempty.2⟩⟩
  · constructor
    · unfold commitLocalOnlyRevision at hrun
      dsimp only at hrun
      split at hrun
      · cases hrun
      · split at hrun
        · cases hrun
          unfold Workspace.operations
          rw [List.map_append]
          exact List.subset_append_left _ _
        · cases hrun
    · refine ⟨[], ?_, fun _ hmem => absurd hmem List.not_mem_nil⟩
      rw [hqueued, hempty.1]
      rfl

end Workspace

/-!
## Passes
-/

namespace Capture

/-- What a pass relies on, for the revision that it brings. -/
def Fits (localOnly : Bool) : Capture -> Prop
  | .starting input _ _ => input.localOnly = localOnly
  | .baselining input _ _ => input.localOnly = localOnly
  | .rereading input _ _ => input.localOnly = localOnly
  | .relocating input _ _ _ => input.localOnly = localOnly
  | .consulting input _ _ => input.localOnly = localOnly
  | .resolving _ _ _ => localOnly = false
  | .basing _ _ _ => localOnly = false
  | .enqueueing _ => localOnly = false
  | .committing _ => localOnly = true
  | _ => True

/-- Where the next access of a pass does what it is for. -/
def Careful (w : Workspace) (now : Nat) : Capture -> Prop
  | .resuming => w.SafeToResume
  | .enqueueing revision => forall other, other ∈ w.queued ->
      other.queueKey < toLex (revision.expectedGeneration, now)
  | _ => True

variable (ext : Externals) {w w' : Workspace} {localOnly : Bool}

theorem fits_start (input : CaptureInput) :
    (start { input with localOnly }).Fits localOnly := by
  unfold start
  cases input.scan with
  | scanned root path => exact rfl
  | divergedDerivedEdit => exact trivial
  | pendingRename requested => exact trivial
  | validation => exact trivial
  | failed => exact trivial

theorem fits_saveOrdinary {input : CaptureInput} (root : TreeId)
    (state : WorkspaceState) (h : input.localOnly = localOnly) :
    (saveOrdinary ext input root state).Fits localOnly := by
  unfold saveOrdinary
  cases localOnly with
  | false =>
      rw [if_neg (by rw [h]; exact Bool.false_ne_true)]
      exact rfl
  | true =>
      rw [if_pos h]
      split
      · exact rfl
      · exact trivial

theorem fits_compare {input : CaptureInput} (root : TreeId)
    (state : WorkspaceState) (h : input.localOnly = localOnly) :
    (compare ext input root state).Fits localOnly := by
  unfold compare
  split
  · split
    · exact trivial
    · exact trivial
  · split
    · exact h
    · exact fits_saveOrdinary ext root state h

theorem fits_seen {input : CaptureInput} (root : TreeId) (path : Text)
    (state : WorkspaceState) (h : input.localOnly = localOnly) :
    (seen ext input root path state).Fits localOnly := by
  unfold seen
  split
  · exact fits_compare ext root state h
  · exact h

theorem fits_enqueueOf (revision : Option LocalRevision) :
    (enqueueOf revision).Fits false := by
  cases revision with
  | none => exact trivial
  | some revision => exact rfl

/-- One access of a pass. -/
theorem next_extends (hw : w.Sound localOnly) {capture : Capture}
    (hfits : capture.Fits localOnly) {now : Nat}
    (hcareful : capture.Careful w now) :
    w.Extends localOnly (capture.next ext now w).2 ∧
      (capture.next ext now w).1.Fits localOnly := by
  cases capture with
  | failing status pendingRename =>
      unfold next
      dsimp only
      split
      · exact ⟨hw.extends_self, trivial⟩
      · exact ⟨hw.extends_self, trivial⟩
  | pausing status pendingRename =>
      exact ⟨hw.pause status pendingRename, trivial⟩
  | starting input root path =>
      unfold next
      dsimp only
      split
      · exact ⟨hw.extends_self, hfits⟩
      · exact ⟨hw.extends_self, fits_seen ext root path _ hfits⟩
  | baselining input root path =>
      unfold next
      dsimp only
      split
      · rename_i based hrun
        exact ⟨(Workspace.onlyState_ensure hrun).extends hw
          (hw.orderly.ensure hrun), hfits⟩
      · exact ⟨hw.extends_self, trivial⟩
  | rereading input root path =>
      unfold next
      dsimp only
      split
      · exact ⟨hw.extends_self, trivial⟩
      · exact ⟨hw.extends_self, fits_seen ext root path _ hfits⟩
  | relocating input root path state =>
      exact ⟨hw.setWorkingGeneration path, fits_compare ext root state hfits⟩
  | resuming => exact ⟨hw.resume hcareful, trivial⟩
  | consulting input root state =>
      unfold next
      dsimp only
      split
      · rename_i conflict hconflict
        refine ⟨hw.extends_self, ?_⟩
        cases localOnly with
        | false => exact rfl
        | true =>
            rw [(hw.unshared rfl).2] at hconflict
            cases hconflict
      · exact ⟨hw.extends_self, fits_saveOrdinary ext root state hfits⟩
  | resolving input root conflict =>
      cases hfits
      unfold next
      dsimp only
      split
      · exact ⟨hw.extends_self, trivial⟩
      · exact ⟨hw.extends_self, fits_enqueueOf _⟩
  | basing input root state =>
      cases hfits
      exact ⟨hw.extends_self, fits_enqueueOf _⟩
  | enqueueing revision =>
      cases hfits
      exact ⟨hw.enqueue hcareful, trivial⟩
  | committing revision =>
      cases hfits
      exact ⟨hw.commit revision now, trivial⟩
  | ended => exact ⟨hw.extends_self, trivial⟩

end Capture

/-!
## Answers
-/

namespace Workspace

/-- What an answer leaves, where it was for the first revision of the queue or
the queue stays. -/
structure Uploaded (localOnly : Bool) (revision : LocalRevision)
    (w : Workspace) (recorded : Workspace × Bool) : Prop where
  sound : Sound localOnly recorded.1
  operations : recorded.1.operations = w.operations
  queued : (recorded.1.queued = w.queued ∧
      (recorded.2 = true -> revision ∉ w.queued)) ∨
    exists rest, w.queued = revision :: rest ∧ recorded.1.queued = rest

/-- A revision is recorded as taken while the queue has it, while the queue has
others, or where it is the head. -/
def Timely (w : Workspace) (revision : LocalRevision) : UploadOutcome -> Prop
  | .advanced _ _ => w.queued = [] -> forall state, state ∈ w.state ->
      state.localHeadRevisionId = revision.revisionId
  | _ => True

variable {w w' : Workspace} {localOnly : Bool} {revision : LocalRevision}
  {later : List LocalRevision}

theorem Sound.uploaded_self (h : Sound localOnly w) :
    Uploaded localOnly revision w (w, false) :=
  ⟨h, rfl, .inl ⟨rfl, fun hon => by cases hon⟩⟩

theorem Sound.uploaded_pause (h : Sound localOnly w)
    (status : WorkspaceStatus) :
    Uploaded localOnly revision w
      (w.after (pauseWorkspace status none), false) := by
  have honly : OnlyState w (w.after (pauseWorkspace status none)) :=
    OnlyState.after fun _ hrun => onlyState_pause hrun
  constructor
  · exact (h.pause status none).sound
  · unfold Workspace.operations
    rw [honly.1]
  · exact .inl ⟨honly.queued, fun hon => by cases hon⟩

theorem Sound.shared_of_mem (h : Sound localOnly w)
    (hqueued : revision ∈ w.queued) : localOnly = false := by
  cases localOnly with
  | false => rfl
  | true =>
      rw [(h.unshared rfl).1] at hqueued
      cases hqueued

theorem Sound.persistConflict {saved : Workspace} (h : Sound false saved)
    (hoperations : saved.operations = w.operations)
    (hpopped : exists rest, w.queued = revision :: rest ∧ saved.queued = rest)
    (conflict : WorkspaceConflict) :
    Uploaded false revision w (saved.persistWorkspaceConflict conflict) := by
  have hsame : forall other : Workspace,
      other.Orderly -> other.revisions = saved.revisions ->
      forall goesOn, Uploaded false revision w (other, goesOn) := by
    intro other hother hrows goesOn
    refine ⟨⟨hother, fun hlocal => by cases hlocal⟩, ?_, .inr ?_⟩
    · rw [← hoperations]
      unfold Workspace.operations
      rw [hrows]
    · rcases hpopped with ⟨rest, hqueue, hrest⟩
      refine ⟨rest, hqueue, ?_⟩
      rw [← hrest]
      unfold Workspace.queued
      rw [hrows]
  unfold persistWorkspaceConflict
  split
  · exact hsame saved h.orderly rfl false
  · split
    · exact hsame saved h.orderly rfl false
    · rename_i noted hsave
      have hnoted := h.orderly.saveConflict hsave
      have hrows : noted.revisions = saved.revisions := by
        unfold saveWorkspaceContentConflict at hsave
        split at hsave
        · cases hsave
        · cases hsave
          rfl
      split
      · exact hsame noted hnoted hrows false
      · rename_i paused hpause
        exact hsame paused (hnoted.pause hpause)
          ((onlyState_pause hpause).1.trans hrows) true

/-- The revision is no longer queued. -/
theorem Sound.markSynced_again (h : Sound localOnly w)
    (haligned : Aligned w (revision :: later)) (hgone : revision ∉ w.queued)
    {generation : Nat}
    (htimely : w.Timely revision (.advanced generation revision.revisionId))
    (hrun : w.markLocalRevisionSynced revision.operationId generation
      revision.revisionId = some w') :
    Uploaded localOnly revision w (w', true) := by
  have hw' := markLocalRevisionSynced_eq_some hrun
  have hkept := haligned.queued_setSynced_gone hgone
  have hqueued : w'.queued = w.queued := by
    rw [hw']
    exact hkept
  rw [hkept] at hw'
  have horderly : w'.Orderly := by
    constructor
    · rw [hqueued]
      exact h.orderly.increasing
    · rw [hw']
      show ((w.setSynced _).revisions.map _).Nodup
      rw [operations_setSynced]
      exact h.orderly.operations
    · intro hnone
      rw [hqueued]
      rw [hw'] at hnone
      exact h.orderly.absent (Option.map_eq_none_iff.mp hnone)
    · intro s hs last hlast
      rw [hqueued] at hlast
      rw [hw'] at hs
      rcases Option.map_eq_some_iff.mp hs with ⟨state, hstate, rfl⟩
      have hhead := h.orderly.last state hstate last hlast
      split
      · exact hhead
      · exact hhead
    · intro s hs hclean
      rw [hqueued]
      rw [hw'] at hs
      rcases Option.map_eq_some_iff.mp hs with ⟨state, hstate, rfl⟩
      split at hclean
      · rename_i hempty
        have hnil := List.isEmpty_iff.mp hempty
        rw [if_pos hempty]
        exact ⟨hnil, htimely hnil state hstate⟩
      · rename_i hfull
        apply absurd _ hfull
        rw [(h.orderly.clean state hstate hclean).1]
        rfl
  constructor
  · refine ⟨horderly, fun hlocal => ?_⟩
    rw [hqueued, (h.unshared hlocal).1, hw']
    exact ⟨rfl, (h.unshared hlocal).2⟩
  · rw [hw']
    exact operations_setSynced _
  · exact .inl ⟨hqueued, fun _ => hgone⟩

theorem recordUpload_uploaded (h : Sound localOnly w)
    (haligned : Aligned w (revision :: later)) {outcome : UploadOutcome}
    (htimely : w.Timely revision outcome) :
    Uploaded localOnly revision w (w.recordUpload revision outcome) := by
  cases outcome with
  | advanced generation revisionId =>
      unfold recordUpload
      dsimp only
      split
      · rename_i hmatch
        rw [hmatch.1]
        split
        · exact h.uploaded_self
        · rename_i synced hrun
          by_cases hmem : revision ∈ w.queued
          · rcases haligned.head hmem with ⟨rest, hrest⟩
            rcases h.orderly.markSynced hrest hrun with ⟨horderly, hqueued⟩
            cases h.shared_of_mem hmem
            refine ⟨⟨horderly, fun hlocal => by cases hlocal⟩, ?_,
              .inr ⟨rest, hrest, hqueued⟩⟩
            rw [markLocalRevisionSynced_eq_some hrun]
            exact operations_setSynced _
          · exact h.markSynced_again haligned hmem htimely hrun
      · exact h.uploaded_self
  | diverged revisionId conflict =>
      unfold recordUpload
      dsimp only
      split
      · split
        · exact h.uploaded_self
        · rename_i detached hrun
          have hmem : revision ∈ w.queued := by
            unfold markLocalRevisionDetachedStored at hrun
            split at hrun
            · rename_i hany
              rcases List.any_eq_true.mp hany with ⟨row, hrow, hsame⟩
              rw [← haligned.same revision List.mem_cons_self row hrow
                (of_decide_eq_true hsame)]
              exact hrow
            · cases hrun
          rcases haligned.head hmem with ⟨rest, hrest⟩
          rcases h.orderly.markDetached hrest hrun with ⟨horderly, hqueued⟩
          cases h.shared_of_mem hmem
          have hsound : Sound false detached :=
            ⟨horderly, fun hlocal => by cases hlocal⟩
          apply hsound.persistConflict _ ⟨rest, hrest, hqueued⟩
          unfold markLocalRevisionDetachedStored at hrun
          split at hrun
          · cases hrun
            exact operations_setSynced _
          · cases hrun
      · exact h.uploaded_self
  | quotaExceeded => exact h.uploaded_pause .quota
  | generationConflict => exact h.uploaded_pause .conflict
  | failed => exact h.uploaded_self

theorem Aligned.uploaded {drain : List LocalRevision}
    {recorded : Workspace × Bool} (h : Aligned w drain)
    (hw : w.Orderly) (hrecorded : Uploaded localOnly revision w recorded) :
    Aligned recorded.1 drain := by
  rcases hrecorded.queued with ⟨hqueued, _⟩ | ⟨rest, hrest, hqueued⟩
  · apply h.grow
    constructor
    · rw [hrecorded.operations]
      exact fun _ hmem => hmem
    · refine ⟨[], ?_, fun _ hmem => absurd hmem List.not_mem_nil⟩
      rw [hqueued, List.append_nil]
  · exact h.pop hw.nodup_queued hrest hqueued hrecorded.operations

/-- The rest of the list, where the drain goes on. -/
theorem Aligned.uploaded_rest {recorded : Workspace × Bool}
    (h : Aligned w (revision :: later)) (hw : w.Orderly)
    (hrecorded : Uploaded localOnly revision w recorded)
    (hon : recorded.2 = true) : Aligned recorded.1 later := by
  apply (h.uploaded hw hrecorded).tail
  rcases hrecorded.queued with ⟨hqueued, hgone⟩ | ⟨rest, hrest, hqueued⟩
  · rw [hqueued]
    exact hgone hon
  · have hnodup := hw.nodup_queued
    rw [hrest, List.nodup_cons] at hnodup
    rw [hqueued]
    exact hnodup.1

end Workspace

/-!
## Careful runs
-/

namespace WorkspaceMachine

/-- Where an event does what it is for. -/
def Careful (m : WorkspaceMachine) : WorkspaceEvent -> Prop
  | .capture index now =>
      forall capture, capture ∈ m.captures[index]? ->
        capture.Careful m.workspace now
  | .upload index outcome =>
      forall revision, revision ∈ m.drains[index]?.bind List.head? ->
        m.workspace.Timely revision outcome
  | .resume => m.workspace.SafeToResume
  | .rename command _ =>
      forall state, state ∈ m.workspace.state -> command.admits state ->
        m.workspace.queued = []
  | _ => True

structure Sound (m : WorkspaceMachine) : Prop where
  workspace : m.workspace.Sound m.localOnly
  drains : forall drain, drain ∈ m.drains -> m.workspace.Aligned drain
  captures : forall capture, capture ∈ m.captures ->
    capture.Fits m.localOnly

variable (ext : Externals) {m : WorkspaceMachine}

/-- A transaction beside the passes and the drains. -/
theorem Sound.withWorkspace (h : m.Sound) {w : Workspace}
    (hw : m.workspace.Extends m.localOnly w) :
    Sound { m with workspace := w } := by
  constructor
  · exact hw.sound
  · intro drain hdrain
    exact (h.drains drain hdrain).grow hw.grows
  · exact h.captures

theorem Sound.afterOnlyState (h : m.Sound)
    {result : Workspace -> Option Workspace}
    (hresult : forall w, result m.workspace = some w ->
      m.workspace.OnlyState w ∧ w.Orderly) :
    Sound { m with workspace := m.workspace.after result } := by
  apply h.withWorkspace
  apply Workspace.Extends.after h.workspace
  intro w hrun
  exact (hresult w hrun).1.extends h.workspace (hresult w hrun).2

theorem Sound.captureNext (h : m.Sound) {index : Nat} {capture : Capture}
    (hcapture : m.captures[index]? = some capture)
    {now : Nat} (hcareful : capture.Careful m.workspace now) :
    (m.captureNext ext index now).Sound := by
  have hmem := List.mem_of_getElem? hcapture
  rcases Capture.next_extends ext h.workspace (h.captures capture hmem)
    hcareful with ⟨hextends, hfits⟩
  unfold WorkspaceMachine.captureNext
  rw [hcapture]
  constructor
  · exact hextends.sound
  · intro drain hdrain
    exact (h.drains drain hdrain).grow hextends.grows
  · intro other hother
    dsimp only at hother
    split at hother
    · exact h.captures other (List.mem_of_mem_eraseIdx hother)
    · cases List.mem_or_eq_of_mem_set hother with
      | inl hold => exact h.captures other hold
      | inr hnew =>
          rw [hnew]
          exact hfits

theorem Sound.uploadNext (h : m.Sound) {index : Nat} {outcome : UploadOutcome}
    (htimely : forall revision, revision ∈ m.drains[index]?.bind List.head? ->
      m.workspace.Timely revision outcome) :
    (m.uploadNext index outcome).Sound := by
  unfold WorkspaceMachine.uploadNext
  split
  · rename_i revision later hdrain
    rw [hdrain] at htimely
    have haligned := h.drains _ (List.mem_of_getElem? hdrain)
    have hrecorded := Workspace.recordUpload_uploaded h.workspace haligned
      (htimely revision rfl)
    have horderly := h.workspace.orderly
    constructor
    · exact hrecorded.sound
    · intro drain hmem
      cases List.mem_or_eq_of_mem_set hmem with
      | inl hold => exact (h.drains drain hold).uploaded horderly hrecorded
      | inr hnew =>
          rw [hnew]
          split
          · rename_i hon
            exact haligned.uploaded_rest horderly hrecorded hon
          · exact Workspace.aligned_nil _
    · exact h.captures
  · exact h

/-- What a careful event keeps. -/
theorem Sound.next (h : m.Sound) {event : WorkspaceEvent}
    (hcareful : m.Careful event) : (m.next ext event).Sound := by
  have horderly := h.workspace.orderly
  cases event with
  | begin input =>
      constructor
      · exact h.workspace
      · exact h.drains
      · intro capture hcapture
        cases List.mem_append.mp hcapture with
        | inl hold => exact h.captures capture hold
        | inr hnew =>
            rw [List.mem_singleton.mp hnew]
            exact Capture.fits_start input
  | capture index now =>
      show (m.captureNext ext index now).Sound
      cases hcapture : m.captures[index]? with
      | none =>
          unfold WorkspaceMachine.captureNext
          rw [hcapture]
          exact h
      | some capture =>
          exact h.captureNext ext hcapture (hcareful capture hcapture)
  | stop index =>
      constructor
      · exact h.workspace
      · exact h.drains
      · intro capture hcapture
        exact h.captures capture (List.mem_of_mem_eraseIdx hcapture)
  | list =>
      constructor
      · exact h.workspace
      · intro drain hdrain
        cases List.mem_append.mp hdrain with
        | inl hold => exact h.drains drain hold
        | inr hnew =>
            rw [List.mem_singleton.mp hnew,
              Workspace.queuedLocalRevisions_eq horderly.increasing]
            exact horderly.aligned_queued
      · exact h.captures
  | upload index outcome => exact h.uploadNext hcareful
  | pause status pendingRename =>
      exact h.afterOnlyState fun _ hrun =>
        ⟨Workspace.onlyState_pause hrun, horderly.pause hrun⟩
  | resume =>
      exact h.afterOnlyState fun _ hrun =>
        ⟨Workspace.onlyState_resume hrun, horderly.resume hcareful hrun⟩
  | ensureBaseline baseline =>
      exact h.afterOnlyState fun _ hrun =>
        ⟨Workspace.onlyState_ensure hrun, horderly.ensure hrun⟩
  | advanceBaseline baseline =>
      exact h.afterOnlyState fun _ hrun =>
        ⟨Workspace.onlyState_advance hrun, horderly.advance hrun⟩
  | rename command baseline =>
      show Sound { m with
        workspace := m.workspace.registryRename command baseline }
      unfold Workspace.registryRename
      split
      · exact h
      · rename_i state hstate
        split
        · rename_i hadmits
          have hqueued := hcareful state hstate hadmits
          exact h.afterOnlyState fun _ hrun =>
            ⟨Workspace.onlyState_adopt hrun, horderly.adopt hqueued hrun⟩
        · exact h

theorem Sound.ofWorkspace {w : Workspace} (h : w.Settled) (localOnly : Bool) :
    (ofWorkspace localOnly w).Sound := by
  constructor
  · exact ⟨h.orderly, fun _ => ⟨h.queued, h.conflict⟩⟩
  · intro drain hdrain
    cases hdrain
  · intro capture hcapture
    cases hcapture

/-- In careful runs a clean workspace has nothing queued and its head is its
base, so that the next baseline takes the place of no save.  A run is careful
where no revision but the head is recorded as taken when the queue is empty,
saves are queued behind the ones before, a workspace with an empty queue is
resumed when it is where the registry is, and a rename is adopted when nothing
is queued. -/
theorem clean_workspace_settled {localOnly : Bool} {w : Workspace}
    (hw : w.Settled) {events : List WorkspaceEvent} {m : WorkspaceMachine}
    (hrun : Run (Guarded Careful (next ext)) (ofWorkspace localOnly w) events
      m) :
    (forall state, m.workspace.state = some state -> state.status = .clean ->
      m.workspace.queued = [] ∧
        state.localHeadRevisionId = state.baseRevisionId) ∧
      forall baseline w',
        m.workspace.advanceCleanWorkspaceBaseline baseline = some w' ->
          w' = m.workspace ∨ m.workspace.queued = [] := by
  have hsound : m.Sound := by
    apply hrun.invariant
    · exact Sound.ofWorkspace hw localOnly
    · intro s event t hs hstep
      rcases hstep with ⟨hcareful, rfl⟩
      exact hs.next ext hcareful
  have horderly := hsound.workspace.orderly
  constructor
  · exact horderly.clean
  · intro baseline w' hadvance
    unfold Workspace.advanceCleanWorkspaceBaseline at hadvance
    cases hstate : m.workspace.state with
    | none =>
        rw [hstate] at hadvance
        left
        cases hadvance
        rfl
    | some state =>
        rw [hstate] at hadvance
        dsimp only at hadvance
        split at hadvance
        · left
          cases hadvance
          rfl
        · rename_i hclean
          right
          exact (horderly.clean state hstate (not_not.mp hclean)).1

instance (w : Workspace) : Decidable w.SafeToResume :=
  inferInstanceAs (Decidable (w.queued = [] -> forall state,
    state ∈ w.state -> state.localHeadRevisionId = state.baseRevisionId))

instance (w : Workspace) (now : Nat) : (capture : Capture) ->
    Decidable (capture.Careful w now)
  | .resuming => inferInstanceAs (Decidable w.SafeToResume)
  | .enqueueing revision =>
      inferInstanceAs (Decidable (forall other, other ∈ w.queued ->
        other.queueKey < toLex (revision.expectedGeneration, now)))
  | .failing _ _ => .isTrue trivial
  | .pausing _ _ => .isTrue trivial
  | .starting _ _ _ => .isTrue trivial
  | .baselining _ _ _ => .isTrue trivial
  | .rereading _ _ _ => .isTrue trivial
  | .relocating _ _ _ _ => .isTrue trivial
  | .consulting _ _ _ => .isTrue trivial
  | .resolving _ _ _ => .isTrue trivial
  | .basing _ _ _ => .isTrue trivial
  | .committing _ => .isTrue trivial
  | .ended => .isTrue trivial

instance (w : Workspace) (revision : LocalRevision) :
    (outcome : UploadOutcome) -> Decidable (w.Timely revision outcome)
  | .advanced _ _ =>
      inferInstanceAs (Decidable (w.queued = [] -> forall state,
        state ∈ w.state -> state.localHeadRevisionId = revision.revisionId))
  | .diverged _ _ => .isTrue trivial
  | .quotaExceeded => .isTrue trivial
  | .generationConflict => .isTrue trivial
  | .failed => .isTrue trivial

instance (m : WorkspaceMachine) : (event : WorkspaceEvent) ->
    Decidable (m.Careful event)
  | .capture index now =>
      inferInstanceAs (Decidable (forall capture,
        capture ∈ m.captures[index]? -> capture.Careful m.workspace now))
  | .upload index outcome =>
      inferInstanceAs (Decidable (forall revision,
        revision ∈ m.drains[index]?.bind List.head? ->
          m.workspace.Timely revision outcome))
  | .resume => inferInstanceAs (Decidable m.workspace.SafeToResume)
  | .rename command _ =>
      inferInstanceAs (Decidable (forall state, state ∈ m.workspace.state ->
        command.admits state -> m.workspace.queued = []))
  | .begin _ => .isTrue trivial
  | .stop _ => .isTrue trivial
  | .list => .isTrue trivial
  | .pause _ _ => .isTrue trivial
  | .ensureBaseline _ => .isTrue trivial
  | .advanceBaseline _ => .isTrue trivial

end WorkspaceMachine

namespace Sample

/-- Different revisions have different names. -/
def savingExternals : Externals :=
  { Denju.Sample.externals with
    sha256 := fun bytes =>
      digestOfNat (bytes.foldl (fun n byte => 31 * n + byte.toNat) 0) }

def emptyWorkspace : Workspace :=
  ⟨none, [], none⟩

def capture (scan : ScanOutcome) (n : UInt8) : CaptureInput where
  scan
  author := Denju.Sample.author
  operationId := deviceOperation n
  localOnly := false
  workspaceGeneration := 1
  desiredRevisionId := ⟨digestOfNat 1⟩

/-- One whole pass beside no other one. -/
def pass (input : CaptureInput) (accesses : Nat) : List WorkspaceEvent :=
  .begin input :: List.replicate accesses (.capture 0 0)

/-- The first pass records the baseline, the second one finds a save. -/
def saved : List WorkspaceEvent :=
  pass (capture (.scanned ⟨digestOfNat 2⟩ []) 1) 3 ++
    pass (capture (.scanned ⟨digestOfNat 3⟩ []) 2) 3

def savedId : RevisionId :=
  match Revision.new ⟨digestOfNat 3⟩ [⟨digestOfNat 1⟩] Denju.Sample.author
      (deviceOperation 2) with
  | .ok revision => revision.id savingExternals
  | .error _ => ⟨digestOfNat 0⟩

end Sample

theorem clean_workspace_settled_uploaded :
    let uploaded := Sample.saved ++
      [.list, .upload 0 (.advanced 2 Sample.savedId)]
    let m := uploaded.foldl (WorkspaceMachine.next Sample.savingExternals)
      (.ofWorkspace false Sample.emptyWorkspace)
    forall state, m.workspace.state = some state -> state.status = .clean ->
      m.workspace.queued = [] ∧
        state.localHeadRevisionId = state.baseRevisionId := by
  intro uploaded m
  have hsettled : Sample.emptyWorkspace.Settled :=
    ⟨rfl, rfl, List.nodup_nil, fun _ h => by cases h⟩
  have hrun : Run (Guarded WorkspaceMachine.Careful
        (WorkspaceMachine.next Sample.savingExternals))
      (.ofWorkspace false Sample.emptyWorkspace) uploaded m :=
    Run.guarded_of_all (by decide +kernel)
  exact (WorkspaceMachine.clean_workspace_settled _ hsettled hrun).1

/-- The user edits the name in `SKILL.md`, and the pending rename takes the
place of the queue in the status. -/
theorem clean_workspace_settled_renamed :
    ¬forall (localOnly : Bool) (events : List WorkspaceEvent)
        (m : WorkspaceMachine),
      Run (Guarded (fun _ _ => True)
          (WorkspaceMachine.next Sample.savingExternals))
        (.ofWorkspace localOnly Sample.emptyWorkspace) events m ->
      forall state, m.workspace.state = some state -> state.status = .clean ->
        m.workspace.queued = [] ∧
          state.localHeadRevisionId = state.baseRevisionId := by
  intro hclaim
  let renamed : List WorkspaceEvent := Sample.saved ++
    Sample.pass (Sample.capture (.pendingRename "b".toList) 3) 2 ++
      [.rename (.rename true)
        ⟨2, ⟨digestOfNat 4⟩, ⟨digestOfNat 5⟩, []⟩]
  have hclean := hclaim false renamed _ (Run.guarded_of_all (by decide +kernel))
    (.ofBaseline ⟨2, ⟨digestOfNat 4⟩, ⟨digestOfNat 5⟩, []⟩)
    (by decide +kernel) rfl
  exact absurd hclean.1 (by decide +kernel)

end Denju.Local
