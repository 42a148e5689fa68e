import Denju.Local.Workspace

/-!
# Orderly workspaces

Each transaction keeps the queue of a workspace in order, and the lists that
drains have read stay in step with it.
-/

namespace Denju.Local

open Lib

/-!
## Orderly workspaces
-/

namespace Workspace

/-- The queue is in the order of the uploads, its last revision is the head, and
a clean workspace has nothing queued and is where the registry is. -/
structure Orderly (w : Workspace) : Prop where
  increasing : w.queued.Pairwise fun a b => a.queueKey < b.queueKey
  operations : (w.revisions.map LocalRevision.operationId).Nodup
  absent : w.state = none -> w.queued = []
  last : forall state, w.state = some state -> forall revision,
    w.queued.getLast? = some revision ->
      state.localHeadRevisionId = revision.revisionId
  clean : forall state, w.state = some state -> state.status = .clean ->
    w.queued = [] ∧ state.localHeadRevisionId = state.baseRevisionId

/-- Nothing is under way. -/
structure Settled (w : Workspace) : Prop where
  queued : w.queued = []
  conflict : w.conflict = none
  operations : (w.revisions.map LocalRevision.operationId).Nodup
  head : forall state, w.state = some state ->
    state.localHeadRevisionId = state.baseRevisionId

variable {w w' : Workspace}

theorem Settled.orderly (h : w.Settled) : w.Orderly := by
  constructor
  · rw [h.queued]
    exact List.Pairwise.nil
  · exact h.operations
  · intro _
    exact h.queued
  · intro state _ revision hlast
    rw [h.queued] at hlast
    cases hlast
  · intro state hstate _
    exact ⟨h.queued, h.head state hstate⟩

theorem queuedLocalRevisions_eq
    (h : w.queued.Pairwise fun a b => a.queueKey < b.queueKey) :
    w.queuedLocalRevisions = w.queued :=
  sortByKey_eq_self (h.imp fun hlt => le_of_lt hlt)

/-- A transaction that only changes the row of the workspace. -/
theorem Orderly.of_state (h : w.Orderly) {state : Option WorkspaceState}
    (habsent : state = none -> w.queued = [])
    (hlast : forall s, state = some s -> forall revision,
      w.queued.getLast? = some revision ->
        s.localHeadRevisionId = revision.revisionId)
    (hclean : forall s, state = some s -> s.status = .clean ->
      w.queued = [] ∧ s.localHeadRevisionId = s.baseRevisionId) :
    Orderly { w with state } :=
  ⟨h.increasing, h.operations, habsent, hlast, hclean⟩

/-- A baseline where nothing is queued. -/
theorem Orderly.ofBaseline (h : w.Orderly) (hqueued : w.queued = [])
    (baseline : Baseline) :
    Orderly { w with state := some (.ofBaseline baseline) } := by
  apply h.of_state
  · intro hnone
    cases hnone
  · intro s hs revision hrevision
    rw [hqueued] at hrevision
    cases hrevision
  · intro s hs _
    cases hs
    exact ⟨hqueued, rfl⟩

theorem Orderly.ensure (h : w.Orderly) {baseline : Baseline}
    (hrun : w.ensureWorkspaceBaseline baseline = some w') : w'.Orderly := by
  unfold ensureWorkspaceBaseline at hrun
  cases hstate : w.state with
  | some state =>
      rw [hstate] at hrun
      cases hrun
      exact h
  | none =>
      rw [hstate] at hrun
      dsimp only at hrun
      split at hrun
      · cases hrun
      · cases hrun
        exact h.ofBaseline (h.absent hstate) baseline

theorem Orderly.advance (h : w.Orderly) {baseline : Baseline}
    (hrun : w.advanceCleanWorkspaceBaseline baseline = some w') :
    w'.Orderly := by
  unfold advanceCleanWorkspaceBaseline at hrun
  cases hstate : w.state with
  | none =>
      rw [hstate] at hrun
      cases hrun
      exact h
  | some state =>
      rw [hstate] at hrun
      dsimp only at hrun
      split at hrun
      · cases hrun
        exact h
      · rename_i hclean
        rw [not_not] at hclean
        split at hrun
        · cases hrun
        · cases hrun
          exact h.ofBaseline (h.clean state hstate hclean).1 baseline

theorem Orderly.adopt (h : w.Orderly) (hqueued : w.queued = [])
    {baseline : Baseline}
    (hrun : w.adoptRegistryRenameBaseline baseline = some w') : w'.Orderly := by
  unfold adoptRegistryRenameBaseline at hrun
  split at hrun
  · cases hrun
  · split at hrun
    · cases hrun
    · cases hrun
      exact h.ofBaseline hqueued baseline

theorem Orderly.setWorkingGeneration (h : w.Orderly) (path : Text) :
    (w.setWorkspaceWorkingGeneration path).Orderly := by
  apply h.of_state
  · intro hnone
    exact h.absent (Option.map_eq_none_iff.mp hnone)
  · intro s hs
    rcases Option.map_eq_some_iff.mp hs with ⟨state, hstate, rfl⟩
    exact h.last state hstate
  · intro s hs
    rcases Option.map_eq_some_iff.mp hs with ⟨state, hstate, rfl⟩
    exact h.clean state hstate

theorem Orderly.pause (h : w.Orderly) {status : WorkspaceStatus}
    {pendingRename : Option Text}
    (hrun : w.pauseWorkspace status pendingRename = some w') : w'.Orderly := by
  unfold pauseWorkspace at hrun
  split at hrun
  · cases hrun
  · rename_i hpaused
    rcases Option.map_eq_some_iff.mp hrun with ⟨state, hstate, rfl⟩
    apply h.of_state
    · intro hnone
      cases hnone
    · intro s hs
      cases hs
      exact h.last state hstate
    · intro s hs hclean
      cases hs
      exact absurd (.inl hclean) hpaused

/-- A workspace without a queue that is resumed is where the registry is. -/
def SafeToResume (w : Workspace) : Prop :=
  w.queued = [] -> forall state, w.state = some state ->
    state.localHeadRevisionId = state.baseRevisionId

theorem Orderly.resume (h : w.Orderly) (hsafe : w.SafeToResume)
    (hrun : w.resumeWorkspace = some w') : w'.Orderly := by
  rcases Option.map_eq_some_iff.mp hrun with ⟨state, hstate, rfl⟩
  apply h.of_state
  · intro hnone
    cases hnone
  · intro s hs
    cases hs
    exact h.last state hstate
  · intro s hs hclean
    cases hs
    dsimp only at hclean
    split at hclean
    · rename_i hempty
      have hqueued := List.isEmpty_iff.mp hempty
      exact ⟨hqueued, hsafe hqueued state hstate⟩
    · cases hclean

theorem Orderly.saveConflict (h : w.Orderly) {conflict : WorkspaceConflict}
    (hrun : w.saveWorkspaceContentConflict conflict = some w') :
    w'.Orderly := by
  unfold saveWorkspaceContentConflict at hrun
  split at hrun
  · cases hrun
  · cases hrun
    exact ⟨h.increasing, h.operations, h.absent, h.last, h.clean⟩

/-!
### The queue
-/

theorem queued_concat (revision : LocalRevision) (state : Option WorkspaceState) :
    queued { w with revisions := w.revisions ++ [revision], state } =
      w.queued ++ [revision].filter LocalRevision.isQueued :=
  List.filter_append _ _

theorem operationTaken_iff {operationId : OperationId} :
    w.operationTaken operationId = true <->
      operationId ∈ w.revisions.map LocalRevision.operationId := by
  unfold operationTaken
  rw [List.any_eq_true, List.mem_map]
  simp only [decide_eq_true_eq]

theorem enqueueLocalRevision_eq_some {revision : LocalRevision} {now : Nat}
    (h : w.enqueueLocalRevision revision now = some w') :
    exists state, w.state = some state ∧
      revision.operationId ∉ w.revisions.map LocalRevision.operationId ∧
        w' =
          { w with
            revisions := w.revisions ++
              [{ revision with
                  parentRevisionIds :=
                    sortByKey RevisionId.key revision.parentRevisionIds
                  state := .queued
                  createdAt := now }]
            state := some
              { state with
                localHeadRevisionId := revision.revisionId
                validRootTreeId := revision.rootTreeId
                status := .queued
                pendingRename := none } } := by
  unfold enqueueLocalRevision at h
  dsimp only at h
  split at h
  · cases h
  · split at h
    · rename_i hadmits
      rcases Option.map_eq_some_iff.mp h with ⟨state, hstate, rfl⟩
      refine ⟨state, hstate, ?_, rfl⟩
      rw [← operationTaken_iff]
      unfold admitsRevision at hadmits
      simp only [Bool.and_eq_true, Bool.not_eq_true'] at hadmits
      rw [hadmits.1.1]
      exact Bool.false_ne_true
    · cases h

theorem Orderly.enqueue (h : w.Orderly) {revision : LocalRevision} {now : Nat}
    (hlater : forall other, other ∈ w.queued ->
      other.queueKey < toLex (revision.expectedGeneration, now))
    (hrun : w.enqueueLocalRevision revision now = some w') : w'.Orderly := by
  rcases enqueueLocalRevision_eq_some hrun with ⟨state, hstate, hfresh, rfl⟩
  constructor
  · rw [queued_concat]
    apply List.pairwise_append.mpr
    refine ⟨h.increasing, List.pairwise_singleton _ _, ?_⟩
    intro a ha b hb
    rw [List.mem_singleton.mp hb]
    exact hlater a ha
  · rw [List.map_append]
    apply List.nodup_append'.mpr
    refine ⟨h.operations, List.nodup_singleton _, ?_⟩
    intro operation hmem hnew
    rw [List.mem_singleton.mp hnew] at hmem
    exact hfresh hmem
  · intro hnone
    cases hnone
  · intro s hs last hlast
    cases hs
    rw [queued_concat] at hlast
    have hsame := List.getLast?_concat.symm.trans hlast
    cases hsame
    rfl
  · intro s hs hclean
    cases hs
    cases hclean

theorem Orderly.commitLocalOnly (h : w.Orderly) (hqueued : w.queued = [])
    {revision : LocalRevision} {now : Nat}
    (hrun : w.commitLocalOnlyRevision revision now = some w') :
    w'.Orderly ∧ w'.queued = [] ∧ w'.conflict = w.conflict := by
  unfold commitLocalOnlyRevision at hrun
  dsimp only at hrun
  split at hrun
  · cases hrun
  · split at hrun
    · rename_i hadmits
      cases hrun
      have hkept : queued
          { w with
            revisions := w.revisions ++
              [{ revision with state := .synced, createdAt := now }]
            state := w.state.map fun state =>
              { state with
                baseGeneration := revision.expectedGeneration + 1
                baseRevisionId := revision.revisionId
                localHeadRevisionId := revision.revisionId
                validRootTreeId := revision.rootTreeId
                status := .clean
                pendingRename := none } } = [] := by
        rw [queued_concat, hqueued]
        rfl
      refine ⟨⟨?_, ?_, ?_, ?_, ?_⟩, hkept, rfl⟩
      · rw [hkept]
        exact List.Pairwise.nil
      · rw [List.map_append]
        apply List.nodup_append'.mpr
        refine ⟨h.operations, List.nodup_singleton _, ?_⟩
        intro operation hmem hnew
        rw [List.mem_singleton.mp hnew] at hmem
        unfold admitsRevision at hadmits
        rw [operationTaken_iff.mpr hmem] at hadmits
        simp at hadmits
      · intro _
        exact hkept
      · intro s _ last hlast
        rw [hkept] at hlast
        cases hlast
      · intro s hs _
        rcases Option.map_eq_some_iff.mp hs with ⟨state, _, rfl⟩
        exact ⟨hkept, rfl⟩
    · cases hrun

theorem queued_setSynced (operationId : OperationId) :
    (w.setSynced operationId).queued =
      w.queued.filter fun row => row.operationId ≠ operationId := by
  show (updateWhere _ _ w.revisions).filter LocalRevision.isQueued =
    (w.revisions.filter LocalRevision.isQueued).filter _
  induction w.revisions with
  | nil => rfl
  | cons row rest ih =>
      have hhead : updateWhere (fun r : LocalRevision =>
            r.operationId = operationId)
          (fun r => { r with state := .synced }) (row :: rest) =
            (if row.operationId = operationId then
              { row with state := .synced } else row) ::
              updateWhere (fun r => r.operationId = operationId)
                (fun r => { r with state := .synced }) rest := by
        simp [updateWhere]
      rw [hhead]
      by_cases hrow : row.operationId = operationId
      · rw [if_pos hrow, List.filter_cons_of_neg (by
          show ¬(decide (LocalRevisionState.synced = .queued) = true)
          decide), ih]
        cases hqueued : row.isQueued with
        | true =>
            rw [List.filter_cons_of_pos hqueued,
              List.filter_cons_of_neg (by simp [hrow])]
        | false => rw [List.filter_cons_of_neg (by simp [hqueued])]
      · rw [if_neg hrow]
        cases hqueued : row.isQueued with
        | true =>
            rw [List.filter_cons_of_pos hqueued, List.filter_cons_of_pos hqueued,
              List.filter_cons_of_pos (by simp [hrow]), ih]
        | false =>
            rw [List.filter_cons_of_neg (by simp [hqueued]),
              List.filter_cons_of_neg (by simp [hqueued]), ih]

theorem operations_setSynced (operationId : OperationId) :
    (w.setSynced operationId).revisions.map LocalRevision.operationId =
      w.revisions.map LocalRevision.operationId := by
  show (updateWhere _ _ w.revisions).map _ = _
  unfold updateWhere
  rw [List.map_map]
  apply List.map_congr_left
  intro row _
  by_cases hrow : row.operationId = operationId
  · simp [hrow]
  · simp [hrow]

theorem Orderly.operations_queued (h : w.Orderly) :
    (w.queued.map LocalRevision.operationId).Nodup :=
  h.operations.sublist (List.filter_sublist.map _)

/-- Without its first revision the queue is its tail. -/
theorem Orderly.queued_setSynced_head (h : w.Orderly)
    {revision : LocalRevision} {rest : List LocalRevision}
    (hqueued : w.queued = revision :: rest) :
    (w.setSynced revision.operationId).queued = rest := by
  have hnodup := h.operations_queued
  rw [queued_setSynced, hqueued]
  rw [hqueued, List.map_cons, List.nodup_cons] at hnodup
  rw [List.filter_cons_of_neg (by simp), List.filter_eq_self]
  intro row hrow
  have hne : row.operationId ≠ revision.operationId := by
    intro heq
    apply hnodup.1
    rw [← heq]
    exact List.mem_map_of_mem hrow
  exact decide_eq_true hne

theorem getLast?_of_tail {α : Type} {x y : α} {rest : List α}
    (h : rest.getLast? = some y) : (x :: rest).getLast? = some y := by
  cases rest with
  | nil => cases h
  | cons z more => exact h

theorem markLocalRevisionSynced_eq_some {operationId : OperationId}
    {generation : Nat} {revisionId : RevisionId}
    (h : w.markLocalRevisionSynced operationId generation revisionId =
      some w') :
    w' =
      { w.setSynced operationId with
        state := w.state.map fun state =>
          if (w.setSynced operationId).queued.isEmpty then
            { state with
              baseGeneration := generation
              baseRevisionId := revisionId
              status := .clean
              pendingRename := none }
          else
            { state with
              baseGeneration := generation
              baseRevisionId := revisionId } } := by
  unfold markLocalRevisionSynced at h
  dsimp only at h
  split at h
  · cases h
  · cases h
    rfl

/-- The registry has the first revision of the queue. -/
theorem Orderly.markSynced (h : w.Orderly) {revision : LocalRevision}
    {rest : List LocalRevision} (hqueued : w.queued = revision :: rest)
    {generation : Nat}
    (hrun : w.markLocalRevisionSynced revision.operationId generation
      revision.revisionId = some w') :
    w'.Orderly ∧ w'.queued = rest := by
  have hrest := h.queued_setSynced_head hqueued
  have hw' := markLocalRevisionSynced_eq_some hrun
  have hkept : w'.queued = rest := by
    rw [hw']
    exact hrest
  refine ⟨⟨?_, ?_, ?_, ?_, ?_⟩, hkept⟩
  · rw [hkept]
    have hincreasing := h.increasing
    rw [hqueued] at hincreasing
    exact (List.pairwise_cons.mp hincreasing).2
  · rw [hw']
    show ((w.setSynced _).revisions.map _).Nodup
    rw [operations_setSynced]
    exact h.operations
  · intro hnone
    rw [hw'] at hnone
    have hqueue := h.absent (Option.map_eq_none_iff.mp hnone)
    rw [hqueued] at hqueue
    cases hqueue
  · intro s hs last hlast
    rw [hkept] at hlast
    rw [hw'] at hs
    rcases Option.map_eq_some_iff.mp hs with ⟨state, hstate, rfl⟩
    have hhead := h.last state hstate last (by
      rw [hqueued]
      exact getLast?_of_tail hlast)
    split
    · exact hhead
    · exact hhead
  · intro s hs hclean
    rw [hw'] at hs
    rcases Option.map_eq_some_iff.mp hs with ⟨state, hstate, rfl⟩
    rw [hrest] at hclean ⊢
    split at hclean
    · rename_i hempty
      have hnil := List.isEmpty_iff.mp hempty
      rw [if_pos hempty]
      refine ⟨hkept.trans hnil, ?_⟩
      apply h.last state hstate
      rw [hqueued, hnil]
      rfl
    · have hstatus := h.clean state hstate hclean
      rw [hqueued] at hstatus
      cases hstatus.1

/-- The registry has the first revision of the queue as another head. -/
theorem Orderly.markDetached (h : w.Orderly) {revision : LocalRevision}
    {rest : List LocalRevision} (hqueued : w.queued = revision :: rest)
    (hrun : w.markLocalRevisionDetachedStored revision.operationId =
      some w') :
    w'.Orderly ∧ w'.queued = rest := by
  have hrest := h.queued_setSynced_head hqueued
  unfold markLocalRevisionDetachedStored at hrun
  split at hrun
  · cases hrun
    refine ⟨⟨?_, ?_, ?_, ?_, ?_⟩, hrest⟩
    · rw [hrest]
      have hincreasing := h.increasing
      rw [hqueued] at hincreasing
      exact (List.pairwise_cons.mp hincreasing).2
    · rw [operations_setSynced]
      exact h.operations
    · intro hnone
      have hqueue := h.absent hnone
      rw [hqueued] at hqueue
      cases hqueue
    · intro s hs last hlast
      rw [hrest] at hlast
      apply h.last s hs
      rw [hqueued]
      exact getLast?_of_tail hlast
    · intro s hs hclean
      have hstatus := h.clean s hs hclean
      rw [hqueued] at hstatus
      cases hstatus.1
  · cases hrun

end Workspace

/-!
## The lists of the drains
-/

namespace Workspace

def operations (w : Workspace) : List OperationId :=
  w.revisions.map LocalRevision.operationId

/-- What is still queued of a list is the front of the queue. -/
structure Aligned (w : Workspace) (drain : List LocalRevision) : Prop where
  known : forall revision, revision ∈ drain ->
    revision.operationId ∈ w.operations
  same : forall revision, revision ∈ drain -> forall row, row ∈ w.queued ->
    row.operationId = revision.operationId -> row = revision
  front : exists rest,
    w.queued = (drain.filter fun row => row ∈ w.queued) ++ rest

/-- Revisions are only added behind the queue. -/
structure Grows (w w' : Workspace) : Prop where
  operations : w.operations ⊆ w'.operations
  queued : exists new, w'.queued = w.queued ++ new ∧
    forall revision, revision ∈ new -> revision.operationId ∉ w.operations

variable {w w' : Workspace} {drain : List LocalRevision}

theorem Grows.refl (w : Workspace) : Grows w w :=
  ⟨fun _ h => h, [], (List.append_nil _).symm,
    fun _ h => absurd h List.not_mem_nil⟩

theorem Grows.of_revisions (h : w'.revisions = w.revisions) : Grows w w' := by
  constructor
  · unfold Workspace.operations
    rw [h]
    exact fun _ hmem => hmem
  · refine ⟨[], ?_, fun _ hmem => absurd hmem List.not_mem_nil⟩
    unfold Workspace.queued
    rw [h, List.append_nil]

theorem Grows.after {result : Workspace -> Option Workspace}
    (h : forall w', result w = some w' -> Grows w w') :
    Grows w (w.after result) := by
  unfold Workspace.after
  cases hresult : result w with
  | none => exact Grows.refl w
  | some w' => exact h w' hresult

theorem Orderly.after (h : w.Orderly) {result : Workspace -> Option Workspace}
    (hresult : forall w', result w = some w' -> w'.Orderly) :
    (w.after result).Orderly := by
  unfold Workspace.after
  cases hrun : result w with
  | none => exact h
  | some w' => exact hresult w' hrun

theorem aligned_nil (w : Workspace) : Aligned w [] :=
  ⟨fun _ h => absurd h List.not_mem_nil,
    fun _ h => absurd h List.not_mem_nil, w.queued, rfl⟩

theorem Orderly.aligned_queued (h : w.Orderly) : Aligned w w.queued := by
  constructor
  · intro revision hrevision
    exact List.mem_map_of_mem (List.mem_of_mem_filter hrevision)
  · intro revision hrevision row hrow hsame
    exact List.inj_on_of_nodup_map h.operations_queued hrow hrevision hsame
  · refine ⟨[], ?_⟩
    rw [List.append_nil, eq_comm, List.filter_eq_self]
    intro revision hrevision
    exact decide_eq_true hrevision

theorem Aligned.grow (h : Aligned w drain) (hgrows : Grows w w') :
    Aligned w' drain := by
  rcases hgrows.queued with ⟨new, hqueued, hnew⟩
  rcases h.front with ⟨rest, hrest⟩
  constructor
  · intro revision hrevision
    exact hgrows.operations (h.known revision hrevision)
  · intro revision hrevision row hrow hsame
    rw [hqueued] at hrow
    cases List.mem_append.mp hrow with
    | inl hold => exact h.same revision hrevision row hold hsame
    | inr hmem =>
        apply absurd (h.known revision hrevision)
        rw [← hsame]
        exact hnew row hmem
  · refine ⟨rest ++ new, ?_⟩
    have hsame : (drain.filter fun row => row ∈ w'.queued) =
        drain.filter fun row => row ∈ w.queued := by
      apply List.filter_congr
      intro row hrow
      have hold : row ∉ new := fun hmem =>
        hnew row hmem (h.known row hrow)
      rw [hqueued]
      simp [hold]
    rw [hsame, hqueued, ← List.append_assoc, ← hrest]

/-- A drain whose next revision is queued is at the front of the queue. -/
theorem Aligned.head {revision : LocalRevision} {later : List LocalRevision}
    (h : Aligned w (revision :: later)) (hqueued : revision ∈ w.queued) :
    exists rest, w.queued = revision :: rest := by
  rcases h.front with ⟨rest, hrest⟩
  rw [List.filter_cons_of_pos (by simp [hqueued])] at hrest
  exact ⟨_, hrest⟩

theorem Aligned.tail {revision : LocalRevision} {later : List LocalRevision}
    (h : Aligned w (revision :: later)) (hqueued : revision ∉ w.queued) :
    Aligned w later := by
  constructor
  · intro other hother
    exact h.known other (List.mem_cons_of_mem _ hother)
  · intro other hother
    exact h.same other (List.mem_cons_of_mem _ hother)
  · rcases h.front with ⟨rest, hrest⟩
    rw [List.filter_cons_of_neg (by simp [hqueued])] at hrest
    exact ⟨rest, hrest⟩

/-- The queue loses its first revision. -/
theorem Aligned.pop (h : Aligned w drain) (hnodup : w.queued.Nodup)
    {revision : LocalRevision} {rest : List LocalRevision}
    (hqueued : w.queued = revision :: rest) (hpopped : w'.queued = rest)
    (hoperations : w'.operations = w.operations) : Aligned w' drain := by
  constructor
  · intro other hother
    rw [hoperations]
    exact h.known other hother
  · intro other hother row hrow
    rw [hpopped] at hrow
    apply h.same other hother row
    rw [hqueued]
    exact List.mem_cons_of_mem _ hrow
  · rcases h.front with ⟨behind, hbehind⟩
    rw [hqueued] at hnodup
    have hfirst : revision ∉ rest := (List.nodup_cons.mp hnodup).1
    have hfilter : (drain.filter fun row => row ∈ w'.queued) =
        (drain.filter fun row => row ∈ w.queued).filter fun row =>
          row ≠ revision := by
      rw [List.filter_filter]
      apply List.filter_congr
      intro row _
      rw [hpopped, hqueued]
      by_cases hrow : row = revision
      · simp [hrow, hfirst]
      · simp [hrow]
    rw [hfilter]
    rw [hqueued] at hbehind ⊢
    cases hfront : drain.filter fun row => row ∈ revision :: rest with
    | nil => exact ⟨rest, hpopped⟩
    | cons first others =>
        rw [hfront] at hbehind
        injection hbehind with hhead htail
        refine ⟨behind, ?_⟩
        have hothers : revision ∉ others := by
          intro hmem
          apply hfirst
          rw [htail]
          exact List.mem_append_left _ hmem
        rw [← hhead, List.filter_cons_of_neg (by simp), hpopped, htail]
        congr 1
        rw [eq_comm, List.filter_eq_self]
        intro row hrow
        have hne : row ≠ revision := fun heq => hothers (heq ▸ hrow)
        exact decide_eq_true hne

theorem Aligned.queued_setSynced_gone {revision : LocalRevision}
    {later : List LocalRevision} (h : Aligned w (revision :: later))
    (hgone : revision ∉ w.queued) :
    (w.setSynced revision.operationId).queued = w.queued := by
  rw [queued_setSynced, List.filter_eq_self]
  intro row hrow
  have hne : row.operationId ≠ revision.operationId := by
    intro hsame
    apply hgone
    rw [← h.same revision List.mem_cons_self row hrow hsame]
    exact hrow
  exact decide_eq_true hne

theorem Orderly.nodup_queued (h : w.Orderly) : w.queued.Nodup :=
  List.Nodup.of_map _ h.operations_queued

end Workspace

end Denju.Local
