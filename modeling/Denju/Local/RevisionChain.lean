import Denju.Local.WorkspaceRuns

/-!
# The chain of queued saves

While a device is offline its saves queue up.  Each goes on from the one before,
the first of them from what the registry has.
-/

namespace Denju.Local

open Lib

/-- Each revision goes on from the one before, the first from a generation and
a revision. -/
def ChainFrom : Nat -> RevisionId -> List LocalRevision -> Prop
  | _, _, [] => True
  | generation, parent, revision :: rest =>
      revision.expectedGeneration = generation ∧
        revision.expectedHeadRevisionId = parent ∧
          revision.parentRevisionIds = [parent] ∧
            ChainFrom (generation + 1) revision.revisionId rest

/-- The end of a chain. -/
def headOf (base : RevisionId) (queue : List LocalRevision) : RevisionId :=
  match queue.getLast? with
  | some revision => revision.revisionId
  | none => base

theorem headOf_cons (base : RevisionId) (revision : LocalRevision)
    (rest : List LocalRevision) :
    headOf base (revision :: rest) = headOf revision.revisionId rest := by
  cases rest with
  | nil => rfl
  | cons next more =>
      unfold headOf
      rw [List.getLast?_cons_cons]
      rw [List.getLast?_eq_some_getLast (List.cons_ne_nil next more)]

theorem headOf_concat (base : RevisionId) (revision : LocalRevision)
    (queue : List LocalRevision) :
    headOf base (queue ++ [revision]) = revision.revisionId := by
  unfold headOf
  rw [List.getLast?_concat]

theorem ChainFrom.concat (revision : LocalRevision) {queue : List LocalRevision}
    (hhead : revision.parentRevisionIds = [revision.expectedHeadRevisionId]) :
    forall {generation : Nat} {parent : RevisionId},
      ChainFrom generation parent queue ->
      revision.expectedGeneration = generation + queue.length ->
      revision.expectedHeadRevisionId = headOf parent queue ->
      ChainFrom generation parent (queue ++ [revision]) := by
  induction queue with
  | nil =>
      intro generation parent _ hgeneration hparent
      have hparent' : revision.expectedHeadRevisionId = parent := hparent
      refine ⟨hgeneration, hparent', ?_, trivial⟩
      rw [hhead, hparent']
  | cons first rest ih =>
      intro generation parent hchain hgeneration hparent
      rcases hchain with ⟨hfirst, hexpected, hparents, hrest⟩
      refine ⟨hfirst, hexpected, hparents, ih hrest ?_ ?_⟩
      · rw [hgeneration, List.length_cons]
        omega
      · rw [hparent, headOf_cons]

theorem ChainFrom.bounds {queue : List LocalRevision} :
    forall {generation : Nat} {parent : RevisionId},
      ChainFrom generation parent queue ->
      forall revision, revision ∈ queue ->
        generation ≤ revision.expectedGeneration ∧
          revision.expectedGeneration < generation + queue.length := by
  induction queue with
  | nil =>
      intro generation parent _ revision hrevision
      cases hrevision
  | cons first rest ih =>
      intro generation parent hchain revision hrevision
      rw [List.length_cons]
      cases List.mem_cons.mp hrevision with
      | inl hfirst =>
          rw [hfirst, hchain.1]
          omega
      | inr hmem =>
          have hbounds := ih hchain.2.2.2 revision hmem
          omega

theorem ChainFrom.increasing {queue : List LocalRevision} :
    forall {generation : Nat} {parent : RevisionId},
      ChainFrom generation parent queue ->
      queue.Pairwise fun a b =>
        a.expectedGeneration < b.expectedGeneration := by
  induction queue with
  | nil =>
      intro generation parent _
      exact List.Pairwise.nil
  | cons first rest ih =>
      intro generation parent hchain
      apply List.pairwise_cons.mpr
      constructor
      · intro other hother
        have hbounds := hchain.2.2.2.bounds other hother
        rw [hchain.1]
        omega
      · exact ih hchain.2.2.2

theorem ChainFrom.getLast {queue : List LocalRevision} {last : LocalRevision} :
    forall {generation : Nat} {parent : RevisionId},
      ChainFrom generation parent queue -> queue.getLast? = some last ->
      last.expectedGeneration + 1 = generation + queue.length := by
  induction queue with
  | nil =>
      intro generation parent _ hlast
      cases hlast
  | cons first rest ih =>
      intro generation parent hchain hlast
      rw [List.length_cons]
      cases rest with
      | nil =>
          have hsame : first = last := Option.some.inj hlast
          rw [← hsame, hchain.1]
          rfl
      | cons next more =>
          rw [List.getLast?_cons_cons] at hlast
          rw [ih hchain.2.2.2 hlast]
          omega

/-!
## Workspaces
-/

namespace Workspace

/-- The queue goes on from the base to the head. -/
def Chained (w : Workspace) : Prop :=
  forall state, w.state = some state ->
    ChainFrom state.baseGeneration state.baseRevisionId w.queued ∧
      state.localHeadRevisionId = headOf state.baseRevisionId w.queued

/-- The state keeps its base and its head. -/
def SamePosition (state state' : WorkspaceState) : Prop :=
  state'.baseGeneration = state.baseGeneration ∧
    state'.baseRevisionId = state.baseRevisionId ∧
      state'.localHeadRevisionId = state.localHeadRevisionId

variable {w w' : Workspace}

theorem Settled.chained (h : w.Settled) : w.Chained := by
  intro state hstate
  rw [h.queued]
  exact ⟨trivial, h.head state hstate⟩

theorem Chained.of_samePosition (h : w.Chained)
    (hrevisions : w'.revisions = w.revisions)
    (hstate : forall state', w'.state = some state' ->
      exists state, w.state = some state ∧ SamePosition state state') :
    w'.Chained := by
  have hqueued : w'.queued = w.queued := by
    unfold Workspace.queued
    rw [hrevisions]
  intro state' hstate'
  rcases hstate state' hstate' with ⟨state, hold, hgeneration, hbase, hhead⟩
  rw [hqueued, hgeneration, hbase, hhead]
  exact h state hold

theorem Chained.after (h : w.Chained)
    {result : Workspace -> Option Workspace}
    (hresult : forall w', result w = some w' -> w'.Chained) :
    (w.after result).Chained := by
  unfold Workspace.after
  cases hrun : result w with
  | none => exact h
  | some w' => exact hresult w' hrun

theorem Chained.pause (h : w.Chained) {status : WorkspaceStatus}
    {pendingRename : Option Text}
    (hrun : w.pauseWorkspace status pendingRename = some w') :
    w'.Chained := by
  apply h.of_samePosition (onlyState_pause hrun).1
  intro state' hstate'
  unfold pauseWorkspace at hrun
  split at hrun
  · cases hrun
  · rcases Option.map_eq_some_iff.mp hrun with ⟨state, hstate, rfl⟩
    cases hstate'
    exact ⟨state, hstate, rfl, rfl, rfl⟩

theorem Chained.resume (h : w.Chained)
    (hrun : w.resumeWorkspace = some w') : w'.Chained := by
  apply h.of_samePosition (onlyState_resume hrun).1
  intro state' hstate'
  rcases Option.map_eq_some_iff.mp hrun with ⟨state, hstate, rfl⟩
  cases hstate'
  exact ⟨state, hstate, rfl, rfl, rfl⟩

theorem Chained.setWorkingGeneration (h : w.Chained) (path : Text) :
    (w.setWorkspaceWorkingGeneration path).Chained := by
  have honly : OnlyState w (w.setWorkspaceWorkingGeneration path) := ⟨rfl, rfl⟩
  apply h.of_samePosition honly.1
  intro state' hstate'
  rcases Option.map_eq_some_iff.mp hstate' with ⟨state, hstate, rfl⟩
  exact ⟨state, hstate, rfl, rfl, rfl⟩

theorem Chained.ensure (h : w.Chained) (horderly : w.Orderly)
    {baseline : Baseline}
    (hrun : w.ensureWorkspaceBaseline baseline = some w') : w'.Chained := by
  unfold ensureWorkspaceBaseline at hrun
  split at hrun
  · cases hrun
    exact h
  · rename_i hnone
    split at hrun
    · cases hrun
    · cases hrun
      intro state hstate
      cases hstate
      rw [show queued { w with state := some (.ofBaseline baseline) } = []
        from horderly.absent hnone]
      exact ⟨trivial, rfl⟩

/-- The revision goes on from the head. -/
structure GoesOn (w : Workspace) (revision : LocalRevision) : Prop where
  parents : revision.parentRevisionIds = [revision.expectedHeadRevisionId]
  position : exists state, w.state = some state ∧
    revision.expectedHeadRevisionId = state.localHeadRevisionId ∧
      revision.expectedGeneration = state.baseGeneration + w.queued.length

theorem Chained.enqueue (h : w.Chained) {revision : LocalRevision}
    (hon : w.GoesOn revision) {now : Nat}
    (hrun : w.enqueueLocalRevision revision now = some w') : w'.Chained := by
  rcases enqueueLocalRevision_eq_some hrun with ⟨state, hstate, _, rfl⟩
  rcases hon.position with ⟨current, hcurrent, hparent, hgeneration⟩
  cases hstate.symm.trans hcurrent
  have hsorted : sortByKey RevisionId.key revision.parentRevisionIds =
      [revision.expectedHeadRevisionId] := by
    rw [hon.parents]
    rfl
  intro state' hstate'
  cases hstate'
  rw [queued_concat]
  let row : LocalRevision :=
    { revision with
      parentRevisionIds := sortByKey RevisionId.key revision.parentRevisionIds
      state := .queued
      createdAt := now }
  constructor
  · exact ChainFrom.concat row hsorted (h state hstate).1 hgeneration
      (hparent.trans (h state hstate).2)
  · exact (headOf_concat state.baseRevisionId row w.queued).symm

theorem Chained.commit (hqueued : w.queued = []) (horderly : w.Orderly)
    {revision : LocalRevision} {now : Nat}
    (hrun : w.commitLocalOnlyRevision revision now = some w') :
    w'.Chained := by
  intro state' hstate'
  rw [(horderly.commitLocalOnly hqueued hrun).2.1]
  refine ⟨trivial, ?_⟩
  unfold commitLocalOnlyRevision at hrun
  dsimp only at hrun
  split at hrun
  · cases hrun
  · split at hrun
    · cases hrun
      rcases Option.map_eq_some_iff.mp hstate' with ⟨state, _, rfl⟩
      rfl
    · cases hrun

/-- An answer that says the generation behind the revision. -/
def Answers (revision : LocalRevision) : UploadOutcome -> Prop
  | .advanced generation _ => generation = revision.expectedGeneration + 1
  | _ => False

/-- The queue still has the revision, or the base is where it leads. -/
def Awaits (w : Workspace) (revision : LocalRevision) : Prop :=
  revision ∈ w.queued ∨
    forall state, state ∈ w.state ->
      state.baseGeneration = revision.expectedGeneration + 1 ∧
        state.baseRevisionId = revision.revisionId

/-- The head stays, and so does the generation behind the queue. -/
def SameEnd (w w' : Workspace) : Prop :=
  forall state, w.state = some state ->
    exists state', w'.state = some state' ∧
      state'.localHeadRevisionId = state.localHeadRevisionId ∧
        state'.baseGeneration + w'.queued.length =
          state.baseGeneration + w.queued.length

theorem SameEnd.refl (w : Workspace) : SameEnd w w :=
  fun state hstate => ⟨state, hstate, rfl, rfl⟩

theorem GoesOn.sameEnd {revision : LocalRevision} (h : w.GoesOn revision)
    (hsame : SameEnd w w') : w'.GoesOn revision := by
  constructor
  · exact h.parents
  · rcases h.position with ⟨state, hstate, hparent, hgeneration⟩
    rcases hsame state hstate with ⟨state', hstate', hhead, hend⟩
    refine ⟨state', hstate', ?_, ?_⟩
    · rw [hparent, hhead]
    · rw [hgeneration, hend]

/-- What taking a revision leaves of the row. -/
theorem markSynced_state {operationId : OperationId} {generation : Nat}
    {revisionId : RevisionId} {state : WorkspaceState}
    (hrun : w.markLocalRevisionSynced operationId generation revisionId =
      some w') (hstate : w.state = some state) :
    exists state', w'.state = some state' ∧
      state'.baseGeneration = generation ∧
        state'.baseRevisionId = revisionId ∧
          state'.localHeadRevisionId = state.localHeadRevisionId := by
  rw [markLocalRevisionSynced_eq_some hrun]
  dsimp only
  rw [hstate]
  refine ⟨_, rfl, ?_⟩
  split
  · exact ⟨rfl, rfl, rfl⟩
  · exact ⟨rfl, rfl, rfl⟩

theorem state_of_markSynced {operationId : OperationId} {generation : Nat}
    {revisionId : RevisionId} {state' : WorkspaceState}
    (hrun : w.markLocalRevisionSynced operationId generation revisionId =
      some w') (hstate' : w'.state = some state') :
    exists state, w.state = some state := by
  rw [markLocalRevisionSynced_eq_some hrun] at hstate'
  rcases Option.map_eq_some_iff.mp hstate' with ⟨state, hstate, _⟩
  exact ⟨state, hstate⟩

theorem Chained.markSynced (h : w.Chained) (horderly : w.Orderly)
    {revision : LocalRevision} {later : List LocalRevision}
    (haligned : Aligned w (revision :: later)) (hawaits : w.Awaits revision)
    (hrun : w.markLocalRevisionSynced revision.operationId
      (revision.expectedGeneration + 1) revision.revisionId = some w') :
    w'.Chained ∧ SameEnd w w' := by
  have hqueues : (exists rest, w.queued = revision :: rest ∧
        w'.queued = rest) ∨
      (w'.queued = w.queued ∧ forall state, w.state = some state ->
        state.baseGeneration = revision.expectedGeneration + 1 ∧
          state.baseRevisionId = revision.revisionId) := by
    by_cases hmem : revision ∈ w.queued
    · rcases haligned.head hmem with ⟨rest, hrest⟩
      exact .inl ⟨rest, hrest, (horderly.markSynced hrest hrun).2⟩
    · right
      refine ⟨?_, hawaits.resolve_left hmem⟩
      rw [markLocalRevisionSynced_eq_some hrun]
      exact haligned.queued_setSynced_gone hmem
  constructor
  · intro state' hstate'
    rcases state_of_markSynced hrun hstate' with ⟨state, hstate⟩
    rcases markSynced_state hrun hstate with
      ⟨_, hsame, hgeneration, hbase, hhead⟩
    cases hsame.symm.trans hstate'
    have hchain := h state hstate
    rw [hgeneration, hbase, hhead]
    cases hqueues with
    | inl hpopped =>
        rcases hpopped with ⟨rest, hqueued, hrest⟩
        rw [hqueued] at hchain
        rw [hrest, hchain.1.1, hchain.2]
        exact ⟨hchain.1.2.2.2, headOf_cons _ _ _⟩
    | inr hkept =>
        rcases hkept with ⟨hqueued, hat⟩
        rw [hqueued, ← (hat state hstate).1, ← (hat state hstate).2]
        exact hchain
  · intro state hstate
    rcases markSynced_state hrun hstate with
      ⟨state', hstate', hgeneration, _, hhead⟩
    refine ⟨state', hstate', hhead, ?_⟩
    rw [hgeneration]
    cases hqueues with
    | inl hpopped =>
        rcases hpopped with ⟨rest, hqueued, hrest⟩
        have hchain := (h state hstate).1
        rw [hqueued] at hchain
        rw [hqueued, hrest, hchain.1, List.length_cons]
        omega
    | inr hkept => rw [hkept.1, (hkept.2 state hstate).1]

theorem Chained.recordUpload (h : w.Chained) (horderly : w.Orderly)
    {revision : LocalRevision} {later : List LocalRevision}
    (haligned : Aligned w (revision :: later)) (hawaits : w.Awaits revision)
    {outcome : UploadOutcome} (hanswers : Answers revision outcome) :
    (w.recordUpload revision outcome).1.Chained ∧
      SameEnd w (w.recordUpload revision outcome).1 ∧
        (w.recordUpload revision outcome).1.conflict = w.conflict := by
  cases outcome with
  | advanced generation revisionId =>
      cases hanswers
      unfold Workspace.recordUpload
      dsimp only
      split
      · rename_i hmatch
        rw [hmatch.1]
        split
        · exact ⟨h, SameEnd.refl w, rfl⟩
        · rename_i synced hrun
          have hsynced := h.markSynced horderly haligned hawaits hrun
          refine ⟨hsynced.1, hsynced.2, ?_⟩
          rw [markLocalRevisionSynced_eq_some hrun]
          rfl
      · exact ⟨h, SameEnd.refl w, rfl⟩
  | _ => cases hanswers

/-- A revision that the chain awaits is recorded in time. -/
theorem Chained.timely (h : w.Chained) {revision : LocalRevision}
    (hawaits : w.Awaits revision) (outcome : UploadOutcome) :
    w.Timely revision outcome := by
  cases outcome with
  | advanced generation revisionId =>
      intro hempty state hstate
      have hhead := (h state hstate).2
      rw [hempty] at hhead
      cases hawaits with
      | inl hmem =>
          rw [hempty] at hmem
          cases hmem
      | inr hat => exact hhead.trans (hat state hstate).2
  | _ => exact trivial

theorem Chained.safeToResume (h : w.Chained) : w.SafeToResume := by
  intro hempty state hstate
  have hhead := (h state hstate).2
  rw [hempty] at hhead
  exact hhead

theorem Chained.increasing (h : w.Chained) (horderly : w.Orderly) :
    w.queued.Pairwise fun a b =>
      a.expectedGeneration < b.expectedGeneration := by
  cases hstate : w.state with
  | none =>
      rw [horderly.absent hstate]
      exact List.Pairwise.nil
  | some state => exact (h state hstate).1.increasing

end Workspace

/-!
## Passes
-/

/-- The head is the one that a pass has read. -/
def SameHead (w : Workspace) (state : WorkspaceState) : Prop :=
  exists current, w.state = some current ∧
    current.localHeadRevisionId = state.localHeadRevisionId

namespace Capture

/-- What a pass has read of the row, and the revision that it brings. -/
def Reads (w : Workspace) : Capture -> Prop
  | .relocating _ _ _ state => SameHead w state
  | .consulting _ _ state => SameHead w state
  | .resolving _ _ _ => False
  | .basing _ _ state => SameHead w state
  | .enqueueing revision => w.GoesOn revision
  | _ => True

variable (ext : Externals) {w w' : Workspace}

/-- In a growing queue each revision replaces the one before. -/
theorem latest_eq_getLast? {queue : List LocalRevision}
    (h : queue.Pairwise fun a b =>
      a.expectedGeneration < b.expectedGeneration) :
    latest queue = queue.getLast? := by
  have hfrom : forall (queue : List LocalRevision) (best : LocalRevision),
      ((best :: queue).Pairwise fun a b =>
        a.expectedGeneration < b.expectedGeneration) ->
      latest (best :: queue) = (best :: queue).getLast? := by
    intro queue
    induction queue with
    | nil =>
        intro best _
        rfl
    | cons revision rest ih =>
        intro best hgrow
        rcases List.pairwise_cons.mp hgrow with ⟨hbest, hrest⟩
        have hlt := hbest revision List.mem_cons_self
        have hnext : latest (best :: revision :: rest) =
            latest (revision :: rest) := by
          unfold latest
          rw [List.foldl_cons, List.foldl_cons, List.foldl_cons]
          dsimp only
          rw [if_pos (Nat.le_of_lt hlt)]
        rw [hnext, List.getLast?_cons_cons]
        exact ih revision hrest
  cases queue with
  | nil => rfl
  | cons revision rest => exact hfrom rest revision h

theorem savedRevision_eq_some {root : TreeId} {parent : RevisionId}
    {author : AuthorPrincipalId} {operationId : OperationId}
    {generation : Nat} {revision : LocalRevision}
    (h : savedRevision ext root [parent] author operationId parent
      generation = some revision) :
    revision.expectedGeneration = generation ∧
      revision.expectedHeadRevisionId = parent ∧
        revision.parentRevisionIds = [parent] := by
  unfold savedRevision at h
  split at h
  · cases h
  · rename_i built hbuilt
    cases h
    exact ⟨rfl, rfl, (Revision.new_eq_ok hbuilt).2.1⟩

/-- Where the queue that a pass reads is in step with the row that it has
read. -/
def Undisturbed (w : Workspace) : Capture -> Prop
  | .basing _ _ state =>
      (w.queued = [] -> forall current, current ∈ w.state ->
        current.baseGeneration = state.baseGeneration) ∧
      forall other, other ∈ w.queued -> other.expectedGeneration + 1 < 2 ^ 63
  | _ => True

theorem Reads.sameEnd {capture : Capture} (h : capture.Reads w)
    (hsame : Workspace.SameEnd w w') : capture.Reads w' := by
  have hkept : forall state, SameHead w state -> SameHead w' state := by
    intro state hhead
    rcases hhead with ⟨current, hcurrent, hread⟩
    rcases hsame current hcurrent with ⟨current', hcurrent', hlater, _⟩
    exact ⟨current', hcurrent', hlater.trans hread⟩
  cases capture with
  | relocating input root path state => exact hkept state h
  | consulting input root state => exact hkept state h
  | resolving input root conflict => exact h
  | basing input root state => exact hkept state h
  | enqueueing revision => exact Workspace.GoesOn.sameEnd h hsame
  | _ => exact trivial

theorem reads_start (input : CaptureInput) : (start input).Reads w := by
  unfold start
  cases input.scan with
  | _ => exact trivial

theorem reads_saveOrdinary (input : CaptureInput) (root : TreeId)
    {state : WorkspaceState} (h : SameHead w state) :
    (saveOrdinary ext input root state).Reads w := by
  unfold saveOrdinary
  split
  · split
    · exact trivial
    · exact trivial
  · exact h

theorem reads_compare (input : CaptureInput) (root : TreeId)
    {state : WorkspaceState} (h : SameHead w state) :
    (compare ext input root state).Reads w := by
  unfold compare
  split
  · split
    · exact trivial
    · exact trivial
  · split
    · exact h
    · exact reads_saveOrdinary ext input root h

theorem reads_seen (input : CaptureInput) (root : TreeId) (path : Text)
    {state : WorkspaceState} (h : SameHead w state) :
    (seen ext input root path state).Reads w := by
  unfold seen
  split
  · exact reads_compare ext input root h
  · exact h

/-- The save behind a chain goes on from its end. -/
theorem ordinaryRevision_goesOn (hchained : w.Chained) (horderly : w.Orderly)
    {input : CaptureInput} {root : TreeId} {state : WorkspaceState}
    (hhead : SameHead w state)
    (hundisturbed : Undisturbed w (.basing input root state))
    {revision : LocalRevision}
    (h : ordinaryRevision ext input root state w.queuedLocalRevisions =
      some revision) :
    w.GoesOn revision := by
  rcases hhead with ⟨current, hcurrent, hread⟩
  rcases hchained current hcurrent with ⟨hchain, hend⟩
  unfold ordinaryRevision at h
  rw [Workspace.queuedLocalRevisions_eq horderly.increasing,
    latest_eq_getLast? hchain.increasing] at h
  cases hlast : w.queued.getLast? with
  | none =>
      have hempty := List.getLast?_eq_none_iff.mp hlast
      rw [hlast] at h
      rcases savedRevision_eq_some ext h with ⟨hgeneration, hparent, hparents⟩
      constructor
      · rw [hparents, hparent]
      · refine ⟨current, hcurrent, ?_, ?_⟩
        · rw [hparent, hread]
        · rw [hgeneration, hempty,
            ← hundisturbed.1 hempty current hcurrent]
          rfl
  | some last =>
      rw [hlast] at h
      rcases savedRevision_eq_some ext h with ⟨hgeneration, hparent, hparents⟩
      constructor
      · rw [hparents, hparent]
      · refine ⟨current, hcurrent, ?_, ?_⟩
        · rw [hparent, hend]
          unfold headOf
          rw [hlast]
        · have hbound := hundisturbed.2 last (List.mem_of_getLast? hlast)
          have hsucc : saturatingSucc last.expectedGeneration =
              last.expectedGeneration + 1 := by
            unfold saturatingSucc
            omega
          rw [hgeneration, hsucc, hchain.getLast hlast]

/-- A save that goes on from the head comes behind the queue. -/
theorem careful_of_chained (hchained : w.Chained) {capture : Capture}
    (hreads : capture.Reads w) (now : Nat) : capture.Careful w now := by
  cases capture with
  | resuming => exact hchained.safeToResume
  | enqueueing revision =>
      intro other hother
      rcases hreads.position with ⟨state, hstate, _, hgeneration⟩
      have hbounds := (hchained state hstate).1.bounds other hother
      apply Prod.Lex.lt_iff.mpr
      left
      show other.expectedGeneration < revision.expectedGeneration
      rw [hgeneration]
      exact hbounds.2
  | _ => exact trivial

/-- One access of a pass that nothing disturbs. -/
theorem next_chained {localOnly : Bool} (hw : w.Sound localOnly)
    (hchained : w.Chained) (hconflict : w.conflict = none) {capture : Capture}
    (hfits : capture.Fits localOnly) (hreads : capture.Reads w)
    (hundisturbed : capture.Undisturbed w) (now : Nat) :
    (capture.next ext now w).2.Chained ∧
      (capture.next ext now w).2.conflict = none ∧
        (capture.next ext now w).1.Reads (capture.next ext now w).2 := by
  have horderly := hw.orderly
  have hafter : forall result : Workspace -> Option Workspace,
      (forall w', result w = some w' ->
        w'.Chained ∧ w'.conflict = w.conflict) ->
      (w.after result).Chained ∧ (w.after result).conflict = none ∧ True := by
    intro result hresult
    unfold Workspace.after
    cases hrun : result w with
    | none => exact ⟨hchained, hconflict, trivial⟩
    | some w' =>
        rcases hresult w' hrun with ⟨hchain, hsame⟩
        exact ⟨hchain, hsame.trans hconflict, trivial⟩
  cases capture with
  | failing status pendingRename =>
      unfold next
      dsimp only
      split
      · exact ⟨hchained, hconflict, trivial⟩
      · exact ⟨hchained, hconflict, trivial⟩
  | pausing status pendingRename =>
      exact hafter _ fun w' hrun =>
        ⟨hchained.pause hrun, (Workspace.onlyState_pause hrun).2⟩
  | starting input root path =>
      unfold next
      dsimp only
      split
      · exact ⟨hchained, hconflict, trivial⟩
      · rename_i state hstate
        exact ⟨hchained, hconflict,
          reads_seen ext input root path ⟨state, hstate, rfl⟩⟩
  | baselining input root path =>
      unfold next
      dsimp only
      split
      · rename_i based hrun
        exact ⟨hchained.ensure horderly hrun,
          (Workspace.onlyState_ensure hrun).2.trans hconflict, trivial⟩
      · exact ⟨hchained, hconflict, trivial⟩
  | rereading input root path =>
      unfold next
      dsimp only
      split
      · exact ⟨hchained, hconflict, trivial⟩
      · rename_i state hstate
        exact ⟨hchained, hconflict,
          reads_seen ext input root path ⟨state, hstate, rfl⟩⟩
  | relocating input root path state =>
      refine ⟨hchained.setWorkingGeneration path, hconflict, ?_⟩
      apply reads_compare
      rcases hreads with ⟨current, hcurrent, hread⟩
      refine ⟨{ current with workingGenerationPath := path }, ?_, hread⟩
      unfold next Workspace.setWorkspaceWorkingGeneration
      dsimp only
      rw [hcurrent]
      rfl
  | resuming =>
      exact hafter _ fun w' hrun =>
        ⟨hchained.resume hrun, (Workspace.onlyState_resume hrun).2⟩
  | consulting input root state =>
      unfold next
      dsimp only
      rw [hconflict]
      exact ⟨hchained, hconflict, reads_saveOrdinary ext input root hreads⟩
  | resolving input root conflict => cases hreads
  | basing input root state =>
      refine ⟨hchained, hconflict, ?_⟩
      unfold next
      dsimp only
      cases hrevision : ordinaryRevision ext input root state
          w.queuedLocalRevisions with
      | none => exact trivial
      | some revision =>
          exact ordinaryRevision_goesOn ext hchained horderly hreads
            hundisturbed hrevision
  | enqueueing revision =>
      apply hafter
      intro w' hrun
      refine ⟨hchained.enqueue hreads hrun, ?_⟩
      rcases Workspace.enqueueLocalRevision_eq_some hrun with
        ⟨_, _, _, rfl⟩
      rfl
  | committing revision =>
      cases hfits
      have hempty := (hw.unshared rfl).1
      apply hafter
      intro w' hrun
      exact ⟨Workspace.Chained.commit hempty horderly hrun,
        (horderly.commitLocalOnly hempty hrun).2.2⟩
  | ended => exact ⟨hchained, hconflict, trivial⟩

end Capture

/-!
## Undisturbed runs
-/

namespace WorkspaceMachine

/-- Passes and drains, where every answer says the generation behind the
revision. -/
def Offline (m : WorkspaceMachine) : WorkspaceEvent -> Prop
  | .begin _ => True
  | .capture _ _ => True
  | .stop _ => True
  | .list => True
  | .upload index outcome =>
      forall revision, revision ∈ m.drains[index]?.bind List.head? ->
        Workspace.Answers revision outcome
  | _ => False

/-- Passes come one after the other, each reads a queue that is in step with its
row, and answers are recorded while the queue awaits them. -/
def Undisturbed (m : WorkspaceMachine) : WorkspaceEvent -> Prop
  | .begin _ => m.captures = []
  | .capture index _ =>
      forall capture, capture ∈ m.captures[index]? ->
        capture.Undisturbed m.workspace
  | .upload index _ =>
      forall revision, revision ∈ m.drains[index]?.bind List.head? ->
        m.workspace.Awaits revision
  | _ => True

structure Chained (m : WorkspaceMachine) : Prop where
  sound : m.Sound
  chained : m.workspace.Chained
  conflict : m.workspace.conflict = none
  single : m.captures.length ≤ 1
  reads : forall capture, capture ∈ m.captures -> capture.Reads m.workspace

variable (ext : Externals) {m : WorkspaceMachine}

/-- The only pass under way. -/
theorem Chained.alone (h : m.Chained) {index : Nat} {capture : Capture}
    (hcapture : m.captures[index]? = some capture) :
    m.captures = [capture] ∧ index = 0 := by
  have hsingle := h.single
  cases hlist : m.captures with
  | nil =>
      rw [hlist] at hcapture
      cases hcapture
  | cons first rest =>
      rw [hlist] at hcapture hsingle
      cases rest with
      | nil =>
          cases index with
          | zero =>
              cases hcapture
              exact ⟨rfl, rfl⟩
          | succ index => cases hcapture
      | cons second more =>
          rw [List.length_cons, List.length_cons] at hsingle
          omega

theorem Chained.captureNext (h : m.Chained) {index : Nat} {capture : Capture}
    (hcapture : m.captures[index]? = some capture)
    (hundisturbed : capture.Undisturbed m.workspace) (now : Nat) :
    (m.captureNext ext index now).Chained := by
  have hmem := List.mem_of_getElem? hcapture
  have hreads := h.reads capture hmem
  have hsound := h.sound.captureNext ext hcapture
    (Capture.careful_of_chained h.chained hreads now)
  rcases Capture.next_chained ext h.sound.workspace h.chained h.conflict
    (h.sound.captures capture hmem) hreads hundisturbed now with
    ⟨hchained, hconflict, hnext⟩
  rcases h.alone hcapture with ⟨halone, rfl⟩
  unfold WorkspaceMachine.captureNext at hsound ⊢
  rw [hcapture] at hsound ⊢
  constructor
  · exact hsound
  · exact hchained
  · exact hconflict
  · dsimp only
    rw [halone]
    split
    · exact Nat.zero_le _
    · exact Nat.le_refl _
  · dsimp only
    rw [halone]
    intro other hother
    split at hother
    · cases hother
    · rw [List.mem_singleton.mp hother]
      exact hnext

theorem Chained.uploadNext (h : m.Chained) {index : Nat}
    {outcome : UploadOutcome}
    (hanswers : forall revision,
      revision ∈ m.drains[index]?.bind List.head? ->
        Workspace.Answers revision outcome)
    (hawaits : forall revision,
      revision ∈ m.drains[index]?.bind List.head? ->
        m.workspace.Awaits revision) :
    (m.uploadNext index outcome).Chained := by
  have hsound := h.sound.uploadNext fun revision hrevision =>
    h.chained.timely (hawaits revision hrevision) outcome
  unfold WorkspaceMachine.uploadNext at hsound ⊢
  split
  · rename_i revision later hdrain
    rw [hdrain] at hanswers hawaits hsound
    rcases h.chained.recordUpload h.sound.workspace.orderly
      (h.sound.drains _ (List.mem_of_getElem? hdrain))
      (hawaits revision rfl) (hanswers revision rfl) with
      ⟨hchained, hsame, hconflict⟩
    constructor
    · exact hsound
    · exact hchained
    · exact hconflict.trans h.conflict
    · exact h.single
    · intro capture hcapture
      exact (h.reads capture hcapture).sameEnd hsame
  · exact h

/-- What an event keeps that disturbs nothing. -/
theorem Chained.next (h : m.Chained) {event : WorkspaceEvent}
    (hoffline : m.Offline event) (hundisturbed : m.Undisturbed event) :
    (m.next ext event).Chained := by
  cases event with
  | begin input =>
      have hnone : m.captures = [] := hundisturbed
      have hsound := h.sound.next ext
        (show m.Careful (.begin input) from trivial)
      constructor
      · exact hsound
      · exact h.chained
      · exact h.conflict
      · show (m.captures ++ [_]).length ≤ 1
        rw [hnone]
        exact Nat.le_refl _
      · intro capture hcapture
        cases List.mem_append.mp hcapture with
        | inl hold => exact h.reads capture hold
        | inr hnew =>
            rw [List.mem_singleton.mp hnew]
            exact Capture.reads_start _
  | capture index now =>
      show (m.captureNext ext index now).Chained
      cases hcapture : m.captures[index]? with
      | none =>
          unfold WorkspaceMachine.captureNext
          rw [hcapture]
          exact h
      | some capture =>
          exact h.captureNext ext hcapture (hundisturbed capture hcapture) now
  | stop index =>
      constructor
      · exact h.sound.next ext (show m.Careful (.stop index) from trivial)
      · exact h.chained
      · exact h.conflict
      · exact (List.length_eraseIdx_le _ _).trans h.single
      · intro capture hcapture
        exact h.reads capture (List.mem_of_mem_eraseIdx hcapture)
  | list =>
      exact ⟨h.sound.next ext (show m.Careful .list from trivial), h.chained,
        h.conflict, h.single, h.reads⟩
  | upload index outcome => exact h.uploadNext hoffline hundisturbed
  | pause status pendingRename => cases hoffline
  | resume => cases hoffline
  | ensureBaseline baseline => cases hoffline
  | advanceBaseline baseline => cases hoffline
  | rename command baseline => cases hoffline

/-- However many saves are queued and whatever is uploaded in between, the queue
is a chain from the base to the head.  Passes come one after the other, no
revision is recorded as taken between the row and an empty queue that a pass
reads, and none is recorded once the base has gone on. -/
theorem queued_revisions_chain {localOnly : Bool} {w : Workspace}
    (hw : w.Settled) {events : List WorkspaceEvent} {m : WorkspaceMachine}
    (hrun : Run (Guarded (fun m event => m.Offline event ∧ m.Undisturbed event)
      (next ext)) (ofWorkspace localOnly w) events m) :
    (m.workspace.state = none -> m.workspace.queuedLocalRevisions = []) ∧
      forall state, m.workspace.state = some state ->
        ChainFrom state.baseGeneration state.baseRevisionId
            m.workspace.queuedLocalRevisions ∧
          state.localHeadRevisionId =
            headOf state.baseRevisionId m.workspace.queuedLocalRevisions := by
  have hchained : m.Chained := by
    apply hrun.invariant
    · constructor
      · exact Sound.ofWorkspace hw localOnly
      · exact hw.chained
      · exact hw.conflict
      · exact Nat.zero_le _
      · intro capture hcapture
        cases hcapture
    · intro s event t hs hstep
      rcases hstep with ⟨⟨hoffline, hundisturbed⟩, rfl⟩
      exact hs.next ext hoffline hundisturbed
  have horderly := hchained.sound.workspace.orderly
  rw [Workspace.queuedLocalRevisions_eq horderly.increasing]
  exact ⟨horderly.absent, hchained.chained⟩

instance (w : Workspace) : (capture : Capture) ->
    Decidable (capture.Undisturbed w)
  | .basing _ _ state =>
      inferInstanceAs (Decidable ((w.queued = [] -> forall current,
          current ∈ w.state ->
            current.baseGeneration = state.baseGeneration) ∧
        forall other, other ∈ w.queued ->
          other.expectedGeneration + 1 < 2 ^ 63))
  | .failing _ _ => .isTrue trivial
  | .pausing _ _ => .isTrue trivial
  | .starting _ _ _ => .isTrue trivial
  | .baselining _ _ _ => .isTrue trivial
  | .rereading _ _ _ => .isTrue trivial
  | .relocating _ _ _ _ => .isTrue trivial
  | .resuming => .isTrue trivial
  | .consulting _ _ _ => .isTrue trivial
  | .resolving _ _ _ => .isTrue trivial
  | .enqueueing _ => .isTrue trivial
  | .committing _ => .isTrue trivial
  | .ended => .isTrue trivial

instance (revision : LocalRevision) : (outcome : UploadOutcome) ->
    Decidable (Workspace.Answers revision outcome)
  | .advanced generation _ =>
      inferInstanceAs (Decidable (generation = revision.expectedGeneration + 1))
  | .diverged _ _ => .isFalse id
  | .quotaExceeded => .isFalse id
  | .generationConflict => .isFalse id
  | .failed => .isFalse id

instance (w : Workspace) (revision : LocalRevision) :
    Decidable (w.Awaits revision) :=
  inferInstanceAs (Decidable (revision ∈ w.queued ∨ forall state,
    state ∈ w.state ->
      state.baseGeneration = revision.expectedGeneration + 1 ∧
        state.baseRevisionId = revision.revisionId))

instance (m : WorkspaceMachine) : (event : WorkspaceEvent) ->
    Decidable (m.Offline event)
  | .upload index outcome =>
      inferInstanceAs (Decidable (forall revision,
        revision ∈ m.drains[index]?.bind List.head? ->
          Workspace.Answers revision outcome))
  | .begin _ => .isTrue trivial
  | .capture _ _ => .isTrue trivial
  | .stop _ => .isTrue trivial
  | .list => .isTrue trivial
  | .pause _ _ => .isFalse id
  | .resume => .isFalse id
  | .ensureBaseline _ => .isFalse id
  | .advanceBaseline _ => .isFalse id
  | .rename _ _ => .isFalse id

instance (m : WorkspaceMachine) : (event : WorkspaceEvent) ->
    Decidable (m.Undisturbed event)
  | .begin _ => inferInstanceAs (Decidable (m.captures = []))
  | .capture index _ =>
      inferInstanceAs (Decidable (forall capture,
        capture ∈ m.captures[index]? -> capture.Undisturbed m.workspace))
  | .upload index _ =>
      inferInstanceAs (Decidable (forall revision,
        revision ∈ m.drains[index]?.bind List.head? ->
          m.workspace.Awaits revision))
  | .stop _ => .isTrue trivial
  | .list => .isTrue trivial
  | .pause _ _ => .isTrue trivial
  | .resume => .isTrue trivial
  | .ensureBaseline _ => .isTrue trivial
  | .advanceBaseline _ => .isTrue trivial
  | .rename _ _ => .isTrue trivial

end WorkspaceMachine

namespace Sample

/-- A pass that has read the row before the only queued save is uploaded, and
the queue after that. -/
def overtaken : List WorkspaceEvent :=
  saved ++
    [.begin (capture (.scanned ⟨digestOfNat 4⟩ []) 3), .capture 0 0, .list,
      .upload 0 (.advanced 2 savedId), .capture 0 0, .capture 0 0]

end Sample

theorem queued_revisions_chain_twice :
    let twice := Sample.saved ++
      Sample.pass (Sample.capture (.scanned ⟨digestOfNat 4⟩ []) 3) 3 ++
        [.list, .upload 0 (.advanced 2 Sample.savedId)]
    let m := twice.foldl (WorkspaceMachine.next Sample.savingExternals)
      (.ofWorkspace false Sample.emptyWorkspace)
    forall state, m.workspace.state = some state ->
      ChainFrom state.baseGeneration state.baseRevisionId
          m.workspace.queuedLocalRevisions ∧
        state.localHeadRevisionId =
          headOf state.baseRevisionId m.workspace.queuedLocalRevisions := by
  intro twice m
  have hsettled : Sample.emptyWorkspace.Settled :=
    ⟨rfl, rfl, List.nodup_nil, fun _ h => by cases h⟩
  have hrun : Run (Guarded
        (fun m event => m.Offline event ∧ m.Undisturbed event)
        (WorkspaceMachine.next Sample.savingExternals))
      (.ofWorkspace false Sample.emptyWorkspace) twice m :=
    Run.guarded_of_all (by decide +kernel)
  exact (WorkspaceMachine.queued_revisions_chain _ hsettled hrun).2

/-- The save that the pass brings is queued behind a generation that the base
has left. -/
theorem queued_revisions_chain_overtaken :
    ¬forall (localOnly : Bool) (events : List WorkspaceEvent)
        (m : WorkspaceMachine),
      Run (Guarded WorkspaceMachine.Offline
          (WorkspaceMachine.next Sample.savingExternals))
        (.ofWorkspace localOnly Sample.emptyWorkspace) events m ->
      forall state, m.workspace.state = some state ->
        ChainFrom state.baseGeneration state.baseRevisionId
            m.workspace.queuedLocalRevisions ∧
          state.localHeadRevisionId =
            headOf state.baseRevisionId m.workspace.queuedLocalRevisions := by
  intro hclaim
  have hrun : Run (Guarded WorkspaceMachine.Offline
        (WorkspaceMachine.next Sample.savingExternals))
      (.ofWorkspace false Sample.emptyWorkspace) Sample.overtaken _ :=
    Run.guarded_of_all (by decide +kernel)
  have hfacts : forall m, m = Sample.overtaken.foldl
        (WorkspaceMachine.next Sample.savingExternals)
        (.ofWorkspace false Sample.emptyWorkspace) ->
      m.workspace.state.map WorkspaceState.baseGeneration = some 2 ∧
        m.workspace.queuedLocalRevisions.map
          LocalRevision.expectedGeneration = [1] := by
    intro m hm
    rw [hm]
    decide +kernel
  generalize hm : Sample.overtaken.foldl
    (WorkspaceMachine.next Sample.savingExternals)
    (.ofWorkspace false Sample.emptyWorkspace) = m at hrun
  rcases hfacts m hm.symm with ⟨hbase, hqueue⟩
  rcases Option.map_eq_some_iff.mp hbase with ⟨state, hstate, hgeneration⟩
  have hchain := (hclaim false Sample.overtaken m hrun state hstate).1
  cases hlist : m.workspace.queuedLocalRevisions with
  | nil =>
      rw [hlist] at hqueue
      cases hqueue
  | cons revision rest =>
      rw [hlist] at hqueue hchain
      have hrevision : revision.expectedGeneration = 1 :=
        (List.cons.inj hqueue).1
      have hat := hchain.1
      rw [hgeneration, hrevision] at hat
      cases hat

end Denju.Local
