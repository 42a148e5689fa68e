import Denju.Local.Materialize

/-!
# Recovery of materializations

Recovery goes through the journals in the order of their creation.  It can
finish a journal that has been verified while the generation is there, the
canonical path is free or a link, and some active row wants the revision.
-/

namespace Denju.Local

open Lib

variable {ext : Externals} {s t : LocalState}

/-- Recovery has to finish the journal, and may not forget it. -/
def MaterializationJournal.isPast (journal : MaterializationJournal) : Bool :=
  journal.state = .verified || journal.state = .switched

theorem MaterializationJournal.isPast_eq_true
    {journal : MaterializationJournal} :
    journal.isPast = true <->
      journal.state = .verified ∨ journal.state = .switched := by
  simp [isPast]

theorem MaterializationJournal.incomplete_of_isPast
    {journal : MaterializationJournal} (h : journal.isPast = true) :
    journal.state ≠ .complete := by
  intro hstate
  simp [isPast, hstate] at h

/-!
## States from which recovery succeeds
-/

/-- What recovery needs of a journal that has been verified. -/
structure JournalSound (s : LocalState) (journal : MaterializationJournal) :
    Prop where
  present : (s.directories journal.payload.generationDir).isSome = true
  wanted : s.wants journal.payload.resourceId journal.payload.revisionId = true
  managed : s.skills journal.payload.canonicalPath ≠ some .unmanaged
  switched : journal.state = .switched ->
    s.skills journal.payload.canonicalPath =
      some (.link journal.payload.generationDir)
  agrees : forall other, other ∈ s.materializations -> other.isPast = true ->
    other.payload.canonicalPath = journal.payload.canonicalPath ->
      other.payload.generationDir = journal.payload.generationDir

structure Recoverable (s : LocalState) : Prop where
  keys : (s.materializations.map MaterializationJournal.operationId).Nodup
  payloads : forall journal, journal ∈ s.materializations ->
    journal.state ≠ .complete ->
      exists desired : DesiredSkillMaterialization,
        journal.payload = desired.payload journal.operationId
  sound : forall journal, journal ∈ s.materializations ->
    journal.isPast = true -> JournalSound s journal

/-- A change that adds no verified journal, keeps the links, and keeps what the
verified journals need. -/
theorem Recoverable.mono (h : Recoverable s)
    (hkeys : (t.materializations.map MaterializationJournal.operationId).Nodup)
    (hpayloads : forall journal, journal ∈ t.materializations ->
      journal.state ≠ .complete ->
        exists desired : DesiredSkillMaterialization,
          journal.payload = desired.payload journal.operationId)
    (hpast : forall journal, journal ∈ t.materializations ->
      journal.isPast = true -> journal ∈ s.materializations)
    (hpresent : forall journal, journal ∈ t.materializations ->
      journal.isPast = true ->
        (s.directories journal.payload.generationDir).isSome = true ->
          (t.directories journal.payload.generationDir).isSome = true)
    (hwants : forall journal, journal ∈ t.materializations ->
      journal.isPast = true ->
        t.wants journal.payload.resourceId journal.payload.revisionId = true)
    (hskills : t.skills = s.skills) : Recoverable t where
  keys := hkeys
  payloads := hpayloads
  sound := by
    intro journal hjournal hstate
    have hsound := h.sound journal (hpast journal hjournal hstate) hstate
    constructor
    · exact hpresent journal hjournal hstate hsound.present
    · exact hwants journal hjournal hstate
    · rw [hskills]
      exact hsound.managed
    · rw [hskills]
      exact hsound.switched
    · intro other hother hothers hpath
      exact hsound.agrees other (hpast other hother hothers) hothers hpath

/-- The generation of a journal is no stage. -/
theorem Recoverable.generationDir_ne (h : Recoverable s)
    {journal : MaterializationJournal} (hjournal : journal ∈ s.materializations)
    (hpast : journal.isPast = true)
    {resourceId : ResourceId} {operationId : OperationId} :
    journal.payload.generationDir ≠ .stage resourceId operationId := by
  rcases h.payloads journal hjournal
    (MaterializationJournal.incomplete_of_isPast hpast) with
    ⟨desired, hpayload⟩
  rw [hpayload]
  exact GenerationPath.noConfusion

theorem Recoverable.setStage (h : Recoverable s) {resourceId : ResourceId}
    {operationId : OperationId} {tree : Option (List OwnedSkillEntry)} :
    Recoverable (s.setDirectory (.stage resourceId operationId) tree) := by
  apply h.mono
  · exact h.keys
  · exact h.payloads
  · intro journal hjournal _
    exact hjournal
  · intro journal hjournal hpast hpresent
    rw [LocalState.directories_setDirectory_of_ne
      (h.generationDir_ne hjournal hpast)]
    exact hpresent
  · intro journal hjournal hpast
    exact (h.sound journal hjournal hpast).wanted
  · rfl

theorem Recoverable.stamp (h : Recoverable s) {resourceId : ResourceId}
    {revisionId : RevisionId} :
    Recoverable (s.stamp resourceId revisionId) := by
  apply h.mono
  · exact h.keys
  · exact h.payloads
  · intro journal hjournal _
    exact hjournal
  · intro journal _ _ hpresent
    exact hpresent
  · intro journal hjournal hpast
    rw [LocalState.wants_stamp]
    exact (h.sound journal hjournal hpast).wanted
  · rfl

theorem Recoverable.discard (h : Recoverable s) {operationId : OperationId} :
    Recoverable (s.discardMaterializationJournal operationId) := by
  have hsubset : forall journal,
      journal ∈ (s.discardMaterializationJournal operationId).materializations ->
        journal ∈ s.materializations := by
    intro journal hjournal
    exact (mem_deleteWhere.mp hjournal).1
  apply h.mono
  · exact h.keys.sublist (List.filter_sublist.map _)
  · intro journal hjournal
    exact h.payloads journal (hsubset journal hjournal)
  · intro journal hjournal _
    exact hsubset journal hjournal
  · intro journal _ _ hpresent
    exact hpresent
  · intro journal hjournal hpast
    exact (h.sound journal (hsubset journal hjournal) hpast).wanted
  · rfl

/-- A path may be switched to the generation that all its journals are for. -/
theorem Recoverable.setLink (h : Recoverable s) {path : SkillPath}
    {target : GenerationPath}
    (hpath : forall journal, journal ∈ s.materializations ->
      journal.isPast = true -> journal.payload.canonicalPath = path ->
        journal.payload.generationDir = target) :
    Recoverable (s.setSkill path (some (.link target))) where
  keys := h.keys
  payloads := h.payloads
  sound := by
    intro journal hjournal hpast
    have hsound := h.sound journal hjournal hpast
    have hskills : forall other, other ≠ path ->
        (s.setSkill path (some (.link target))).skills other = s.skills other :=
      fun other hother => LocalState.skills_setSkill_of_ne hother
    have hself : (s.setSkill path (some (.link target))).skills path =
        some (.link target) :=
      LocalState.skills_setSkill
    refine ⟨hsound.present, hsound.wanted, ?_, ?_, hsound.agrees⟩
    · by_cases hsame : journal.payload.canonicalPath = path
      · rw [hsame, hself]
        exact fun hlink => nomatch hlink
      · rw [hskills _ hsame]
        exact hsound.managed
    · intro hstate
      by_cases hsame : journal.payload.canonicalPath = path
      · rw [hsame, hself, hpath journal hjournal hpast hsame]
      · rw [hskills _ hsame]
        exact hsound.switched hstate

/-!
## Moving a journal
-/

section Move

variable {operationId : OperationId} {expected next : JournalState}

theorem Recoverable.moveJournal_payloads (h : Recoverable s)
    (hexpected : expected ≠ .complete) :
    forall journal,
      journal ∈ (s.moveJournal operationId expected next).materializations ->
        journal.state ≠ .complete ->
          exists desired : DesiredSkillMaterialization,
            journal.payload = desired.payload journal.operationId := by
  intro journal hjournal hincomplete
  rcases LocalState.mem_moveJournal hjournal with
    ⟨hold, _⟩ | ⟨old, hold, hstate, rfl⟩
  · exact h.payloads journal hold hincomplete
  · simp only [LocalState.atState, Bool.and_eq_true, decide_eq_true_eq]
      at hstate
    exact h.payloads old hold (by rw [hstate.2]; exact hexpected)

/-- A journal that is not verified by the move. -/
theorem Recoverable.moveBack (h : Recoverable s)
    (hexpected : expected ≠ .complete)
    (hnext : next = .staged ∨ next = .complete) :
    Recoverable (s.moveJournal operationId expected next) := by
  have hpast : forall journal,
      journal ∈ (s.moveJournal operationId expected next).materializations ->
        journal.isPast = true -> journal ∈ s.materializations := by
    intro journal hjournal hstate
    rcases LocalState.mem_moveJournal hjournal with
      ⟨hold, _⟩ | ⟨old, _, _, rfl⟩
    · exact hold
    · rcases hnext with rfl | rfl
      · cases hstate
      · cases hstate
  apply h.mono
  · rw [LocalState.map_moveJournal]
    exact h.keys
  · exact h.moveJournal_payloads hexpected
  · exact hpast
  · intro journal _ _ hpresent
    exact hpresent
  · intro journal hjournal hstate
    exact (h.sound journal (hpast journal hjournal hstate) hstate).wanted
  · rfl

/-- A journal may be verified when its path is for no other generation. -/
theorem Recoverable.verify (h : Recoverable s)
    (hwants : forall journal, journal ∈ s.materializations ->
      journal.operationId = operationId -> journal.state = .staged ->
        s.wants journal.payload.resourceId journal.payload.revisionId = true)
    {payload : MaterializationJournalPayload}
    (hpayload : forall journal, journal ∈ s.materializations ->
      journal.operationId = operationId -> journal.payload = payload)
    (hpresent : (s.directories payload.generationDir).isSome = true)
    (hmanaged : s.skills payload.canonicalPath ≠ some .unmanaged)
    (hagrees : forall journal, journal ∈ s.materializations ->
      journal.isPast = true ->
        journal.payload.canonicalPath = payload.canonicalPath ->
          journal.payload.generationDir = payload.generationDir) :
    Recoverable (s.moveJournal operationId .staged .verified) where
  keys := by
    rw [LocalState.map_moveJournal]
    exact h.keys
  payloads := h.moveJournal_payloads JournalState.noConfusion
  sound := by
    have hcase : forall journal,
        journal ∈ (s.moveJournal operationId .staged .verified).materializations ->
          journal.isPast = true ->
            (journal ∈ s.materializations ∧ journal.isPast = true) ∨
              (journal.payload = payload ∧ journal.state = .verified ∧
                s.wants payload.resourceId payload.revisionId = true) := by
      intro journal hjournal hpast
      rcases LocalState.mem_moveJournal hjournal with
        ⟨hold, _⟩ | ⟨old, hold, hstate, rfl⟩
      · exact .inl ⟨hold, hpast⟩
      · simp only [LocalState.atState, Bool.and_eq_true, decide_eq_true_eq]
          at hstate
        have hsame := hpayload old hold hstate.1
        have hold := hwants old hold hstate.1 hstate.2
        rw [hsame] at hold
        exact .inr ⟨hsame, rfl, hold⟩
    intro journal hjournal hpast
    have hothers : forall other,
        other ∈ (s.moveJournal operationId .staged .verified).materializations ->
          other.isPast = true ->
            other.payload.canonicalPath = payload.canonicalPath ->
              other.payload.generationDir = payload.generationDir := by
      intro other hother hstate hpath
      rcases hcase other hother hstate with ⟨hold, hold'⟩ | ⟨hsame, _, _⟩
      · exact hagrees other hold hold' hpath
      · rw [hsame]
    rcases hcase journal hjournal hpast with ⟨hold, hold'⟩ | ⟨hsame, hstate, hwanted⟩
    · have hsound := h.sound journal hold hold'
      refine ⟨hsound.present, hsound.wanted, hsound.managed, hsound.switched, ?_⟩
      intro other hother hstate hpath
      rcases hcase other hother hstate with ⟨hold₁, hold₂⟩ | ⟨hsame, _, _⟩
      · exact hsound.agrees other hold₁ hold₂ hpath
      · rw [hsame] at hpath ⊢
        exact (hagrees journal hold hold' hpath.symm).symm
    · rw [← hsame] at hpresent hmanaged hwanted hothers
      refine ⟨hpresent, hwanted, hmanaged, ?_, hothers⟩
      intro hswitched
      rw [hstate] at hswitched
      cases hswitched

/-- A verified journal may be switched when its link is. -/
theorem Recoverable.switch (h : Recoverable s)
    (hlink : forall journal, journal ∈ s.materializations ->
      journal.operationId = operationId -> journal.state = .verified ->
        s.skills journal.payload.canonicalPath =
          some (.link journal.payload.generationDir)) :
    Recoverable (s.moveJournal operationId .verified .switched) where
  keys := by
    rw [LocalState.map_moveJournal]
    exact h.keys
  payloads := h.moveJournal_payloads JournalState.noConfusion
  sound := by
    have hcase : forall journal,
        journal ∈ (s.moveJournal operationId .verified .switched).materializations ->
          journal.isPast = true ->
            exists old, old ∈ s.materializations ∧ old.isPast = true ∧
              journal.payload = old.payload ∧
                (journal.state = .switched ->
                  s.skills old.payload.canonicalPath =
                    some (.link old.payload.generationDir)) := by
      intro journal hjournal hpast
      rcases LocalState.mem_moveJournal hjournal with
        ⟨hold, _⟩ | ⟨old, hold, hstate, rfl⟩
      · exact ⟨journal, hold, hpast, rfl, (h.sound journal hold hpast).switched⟩
      · simp only [LocalState.atState, Bool.and_eq_true, decide_eq_true_eq]
          at hstate
        have hpastOld : old.isPast = true :=
          MaterializationJournal.isPast_eq_true.mpr (.inl hstate.2)
        exact ⟨old, hold, hpastOld, rfl, fun _ => hlink old hold hstate.1 hstate.2⟩
    intro journal hjournal hpast
    rcases hcase journal hjournal hpast with ⟨old, hold, hpastOld, hsame, hswitched⟩
    have hsound := h.sound old hold hpastOld
    rw [← hsame] at hswitched
    constructor
    · rw [hsame]
      exact hsound.present
    · rw [hsame]
      exact hsound.wanted
    · rw [hsame]
      exact hsound.managed
    · exact hswitched
    · intro other hother hstate hpath
      rcases hcase other hother hstate with ⟨oldOther, holdOther, hpastOther, hsameOther, _⟩
      rw [hsame, hsameOther] at hpath ⊢
      exact hsound.agrees oldOther holdOther hpastOther hpath

end Move

/-!
## One round of recovery
-/

theorem LocalState.setDirectory_self (s : LocalState) (root : GenerationPath) :
    s.setDirectory root (s.directories root) = s := by
  unfold LocalState.setDirectory
  rw [Function.update_eq_self]

@[simp] theorem LocalState.setDirectory_setDirectory (s : LocalState)
    (root : GenerationPath) (tree tree' : Option (List OwnedSkillEntry)) :
    (s.setDirectory root tree).setDirectory root tree' =
      s.setDirectory root tree' := by
  unfold LocalState.setDirectory
  rw [Function.update_idem]

/-- The states differ in no more than the contents of one directory. -/
def OnlyAt (root : GenerationPath) (s t : LocalState) : Prop :=
  exists tree, t = s.setDirectory root tree

theorem OnlyAt.refl (root : GenerationPath) (s : LocalState) :
    OnlyAt root s s :=
  ⟨s.directories root, (s.setDirectory_self root).symm⟩

theorem OnlyAt.setDirectory {root : GenerationPath} (h : OnlyAt root s t)
    (tree : Option (List OwnedSkillEntry)) :
    OnlyAt root s (t.setDirectory root tree) := by
  rcases h with ⟨left, rfl⟩
  exact ⟨tree, s.setDirectory_setDirectory root left tree⟩

/-- A removal, finished or not, touches nothing but its directory. -/
theorem run_removeDirAll (root : GenerationPath) (s : LocalState) :
    OnlyAt root s ((removeDirAll root).run s).2 := by
  apply Routine.keeps_bind
  · unfold listing
    rw [run_inspect]
    exact OnlyAt.refl root s
  · intro tree t ht
    apply Routine.keeps_bind
    · apply Routine.keeps_each ht
      intro path _ u hu
      exact hu.setDirectory _
    · intro _ u hu
      apply Routine.keeps_act hu
      intro _ v hremove
      rcases bind_eq_ok.mp hremove with ⟨_, _, hremove⟩
      rcases bind_eq_ok.mp hremove with ⟨_, _, hremove⟩
      cases hremove
      exact hu.setDirectory none

/-- The journals that recovery has still to look at. -/
structure Remaining (rest : List MaterializationJournal) (s : LocalState) :
    Prop where
  recoverable : Recoverable s
  keys : (rest.map MaterializationJournal.operationId).Nodup
  present : forall journal, journal ∈ rest -> journal ∈ s.materializations
  incomplete : forall journal, journal ∈ s.materializations ->
    journal.state ≠ .complete -> journal ∈ rest

section Round

variable {journal : MaterializationJournal}
  {rest : List MaterializationJournal}

/-- A round that is done with the first journal and keeps the others. -/
theorem Remaining.next (h : Remaining (journal :: rest) s) (ht : Recoverable t)
    (hkept : forall other, other ∈ s.materializations ->
      other.operationId ≠ journal.operationId -> other ∈ t.materializations)
    (hleft : forall other, other ∈ t.materializations ->
      other.state ≠ .complete ->
        other ∈ s.materializations ∧
          other.operationId ≠ journal.operationId) :
    Remaining rest t where
  recoverable := ht
  keys := (List.nodup_cons.mp h.keys).2
  present := by
    intro other hother
    apply hkept other (h.present other (List.mem_cons_of_mem journal hother))
    intro hkey
    apply (List.nodup_cons.mp h.keys).1
    exact List.mem_map.mpr ⟨other, hother, hkey⟩
  incomplete := by
    intro other hother hstate
    rcases hleft other hother hstate with ⟨hold, hkey⟩
    rcases List.mem_cons.mp (h.incomplete other hold hstate) with rfl | hrest
    · exact absurd rfl hkey
    · exact hrest

theorem run_atomicSwitchDirectoryLink {path : SkillPath}
    {target : GenerationPath} (h : s.skills path ≠ some .unmanaged) :
    (atomicSwitchDirectoryLink target path).run s =
      (.ok (), s.setSkill path (some (.link target))) := by
  have hcheck : (refuseUnmanaged path).run s = (.ok (), s) := by
    unfold refuseUnmanaged
    rw [run_inspect, ensure_eq_ok.mpr (by simp [h])]
  have hrename : (renameLink target path).run s =
      (.ok (), s.setSkill path (some (.link target))) := by
    apply run_filesystem
    simp [h, ensure, bind, Except.bind, pure, Except.pure]
  unfold atomicSwitchDirectoryLink
  rw [Routine.run_bind_ok hcheck, hrename]

theorem run_advance {operationId : OperationId} {expected next : JournalState}
    (hnext : expected.next = some next)
    (h : s.materializations.any
      (LocalState.atState operationId expected) = true) :
    (advance operationId expected next).run s =
      (.ok (), s.moveJournal operationId expected next) := by
  apply run_transaction
  exact LocalState.updateMaterializationJournal_eq_ok.mpr ⟨hnext, h, rfl⟩

theorem run_markMaterialized {resourceId : ResourceId}
    {revisionId : RevisionId} (h : s.wants resourceId revisionId = true) :
    (markMaterialized resourceId revisionId).run s =
      (.ok (), s.stamp resourceId revisionId) := by
  apply run_transaction
  exact LocalState.markSkillMaterialized_eq_ok.mpr ⟨h, rfl⟩

theorem any_atState (h : journal ∈ s.materializations) :
    s.materializations.any
      (LocalState.atState journal.operationId journal.state) = true := by
  apply List.any_eq_true.mpr
  exact ⟨journal, h, by simp [LocalState.atState]⟩

/-- From the switched state on, only rows and journals change. -/
theorem run_stampAndComplete (h : Recoverable s)
    (hjournal : journal ∈ s.materializations)
    (hstate : journal.state = .switched) :
    exists t, (do
        markMaterialized journal.payload.resourceId journal.payload.revisionId
        advance journal.operationId .switched .complete).run s = (.ok (), t) ∧
      Recoverable t ∧
      forall other, other ∈ t.materializations <->
        (other ∈ s.materializations ∧
            other.operationId ≠ journal.operationId) ∨
          other = { journal with state := .complete } := by
  have hpast : journal.isPast = true :=
    MaterializationJournal.isPast_eq_true.mpr (.inr hstate)
  have hwanted := (h.sound journal hjournal hpast).wanted
  have hstamped : Recoverable
      (s.stamp journal.payload.resourceId journal.payload.revisionId) := h.stamp
  have hany := any_atState hjournal
  rw [hstate] at hany
  have hmoved : Recoverable
      ((s.stamp journal.payload.resourceId
        journal.payload.revisionId).moveJournal journal.operationId .switched
          .complete) :=
    hstamped.moveBack JournalState.noConfusion (.inr rfl)
  refine ⟨_, ?_, hmoved, ?_⟩
  · rw [Routine.run_bind_ok (run_markMaterialized hwanted)]
    exact run_advance rfl hany
  · intro other
    exact LocalState.mem_moveJournal_iff hstamped.keys hjournal hstate

/-- A verified journal is finished. -/
theorem run_finishMaterialization (h : Recoverable s)
    (hjournal : journal ∈ s.materializations)
    (hstate : journal.state = .verified) :
    exists t, (finishMaterialization journal.operationId journal.payload).run s =
        (.ok (), t) ∧
      Recoverable t ∧
      forall other, other ∈ t.materializations <->
        (other ∈ s.materializations ∧
            other.operationId ≠ journal.operationId) ∨
          other = { journal with state := .complete } := by
  have hpast : journal.isPast = true :=
    MaterializationJournal.isPast_eq_true.mpr (.inl hstate)
  have hsound := h.sound journal hjournal hpast
  let linked := s.setSkill journal.payload.canonicalPath
    (some (.link journal.payload.generationDir))
  have hlinked : Recoverable linked := h.setLink hsound.agrees
  have hlink : linked.skills journal.payload.canonicalPath =
      some (.link journal.payload.generationDir) :=
    LocalState.skills_setSkill
  let switched := linked.moveJournal journal.operationId .verified .switched
  let current : MaterializationJournal := { journal with state := .switched }
  have hswitched : Recoverable switched := by
    apply hlinked.switch
    intro other hother hkey _
    rw [List.inj_on_of_nodup_map h.keys hother hjournal hkey]
    exact hlink
  have hmem : forall other, other ∈ switched.materializations <->
      (other ∈ s.materializations ∧
          other.operationId ≠ journal.operationId) ∨ other = current :=
    fun other => LocalState.mem_moveJournal_iff h.keys hjournal hstate
  have hcurrent : current ∈ switched.materializations :=
    (hmem current).mpr (.inr rfl)
  have hany := any_atState hjournal
  rw [hstate] at hany
  rcases run_stampAndComplete hswitched hcurrent rfl with
    ⟨t, hrun, hrecoverable, hiff⟩
  refine ⟨t, ?_, hrecoverable, ?_⟩
  · unfold finishMaterialization
    rw [Routine.run_bind_ok (run_atomicSwitchDirectoryLink hsound.managed)]
    have hadvance : (advance journal.operationId .verified .switched).run
        linked = (.ok (), switched) :=
      run_advance rfl hany
    rw [Routine.run_bind_ok hadvance]
    exact hrun
  · intro other
    rw [hiff other, hmem other]
    constructor
    · rintro (⟨hold | rfl, hkey⟩ | hdone)
      · exact .inl hold
      · exact absurd rfl hkey
      · exact .inr hdone
    · rintro (hold | hdone)
      · exact .inl ⟨.inl hold, hold.2⟩
      · exact .inr hdone

/-- Recovery is done with every journal it comes to. -/
theorem run_recoverMaterialization
    (h : Remaining (journal :: rest) s) (hincomplete : journal.state ≠ .complete) :
    exists t, (recoverMaterialization journal).run s = (.ok (), t) ∧
      Remaining rest t := by
  have hjournal : journal ∈ s.materializations :=
    h.present journal List.mem_cons_self
  have hself : forall other, other ∈ s.materializations ->
      other.operationId = journal.operationId -> other = journal :=
    fun other hother hkey =>
      List.inj_on_of_nodup_map h.recoverable.keys hother hjournal hkey
  have hcompleted : forall t : LocalState, Recoverable t ->
      (forall other, other ∈ t.materializations <->
        (other ∈ s.materializations ∧
            other.operationId ≠ journal.operationId) ∨
          other = { journal with state := .complete }) ->
        Remaining rest t := by
    intro t hrecoverable hiff
    apply h.next hrecoverable
    · intro other hother hkey
      exact (hiff other).mpr (.inl ⟨hother, hkey⟩)
    · intro other hother hstate
      rcases (hiff other).mp hother with hold | rfl
      · exact hold
      · exact absurd rfl hstate
  have hdiscarded : (journal.state = .planned ∨ journal.state = .staged) ->
      exists t, (do
          (removeDirAll journal.payload.stageDir).ignore
          transaction fun s =>
            .ok ((), s.discardMaterializationJournal journal.operationId)).run s =
          (.ok (), t) ∧ Remaining rest t := by
    intro hstate
    rcases h.recoverable.payloads journal hjournal hincomplete with
      ⟨desired, hpayload⟩
    have hremoved := run_removeDirAll journal.payload.stageDir s
    rw [hpayload] at hremoved ⊢
    rcases hremoved with ⟨tree, htree⟩
    let removed := s.setDirectory (desired.stageDir journal.operationId) tree
    have hremove : (removeDirAll
        (desired.payload journal.operationId).stageDir).ignore.run s =
          (.ok (), removed) := by
      rw [run_ignore, htree]
      rfl
    refine ⟨removed.discardMaterializationJournal journal.operationId, ?_, ?_⟩
    · rw [Routine.run_bind_ok hremove]
      exact run_transaction rfl
    · apply h.next h.recoverable.setStage.discard
      · intro other hother hkey
        apply mem_deleteWhere.mpr
        exact ⟨hother, by simp [hkey]⟩
      · intro other hother _
        rcases mem_deleteWhere.mp hother with ⟨hold, hkept⟩
        refine ⟨hold, fun hkey => ?_⟩
        rw [hself other hold hkey] at hkept
        rcases hstate with hplanned | hstaged
        · simp [hplanned] at hkept
        · simp [hstaged] at hkept
  cases hstate : journal.state with
  | planned =>
      have hrun := hdiscarded (.inl hstate)
      unfold recoverMaterialization
      rw [hstate]
      exact hrun
  | staged =>
      have hrun := hdiscarded (.inr hstate)
      unfold recoverMaterialization
      rw [hstate]
      exact hrun
  | verified =>
      have hpast : journal.isPast = true :=
        MaterializationJournal.isPast_eq_true.mpr (.inl hstate)
      have hpresent := (h.recoverable.sound journal hjournal hpast).present
      rcases run_finishMaterialization h.recoverable hjournal hstate with
        ⟨t, hrun, hrecoverable, hiff⟩
      refine ⟨t, ?_, hcompleted t hrecoverable hiff⟩
      unfold recoverMaterialization
      rw [hstate]
      simp only
      rw [Routine.run_bind_ok run_isDir, hpresent]
      exact hrun
  | switched =>
      have hpast : journal.isPast = true :=
        MaterializationJournal.isPast_eq_true.mpr (.inr hstate)
      have hsound := h.recoverable.sound journal hjournal hpast
      have hcheck : (checkSwitched journal.payload).run s = (.ok (), s) := by
        unfold checkSwitched
        rw [run_inspect]
        simp [hsound.switched hstate, hsound.present, ensure, bind,
          Except.bind]
      rcases run_stampAndComplete h.recoverable hjournal hstate with
        ⟨t, hrun, hrecoverable, hiff⟩
      refine ⟨t, ?_, hcompleted t hrecoverable hiff⟩
      unfold recoverMaterialization
      rw [hstate]
      simp only
      rw [Routine.run_bind_ok hcheck]
      exact hrun
  | complete => exact absurd hstate hincomplete

end Round

/-!
## The whole recovery
-/

theorem run_recoverEach {journals : List MaterializationJournal}
    (h : Remaining journals s)
    (hincomplete : forall journal, journal ∈ journals ->
      journal.state ≠ .complete) :
    exists t, (Routine.each recoverMaterialization journals).run s =
        (.ok (), t) ∧ Remaining [] t := by
  induction journals generalizing s with
  | nil => exact ⟨s, rfl, h⟩
  | cons journal rest ih =>
      rcases run_recoverMaterialization h
        (hincomplete journal List.mem_cons_self) with ⟨t, hround, ht⟩
      rcases ih ht fun other hother =>
        hincomplete other (List.mem_cons_of_mem journal hother) with
        ⟨u, hrest, hu⟩
      refine ⟨u, ?_, hu⟩
      show (recoverMaterialization journal >>= fun _ =>
        Routine.each recoverMaterialization rest).run s = _
      rw [Routine.run_bind_ok hround]
      exact hrest

theorem LocalState.mem_materializationJournals
    {journal : MaterializationJournal} :
    journal ∈ s.materializationJournals <->
      journal ∈ s.materializations ∧ journal.state ≠ .complete := by
  unfold LocalState.materializationJournals
  rw [mem_sortByKey]
  simp

theorem LocalState.nodup_materializationJournals
    (h : (s.materializations.map MaterializationJournal.operationId).Nodup) :
    (s.materializationJournals.map
      MaterializationJournal.operationId).Nodup := by
  have hsorted := (sortByKey_perm MaterializationJournal.createdAt
    (s.materializations.filter fun row => row.state ≠ .complete)).map
      MaterializationJournal.operationId
  apply hsorted.nodup_iff.mpr
  exact h.sublist (List.filter_sublist.map _)

/-- From a recoverable state recovery succeeds and leaves no journal open. -/
theorem Recoverable.recover (h : Recoverable s) :
    exists t, recoverMaterializations.run s = (.ok (), t) ∧
      t.materializationJournals = [] := by
  have hkeys := LocalState.nodup_materializationJournals h.keys
  have hremaining : Remaining s.materializationJournals s := by
    refine ⟨h, hkeys, ?_, ?_⟩
    · intro journal hjournal
      exact (LocalState.mem_materializationJournals.mp hjournal).1
    · intro journal hjournal hstate
      exact LocalState.mem_materializationJournals.mpr ⟨hjournal, hstate⟩
  rcases run_recoverEach hremaining fun journal hjournal =>
    (LocalState.mem_materializationJournals.mp hjournal).2 with ⟨t, hrun, ht⟩
  refine ⟨t, ?_, ?_⟩
  · unfold recoverMaterializations
    have hread : (transaction fun s =>
        .ok (s.materializationJournals, s)).run s =
          (.ok s.materializationJournals, s) :=
      run_transaction rfl
    rw [Routine.run_bind_ok hread]
    exact hrun
  · apply List.eq_nil_iff_forall_not_mem.mpr
    intro journal hjournal
    rcases LocalState.mem_materializationJournals.mp hjournal with
      ⟨hmem, hstate⟩
    exact List.not_mem_nil (ht.incomplete journal hmem hstate)

end Denju.Local
