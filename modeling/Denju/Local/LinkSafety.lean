import Denju.Local.Recovery

/-!
# What a canonical link may point to

An observer keeps in mind which generations have been whole since the program
last wrote them.  Every operation of a materialization and of recovery leaves a
link alone or points it to a whole generation, and does so only for a verified
journal.
-/

namespace Denju.Local

open Lib

variable (ext : Externals)
  (published : ResourceId -> RevisionId -> SkillManifest)

/-- The tree of the generation is what the manifest of its revision says. -/
def Matches (s : LocalState) : GenerationPath -> Prop
  | .generation resourceId revisionId =>
      exists name tree,
        s.directories (.generation resourceId revisionId) = some tree ∧
          verifyTree ext name (published resourceId revisionId) tree = .ok ()
  | _ => False

structure Observed where
  store : LocalState
  whole : GenerationPath -> Prop

/-- A generation is whole when it matches, and stays so until the program
touches it.  What the user edits has been whole before. -/
def Observed.after (w : Observed) (t : LocalState) : Observed where
  store := t
  whole path :=
    Matches ext published t path ∨
      (t.directories path = w.store.directories path ∧ w.whole path)

/-- What happens between two operations: the user edits generations in place,
and rows and the clock change. -/
structure Edited (w v : Observed) : Prop where
  skills : v.store.skills = w.store.skills
  journals : v.store.materializations = w.store.materializations
  whole : v.whole = w.whole
  present : forall path, (v.store.directories path).isSome =
    (w.store.directories path).isSome
  stages : forall resourceId operationId,
    v.store.directories (.stage resourceId operationId) =
      w.store.directories (.stage resourceId operationId)

/-- Verified journals are for whole generations. -/
structure JournalsWhole (w : Observed) : Prop where
  keys : (w.store.materializations.map MaterializationJournal.operationId).Nodup
  payloads : forall journal, journal ∈ w.store.materializations ->
    journal.state ≠ .complete ->
      exists desired : DesiredSkillMaterialization,
        journal.payload = desired.payload journal.operationId
  present : forall path, w.whole path ->
    (w.store.directories path).isSome = true
  verified : forall journal, journal ∈ w.store.materializations ->
    journal.state = .verified -> w.whole journal.payload.generationDir

/-- An operation switches a link only for a verified journal and to a whole
generation, and touches no generation that a link points to. -/
structure Proper (w v : Observed) : Prop where
  links : forall path, v.store.skills path ≠ w.store.skills path ->
    exists journal, journal ∈ w.store.materializations ∧
      journal.state = .verified ∧ journal.payload.canonicalPath = path ∧
        v.store.skills path = some (.link journal.payload.generationDir) ∧
          v.whole journal.payload.generationDir
  active : forall path resourceId revisionId tree,
    w.store.skills path = some (.link (.generation resourceId revisionId)) ->
      w.store.directories (.generation resourceId revisionId) = some tree ->
        v.store.directories (.generation resourceId revisionId) = some tree
  journals : JournalsWhole w -> JournalsWhole v

/-- The judgement about the routines of this chapter. -/
abbrev Careful {α : Type} (permits : Observed -> Prop)
    (goal : α -> Observed -> Prop)
    (failed : MaterializationError -> Observed -> Prop)
    (p : LocalRoutine α) (w : Observed) : Prop :=
  p.Safe Observed.store (Observed.after ext published) permits Edited Proper
    goal failed w

section Careful

variable {ext published} {permits : Observed -> Prop} {w v : Observed}
  {t : LocalState}

/-!
## Steps
-/

theorem Observed.whole_after {path : GenerationPath}
    (hsame : t.directories path = w.store.directories path)
    (hwhole : w.whole path) : (w.after ext published t).whole path :=
  .inr ⟨hsame, hwhole⟩

theorem Observed.present_after {path : GenerationPath}
    (h : JournalsWhole w) (hwhole : (w.after ext published t).whole path) :
    (t.directories path).isSome = true := by
  rcases hwhole with hmatches | ⟨hsame, hwhole⟩
  · cases path with
    | generation resourceId revisionId =>
        rcases hmatches with ⟨_, tree, htree, _⟩
        rw [htree]
        rfl
    | stage resourceId operationId => exact hmatches.elim
    | renameStage resourceId operationId => exact hmatches.elim
  · rw [hsame]
    exact h.present path hwhole

/-- The state changes in nothing but stages, rows, objects and leases. -/
structure Calm (s t : LocalState) : Prop where
  skills : t.skills = s.skills
  journals : t.materializations = s.materializations
  generations : forall resourceId revisionId,
    t.directories (.generation resourceId revisionId) =
      s.directories (.generation resourceId revisionId)

theorem Calm.refl (s : LocalState) : Calm s s :=
  ⟨rfl, rfl, fun _ _ => rfl⟩

theorem Calm.setStage (s : LocalState) (resourceId : ResourceId)
    (operationId : OperationId) (tree : Option (List OwnedSkillEntry)) :
    Calm s (s.setDirectory (.stage resourceId operationId) tree) :=
  ⟨rfl, rfl, fun _ _ =>
    LocalState.directories_setDirectory_of_ne GenerationPath.noConfusion⟩

/-- The generation of an open journal is a generation. -/
theorem JournalsWhole.generationDir (h : JournalsWhole w)
    {journal : MaterializationJournal}
    (hjournal : journal ∈ w.store.materializations)
    (hstate : journal.state ≠ .complete) :
    exists resourceId revisionId,
      journal.payload.generationDir = .generation resourceId revisionId := by
  rcases h.payloads journal hjournal hstate with ⟨desired, hpayload⟩
  rw [hpayload]
  exact ⟨desired.resourceId, desired.revisionId, rfl⟩

theorem Calm.proper (h : Calm w.store t) :
    Proper w (w.after ext published t) where
  links path hchanged := absurd (congrFun h.skills path) hchanged
  active path resourceId revisionId tree _ htree := by
    rw [← htree]
    exact h.generations resourceId revisionId
  journals hjournals := by
    constructor
    · show (t.materializations.map _).Nodup
      rw [h.journals]
      exact hjournals.keys
    · intro journal hjournal
      apply hjournals.payloads journal
      rw [← h.journals]
      exact hjournal
    · intro path hwhole
      exact Observed.present_after hjournals hwhole
    · intro journal hjournal hverified
      have hold : journal ∈ w.store.materializations := by
        rw [← h.journals]
        exact hjournal
      rcases hjournals.generationDir hold (by
        rw [hverified]
        exact JournalState.noConfusion) with
        ⟨resourceId, revisionId, hgeneration⟩
      have hwhole := hjournals.verified journal hold hverified
      rw [hgeneration] at hwhole ⊢
      exact .inr ⟨h.generations resourceId revisionId, hwhole⟩

theorem JournalsWhole.stable : Routine.Stable Edited JournalsWhole := by
  intro w v h hedited
  constructor
  · rw [hedited.journals]
    exact h.keys
  · rw [hedited.journals]
    exact h.payloads
  · intro path hwhole
    rw [hedited.whole] at hwhole
    rw [hedited.present]
    exact h.present path hwhole
  · intro journal hjournal hverified
    rw [hedited.journals] at hjournal
    rw [hedited.whole]
    exact h.verified journal hjournal hverified

/-- A change of the journals alone. -/
theorem JournalsWhole.change (h : JournalsWhole w)
    (hdirectories : t.directories = w.store.directories)
    (hkeys : (t.materializations.map MaterializationJournal.operationId).Nodup)
    (hpayloads : forall journal, journal ∈ t.materializations ->
      journal.state ≠ .complete ->
        exists desired : DesiredSkillMaterialization,
          journal.payload = desired.payload journal.operationId)
    (hverified : forall journal, journal ∈ t.materializations ->
      journal.state = .verified -> w.whole journal.payload.generationDir) :
    JournalsWhole (w.after ext published t) where
  keys := hkeys
  payloads := hpayloads
  present _ hwhole := Observed.present_after h hwhole
  verified journal hjournal hstate :=
    .inr ⟨congrFun hdirectories _, hverified journal hjournal hstate⟩

theorem Proper.ofJournals (hskills : t.skills = w.store.skills)
    (hdirectories : t.directories = w.store.directories)
    (hjournals : JournalsWhole w ->
      JournalsWhole (w.after ext published t)) :
    Proper w (w.after ext published t) where
  links path hchanged := absurd (congrFun hskills path) hchanged
  active path resourceId revisionId tree _ htree := by
    show t.directories _ = _
    rw [hdirectories]
    exact htree
  journals := hjournals

/-- A journal moves on without being verified by it. -/
theorem JournalsWhole.move (h : JournalsWhole w) {operationId : OperationId}
    {expected next : JournalState} (hexpected : expected ≠ .complete)
    (hnext : next ≠ .verified) :
    JournalsWhole (w.after ext published
      (w.store.moveJournal operationId expected next)) := by
  apply h.change
  · rfl
  · rw [LocalState.map_moveJournal]
    exact h.keys
  · intro journal hjournal hstate
    rcases LocalState.mem_moveJournal hjournal with
      ⟨hold, _⟩ | ⟨old, hold, hat, rfl⟩
    · exact h.payloads journal hold hstate
    · simp only [LocalState.atState, Bool.and_eq_true, decide_eq_true_eq] at hat
      exact h.payloads old hold (by rw [hat.2]; exact hexpected)
  · intro journal hjournal hstate
    rcases LocalState.mem_moveJournal hjournal with
      ⟨hold, _⟩ | ⟨old, _, _, rfl⟩
    · exact h.verified journal hold hstate
    · exact absurd hstate hnext

/-!
## Rules
-/

/-- An assertion that neither the user nor a look at the state disturbs. -/
structure Held (ext : Externals)
    (published : ResourceId -> RevisionId -> SkillManifest)
    (P : Observed -> Prop) : Prop where
  stable : Routine.Stable Edited P
  same : forall u, P u -> P (u.after ext published u.store)

variable {P : Observed -> Prop}

theorem Held.act (hP : Held ext published P) {α : Type}
    {goal : α -> Observed -> Prop} {fault : MaterializationError}
    {f : LocalState -> Except MaterializationError (α × LocalState)}
    (hgoal : forall value, Routine.Stable Edited (goal value))
    (hok : forall u value t, P u -> permits u -> f u.store = .ok (value, t) ->
      Proper u (u.after ext published t) ∧
        goal value (u.after ext published t)) (hw : P w) :
    Careful ext published permits goal (fun _ => P) (.act fault f) w := by
  apply Routine.Safe.act hP.stable hw hgoal
  · intro _
    exact hP.stable
  · exact hok
  · intro u _ hu _ _
    exact ⟨(Calm.refl u.store).proper, hP.same u hu⟩
  · intro u hu
    exact hu

theorem Held.inspect (hP : Held ext published P) {α : Type}
    {goal : α -> Observed -> Prop} {f : LocalState -> Except MaterializationError α}
    (hgoal : forall value, Routine.Stable Edited (goal value))
    (hok : forall u value, P u -> permits u -> f u.store = .ok value ->
      goal value (u.after ext published u.store)) (hw : P w) :
    Careful ext published permits goal (fun _ => P) (inspect f) w := by
  apply hP.act hgoal _ hw
  intro u value t hu hpermits hanswer
  rcases map_eq_ok.mp hanswer with ⟨found, hfound, hsame⟩
  cases hsame
  exact ⟨(Calm.refl u.store).proper, hok u value hu hpermits hfound⟩

/-- An assertion that no calm step disturbs. -/
structure CalmlyHeld (ext : Externals)
    (published : ResourceId -> RevisionId -> SkillManifest)
    (P : Observed -> Prop) : Prop where
  stable : Routine.Stable Edited P
  calm : forall u t, P u -> Calm u.store t -> P (u.after ext published t)

theorem CalmlyHeld.held (hP : CalmlyHeld ext published P) :
    Held ext published P :=
  ⟨hP.stable, fun u hu => hP.calm u u.store hu (Calm.refl u.store)⟩

theorem CalmlyHeld.act (hP : CalmlyHeld ext published P) {α : Type}
    {fault : MaterializationError}
    {f : LocalState -> Except MaterializationError (α × LocalState)}
    (hcalm : forall s value t, f s = .ok (value, t) -> Calm s t) (hw : P w) :
    Careful ext published permits (fun _ => P) (fun _ => P) (.act fault f) w := by
  apply hP.held.act (fun _ => hP.stable) _ hw
  intro u value t hu _ hanswer
  have hstep := hcalm u.store value t hanswer
  exact ⟨hstep.proper, hP.calm u t hu hstep⟩

theorem CalmlyHeld.inspect (hP : CalmlyHeld ext published P) {α : Type}
    {f : LocalState -> Except MaterializationError α} (hw : P w) :
    Careful ext published permits (fun _ => P) (fun _ => P) (inspect f) w := by
  apply hP.act _ hw
  intro s value t hanswer
  rcases map_eq_ok.mp hanswer with ⟨_, _, hsame⟩
  cases hsame
  exact Calm.refl s

theorem CalmlyHeld.isDir (hP : CalmlyHeld ext published P)
    {path : GenerationPath} (hw : P w) :
    Careful ext published permits
      (fun found u => P u ∧ found = (u.store.directories path).isSome)
      (fun _ _ => True) (isDir path) w := by
  apply Routine.Safe.ask hP.stable hw
  intro u hu _
  have hself := hP.held.same u hu
  refine ⟨(Calm.refl u.store).proper, fun v hv => ?_⟩
  have hfound : (u.store.directories path).isSome =
      (v.store.directories path).isSome := by
    induction hv with
    | refl => rfl
    | tail _ hlast ih => rw [ih, hlast.present]
  exact ⟨hP.stable.others hself hv, hfound⟩

theorem CalmlyHeld.changeTree (hP : CalmlyHeld ext published P)
    {resourceId : ResourceId} {operationId : OperationId}
    {f : Tree -> Except MaterializationError Tree} (hw : P w) :
    Careful ext published permits (fun _ => P) (fun _ => P)
      (changeTree (.stage resourceId operationId) f) w := by
  apply hP.act _ hw
  intro s _ t hchange
  rcases bind_eq_ok.mp hchange with ⟨tree, _, hchange⟩
  cases hchange
  exact Calm.setStage s resourceId operationId _

/-- A directory is removed where no step of the removal matters. -/
theorem Held.removeDirAll (hP : Held ext published P) {root : GenerationPath}
    (hset : forall u tree, P u ->
      Proper u (u.after ext published (u.store.setDirectory root tree)) ∧
        P (u.after ext published (u.store.setDirectory root tree)))
    (hw : P w) :
    Careful ext published permits
      (fun _ u => P u ∧ (u.store.directories root).isSome = false)
      (fun _ => P) (removeDirAll root) w := by
  have hlisting : Careful ext published permits (fun _ => P) (fun _ => P)
      (listing root) w :=
    hP.inspect (fun _ => hP.stable) (fun u _ hu _ _ => hP.same u hu) hw
  apply hlisting.bind
  intro tree u hu
  apply Routine.Safe.bind
  · apply Routine.Safe.each (I := fun _ => P) hu hP.stable
    intro path rest v hv
    unfold removeEntry filesystem
    apply hP.act (fun _ => hP.stable) _ hv
    intro x _ t hx _ hremove
    cases hremove
    exact hset x _ hx
  · intro _ v hv
    have habsent : Routine.Stable Edited fun u =>
        (u.store.directories root).isSome = false := by
      intro x y hx hedited
      show (y.store.directories root).isSome = false
      rw [hedited.present]
      exact hx
    apply hP.act (fun _ => hP.stable.and habsent) _ hv
    intro x _ t hx _ hremove
    rcases bind_eq_ok.mp hremove with ⟨_, _, hremove⟩
    rcases bind_eq_ok.mp hremove with ⟨_, _, hremove⟩
    cases hremove
    refine ⟨(hset x none hx).1, (hset x none hx).2, ?_⟩
    show ((x.store.setDirectory root none).directories root).isSome = false
    rw [LocalState.directories_setDirectory]
    rfl

theorem CalmlyHeld.removeDirAll (hP : CalmlyHeld ext published P)
    {resourceId : ResourceId} {operationId : OperationId} (hw : P w) :
    Careful ext published permits (fun _ => P) (fun _ => P)
      (removeDirAll (.stage resourceId operationId)) w := by
  have hset : forall u tree, P u ->
      Proper u (u.after ext published
          (u.store.setDirectory (.stage resourceId operationId) tree)) ∧
        P (u.after ext published
          (u.store.setDirectory (.stage resourceId operationId) tree)) := by
    intro u tree hu
    have hcalm := Calm.setStage u.store resourceId operationId tree
    exact ⟨hcalm.proper, hP.calm u _ hu hcalm⟩
  apply (hP.held.removeDirAll hset hw).weaken
  · intro _ _ h
    exact h.1
  · intro _ _ h
    exact h

/-!
## Recovery
-/

/-- Recovery still has the journals of a list to look at, and no verified one
outside it. -/
structure Recovering (rest : List MaterializationJournal) (w : Observed) :
    Prop where
  whole : JournalsWhole w
  present : forall journal, journal ∈ rest ->
    journal ∈ w.store.materializations
  covered : forall journal, journal ∈ w.store.materializations ->
    journal.state = .verified -> journal ∈ rest

variable {journal : MaterializationJournal}
  {rest : List MaterializationJournal}

theorem Recovering.stable (rest : List MaterializationJournal) :
    Routine.Stable Edited (Recovering rest) := by
  intro w v h hedited
  constructor
  · exact JournalsWhole.stable w v h.whole hedited
  · rw [hedited.journals]
    exact h.present
  · rw [hedited.journals]
    exact h.covered

theorem Recovering.held (rest : List MaterializationJournal) :
    CalmlyHeld ext published (Recovering rest) where
  stable := Recovering.stable rest
  calm := by
    intro u t h hcalm
    constructor
    · exact hcalm.proper.journals h.whole
    · show forall journal, _ -> journal ∈ t.materializations
      rw [hcalm.journals]
      exact h.present
    · show forall journal, journal ∈ t.materializations -> _
      rw [hcalm.journals]
      exact h.covered

/-- The first journal moves on and is done with. -/
theorem Recovering.move (h : Recovering (journal :: rest) w)
    (hkeys : ((journal :: rest).map MaterializationJournal.operationId).Nodup)
    {expected next : JournalState} (hstate : journal.state = expected)
    (hexpected : expected ≠ .complete) (hnext : next ≠ .verified) :
    Recovering rest (w.after ext published
      (w.store.moveJournal journal.operationId expected next)) where
  whole := h.whole.move hexpected hnext
  present := by
    intro other hother
    have hkey : other.operationId ≠ journal.operationId := by
      intro hsame
      apply (List.nodup_cons.mp hkeys).1
      exact List.mem_map.mpr ⟨other, hother, hsame⟩
    apply (LocalState.mem_moveJournal_iff h.whole.keys
      (h.present journal List.mem_cons_self) hstate).mpr
    exact .inl ⟨h.present other (List.mem_cons_of_mem journal hother), hkey⟩
  covered := by
    intro other hother hverified
    rcases (LocalState.mem_moveJournal_iff h.whole.keys
      (h.present journal List.mem_cons_self) hstate).mp hother with
      ⟨hold, hkey⟩ | rfl
    · rcases List.mem_cons.mp (h.covered other hold hverified) with rfl | hrest
      · exact absurd rfl hkey
      · exact hrest
    · exact absurd hverified hnext

/-- A journal that is not verified can be left out. -/
theorem Recovering.skip (h : Recovering (journal :: rest) w)
    (hstate : journal.state ≠ .verified) : Recovering rest w where
  whole := h.whole
  present other hother :=
    h.present other (List.mem_cons_of_mem journal hother)
  covered := by
    intro other hother hverified
    rcases List.mem_cons.mp (h.covered other hother hverified) with
      rfl | hrest
    · exact absurd hverified hstate
    · exact hrest

theorem JournalsWhole.discard (h : JournalsWhole w) (operationId : OperationId) :
    JournalsWhole (w.after ext published
      (w.store.discardMaterializationJournal operationId)) := by
  have hold : forall journal, journal ∈
      (w.store.discardMaterializationJournal operationId).materializations ->
        journal ∈ w.store.materializations :=
    fun journal hjournal => (mem_deleteWhere.mp hjournal).1
  apply h.change
  · rfl
  · exact h.keys.sublist (List.filter_sublist.map _)
  · intro journal hjournal
    exact h.payloads journal (hold journal hjournal)
  · intro journal hjournal
    exact h.verified journal (hold journal hjournal)

/-- The first journal is forgotten. -/
theorem Recovering.discard (h : Recovering (journal :: rest) w)
    (hkey : journal.operationId ∉
      rest.map MaterializationJournal.operationId)
    (hstate : journal.state = .planned ∨ journal.state = .staged) :
    Recovering rest (w.after ext published
      (w.store.discardMaterializationJournal journal.operationId)) where
  whole := h.whole.discard journal.operationId
  present := by
    intro other hother
    have hne : other.operationId ≠ journal.operationId := by
      intro hsame
      exact hkey (List.mem_map.mpr ⟨other, hother, hsame⟩)
    apply mem_deleteWhere.mpr
    exact ⟨h.present other (List.mem_cons_of_mem journal hother), by simp [hne]⟩
  covered := by
    intro other hother hverified
    apply (h.skip _).covered other (mem_deleteWhere.mp hother).1 hverified
    rcases hstate with hplanned | hstaged
    · rw [hplanned]
      exact JournalState.noConfusion
    · rw [hstaged]
      exact JournalState.noConfusion

/-- A journal that the list is done with is completed. -/
theorem Recovering.complete (h : Recovering rest w) {operationId : OperationId}
    (hkeys : operationId ∉ rest.map MaterializationJournal.operationId) :
    Recovering rest (w.after ext published
      (w.store.moveJournal operationId .switched .complete)) where
  whole := h.whole.move JournalState.noConfusion JournalState.noConfusion
  present := by
    intro other hother
    have hkey : other.operationId ≠ operationId := by
      intro hsame
      exact hkeys (List.mem_map.mpr ⟨other, hother, hsame⟩)
    apply mem_updateWhere.mpr
    exact ⟨other, h.present other hother, by simp [LocalState.atState, hkey]⟩
  covered := by
    intro other hother hverified
    rcases LocalState.mem_moveJournal hother with
      ⟨hold, _⟩ | ⟨old, _, _, rfl⟩
    · exact h.covered other hold hverified
    · cases hverified

theorem careful_advance {Q : Observed -> Prop}
    (hP : Held ext published P) (hQ : Routine.Stable Edited Q)
    {operationId : OperationId} {expected next : JournalState}
    (hjournals : forall u, P u -> JournalsWhole u ->
      JournalsWhole (u.after ext published
        (u.store.moveJournal operationId expected next)))
    (hgoal : forall u, P u ->
      u.store.materializations.any
          (LocalState.atState operationId expected) = true ->
        Q (u.after ext published
          (u.store.moveJournal operationId expected next))) (hw : P w) :
    Careful ext published permits (fun _ => Q) (fun _ => P)
      (advance operationId expected next) w := by
  apply hP.act (fun _ => hQ) _ hw
  intro u _ t hu _ hadvance
  rcases LocalState.updateMaterializationJournal_eq_ok.mp
    (mapError_eq_ok.mp hadvance) with ⟨_, hany, rfl⟩
  exact ⟨Proper.ofJournals rfl rfl (hjournals u hu), hgoal u hu hany⟩

theorem careful_markMaterialized (hP : CalmlyHeld ext published P)
    {resourceId : ResourceId} {revisionId : RevisionId} (hw : P w) :
    Careful ext published permits (fun _ => P) (fun _ => P)
      (markMaterialized resourceId revisionId) w := by
  apply hP.act _ hw
  intro s _ t hmark
  rcases LocalState.markSkillMaterialized_eq_ok.mp (mapError_eq_ok.mp hmark)
    with ⟨_, rfl⟩
  exact ⟨rfl, rfl, fun _ _ => rfl⟩

/-- The link of a verified journal is switched to its generation, which is
whole. -/
theorem careful_renameLink {target : GenerationPath} {path : SkillPath}
    (hP : CalmlyHeld ext published P)
    (hlink : forall u, P u -> JournalsWhole u ∧
      exists journal, journal ∈ u.store.materializations ∧
        journal.state = .verified ∧ journal.payload.canonicalPath = path ∧
          journal.payload.generationDir = target)
    (hgoal : forall u, P u -> P (u.after ext published
      (u.store.setSkill path (some (.link target))))) (hw : P w) :
    Careful ext published permits (fun _ => P) (fun _ => P)
      (renameLink target path) w := by
  apply hP.held.act (fun _ => hP.stable) _ hw
  intro u _ t hu _ hrename
  rcases bind_eq_ok.mp hrename with ⟨_, _, hrename⟩
  cases hrename
  rcases hlink u hu with ⟨hwhole, found, hfound, hverified, rfl, rfl⟩
  refine ⟨⟨?_, ?_, ?_⟩, hgoal u hu⟩
  · intro other hchanged
    by_cases hsame : other = found.payload.canonicalPath
    · refine ⟨found, hfound, hverified, hsame.symm, ?_, ?_⟩
      · show (u.store.setSkill _ _).skills other = _
        rw [hsame, LocalState.skills_setSkill]
      · exact .inr ⟨rfl, hwhole.verified found hfound hverified⟩
    · exact absurd (LocalState.skills_setSkill_of_ne hsame) hchanged
  · intro _ _ _ tree _ htree
    exact htree
  · intro hjournals
    exact hjournals.change rfl hjournals.keys hjournals.payloads
      hjournals.verified

theorem Recovering.setLink (h : Recovering rest w) {path : SkillPath}
    {target : GenerationPath} :
    Recovering rest (w.after ext published
      (w.store.setSkill path (some (.link target)))) :=
  ⟨h.whole.change rfl h.whole.keys h.whole.payloads h.whole.verified,
    h.present, h.covered⟩

/-- Recovery is careful with every journal it comes to. -/
theorem careful_recoverMaterialization
    (hkeys : ((journal :: rest).map MaterializationJournal.operationId).Nodup)
    (hincomplete : journal.state ≠ .complete)
    (hw : Recovering (journal :: rest) w) :
    Careful ext published permits (fun _ => Recovering rest) (fun _ _ => True)
      (recoverMaterialization journal) w := by
  have hheld : CalmlyHeld ext published (Recovering (journal :: rest)) :=
    Recovering.held (journal :: rest)
  have hrest : CalmlyHeld ext published (Recovering rest) :=
    Recovering.held rest
  have hkey := (List.nodup_cons.mp hkeys).1
  rcases hw.whole.payloads journal (hw.present journal List.mem_cons_self)
    hincomplete with ⟨desired, hpayload⟩
  have hfinish : forall u, Recovering rest u ->
      Careful ext published permits (fun _ => Recovering rest) (fun _ _ => True)
        (do
          markMaterialized journal.payload.resourceId journal.payload.revisionId
          advance journal.operationId .switched .complete) u := by
    intro u hu
    apply (careful_markMaterialized hrest hu).forget.bind
    intro _ v hv
    apply (careful_advance hrest.held hrest.stable _ _ hv).forget
    · intro x _ hwhole
      exact hwhole.move JournalState.noConfusion JournalState.noConfusion
    · intro x hx _
      exact hx.complete hkey
  have hdiscard : (journal.state = .planned ∨ journal.state = .staged) ->
      Careful ext published permits (fun _ => Recovering rest) (fun _ _ => True)
        (do
          (removeDirAll journal.payload.stageDir).ignore
          transaction fun s =>
            .ok ((), s.discardMaterializationJournal journal.operationId)) w := by
    intro hstate
    rw [hpayload]
    apply (Routine.Safe.ignore hheld.stable (hheld.removeDirAll hw)).bind
    intro _ u hu
    apply Routine.Safe.forget
    apply hheld.held.act (fun _ => hrest.stable) _ hu
    intro v _ t hv _ hdiscard
    cases hdiscard
    constructor
    · apply Proper.ofJournals
      · rfl
      · rfl
      · intro hwhole
        exact hwhole.discard journal.operationId
    · exact hv.discard hkey hstate
  cases hstate : journal.state with
  | planned =>
      have hsafe := hdiscard (.inl hstate)
      unfold recoverMaterialization
      rw [hstate]
      exact hsafe
  | staged =>
      have hsafe := hdiscard (.inr hstate)
      unfold recoverMaterialization
      rw [hstate]
      exact hsafe
  | verified =>
      unfold recoverMaterialization
      rw [hstate]
      apply (hheld.isDir hw).bind
      intro found u hu
      cases found with
      | false => exact Routine.Safe.fail (fun _ _ _ _ => trivial) trivial
      | true =>
          have hswitched : Careful ext published permits
              (fun _ => Recovering (journal :: rest)) (fun _ _ => True)
              (atomicSwitchDirectoryLink journal.payload.generationDir
                journal.payload.canonicalPath) u := by
            apply (hheld.inspect hu.1).forget.bind
            intro _ v hv
            apply (careful_renameLink hheld _ _ hv).forget
            · intro x hx
              exact ⟨hx.whole, journal, hx.present journal List.mem_cons_self,
                hstate, rfl, rfl⟩
            · intro x hx
              exact hx.setLink
          apply hswitched.bind
          intro _ v hv
          apply (careful_advance hheld.held hrest.stable _ _ hv).forget.bind
          · intro _ x hx
            exact hfinish x hx
          · intro x _ hwhole
            exact hwhole.move JournalState.noConfusion JournalState.noConfusion
          · intro x hx _
            exact hx.move hkeys hstate JournalState.noConfusion
              JournalState.noConfusion
  | switched =>
      unfold recoverMaterialization
      rw [hstate]
      apply (hheld.inspect hw).forget.bind
      intro _ u hu
      apply hfinish
      apply hu.skip
      rw [hstate]
      exact JournalState.noConfusion
  | complete => exact absurd hstate hincomplete

theorem JournalsWhole.held : CalmlyHeld ext published JournalsWhole :=
  ⟨JournalsWhole.stable, fun _ _ hu hcalm => hcalm.proper.journals hu⟩

/-- What holds before each round of recovery. -/
structure Rounds (rest : List MaterializationJournal) (w : Observed) :
    Prop where
  recovering : Recovering rest w
  keys : (rest.map MaterializationJournal.operationId).Nodup
  incomplete : forall journal, journal ∈ rest -> journal.state ≠ .complete

theorem Rounds.stable (rest : List MaterializationJournal) :
    Routine.Stable Edited (Rounds rest) := by
  intro w v h hedited
  exact ⟨Recovering.stable rest w v h.recovering hedited, h.keys, h.incomplete⟩

theorem JournalsWhole.rounds (h : JournalsWhole w) :
    Rounds w.store.materializationJournals w where
  recovering := by
    constructor
    · exact h
    · intro journal hjournal
      exact (LocalState.mem_materializationJournals.mp hjournal).1
    · intro journal hjournal hverified
      apply LocalState.mem_materializationJournals.mpr
      refine ⟨hjournal, ?_⟩
      rw [hverified]
      exact JournalState.noConfusion
  keys := LocalState.nodup_materializationJournals h.keys
  incomplete journal hjournal :=
    (LocalState.mem_materializationJournals.mp hjournal).2

/-- Recovery leaves no verified journal behind. -/
theorem careful_recoverMaterializations (hw : JournalsWhole w) :
    Careful ext published permits (fun _ => Recovering []) (fun _ _ => True)
      recoverMaterializations w := by
  have hread : Careful ext published permits Rounds (fun _ => JournalsWhole)
      (transaction fun s => .ok (s.materializationJournals, s)) w := by
    apply JournalsWhole.held.held.act _ _ hw
    · exact Rounds.stable
    · intro u journals t hu _ hread
      cases hread
      constructor
      · exact (Calm.refl u.store).proper
      · exact (JournalsWhole.held.held.same u hu).rounds
  apply hread.forget.bind
  intro journals u hu
  have hloop : Careful ext published permits (fun _ => Rounds [])
      (fun _ _ => True) (Routine.each recoverMaterialization journals) u := by
    apply Routine.Safe.each hu
    · exact Rounds.stable []
    · intro journal rest v hv
      apply (careful_recoverMaterialization hv.keys
        (hv.incomplete journal List.mem_cons_self) hv.recovering).weaken
      · intro _ x hx
        refine ⟨hx, (List.nodup_cons.mp hv.keys).2, ?_⟩
        intro other hother
        exact hv.incomplete other (List.mem_cons_of_mem journal hother)
      · intro _ _ _
        trivial
  apply hloop.weaken
  · intro _ _ h
    exact h.recovering
  · intro _ _ _
    trivial

end Careful

end Denju.Local
