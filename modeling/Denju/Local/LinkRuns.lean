import Denju.Local.LinkSafety
import Denju.Local.RecoveryRuns

/-!
# Sessions of materializations

A session runs materializations and recoveries one after the other, and stops
them anywhere.  In between the user edits generations in place.
-/

namespace Denju.Local

open Lib

section Materialization

variable {ext : Externals}
  {published : ResourceId -> RevisionId -> SkillManifest}
  {desired : DesiredSkillMaterialization} {operationId : OperationId}
  {state : JournalState} {w v : Observed} {t : LocalState}

/-!
## What a materialization knows
-/

/-- While nothing is written yet, a generation that is not what the manifest
says, and that the path of the materialization does not lead to, has no other
link that leads to it. -/
def Untangled (ext : Externals) (desired : DesiredSkillMaterialization)
    (operationId : OperationId) (s : LocalState) : Prop :=
  forall journal, journal ∈ s.materializations ->
    journal.operationId = operationId -> journal.state = .planned ->
      forall tree, s.directories desired.generationDir = some tree ->
        verifyTree ext desired.skillName desired.manifest tree =
            .error .manifestMismatch ->
          s.skills desired.canonicalPath ≠ some (.link desired.generationDir) ->
            forall path, s.skills path ≠ some (.link desired.generationDir)

/-- The journal of the operation is the only one that may be verified. -/
structure Working (desired : DesiredSkillMaterialization)
    (operationId : OperationId) (state : JournalState) (w : Observed) :
    Prop where
  whole : JournalsWhole w
  own : exists journal, journal ∈ w.store.materializations ∧
    journal.operationId = operationId ∧ journal.state = state ∧
      journal.payload = desired.payload operationId
  others : forall journal, journal ∈ w.store.materializations ->
    journal.state = .verified -> journal.operationId = operationId

theorem Working.stable :
    Routine.Stable Edited (Working desired operationId state) := by
  intro w v h hedited
  constructor
  · exact JournalsWhole.stable w v h.whole hedited
  · rw [hedited.journals]
    exact h.own
  · rw [hedited.journals]
    exact h.others

theorem Working.held :
    CalmlyHeld ext published (Working desired operationId state) where
  stable := Working.stable
  calm := by
    intro u t h hcalm
    constructor
    · exact hcalm.proper.journals h.whole
    · show exists journal, journal ∈ t.materializations ∧ _
      rw [hcalm.journals]
      exact h.own
    · show forall journal, journal ∈ t.materializations -> _
      rw [hcalm.journals]
      exact h.others

/-- Before its journal is verified, no journal is. -/
theorem Working.unverified (h : Working desired operationId state w)
    (hstate : state ≠ .verified) {journal : MaterializationJournal}
    (hjournal : journal ∈ w.store.materializations) :
    journal.state ≠ .verified := by
  intro hverified
  rcases h.own with ⟨own, hown, hkey, hat, _⟩
  have hsame : journal = own :=
    List.inj_on_of_nodup_map h.whole.keys hjournal hown
      ((h.others journal hjournal hverified).trans hkey.symm)
  rw [hsame, hat] at hverified
  exact hstate hverified

/-- The journal moves on. -/
theorem Working.move (h : Working desired operationId state w)
    {next : JournalState}
    (hwhole : next = .verified -> w.whole desired.generationDir) :
    Working desired operationId next (w.after ext published
      (w.store.moveJournal operationId state next)) := by
  rcases h.own with ⟨own, hown, rfl, hat, hpayload⟩
  have hmem : forall {journal : MaterializationJournal},
      journal ∈ (w.store.moveJournal own.operationId state
          next).materializations <->
        (journal ∈ w.store.materializations ∧
            journal.operationId ≠ own.operationId) ∨
          journal = { own with state := next } :=
    fun {_} => LocalState.mem_moveJournal_iff h.whole.keys hown hat
  have hother : forall journal, journal ∈ w.store.materializations ->
      journal.operationId ≠ own.operationId -> journal.state ≠ .verified :=
    fun journal hjournal hkey hverified =>
      hkey (h.others journal hjournal hverified)
  constructor
  · apply h.whole.change
    · rfl
    · rw [LocalState.map_moveJournal]
      exact h.whole.keys
    · intro journal hjournal hincomplete
      rcases hmem.mp hjournal with ⟨hold, _⟩ | rfl
      · exact h.whole.payloads journal hold hincomplete
      · exact ⟨desired, hpayload⟩
    · intro journal hjournal hverified
      rcases hmem.mp hjournal with ⟨hold, hkey⟩ | rfl
      · exact absurd hverified (hother journal hold hkey)
      · rw [hpayload]
        exact hwhole hverified
  · exact ⟨_, hmem.mpr (.inr rfl), rfl, rfl, hpayload⟩
  · intro journal hjournal hverified
    rcases hmem.mp hjournal with ⟨hold, hkey⟩ | rfl
    · exact absurd hverified (hother journal hold hkey)
    · rfl

/-- What is known of the generation, once it has been looked at. -/
def Cached (desired : DesiredSkillMaterialization) (ready : Bool)
    (w : Observed) : Prop :=
  if ready then
    w.whole desired.generationDir
  else
    (w.store.directories desired.generationDir).isSome = false

theorem Cached.stable {ready : Bool} :
    Routine.Stable Edited (Cached desired ready) := by
  intro w v h hedited
  unfold Cached at h ⊢
  rw [hedited.whole, hedited.present]
  exact h

theorem Cached.calm {ready : Bool} (h : Cached desired ready w)
    (hsame : t.directories desired.generationDir =
      w.store.directories desired.generationDir) :
    Cached desired ready (w.after ext published t) := by
  cases ready with
  | true => exact Observed.whole_after hsame h
  | false =>
      show (t.directories desired.generationDir).isSome = false
      rw [hsame]
      exact h

theorem Cached.held {ready : Bool} :
    CalmlyHeld ext published fun u =>
      Working desired operationId state u ∧ Cached desired ready u where
  stable := Working.stable.and Cached.stable
  calm := by
    intro u t h hcalm
    have hworking : CalmlyHeld ext published
        (Working desired operationId state) := Working.held
    exact ⟨hworking.calm u t h.1 hcalm, h.2.calm (hcalm.generations _ _)⟩

/-!
## Looking at the generation
-/

variable {permits : Observed -> Prop}

/-- The generation is there, and the path of the materialization leads to it, or
no link does. -/
def Apart (desired : DesiredSkillMaterialization) (w : Observed) : Prop :=
  (w.store.directories desired.generationDir).isSome = true ∧
    (w.store.skills desired.canonicalPath = some (.link desired.generationDir) ∨
      forall path, w.store.skills path ≠ some (.link desired.generationDir))

theorem Apart.stable : Routine.Stable Edited (Apart desired) := by
  intro w v h hedited
  unfold Apart
  rw [hedited.skills, hedited.present]
  exact h

/-- A generation that has been verified is whole. -/
theorem whole_of_verified
    (hmanifest : desired.manifest =
      published desired.resourceId desired.revisionId) {tree : Tree}
    (htree : t.directories desired.generationDir = some tree)
    (hverifies : verifyTree ext desired.skillName desired.manifest tree =
      .ok ()) :
    (w.after ext published t).whole desired.generationDir := by
  rw [hmanifest] at hverifies
  exact .inl ⟨desired.skillName, tree, htree, hverifies⟩

/-- What the verification of the generation has found out. -/
def Verified (desired : DesiredSkillMaterialization) :
    Except MaterializationError Unit -> Observed -> Prop
  | .ok (), w => Cached desired true w
  | .error error, w => error = .manifestMismatch -> Apart desired w

theorem Verified.stable {outcome : Except MaterializationError Unit} :
    Routine.Stable Edited (Verified desired outcome) := by
  intro w v h hedited
  cases outcome with
  | ok value => exact Cached.stable w v h hedited
  | error error =>
      intro hmismatch
      exact Apart.stable w v (h hmismatch) hedited

theorem careful_verifyGeneration
    (hmanifest : desired.manifest =
      published desired.resourceId desired.revisionId)
    (hw : Working desired operationId .planned w) :
    Careful ext published (fun u => Untangled ext desired operationId u.store)
      (fun value u => Working desired operationId .planned u ∧
        Verified desired (.ok value) u)
      (fun error u => Working desired operationId .planned u ∧
        Verified desired (.error error) u)
      (verifyGeneration ext desired.generationDir desired.skillName
        desired.manifest) w := by
  have hworking : CalmlyHeld ext published
      (Working desired operationId .planned) := Working.held
  apply Routine.Safe.act Working.stable hw
  · intro value
    exact Working.stable.and Verified.stable
  · intro error
    exact Working.stable.and Verified.stable
  · intro u _ t hu _ hverify
    rcases map_eq_ok.mp hverify with ⟨_, hverifies, hsame⟩
    cases hsame
    rcases bind_eq_ok.mp hverifies with ⟨tree, htree, hverifies⟩
    refine ⟨(Calm.refl u.store).proper, hworking.held.same u hu, ?_⟩
    exact whole_of_verified hmanifest (okOr_eq_ok.mp htree) hverifies
  · intro u error hu huntangled hverify
    refine ⟨(Calm.refl u.store).proper, hworking.held.same u hu, ?_⟩
    intro hmismatch
    rcases hu.own with ⟨own, hown, hkey, hat, _⟩
    have hfailed := map_eq_error.mp hverify
    dsimp only at hfailed
    cases htree : u.store.directories desired.generationDir with
    | none =>
        rw [htree, hmismatch] at hfailed
        cases hfailed
    | some tree =>
        rw [htree, hmismatch] at hfailed
        constructor
        · exact Option.isSome_of_mem htree
        · by_cases hlink : u.store.skills desired.canonicalPath =
              some (.link desired.generationDir)
          · exact .inl hlink
          · exact .inr (huntangled own hown hkey hat tree htree hfailed hlink)
  · intro u hu
    exact ⟨hu, fun hmismatch => nomatch hmismatch⟩

/-- A dirty generation is left alone when the path of the materialization leads
to it. -/
theorem careful_canonicalTargetsGeneration
    (hw : Working desired operationId .planned w)
    (hapart : Apart desired w) :
    Careful ext published permits
      (fun targets u => Working desired operationId .planned u ∧
        (targets = false -> forall path,
          u.store.skills path ≠ some (.link desired.generationDir)))
      (fun _ _ => True)
      (canonicalTargetsGeneration desired.canonicalPath desired.generationDir)
      w := by
  have hP : Held ext published fun u =>
      Working desired operationId .planned u ∧ Apart desired u := by
    constructor
    · exact Working.stable.and Apart.stable
    · intro u h
      exact ⟨Working.held.held.same u h.1, h.2⟩
  apply (hP.inspect _ _ ⟨hw, hapart⟩).forget
  · intro targets u v h hedited
    refine ⟨Working.stable u v h.1 hedited, ?_⟩
    rw [hedited.skills]
    exact h.2
  · intro u targets hu _ htargets
    refine ⟨Working.held.held.same u hu.1, fun hfalse => ?_⟩
    rcases hu.2.2 with hlink | hnone
    · have hpresent := hu.2.1
      simp only [hlink, hpresent, if_true, ensure, decide_true] at htargets
      cases htargets
      cases hfalse
    · exact hnone

/-- A generation that no link leads to can be changed while no journal is
verified. -/
theorem Working.setGeneration (h : Working desired operationId .planned w)
    (hnone : forall path,
      w.store.skills path ≠ some (.link desired.generationDir))
    (tree : Option Tree) :
    Proper w (w.after ext published
        (w.store.setDirectory desired.generationDir tree)) ∧
      Working desired operationId .planned (w.after ext published
        (w.store.setDirectory desired.generationDir tree)) := by
  have hjournals : JournalsWhole (w.after ext published
      (w.store.setDirectory desired.generationDir tree)) := by
    constructor
    · exact h.whole.keys
    · exact h.whole.payloads
    · intro path hwhole
      exact Observed.present_after h.whole hwhole
    · intro journal hjournal hverified
      exact absurd hverified (h.unverified JournalState.noConfusion hjournal)
  constructor
  · constructor
    · intro path hchanged
      exact absurd rfl hchanged
    · intro path resourceId revisionId old hlink hold
      have hother : GenerationPath.generation resourceId revisionId ≠
          desired.generationDir := by
        intro hsame
        rw [hsame] at hlink
        exact hnone path hlink
      show (w.store.setDirectory _ tree).directories _ = some old
      rw [LocalState.directories_setDirectory_of_ne hother]
      exact hold
    · exact fun _ => hjournals
  · exact ⟨hjournals, h.own, h.others⟩

theorem careful_removeGeneration
    (hw : Working desired operationId .planned w)
    (hnone : forall path,
      w.store.skills path ≠ some (.link desired.generationDir)) :
    Careful ext published permits
      (fun _ u => Working desired operationId .planned u ∧
        Cached desired false u)
      (fun _ _ => True) (removeDirAll desired.generationDir) w := by
  have hP : Held ext published fun u => Working desired operationId .planned u ∧
      forall path, u.store.skills path ≠ some (.link desired.generationDir) := by
    constructor
    · intro u v h hedited
      rw [hedited.skills]
      exact ⟨Working.stable u v h.1 hedited, h.2⟩
    · intro u h
      exact ⟨Working.held.held.same u h.1, h.2⟩
  apply (hP.removeDirAll _ ⟨hw, hnone⟩).weaken
  · intro _ u h
    exact ⟨h.1.1, h.2⟩
  · intro _ _ _
    trivial
  · intro u tree h
    rcases h.1.setGeneration h.2 tree with ⟨hproper, hset⟩
    exact ⟨hproper, hset, h.2⟩

theorem careful_generationReady
    (hmanifest : desired.manifest =
      published desired.resourceId desired.revisionId)
    (hw : Working desired operationId .planned w) :
    Careful ext published (fun u => Untangled ext desired operationId u.store)
      (fun ready u => Working desired operationId .planned u ∧
        Cached desired ready u)
      (fun _ _ => True) (generationReady ext desired) w := by
  have hworking : CalmlyHeld ext published
      (Working desired operationId .planned) := Working.held
  apply (hworking.isDir hw).bind
  intro found u hu
  cases found with
  | false =>
      exact Routine.Safe.pure (Working.stable.and Cached.stable)
        ⟨hu.1, hu.2.symm⟩
  | true =>
      apply Routine.Safe.bind (careful_verifyGeneration hmanifest hu.1).attempt
      intro outcome v hv
      cases outcome with
      | ok value =>
          exact Routine.Safe.pure (Working.stable.and Cached.stable) hv
      | error error =>
          have hfail : Careful ext published
              (fun u => Untangled ext desired operationId u.store)
              (fun ready u => Working desired operationId .planned u ∧
                Cached desired ready u)
              (fun _ _ => True) (.fail error : LocalRoutine Bool) v :=
            Routine.Safe.fail (fun _ _ _ _ => trivial) trivial
          cases error with
          | manifestMismatch =>
              apply Routine.Safe.bind
                (careful_canonicalTargetsGeneration hv.1 (hv.2 rfl))
              intro targets x hx
              cases targets with
              | true => exact Routine.Safe.fail (fun _ _ _ _ => trivial) trivial
              | false =>
                  apply Routine.Safe.bind
                    (careful_removeGeneration hx.1 (hx.2 rfl))
                  intro _ y hy
                  exact Routine.Safe.pure (Working.stable.and Cached.stable) hy
          | snapshot source => exact hfail
          | database source => exact hfail
          | io message => exact hfail
          | corrupt message subject => exact hfail
          | busy resourceId => exact hfail
          | refuseOverwrite path => exact hfail

/-!
## Writing to the stage
-/

variable {P : Observed -> Prop}

theorem CalmlyHeld.storeCasBlob (hP : CalmlyHeld ext published P) {bytes : Bytes}
    (hw : P w) :
    Careful ext published permits (fun _ => P) (fun _ => P)
      (storeCasBlob ext bytes) w := by
  apply hP.act _ hw
  intro s blob t hstore
  dsimp only at hstore
  split at hstore
  · split at hstore
    · cases hstore
      exact Calm.refl s
    · cases hstore
  · cases hstore
    exact ⟨rfl, rfl, fun _ _ => rfl⟩

theorem CalmlyHeld.copyObject (hP : CalmlyHeld ext published P)
    {resourceId : ResourceId} {path : Text} {blob : BlobId} (hw : P w) :
    Careful ext published permits (fun _ => P) (fun _ => P)
      (copyObject (.stage resourceId operationId) path blob) w := by
  apply hP.act _ hw
  intro s _ t hcopy
  rcases bind_eq_ok.mp hcopy with ⟨bytes, _, hcopy⟩
  rcases bind_eq_ok.mp hcopy with ⟨tree, _, hcopy⟩
  cases hcopy
  exact Calm.setStage s resourceId operationId (some tree)

theorem CalmlyHeld.writeEntry (hP : CalmlyHeld ext published P)
    {resourceId : ResourceId} {entry : OwnedSkillEntry} (hw : P w) :
    Careful ext published permits (fun _ => P) (fun _ => P)
      (writeEntry ext (.stage resourceId operationId) entry) w := by
  cases entry with
  | file path bytes executable =>
      apply (hP.storeCasBlob hw).bind
      intro blob u hu
      apply Routine.Safe.bind (hP.changeTree hu)
      intro _ v hv
      apply (hP.copyObject hv).bind
      intro _ x hx
      exact hP.changeTree hx
  | directory path => exact Routine.Safe.pure hP.stable hw
  | symlink path target =>
      apply Routine.Safe.bind (hP.changeTree hw)
      intro _ u hu
      exact hP.changeTree hu

/-- Writing changes the stage and the objects only. -/
theorem CalmlyHeld.writeGeneration (hP : CalmlyHeld ext published P)
    {resourceId : ResourceId} {entries : List OwnedSkillEntry} (hw : P w) :
    Careful ext published permits (fun _ => P) (fun _ => P)
      (writeGeneration ext (.stage resourceId operationId) entries) w := by
  apply Routine.Safe.bind (hP.changeTree hw)
  intro _ u hu
  apply Routine.Safe.bind
  · apply Routine.Safe.each (I := fun _ => P) hu hP.stable
    intro path rest v hv
    exact hP.changeTree hv
  · intro _ v hv
    apply Routine.Safe.each (I := fun _ => P) hv hP.stable
    intro entry rest x hx
    exact hP.writeEntry hx

theorem CalmlyHeld.writeStage (hP : CalmlyHeld ext published P)
    {entries : List OwnedSkillEntry} {ready : Bool} (hw : P w) :
    Careful ext published permits (fun _ => P) (fun _ => P)
      (writeStage ext desired entries operationId ready) w := by
  cases ready with
  | true => exact Routine.Safe.pure hP.stable hw
  | false =>
      apply (Routine.Safe.ignore hP.stable (hP.removeDirAll hw)).bind
      intro _ u hu
      exact hP.writeGeneration hu

/-!
## Making the generation visible
-/

/-- The stage has been verified. -/
def StageVerified (ext : Externals) (desired : DesiredSkillMaterialization)
    (operationId : OperationId) (w : Observed) : Prop :=
  exists tree, w.store.directories (desired.stageDir operationId) = some tree ∧
    verifyTree ext desired.skillName desired.manifest tree = .ok ()

theorem StageVerified.stable :
    Routine.Stable Edited (StageVerified ext desired operationId) := by
  intro w v h hedited
  rcases h with ⟨tree, htree, hverifies⟩
  refine ⟨tree, ?_, hverifies⟩
  exact (hedited.stages desired.resourceId operationId).trans htree

/-- What has been verified becomes the generation, which was not there. -/
theorem careful_renameDir
    (hmanifest : desired.manifest =
      published desired.resourceId desired.revisionId)
    (hw : Working desired operationId .staged w)
    (habsent : Cached desired false w)
    (hverified : StageVerified ext desired operationId w) :
    Careful ext published permits
      (fun _ u => Working desired operationId .staged u ∧
        Cached desired true u)
      (fun _ _ => True)
      (renameDir (desired.stageDir operationId) desired.generationDir) w := by
  have hP : Held ext published fun u => Working desired operationId .staged u ∧
      Cached desired false u ∧ StageVerified ext desired operationId u := by
    constructor
    · exact Working.stable.and (Cached.stable.and StageVerified.stable)
    · intro u h
      exact ⟨Working.held.held.same u h.1, h.2.1, h.2.2⟩
  apply (hP.act (fun _ => Working.stable.and Cached.stable) _
    ⟨hw, habsent, hverified⟩).forget
  intro u _ t hu _ hrename
  rcases bind_eq_ok.mp hrename with ⟨tree, htree, hrename⟩
  rcases bind_eq_ok.mp hrename with ⟨_, _, hrename⟩
  cases hrename
  rcases hu with ⟨hworking, hnone, stage, hstage, hverifies⟩
  have hsame : stage = tree :=
    Option.some.inj (hstage.symm.trans (okOr_eq_ok.mp htree))
  rw [hsame] at hverifies
  have hmoved : ((u.store.setDirectory desired.generationDir
      (some tree)).setDirectory (desired.stageDir operationId)
        none).directories desired.generationDir = some tree := by
    rw [LocalState.directories_setDirectory_of_ne GenerationPath.noConfusion,
      LocalState.directories_setDirectory]
  have hjournals : JournalsWhole (u.after ext published
      ((u.store.setDirectory desired.generationDir (some tree)).setDirectory
        (desired.stageDir operationId) none)) := by
    constructor
    · exact hworking.whole.keys
    · exact hworking.whole.payloads
    · intro path hwhole
      exact Observed.present_after hworking.whole hwhole
    · intro journal hjournal hstate
      exact absurd hstate
        (hworking.unverified JournalState.noConfusion hjournal)
  refine ⟨⟨?_, ?_, fun _ => hjournals⟩,
    ⟨hjournals, hworking.own, hworking.others⟩,
    whole_of_verified hmanifest hmoved hverifies⟩
  · intro path hchanged
    exact absurd rfl hchanged
  · intro path resourceId revisionId old _ hold
    have hother : GenerationPath.generation resourceId revisionId ≠
        desired.generationDir := by
      intro hsame
      have hgone : (u.store.directories desired.generationDir).isSome = false :=
        hnone
      rw [← hsame, hold] at hgone
      cases hgone
    show ((u.store.setDirectory desired.generationDir _).setDirectory
      _ none).directories _ = some old
    rw [LocalState.directories_setDirectory_of_ne GenerationPath.noConfusion,
      LocalState.directories_setDirectory_of_ne hother]
    exact hold

theorem careful_moveStage
    (hmanifest : desired.manifest =
      published desired.resourceId desired.revisionId) {ready : Bool}
    (hw : Working desired operationId .staged w ∧ Cached desired ready w) :
    Careful ext published permits
      (fun _ u => Working desired operationId .staged u ∧
        Cached desired true u)
      (fun _ _ => True) (moveStage ext desired operationId) w := by
  have hcached : CalmlyHeld ext published fun u =>
      Working desired operationId .staged u ∧ Cached desired ready u :=
    Cached.held
  apply (hcached.isDir hw).bind
  intro found u hu
  cases found with
  | true =>
      have hwhole : Cached desired true u := by
        cases ready with
        | true => exact hu.1.2
        | false => cases hu.2.trans hu.1.2
      exact Routine.Safe.pure (Working.stable.and Cached.stable)
        ⟨hu.1.1, hwhole⟩
  | false =>
      have habsent : Working desired operationId .staged u ∧
          Cached desired false u := ⟨hu.1.1, hu.2.symm⟩
      have hstaged : CalmlyHeld ext published fun u =>
          Working desired operationId .staged u ∧ Cached desired false u :=
        Cached.held
      have hverify : Careful ext published permits
          (fun _ v => Working desired operationId .staged v ∧
            Cached desired false v ∧ StageVerified ext desired operationId v)
          (fun _ v => Working desired operationId .staged v ∧
            Cached desired false v)
          (verifyGeneration ext (desired.stageDir operationId)
            desired.skillName desired.manifest) u := by
        apply hstaged.held.inspect _ _ habsent
        · intro _
          exact Working.stable.and (Cached.stable.and StageVerified.stable)
        · intro v _ hv _ hverifies
          have hsame := hstaged.held.same v hv
          rcases bind_eq_ok.mp hverifies with ⟨tree, htree, hverifies⟩
          exact ⟨hsame.1, hsame.2, tree, okOr_eq_ok.mp htree, hverifies⟩
      apply hverify.forget.bind
      intro _ v hv
      exact careful_renameDir hmanifest hv.1 hv.2.1 hv.2.2

theorem careful_finishMaterialization
    (hw : Working desired operationId .verified w) :
    Careful ext published permits (fun _ _ => True) (fun _ _ => True)
      (finishMaterialization operationId (desired.payload operationId)) w := by
  have hverified : CalmlyHeld ext published
      (Working desired operationId .verified) := Working.held
  have hswitched : CalmlyHeld ext published
      (Working desired operationId .switched) := Working.held
  have hswitch : Careful ext published permits
      (fun _ => Working desired operationId .verified) (fun _ _ => True)
      (atomicSwitchDirectoryLink desired.generationDir desired.canonicalPath)
      w := by
    apply (hverified.inspect hw).forget.bind
    intro _ u hu
    apply (careful_renameLink hverified _ _ hu).forget
    · intro v hv
      rcases hv.own with ⟨own, hown, _, hat, hpayload⟩
      refine ⟨hv.whole, own, hown, hat, ?_, ?_⟩
      · rw [hpayload]
        rfl
      · rw [hpayload]
        rfl
    · intro v hv
      constructor
      · exact hv.whole.change rfl hv.whole.keys hv.whole.payloads
          hv.whole.verified
      · exact hv.own
      · exact hv.others
  apply hswitch.bind
  intro _ u hu
  apply (careful_advance hverified.held Working.stable _ _ hu).forget.bind
  · intro _ v hv
    apply (careful_markMaterialized hswitched hv).forget.bind
    intro _ x hx
    apply (careful_advance hswitched.held (Q := fun _ => True)
      (fun _ _ _ _ => trivial) _ _ hx).forget
    · intro y _ hwhole
      exact hwhole.move JournalState.noConfusion JournalState.noConfusion
    · intro _ _ _
      trivial
  · intro v _ hwhole
    exact hwhole.move JournalState.noConfusion JournalState.noConfusion
  · intro v hv _
    exact hv.move JournalState.noConfusion

/-- A new journal is planned. -/
theorem careful_createJournal (hw : Recovering [] w) :
    Careful ext published permits
      (fun _ => Working desired operationId .planned) (fun _ _ => True)
      (transaction fun s => s.createMaterializationJournal operationId
        (desired.payload operationId)) w := by
  apply ((Recovering.held []).held.act (fun _ => Working.stable) _ hw).forget
  intro u _ t hu _ hcreate
  rcases bind_eq_ok.mp (mapError_eq_ok.mp hcreate) with ⟨_, hfresh, hcreate⟩
  cases hcreate
  have hunused : forall journal, journal ∈ u.store.materializations ->
      journal.operationId ≠ operationId := by
    have htaken := ensure_eq_ok.mp hfresh
    simp only [LocalState.operationTaken, Bool.not_eq_true',
      Bool.or_eq_false_iff, List.any_eq_false, decide_eq_true_eq] at htaken
    exact htaken.1
  have hunverified : forall journal, journal ∈ u.store.materializations ->
      journal.state ≠ .verified :=
    fun journal hjournal hverified =>
      List.not_mem_nil (hu.covered journal hjournal hverified)
  have hmem : forall journal : MaterializationJournal,
      journal ∈ u.store.materializations ++
          [{ operationId, state := .planned
             payload := desired.payload operationId
             createdAt := u.store.clock }] ->
        journal ∈ u.store.materializations ∨
          (journal.operationId = operationId ∧ journal.state = .planned ∧
            journal.payload = desired.payload operationId) := by
    intro journal hjournal
    rcases List.mem_append.mp hjournal with hold | hnew
    · exact .inl hold
    · rw [List.mem_singleton.mp hnew]
      exact .inr ⟨rfl, rfl, rfl⟩
  have hjournals : JournalsWhole u -> JournalsWhole (u.after ext published
      { u.store with
        materializations := u.store.materializations ++
          [{ operationId, state := .planned
             payload := desired.payload operationId
             createdAt := u.store.clock }] }) := by
    intro hwhole
    apply hwhole.change
    · rfl
    · rw [List.map_append, List.nodup_append]
      refine ⟨hwhole.keys, List.nodup_singleton _, ?_⟩
      intro key hkey other hother
      rcases List.mem_map.mp hkey with ⟨journal, hjournal, rfl⟩
      rw [List.mem_singleton.mp hother]
      exact hunused journal hjournal
    · intro journal hjournal hincomplete
      rcases hmem journal hjournal with hold | ⟨hkey, _, hpayload⟩
      · exact hwhole.payloads journal hold hincomplete
      · exact ⟨desired, by rw [hpayload, hkey]⟩
    · intro journal hjournal hverified
      rcases hmem journal hjournal with hold | ⟨_, hplanned, _⟩
      · exact absurd hverified (hunverified journal hold)
      · rw [hplanned] at hverified
        cases hverified
  refine ⟨Proper.ofJournals rfl rfl hjournals, hjournals hu.whole, ?_, ?_⟩
  · exact ⟨_, List.mem_append_right _ List.mem_cons_self, rfl, rfl, rfl⟩
  · intro journal hjournal hverified
    rcases hmem journal hjournal with hold | ⟨hkey, _, _⟩
    · exact absurd hverified (hunverified journal hold)
    · exact hkey

/-- A materialization is careful where it does not rebuild a generation that
another link leads to. -/
theorem careful_materializeWithLease
    (hmanifest : desired.manifest =
      published desired.resourceId desired.revisionId)
    {entries : List OwnedSkillEntry} (hw : Recovering [] w) :
    Careful ext published (fun u => Untangled ext desired operationId u.store)
      (fun _ _ => True) (fun _ _ => True)
      (materializeWithLease ext desired entries operationId) w := by
  apply (careful_createJournal hw).bind
  intro _ u hu
  apply (careful_generationReady hmanifest hu).bind
  intro ready v hv
  have hcached : CalmlyHeld ext published fun u =>
      Working desired operationId .planned u ∧ Cached desired ready u :=
    Cached.held
  apply (hcached.writeStage hv).forget.bind
  intro _ x hx
  have hstaged : Routine.Stable Edited fun u =>
      Working desired operationId .staged u ∧ Cached desired ready u :=
    Working.stable.and Cached.stable
  apply (careful_advance hcached.held hstaged _ _ hx).forget.bind
  · intro _ y hy
    apply (careful_moveStage hmanifest hy).bind
    intro _ z hz
    have hwhole : Held ext published fun u =>
        Working desired operationId .staged u ∧ Cached desired true u :=
      Cached.held.held
    apply (careful_advance hwhole Working.stable _ _ hz).forget.bind
    · intro _ z' hz'
      apply (careful_finishMaterialization hz').bind
      intro _ _ _
      exact Routine.Safe.pure (fun _ _ _ _ => trivial) trivial
    · intro z' hz' _
      exact (hz'.1.move fun _ => hz'.2).whole
    · intro z' hz' _
      exact hz'.1.move fun _ => hz'.2
  · intro y _ hwhole
    exact hwhole.move JournalState.noConfusion JournalState.noConfusion
  · intro y hy _
    exact ⟨hy.1.move JournalState.noConfusion, hy.2.calm rfl⟩

theorem Calm.claimLease {s : LocalState} {resourceId : ResourceId} {ttl : Nat}
    {claimed : Bool}
    (h : s.claimLease resourceId operationId ttl = .ok (claimed, t)) :
    Calm s t := by
  rcases bind_eq_ok.mp h with ⟨_, _, hclaim⟩
  dsimp only at hclaim
  split at hclaim
  · cases hclaim
    exact ⟨rfl, rfl, fun _ _ => rfl⟩
  · cases hclaim
    exact ⟨rfl, rfl, fun _ _ => rfl⟩

theorem CalmlyHeld.trivial : CalmlyHeld ext published fun _ => True :=
  ⟨fun _ _ _ _ => True.intro, fun _ _ _ _ => True.intro⟩

theorem careful_materializeSkillSnapshot
    (hmanifest : desired.manifest =
      published desired.resourceId desired.revisionId)
    {snapshot : Bytes} (hw : JournalsWhole w) :
    Careful ext published (fun u => Untangled ext desired operationId u.store)
      (fun _ _ => True) (fun _ _ => True)
      (materializeSkillSnapshot ext desired snapshot operationId) w := by
  have hsettled : CalmlyHeld ext published (Recovering []) := Recovering.held []
  have hnothing : Routine.Stable Edited fun _ => True := fun _ _ _ _ => trivial
  apply (careful_recoverMaterializations hw).bind
  intro _ u hu
  have hentries : Careful ext published
      (fun u => Untangled ext desired operationId u.store)
      (fun _ => Recovering []) (fun _ _ => True)
      (LocalRoutine.ofExcept ((validateSkillSnapshot ext desired.skillName
        desired.manifest snapshot).mapError .snapshot)) u := by
    cases (validateSkillSnapshot ext desired.skillName desired.manifest
        snapshot).mapError MaterializationError.snapshot with
    | ok entries => exact Routine.Safe.pure hsettled.stable hu
    | error error => exact Routine.Safe.fail hnothing trivial
  apply hentries.bind
  intro entries v hv
  have hclaim : Careful ext published
      (fun u => Untangled ext desired operationId u.store)
      (fun _ => Recovering []) (fun _ => Recovering [])
      (transaction fun s =>
        s.claimLease desired.resourceId operationId leaseTtl) v := by
    apply hsettled.act _ hv
    intro s claimed t hclaim
    exact Calm.claimLease (mapError_eq_ok.mp hclaim)
  apply hclaim.forget.bind
  intro claimed x hx
  have hrequired : Careful ext published
      (fun u => Untangled ext desired operationId u.store)
      (fun _ => Recovering []) (fun _ _ => True)
      (requireLease desired.resourceId claimed) x := by
    cases claimed with
    | true => exact Routine.Safe.pure hsettled.stable hx
    | false => exact Routine.Safe.fail hnothing trivial
  apply hrequired.bind
  intro _ y hy
  apply Routine.Safe.bind
    (careful_materializeWithLease hmanifest hy).attempt
  intro result z _
  have hrelease : Careful ext published
      (fun u => Untangled ext desired operationId u.store)
      (fun _ _ => True) (fun _ _ => True)
      (transaction fun s =>
        .ok ((), s.releaseLease desired.resourceId operationId)) z := by
    apply CalmlyHeld.trivial.act _ trivial
    intro s _ t hrelease
    cases hrelease
    exact ⟨rfl, rfl, fun _ _ => rfl⟩
  apply Routine.Safe.bind (Routine.Safe.ignore hnothing hrelease)
  intro _ _ _
  cases result with
  | ok generation => exact Routine.Safe.pure hnothing trivial
  | error error => exact Routine.Safe.fail hnothing trivial

/-- A careful routine does with its next operation what it guarantees. -/
theorem Careful.perform {α : Type} {p : LocalRoutine α}
    (h : Careful ext published permits (fun _ _ => True) (fun _ _ => True) p w)
    (hpermits : permits w) :
    Proper w (w.after ext published (p.perform w.store).2) ∧
      Careful ext published permits (fun _ _ => True) (fun _ _ => True)
        (p.perform w.store).1 (w.after ext published (p.perform w.store).2) := by
  cases p with
  | done value => exact ⟨(Calm.refl w.store).proper, fun _ _ => trivial⟩
  | fail error => exact ⟨(Calm.refl w.store).proper, fun _ _ => trivial⟩
  | ask next => exact h w .refl hpermits
  | step effect next fault => exact (h w .refl).1 hpermits

end Materialization

/-!
## Sessions
-/

/-- What is going on in a session: a materialization or a recovery. -/
structure Activity where
  operation : Option (DesiredSkillMaterialization × OperationId)
  routine : LocalRoutine Unit

/-- A materialization does not take a generation for its own that another link
leads to. -/
def Activity.SparesLinked (ext : Externals) (activity : Activity)
    (s : LocalState) : Prop :=
  match activity.operation with
  | some (desired, operationId) => Untangled ext desired operationId s
  | none => True

structure Session where
  observed : Observed
  activity : Option Activity

/-- A new activity takes the place of the last one, wherever that has been
stopped. -/
inductive SessionEvent where
  | materialize (desired : DesiredSkillMaterialization) (snapshot : Bytes)
      (operationId : OperationId)
  | recover
  | act
  | fault
  | stop
  | edit (resourceId : ResourceId) (revisionId : RevisionId) (tree : Tree)
  | rows (subscriptions : List SubscriptionRecord)
      (ownedSkills : List OwnedSkillRecord)
      (packSkills : List PackMaterializedSkillRecord)
      (suppressions : List (SuppressedKind × ResourceId))
  | tick (clock : Nat)

def SessionEvent.isEdit : SessionEvent -> Bool
  | .edit _ _ _ => true
  | _ => false

/-- The user writes in a generation that is there. -/
def LocalState.edit (resourceId : ResourceId) (revisionId : RevisionId)
    (tree : Tree) (s : LocalState) : LocalState :=
  s.setDirectory (.generation resourceId revisionId)
    ((s.directories (.generation resourceId revisionId)).map fun _ => tree)

namespace Session

section

variable (ext : Externals) (published : ResourceId -> RevisionId -> SkillManifest)

def idle (store : LocalState) : Session :=
  { observed := { store, whole := Matches ext published store }
    activity := none }

def setStore (session : Session) (store : LocalState) : Session :=
  { session with observed := { session.observed with store } }

def next (session : Session) : SessionEvent -> Session
  | .materialize desired snapshot operationId =>
      { session with
        activity := some
          { operation := some (desired, operationId)
            routine := do
              let _ <- materializeSkillSnapshot ext desired snapshot operationId
              return () } }
  | .recover =>
      { session with
        activity := some
          { operation := none, routine := recoverMaterializations } }
  | .act =>
      match session.activity with
      | none => session
      | some activity =>
          let result := activity.routine.perform session.observed.store
          { observed := session.observed.after ext published result.2
            activity := some { activity with routine := result.1 } }
  | .fault =>
      { session with
        activity := session.activity.map fun activity =>
          { activity with routine := activity.routine.faulted } }
  | .stop => { session with activity := none }
  | .edit resourceId revisionId tree =>
      session.setStore (session.observed.store.edit resourceId revisionId tree)
  | .rows subscriptions ownedSkills packSkills suppressions =>
      session.setStore (session.observed.store.setRows subscriptions ownedSkills
        packSkills suppressions)
  | .tick clock => session.setStore { session.observed.store with clock }

/-- A revision is materialized with its own manifest. -/
def Allows (_ : Session) : SessionEvent -> Prop
  | .materialize desired _ _ =>
      desired.manifest = published desired.resourceId desired.revisionId
  | _ => True

def SparesLinked (session : Session) : SessionEvent -> Prop
  | .act => forall activity, session.activity = some activity ->
      activity.SparesLinked ext session.observed.store
  | _ => True

end

end Session

/-!
## Every run is careful
-/

section Session

variable {ext : Externals}
  {published : ResourceId -> RevisionId -> SkillManifest} {session : Session}

structure SessionSound (ext : Externals)
    (published : ResourceId -> RevisionId -> SkillManifest)
    (session : Session) : Prop where
  whole : JournalsWhole session.observed
  careful : forall activity, session.activity = some activity ->
    Careful ext published (fun w => activity.SparesLinked ext w.store)
      (fun _ _ => True) (fun _ _ => True) activity.routine session.observed

theorem SessionSound.setStore (h : SessionSound ext published session)
    {store : LocalState}
    (hedited : Edited session.observed { session.observed with store }) :
    SessionSound ext published (session.setStore store) where
  whole := JournalsWhole.stable _ _ h.whole hedited
  careful activity hactivity :=
    (h.careful activity hactivity).others (.single hedited)

theorem LocalState.isSome_edit {s : LocalState} {resourceId : ResourceId}
    {revisionId : RevisionId} {tree : Tree} {path : GenerationPath} :
    ((s.edit resourceId revisionId tree).directories path).isSome =
      (s.directories path).isSome := by
  by_cases hsame : path = .generation resourceId revisionId
  · rw [hsame, LocalState.edit, LocalState.directories_setDirectory,
      Option.isSome_map]
  · rw [LocalState.edit, LocalState.directories_setDirectory_of_ne hsame]

/-- What happens between the operations of an activity. -/
theorem edited_edit {w : Observed} {resourceId : ResourceId}
    {revisionId : RevisionId} {tree : Tree} :
    Edited w { w with store := w.store.edit resourceId revisionId tree } where
  skills := rfl
  journals := rfl
  whole := rfl
  present _ := LocalState.isSome_edit
  stages _ _ :=
    LocalState.directories_setDirectory_of_ne GenerationPath.noConfusion

theorem edited_of_directories {w : Observed} {store : LocalState}
    (hskills : store.skills = w.store.skills)
    (hjournals : store.materializations = w.store.materializations)
    (hdirectories : store.directories = w.store.directories) :
    Edited w { w with store } where
  skills := hskills
  journals := hjournals
  whole := rfl
  present path := congrArg Option.isSome (congrFun hdirectories path)
  stages _ _ := congrFun hdirectories _

theorem SessionSound.begin (h : SessionSound ext published session)
    {activity : Activity}
    (hcareful : Careful ext published
      (fun w => activity.SparesLinked ext w.store) (fun _ _ => True)
        (fun _ _ => True) activity.routine session.observed) :
    SessionSound ext published { session with activity := some activity } where
  whole := h.whole
  careful := by
    intro other hother
    cases hother
    exact hcareful

/-- The program is careful with every operation, and otherwise the links are
left to it. -/
theorem SessionSound.next (h : SessionSound ext published session)
    {event : SessionEvent} (hallows : session.Allows published event)
    (hspares : session.SparesLinked ext event) :
    SessionSound ext published (session.next ext published event) ∧
      ((exists t,
          (session.next ext published event).observed =
              session.observed.after ext published t ∧
            Proper session.observed (session.observed.after ext published t)) ∨
        (Edited session.observed
            (session.next ext published event).observed ∧
          (event.isEdit = false ->
            (session.next ext published event).observed.store.directories =
              session.observed.store.directories))) := by
  have hsame : Edited session.observed session.observed :=
    edited_of_directories rfl rfl rfl
  cases event with
  | materialize desired snapshot operationId =>
      refine ⟨h.begin ?_, .inr ⟨hsame, fun _ => rfl⟩⟩
      apply (careful_materializeSkillSnapshot hallows h.whole).bind
      intro _ _ _
      exact Routine.Safe.pure (fun _ _ _ _ => trivial) trivial
  | recover =>
      refine ⟨h.begin ?_, .inr ⟨hsame, fun _ => rfl⟩⟩
      apply (careful_recoverMaterializations h.whole).weaken
      · exact fun _ _ _ => trivial
      · exact fun _ _ _ => trivial
  | act =>
      cases hactivity : session.activity with
      | none =>
          simp only [Session.next, hactivity]
          exact ⟨h, .inr ⟨hsame, fun _ => trivial⟩⟩
      | some activity =>
          have hstep := (h.careful activity hactivity).perform
            (hspares activity hactivity)
          simp only [Session.next, hactivity]
          refine ⟨⟨hstep.1.journals h.whole, ?_⟩, .inl ⟨_, rfl, hstep.1⟩⟩
          intro other hother
          cases hother
          exact hstep.2
  | fault =>
      refine ⟨⟨h.whole, ?_⟩, .inr ⟨hsame, fun _ => rfl⟩⟩
      intro other hother
      rcases Option.map_eq_some_iff.mp hother with ⟨activity, hactivity, rfl⟩
      exact (h.careful activity hactivity).faulted
  | stop => exact ⟨⟨h.whole, fun _ hother => nomatch hother⟩, .inr ⟨hsame, fun _ => rfl⟩⟩
  | edit resourceId revisionId tree =>
      exact ⟨h.setStore edited_edit, .inr ⟨edited_edit, fun hedit => nomatch hedit⟩⟩
  | rows subscriptions ownedSkills packSkills suppressions =>
      have hedited : Edited session.observed
          { session.observed with
            store := session.observed.store.setRows subscriptions ownedSkills
              packSkills suppressions } :=
        edited_of_directories rfl rfl rfl
      exact ⟨h.setStore hedited, .inr ⟨hedited, fun _ => rfl⟩⟩
  | tick clock =>
      have hedited : Edited session.observed
          { session.observed with
            store := { session.observed.store with clock } } :=
        edited_of_directories rfl rfl rfl
      exact ⟨h.setStore hedited, .inr ⟨hedited, fun _ => rfl⟩⟩

/-- Every link is what it was at the start, or leads to a whole generation. -/
def LinksWhole (start : LocalState) (w : Observed) : Prop :=
  forall path, w.store.skills path = start.skills path ∨
    exists resourceId revisionId,
      w.store.skills path = some (.link (.generation resourceId revisionId)) ∧
        w.whole (.generation resourceId revisionId)

theorem LinksWhole.edited {start : LocalState} {w v : Observed}
    (h : LinksWhole start w) (hedited : Edited w v) : LinksWhole start v := by
  intro path
  rw [hedited.skills, hedited.whole]
  exact h path

theorem LinksWhole.proper {start : LocalState} {w : Observed} {t : LocalState}
    (h : LinksWhole start w) (hwhole : JournalsWhole w)
    (hproper : Proper w (w.after ext published t)) :
    LinksWhole start (w.after ext published t) := by
  intro path
  by_cases hchanged : t.skills path = w.store.skills path
  · rcases h path with hstart | ⟨resourceId, revisionId, hlink, hled⟩
    · exact .inl (hchanged.trans hstart)
    · right
      refine ⟨resourceId, revisionId, hchanged.trans hlink, ?_⟩
      rcases Option.isSome_iff_exists.mp (hwhole.present _ hled) with
        ⟨tree, htree⟩
      have hkept := hproper.active path resourceId revisionId tree hlink htree
      exact Observed.whole_after (hkept.trans htree.symm) hled
  · right
    rcases hproper.links path hchanged with
      ⟨journal, hjournal, hverified, _, hlink, hled⟩
    have hincomplete : journal.state ≠ .complete := by
      rw [hverified]
      exact JournalState.noConfusion
    rcases hwhole.generationDir hjournal hincomplete with
      ⟨resourceId, revisionId, hgeneration⟩
    rw [hgeneration] at hlink hled
    exact ⟨resourceId, revisionId, hlink, hled⟩

/-- A generation that is what the manifest says is not rebuilt. -/
theorem Session.sparesLinked_of_verifies {event : SessionEvent}
    (h : forall activity, activity ∈ session.activity ->
      forall operation, operation ∈ activity.operation ->
        Verifies ext operation.1 session.observed.store) :
    session.SparesLinked ext event := by
  cases event with
  | act =>
      intro activity hactivity
      unfold Activity.SparesLinked
      split
      · rename_i desired operationId hoperation
        intro _ _ _ _ tree htree hmismatch
        rcases h activity hactivity (desired, operationId) hoperation with
          ⟨found, hfound, hverifies⟩
        have hsame : found = tree :=
          Option.some.inj (hfound.symm.trans htree)
        rw [hsame, hmismatch] at hverifies
        cases hverifies
      · trivial
  | materialize desired snapshot operationId => trivial
  | recover => trivial
  | fault => trivial
  | stop => trivial
  | edit resourceId revisionId tree => trivial
  | rows subscriptions ownedSkills packSkills suppressions => trivial
  | tick clock => trivial

instance : forall (session : Session) (event : SessionEvent),
    Decidable (session.Allows published event)
  | _, .materialize _ _ _ => inferInstanceAs (Decidable (_ = _))
  | _, .recover => .isTrue trivial
  | _, .act => .isTrue trivial
  | _, .fault => .isTrue trivial
  | _, .stop => .isTrue trivial
  | _, .edit _ _ _ => .isTrue trivial
  | _, .rows _ _ _ _ => .isTrue trivial
  | _, .tick _ => .isTrue trivial

theorem SessionSound.idle {store : LocalState}
    (hkeys : (store.materializations.map
      MaterializationJournal.operationId).Nodup)
    (hjournals : store.materializationJournals = []) :
    SessionSound ext published (Session.idle ext published store) := by
  have hcomplete : forall journal, journal ∈ store.materializations ->
      journal.state = .complete := by
    intro journal hjournal
    by_contra hstate
    have hmem := LocalState.mem_materializationJournals.mpr ⟨hjournal, hstate⟩
    rw [hjournals] at hmem
    exact List.not_mem_nil hmem
  constructor
  · constructor
    · exact hkeys
    · intro journal hjournal hstate
      exact absurd (hcomplete journal hjournal) hstate
    · intro path hmatches
      cases path with
      | generation resourceId revisionId =>
          rcases hmatches with ⟨_, tree, htree, _⟩
          exact Option.isSome_of_mem htree
      | stage resourceId operationId => exact hmatches.elim
      | renameStage resourceId operationId => exact hmatches.elim
    · intro journal hjournal hverified
      rw [hcomplete journal hjournal] at hverified
      cases hverified
  · intro _ hactivity
    cases hactivity

/-- From a state without open journals on, however the activities of a session
are stopped, fail or are recovered, every link is what it was or leads to a
generation that was verified for its revision; a link is switched for a verified
journal only, and no generation that a link leads to is deleted or rewritten.
No materialization may rebuild a generation that another link leads to. -/
theorem links_lead_to_verified_generations {store : LocalState}
    {events : List SessionEvent} {session : Session}
    (hkeys : (store.materializations.map
      MaterializationJournal.operationId).Nodup)
    (hjournals : store.materializationJournals = [])
    (hrun : Run (Guarded (fun session event =>
        session.Allows published event ∧ session.SparesLinked ext event)
        (Session.next ext published))
      (Session.idle ext published store) events session) :
    LinksWhole store session.observed ∧
      forall event, session.Allows published event ->
        session.SparesLinked ext event ->
          (forall path,
            (session.next ext published event).observed.store.skills path ≠
                session.observed.store.skills path ->
              exists journal, journal ∈ session.observed.store.materializations ∧
                journal.state = .verified ∧
                  journal.payload.canonicalPath = path ∧
                    (session.next ext published event).observed.store.skills
                      path = some (.link journal.payload.generationDir)) ∧
            (event.isEdit = false -> forall path resourceId revisionId tree,
              session.observed.store.skills path =
                  some (.link (.generation resourceId revisionId)) ->
                session.observed.store.directories
                    (.generation resourceId revisionId) = some tree ->
                  (session.next ext published event).observed.store.directories
                    (.generation resourceId revisionId) = some tree) := by
  have hinvariant : SessionSound ext published session ∧
      LinksWhole store session.observed := by
    apply hrun.invariant (P := fun session =>
      SessionSound ext published session ∧ LinksWhole store session.observed)
    · exact ⟨SessionSound.idle hkeys hjournals, fun _ => .inl rfl⟩
    · intro s event t hs hstep
      rcases hstep with ⟨⟨hallows, hspares⟩, rfl⟩
      have hnext := hs.1.next hallows hspares
      refine ⟨hnext.1, ?_⟩
      rcases hnext.2 with ⟨t, hobserved, hproper⟩ | ⟨hedited, _⟩
      · rw [hobserved]
        exact hs.2.proper hs.1.whole hproper
      · exact hs.2.edited hedited
  refine ⟨hinvariant.2, fun event hallows hspares => ?_⟩
  rcases (hinvariant.1.next hallows hspares).2 with
    ⟨t, hobserved, hproper⟩ | ⟨hedited, hdirectories⟩
  · rw [hobserved]
    constructor
    · intro path hchanged
      rcases hproper.links path hchanged with
        ⟨journal, hjournal, hverified, hpath, hlink, _⟩
      exact ⟨journal, hjournal, hverified, hpath, hlink⟩
    · intro _
      exact hproper.active
  · constructor
    · intro path hchanged
      exact absurd (congrFun hedited.skills path) hchanged
    · intro hevent path resourceId revisionId tree _ htree
      rw [hdirectories hevent]
      exact htree

end Session

namespace Sample

def published (_ : ResourceId) (_ : RevisionId) : SkillManifest :=
  desired.manifest

/-- The skill is materialized. -/
def visible : List SessionEvent :=
  .materialize desired Denju.Sample.archive (deviceOperation 1) ::
    List.replicate 14 .act

/-- The user edits it, and its path has changed. -/
def moved : List SessionEvent :=
  visible ++
    [.edit desired.resourceId desired.revisionId
      (entries.dropLast ++
        [.file "bin/run".toList (utf8 "y".toList) true]),
      .materialize { desired with owner := "bob".toList } Denju.Sample.archive
        (deviceOperation 2)] ++
      List.replicate 7 .act

end Sample

theorem links_lead_to_verified_generations_visible :
    LinksWhole Sample.store (Sample.visible.foldl
        (Session.next Denju.Sample.externals Sample.published)
        (Session.idle Denju.Sample.externals Sample.published
          Sample.store)).observed := by
  have hrun : Run (Guarded
        (fun session event => session.Allows Sample.published event ∧
          forall activity, activity ∈ session.activity ->
            forall operation, operation ∈ activity.operation ->
              Verifies Denju.Sample.externals operation.1
                session.observed.store)
        (Session.next Denju.Sample.externals Sample.published))
      (Session.idle Denju.Sample.externals Sample.published Sample.store)
      Sample.visible _ :=
    Run.guarded_of_all (by decide +kernel)
  have hspared : Run (Guarded
        (fun session event => session.Allows Sample.published event ∧
          session.SparesLinked Denju.Sample.externals event)
        (Session.next Denju.Sample.externals Sample.published))
      (Session.idle Denju.Sample.externals Sample.published Sample.store)
      Sample.visible _ :=
    hrun.mono fun session event next hstep =>
      ⟨⟨hstep.1.1, Session.sparesLinked_of_verifies hstep.1.2⟩, hstep.2⟩
  exact (links_lead_to_verified_generations (by decide) (by decide) hspared).1

/-- The next operation removes a file of the generation that the old path still
leads to. -/
theorem links_lead_to_verified_generations_moved :
    exists session,
      Run (Guarded (fun session event => session.Allows Sample.published event)
          (Session.next Denju.Sample.externals Sample.published))
        (Session.idle Denju.Sample.externals Sample.published Sample.store)
        Sample.moved session ∧
      session.observed.store.skills Sample.desired.canonicalPath =
        some (.link Sample.desired.generationDir) ∧
      session.observed.store.directories Sample.desired.generationDir ≠ none ∧
      (session.next Denju.Sample.externals Sample.published
          .act).observed.store.directories Sample.desired.generationDir ≠
        session.observed.store.directories Sample.desired.generationDir := by
  refine ⟨_, Run.guarded_of_all (by decide +kernel), ?_⟩
  decide +kernel

end Denju.Local
