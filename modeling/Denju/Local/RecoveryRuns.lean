import Denju.Local.Recovery
import Denju.Lib.Runs

/-!
# Materializations that are stopped

Materializations run side by side and are stopped anywhere, while the desired
rows change.  Recovery succeeds afterwards as long as every verified journal
keeps a row that wants its revision, and no path or generation is used for two
purposes at once.
-/

namespace Denju.Local

open Lib

variable {ext : Externals}

/-!
## What a materialization relies on, and what it touches
-/

section Materialization

variable (ext) (desired : DesiredSkillMaterialization)
  (operationId : OperationId)

/-- The others leave the journal, the path and the generation alone. -/
structure Undisturbed (s t : LocalState) : Prop where
  journals : forall journal, journal ∈ t.materializations ->
    journal.operationId = operationId ∨
        journal.payload.canonicalPath = desired.canonicalPath ∨
          journal.payload.generationDir = desired.generationDir ->
      journal ∈ s.materializations
  generation : t.directories desired.generationDir =
    s.directories desired.generationDir
  skill : t.skills desired.canonicalPath = s.skills desired.canonicalPath

/-- The materialization touches nothing else, and keeps recovery possible. -/
structure Contained (s t : LocalState) : Prop where
  recoverable : Recoverable s -> Recoverable t
  others : forall journal, journal ∈ t.materializations ->
    journal.operationId ≠ operationId -> journal ∈ s.materializations
  own : forall journal, journal ∈ t.materializations ->
    journal.operationId = operationId ->
      journal.payload = desired.payload operationId
  directories : forall path, path ≠ desired.generationDir ->
    path ≠ desired.stageDir operationId -> t.directories path = s.directories path
  skills : forall path, path ≠ desired.canonicalPath ->
    t.skills path = s.skills path

/-- A journal of another operation that recovery has to finish. -/
def Foreign (s : LocalState) (journal : MaterializationJournal) : Prop :=
  journal ∈ s.materializations ∧ journal.isPast = true ∧
    journal.operationId ≠ operationId

/-- The generation is there, and is what the manifest says. -/
def Verifies (s : LocalState) : Prop :=
  exists tree, s.directories desired.generationDir = some tree ∧
    verifyTree ext desired.skillName desired.manifest tree = .ok ()

/-- What holds between the operations of a materialization. -/
structure Underway (state : JournalState) (s : LocalState) : Prop where
  own : forall journal, journal ∈ s.materializations ->
    journal.operationId = operationId ->
      journal.state = state ∧ journal.payload = desired.payload operationId
  managed : s.skills desired.canonicalPath ≠ some .unmanaged
  path : forall journal, Foreign operationId s journal ->
    journal.payload.canonicalPath = desired.canonicalPath ->
      journal.payload.generationDir = desired.generationDir
  generation : (forall journal, Foreign operationId s journal ->
    journal.payload.generationDir ≠ desired.generationDir) ∨
      Verifies ext desired s

/-- The row is there when the journal is verified. -/
def WantedWhenStaged (s : LocalState) : Prop :=
  forall journal, journal ∈ s.materializations ->
    journal.operationId = operationId -> journal.state = .staged ->
      s.wants journal.payload.resourceId journal.payload.revisionId = true

/-- An operation changes no more than the stage, the objects, the leases and the
stamps of the rows. -/
structure Quiet (s t : LocalState) : Prop where
  journals : t.materializations = s.materializations
  skills : t.skills = s.skills
  wants : forall resourceId revisionId,
    t.wants resourceId revisionId = s.wants resourceId revisionId
  directories : forall path, path ≠ desired.stageDir operationId ->
    t.directories path = s.directories path

/-- The judgement about the routines of a materialization. -/
abbrev Tame {α : Type} (goal : α -> LocalState -> Prop)
    (failed : MaterializationError -> LocalState -> Prop)
    (p : LocalRoutine α) (s : LocalState) : Prop :=
  p.Safe id (fun _ t => t) (WantedWhenStaged operationId)
    (Undisturbed desired operationId) (Contained desired operationId)
    goal failed s

end Materialization

section Underway

variable {desired : DesiredSkillMaterialization} {operationId : OperationId}
  {state : JournalState} {s t : LocalState}

theorem Undisturbed.foreign (h : Undisturbed desired operationId s t)
    {journal : MaterializationJournal} (hforeign : Foreign operationId t journal)
    (htouch : journal.payload.canonicalPath = desired.canonicalPath ∨
      journal.payload.generationDir = desired.generationDir) :
    Foreign operationId s journal :=
  ⟨h.journals journal hforeign.1 (.inr htouch), hforeign.2⟩

theorem Underway.stable :
    Routine.Stable (Undisturbed desired operationId)
      (Underway ext desired operationId state) := by
  intro s t h hothers
  constructor
  · intro journal hjournal hkey
    exact h.own journal (hothers.journals journal hjournal (.inl hkey)) hkey
  · rw [hothers.skill]
    exact h.managed
  · intro journal hforeign hpath
    exact h.path journal (hothers.foreign hforeign (.inl hpath)) hpath
  · rcases h.generation with hnone | ⟨tree, htree, hverifies⟩
    · left
      intro journal hforeign hsame
      exact hnone journal (hothers.foreign hforeign (.inr hsame)) hsame
    · right
      exact ⟨tree, by rw [hothers.generation, htree], hverifies⟩

theorem Quiet.refl : Quiet desired operationId s s :=
  ⟨rfl, rfl, fun _ _ => rfl, fun _ _ => rfl⟩

theorem Quiet.setStage (tree : Option (List OwnedSkillEntry)) :
    Quiet desired operationId s
      (s.setDirectory (desired.stageDir operationId) tree) :=
  ⟨rfl, rfl, fun _ _ => rfl,
    fun _ hpath => LocalState.directories_setDirectory_of_ne hpath⟩

theorem Underway.quiet (h : Underway ext desired operationId state s)
    (hquiet : Quiet desired operationId s t) :
    Contained desired operationId s t ∧
      Underway ext desired operationId state t := by
  rcases hquiet with ⟨hjournals, hskills, hwants, hdirectories⟩
  have hgeneration : t.directories desired.generationDir =
      s.directories desired.generationDir :=
    hdirectories _ GenerationPath.noConfusion
  constructor
  · constructor
    · intro hrecoverable
      apply hrecoverable.mono
      · rw [hjournals]
        exact hrecoverable.keys
      · rw [hjournals]
        exact hrecoverable.payloads
      · intro journal hjournal _
        rw [← hjournals]
        exact hjournal
      · intro journal hjournal hpast hpresent
        rw [hjournals] at hjournal
        rw [hdirectories _ (hrecoverable.generationDir_ne hjournal hpast)]
        exact hpresent
      · intro journal hjournal hpast
        rw [hjournals] at hjournal
        rw [hwants]
        exact (hrecoverable.sound journal hjournal hpast).wanted
      · exact hskills
    · intro journal hjournal _
      rw [← hjournals]
      exact hjournal
    · intro journal hjournal hkey
      rw [hjournals] at hjournal
      exact (h.own journal hjournal hkey).2
    · intro path _ hstage
      exact hdirectories path hstage
    · intro path _
      rw [hskills]
  · have hforeign : forall journal, Foreign operationId t journal ->
        Foreign operationId s journal := by
      intro journal hother
      exact ⟨hjournals ▸ hother.1, hother.2⟩
    constructor
    · rw [hjournals]
      exact h.own
    · rw [hskills]
      exact h.managed
    · intro journal hother hpath
      exact h.path journal (hforeign journal hother) hpath
    · rcases h.generation with hnone | ⟨tree, htree, hverifies⟩
      · left
        intro journal hother
        exact hnone journal (hforeign journal hother)
      · right
        exact ⟨tree, by rw [hgeneration, htree], hverifies⟩

/-- An operation changes the generation that no other journal is for, before it
is verified. -/
theorem Underway.setGeneration (h : Underway ext desired operationId state s)
    (hstate : state = .planned ∨ state = .staged)
    (hfree : forall journal, Foreign operationId s journal ->
      journal.payload.generationDir ≠ desired.generationDir)
    (tree : Option (List OwnedSkillEntry)) :
    Contained desired operationId s
        (s.setDirectory desired.generationDir tree) ∧
      Underway ext desired operationId state
        (s.setDirectory desired.generationDir tree) := by
  have hpast : forall journal, journal ∈ s.materializations ->
      journal.isPast = true -> Foreign operationId s journal := by
    intro journal hjournal hpast
    refine ⟨hjournal, hpast, fun hkey => ?_⟩
    have hown := (h.own journal hjournal hkey).1
    rcases MaterializationJournal.isPast_eq_true.mp hpast with hone | hother
    · rw [hone] at hown
      rcases hstate with rfl | rfl
      · cases hown
      · cases hown
    · rw [hother] at hown
      rcases hstate with rfl | rfl
      · cases hown
      · cases hown
  constructor
  · constructor
    · intro hrecoverable
      apply hrecoverable.mono
      · exact hrecoverable.keys
      · exact hrecoverable.payloads
      · intro journal hjournal _
        exact hjournal
      · intro journal hjournal hpast' hpresent
        rw [LocalState.directories_setDirectory_of_ne
          (hfree journal (hpast journal hjournal hpast'))]
        exact hpresent
      · intro journal hjournal hpast'
        exact (hrecoverable.sound journal hjournal hpast').wanted
      · rfl
    · intro journal hjournal _
      exact hjournal
    · intro journal hjournal hkey
      exact (h.own journal hjournal hkey).2
    · intro path hpath _
      exact LocalState.directories_setDirectory_of_ne hpath
    · intro path _
      rfl
  · exact ⟨h.own, h.managed, h.path, .inl hfree⟩

/-!
## The operations of a materialization
-/

variable {P : LocalState -> Prop}

/-- An assertion about a materialization that others keep. -/
structure Assertion (ext : Externals) (desired : DesiredSkillMaterialization)
    (operationId : OperationId) (state : JournalState)
    (P : LocalState -> Prop) : Prop where
  stable : Routine.Stable (Undisturbed desired operationId) P
  underway : forall s, P s -> Underway ext desired operationId state s

theorem Assertion.underwayOnly : Assertion ext desired operationId state
    (Underway ext desired operationId state) :=
  ⟨Underway.stable, fun _ h => h⟩

/-- The rule of an operation whose failures leave the state alone. -/
theorem Assertion.act (hP : Assertion ext desired operationId state P)
    {α : Type} {goal : α -> LocalState -> Prop} {fault : MaterializationError}
    {f : LocalState -> Except MaterializationError (α × LocalState)}
    (hgoal : forall value, Routine.Stable (Undisturbed desired operationId)
      (goal value))
    (hok : forall u value t, P u -> WantedWhenStaged operationId u ->
      f u = .ok (value, t) ->
        Contained desired operationId u t ∧ goal value t)
    (hs : P s) :
    Tame desired operationId goal (fun _ => P) (.act fault f) s := by
  apply Routine.Safe.act hP.stable hs hgoal
  · intro _
    exact hP.stable
  · exact hok
  · intro u _ hu _ _
    exact ⟨((hP.underway u hu).quiet .refl).1, hu⟩
  · intro u hu
    exact hu

/-- The rule of an operation that keeps the assertion. -/
theorem Assertion.keep (hP : Assertion ext desired operationId state P)
    {α : Type} {fault : MaterializationError}
    {f : LocalState -> Except MaterializationError (α × LocalState)}
    (hok : forall u value t, P u -> f u = .ok (value, t) ->
      Contained desired operationId u t ∧ P t) (hs : P s) :
    Tame desired operationId (fun _ => P) (fun _ => P) (.act fault f) s :=
  hP.act (fun _ => hP.stable) (fun u value t hu _ => hok u value t hu) hs

/-- The rule of an operation that only looks. -/
theorem Assertion.inspect (hP : Assertion ext desired operationId state P)
    {α : Type} {f : LocalState -> Except MaterializationError α} (hs : P s) :
    Tame desired operationId (fun _ => P) (fun _ => P) (inspect f) s := by
  apply hP.keep _ hs
  intro u value t hu hanswer
  rcases map_eq_ok.mp hanswer with ⟨_, _, hsame⟩
  cases hsame
  exact ⟨((hP.underway u hu).quiet .refl).1, hu⟩

theorem Assertion.isDir (hP : Assertion ext desired operationId state P)
    (hs : P s) :
    Tame desired operationId
      (fun found u => P u ∧
        (found = true -> (u.directories desired.generationDir).isSome = true))
      (fun _ => P) (isDir desired.generationDir) s := by
  apply Routine.Safe.ask hP.stable hs
  intro u hu _
  refine ⟨((hP.underway u hu).quiet .refl).1, fun v hv => ?_⟩
  have hsame : v.directories desired.generationDir =
      u.directories desired.generationDir := by
    induction hv with
    | refl => rfl
    | tail _ hlast ih => rw [hlast.generation, ih]
  refine ⟨hP.stable.others hu hv, fun hfound => ?_⟩
  rw [hsame]
  exact hfound

theorem Assertion.removeDirAll (hP : Assertion ext desired operationId state P)
    (root : GenerationPath)
    (hset : forall u tree, P u ->
      Contained desired operationId u (u.setDirectory root tree) ∧
        P (u.setDirectory root tree)) (hs : P s) :
    Tame desired operationId (fun _ => P) (fun _ => P) (removeDirAll root) s := by
  apply Routine.Safe.bind
  · exact hP.inspect hs
  · intro tree u hu
    apply Routine.Safe.bind
    · apply Routine.Safe.each (I := fun _ => P) hu hP.stable
      intro path rest v hv
      unfold removeEntry filesystem
      apply hP.keep _ hv
      intro v' _ t hv' hremove
      cases hremove
      exact hset v' _ hv'
    · intro _ v hv
      apply hP.keep _ hv
      intro v' _ t hv' hremove
      rcases bind_eq_ok.mp hremove with ⟨_, _, hremove⟩
      rcases bind_eq_ok.mp hremove with ⟨_, _, hremove⟩
      cases hremove
      exact hset v' none hv'

/-- No other journal is for the generation. -/
def Free (desired : DesiredSkillMaterialization) (operationId : OperationId)
    (s : LocalState) : Prop :=
  forall journal, Foreign operationId s journal ->
    journal.payload.generationDir ≠ desired.generationDir

theorem Free.stable :
    Routine.Stable (Undisturbed desired operationId) (Free desired operationId) :=
  fun _ _ h hothers journal hforeign hsame =>
    h journal (hothers.foreign hforeign (.inr hsame)) hsame

theorem Assertion.free : Assertion ext desired operationId state
    fun u => Underway ext desired operationId state u ∧
      Free desired operationId u :=
  ⟨Routine.Stable.and Underway.stable Free.stable, fun _ h => h.1⟩

/-- A tree that is not what the manifest says is of use to no other journal. -/
theorem tame_verifyGeneration (hs : Underway ext desired operationId state s) :
    Tame desired operationId
      (fun _ => Underway ext desired operationId state)
      (fun error u => Underway ext desired operationId state u ∧
        (error = .manifestMismatch -> Free desired operationId u))
      (verifyGeneration ext desired.generationDir desired.skillName
        desired.manifest) s := by
  apply Routine.Safe.act Underway.stable hs
  · intro _
    exact Underway.stable
  · intro error u v hu hothers
    exact ⟨Underway.stable u v hu.1 hothers,
      fun hmismatch => Free.stable u v (hu.2 hmismatch) hothers⟩
  · intro u _ t hu _ hverify
    rcases map_eq_ok.mp hverify with ⟨_, _, hsame⟩
    cases hsame
    exact ⟨(hu.quiet .refl).1, hu⟩
  · intro u error hu _ hverify
    refine ⟨(hu.quiet .refl).1, hu, fun hmismatch => ?_⟩
    rcases hu.generation with hfree | ⟨tree, htree, hverifies⟩
    · exact hfree
    · simp [id, htree, hverifies, okOr, bind, Except.bind, Except.map]
        at hverify
  · intro u hu
    constructor
    · exact hu
    · intro hmismatch
      cases hmismatch

/-- The generation is only removed when no other journal needs it. -/
theorem tame_generationReady
    (hs : Underway ext desired operationId .planned s) :
    Tame desired operationId
      (fun _ => Underway ext desired operationId .planned) (fun _ _ => True)
      (generationReady ext desired) s := by
  have hunder : Assertion ext desired operationId .planned
      (Underway ext desired operationId .planned) := Assertion.underwayOnly
  apply Routine.Safe.bind
  · exact (hunder.isDir hs).weaken (fun _ _ h => h) (fun _ _ _ => trivial)
  · intro found u hu
    cases found with
    | false => exact Routine.Safe.pure Underway.stable hu.1
    | true =>
        apply Routine.Safe.bind (tame_verifyGeneration hu.1).attempt
        intro outcome v hv
        cases outcome with
        | ok value => exact Routine.Safe.pure Underway.stable hv
        | error error =>
            have hfail : Tame desired operationId
                (fun _ => Underway ext desired operationId .planned)
                (fun _ _ => True) (.fail error : LocalRoutine Bool) v :=
              Routine.Safe.fail (fun _ _ _ _ => trivial) trivial
            cases error with
            | manifestMismatch =>
                have hfree : Underway ext desired operationId .planned v ∧
                    Free desired operationId v := ⟨hv.1, hv.2 rfl⟩
                apply Routine.Safe.bind
                · apply Routine.Safe.weaken (Assertion.free.inspect hfree)
                  · exact fun _ _ h => h
                  · exact fun _ _ _ => trivial
                · intro targets w hw
                  cases targets with
                  | true =>
                      exact Routine.Safe.fail (fun _ _ _ _ => trivial) trivial
                  | false =>
                      apply Routine.Safe.bind
                      · apply Routine.Safe.weaken
                          (Assertion.free.removeDirAll _ _ hw)
                        · exact fun _ _ h => h
                        · exact fun _ _ _ => trivial
                        · intro u' tree hu'
                          have hset :=
                            hu'.1.setGeneration (.inl rfl) hu'.2 tree
                          exact ⟨hset.1, hset.2, hu'.2⟩
                      · intro _ w' hw'
                        exact Routine.Safe.pure Underway.stable hw'.1
            | snapshot source => exact hfail
            | database source => exact hfail
            | io message => exact hfail
            | corrupt message subject => exact hfail
            | busy resourceId => exact hfail
            | refuseOverwrite path => exact hfail

/-!
## The whole materialization
-/

theorem tame_changeTree {f : Tree -> Except MaterializationError Tree}
    (hs : Underway ext desired operationId state s) :
    Tame desired operationId (fun _ => Underway ext desired operationId state)
      (fun _ => Underway ext desired operationId state)
      (changeTree (desired.stageDir operationId) f) s := by
  apply Assertion.underwayOnly.keep _ hs
  intro u _ t hu hchange
  rcases bind_eq_ok.mp hchange with ⟨tree, _, hchange⟩
  cases hchange
  exact hu.quiet (.setStage _)

theorem tame_storeCasBlob {bytes : Bytes}
    (hs : Underway ext desired operationId state s) :
    Tame desired operationId (fun _ => Underway ext desired operationId state)
      (fun _ => Underway ext desired operationId state)
      (storeCasBlob ext bytes) s := by
  apply Assertion.underwayOnly.keep _ hs
  intro u blob t hu hstore
  dsimp only at hstore
  split at hstore
  · split at hstore
    · cases hstore
      exact hu.quiet .refl
    · cases hstore
  · cases hstore
    exact hu.quiet ⟨rfl, rfl, fun _ _ => rfl, fun _ _ => rfl⟩

theorem tame_copyObject {path : Text} {blob : BlobId}
    (hs : Underway ext desired operationId state s) :
    Tame desired operationId (fun _ => Underway ext desired operationId state)
      (fun _ => Underway ext desired operationId state)
      (copyObject (desired.stageDir operationId) path blob) s := by
  apply Assertion.underwayOnly.keep _ hs
  intro u _ t hu hcopy
  rcases bind_eq_ok.mp hcopy with ⟨bytes, _, hcopy⟩
  rcases bind_eq_ok.mp hcopy with ⟨tree, _, hcopy⟩
  cases hcopy
  exact hu.quiet (.setStage _)

theorem tame_writeEntry {entry : OwnedSkillEntry}
    (hs : Underway ext desired operationId state s) :
    Tame desired operationId (fun _ => Underway ext desired operationId state)
      (fun _ => Underway ext desired operationId state)
      (writeEntry ext (desired.stageDir operationId) entry) s := by
  cases entry with
  | file path bytes executable =>
      apply Routine.Safe.bind (tame_storeCasBlob hs)
      intro blob u hu
      apply Routine.Safe.bind (tame_changeTree hu)
      intro _ v hv
      apply Routine.Safe.bind (tame_copyObject hv)
      intro _ w hw
      exact tame_changeTree hw
  | directory path => exact Routine.Safe.pure Underway.stable hs
  | symlink path target =>
      apply Routine.Safe.bind (tame_changeTree hs)
      intro _ u hu
      exact tame_changeTree hu

/-- Whatever is written goes to the stage. -/
theorem tame_writeGeneration {entries : List OwnedSkillEntry}
    (hs : Underway ext desired operationId state s) :
    Tame desired operationId (fun _ => Underway ext desired operationId state)
      (fun _ => Underway ext desired operationId state)
      (writeGeneration ext (desired.stageDir operationId) entries) s := by
  apply Routine.Safe.bind (tame_changeTree hs)
  intro _ u hu
  apply Routine.Safe.bind
  · apply Routine.Safe.each (I := fun _ => Underway ext desired operationId state)
      hu Underway.stable
    intro path rest v hv
    exact tame_changeTree hv
  · intro _ v hv
    apply Routine.Safe.each (I := fun _ => Underway ext desired operationId state)
      hv Underway.stable
    intro entry rest w hw
    exact tame_writeEntry hw

/-- A new journal is no obstacle to recovery. -/
theorem Underway.createJournal
    (h : Underway ext desired operationId .planned s)
    (hcreate : s.createMaterializationJournal operationId
      (desired.payload operationId) = .ok ((), t)) :
    Contained desired operationId s t ∧
      Underway ext desired operationId .planned t := by
  rcases bind_eq_ok.mp hcreate with ⟨_, hfresh, hcreate⟩
  cases hcreate
  have hunused : forall journal, journal ∈ s.materializations ->
      journal.operationId ≠ operationId := by
    have htaken := ensure_eq_ok.mp hfresh
    simp only [LocalState.operationTaken, Bool.not_eq_true', Bool.or_eq_false_iff,
      List.any_eq_false, decide_eq_true_eq] at htaken
    exact htaken.1
  have hmem : forall journal : MaterializationJournal,
      journal ∈ s.materializations ++
          [{ operationId, state := .planned
             payload := desired.payload operationId, createdAt := s.clock }] ->
        journal ∈ s.materializations ∨
          (journal.operationId = operationId ∧ journal.state = .planned ∧
            journal.payload = desired.payload operationId) := by
    intro journal hjournal
    rcases List.mem_append.mp hjournal with hold | hnew
    · exact .inl hold
    · rw [List.mem_singleton.mp hnew]
      exact .inr ⟨rfl, rfl, rfl⟩
  have hpast : forall journal : MaterializationJournal,
      journal ∈ s.materializations ++
          [{ operationId, state := .planned
             payload := desired.payload operationId, createdAt := s.clock }] ->
        journal.isPast = true -> journal ∈ s.materializations := by
    intro journal hjournal hpast
    rcases hmem journal hjournal with hold | ⟨_, hstate, _⟩
    · exact hold
    · simp [MaterializationJournal.isPast, hstate] at hpast
  constructor
  · constructor
    · intro hrecoverable
      apply hrecoverable.mono
      · show (List.map _ (_ ++ _)).Nodup
        rw [List.map_append, List.nodup_append]
        refine ⟨hrecoverable.keys, List.nodup_singleton _, ?_⟩
        intro key hkey other hother
        rcases List.mem_map.mp hkey with ⟨journal, hjournal, rfl⟩
        rw [List.mem_singleton.mp hother]
        exact hunused journal hjournal
      · intro journal hjournal hincomplete
        rcases hmem journal hjournal with hold | ⟨hkey, _, hpayload⟩
        · exact hrecoverable.payloads journal hold hincomplete
        · exact ⟨desired, by rw [hpayload, hkey]⟩
      · exact hpast
      · intro journal _ _ hpresent
        exact hpresent
      · intro journal hjournal hstate
        exact (hrecoverable.sound journal (hpast journal hjournal hstate)
          hstate).wanted
      · rfl
    · intro journal hjournal hkey
      rcases hmem journal hjournal with hold | ⟨hsame, _, _⟩
      · exact hold
      · exact absurd hsame hkey
    · intro journal hjournal hkey
      rcases hmem journal hjournal with hold | ⟨_, _, hpayload⟩
      · exact absurd hkey (hunused journal hold)
      · exact hpayload
    · intro path _ _
      rfl
    · intro path _
      rfl
  · have hforeign : forall journal, Foreign operationId
        { s with materializations := s.materializations ++
            [{ operationId, state := .planned
               payload := desired.payload operationId, createdAt := s.clock }] }
          journal -> Foreign operationId s journal :=
      fun journal hother => ⟨hpast journal hother.1 hother.2.1, hother.2⟩
    constructor
    · intro journal hjournal hkey
      rcases hmem journal hjournal with hold | ⟨_, hstate, hpayload⟩
      · exact absurd hkey (hunused journal hold)
      · exact ⟨hstate, hpayload⟩
    · exact h.managed
    · intro journal hother hpath
      exact h.path journal (hforeign journal hother) hpath
    · rcases h.generation with hfree | hverifies
      · left
        intro journal hother
        exact hfree journal (hforeign journal hother)
      · exact .inr hverifies

/-- The journal moves on, and the others stay where they are. -/
theorem Underway.move {next : JournalState}
    (h : Underway ext desired operationId state s)
    (hrecoverable : Recoverable s ->
      Recoverable (s.moveJournal operationId state next)) :
    Contained desired operationId s (s.moveJournal operationId state next) ∧
      Underway ext desired operationId next
        (s.moveJournal operationId state next) := by
  have hforeign : forall journal,
      journal ∈ (s.moveJournal operationId state next).materializations ->
        journal.operationId ≠ operationId -> journal ∈ s.materializations := by
    intro journal hjournal hkey
    rcases LocalState.mem_moveJournal hjournal with
      ⟨hold, _⟩ | ⟨old, _, hstate, rfl⟩
    · exact hold
    · simp only [LocalState.atState, Bool.and_eq_true, decide_eq_true_eq]
        at hstate
      exact absurd hstate.1 hkey
  have hown : forall journal,
      journal ∈ (s.moveJournal operationId state next).materializations ->
        journal.operationId = operationId ->
          journal.state = next ∧ journal.payload = desired.payload operationId := by
    intro journal hjournal hkey
    rcases LocalState.mem_moveJournal hjournal with
      ⟨hold, hcold⟩ | ⟨old, hold, hstate, rfl⟩
    · have hstate := (h.own journal hold hkey).1
      simp [LocalState.atState, hkey, hstate] at hcold
    · exact ⟨rfl, (h.own old hold hkey).2⟩
  constructor
  · constructor
    · exact hrecoverable
    · exact hforeign
    · intro journal hjournal hkey
      exact (hown journal hjournal hkey).2
    · intro path _ _
      rfl
    · intro path _
      rfl
  · have hforeign' : forall journal,
        Foreign operationId (s.moveJournal operationId state next) journal ->
          Foreign operationId s journal :=
      fun journal hother =>
        ⟨hforeign journal hother.1 hother.2.2, hother.2⟩
    constructor
    · exact hown
    · exact h.managed
    · intro journal hother hpath
      exact h.path journal (hforeign' journal hother) hpath
    · rcases h.generation with hfree | hverifies
      · left
        intro journal hother
        exact hfree journal (hforeign' journal hother)
      · exact .inr hverifies

theorem Assertion.advance (hP : Assertion ext desired operationId state P)
    (next : JournalState) {Q : LocalState -> Prop}
    (hQ : Routine.Stable (Undisturbed desired operationId) Q)
    (hrecoverable : forall u, P u -> WantedWhenStaged operationId u ->
      Recoverable u -> Recoverable (u.moveJournal operationId state next))
    (hgoal : forall u, P u ->
      Underway ext desired operationId next
          (u.moveJournal operationId state next) ->
        Q (u.moveJournal operationId state next)) (hs : P s) :
    Tame desired operationId (fun _ => Q) (fun _ => P)
      (advance operationId state next) s := by
  apply hP.act (fun _ => hQ) _ hs
  intro u _ t hu hwanted hadvance
  rcases LocalState.updateMaterializationJournal_eq_ok.mp
    (mapError_eq_ok.mp hadvance) with ⟨_, _, rfl⟩
  have hmove := (hP.underway u hu).move (hrecoverable u hu hwanted)
  exact ⟨hmove.1, hgoal u hu hmove.2⟩

def Present (desired : DesiredSkillMaterialization) (s : LocalState) : Prop :=
  (s.directories desired.generationDir).isSome = true

def Linked (desired : DesiredSkillMaterialization) (s : LocalState) : Prop :=
  s.skills desired.canonicalPath = some (.link desired.generationDir)

theorem Assertion.present : Assertion ext desired operationId state
    fun u => Underway ext desired operationId state u ∧ Present desired u := by
  refine ⟨Routine.Stable.and Underway.stable ?_, fun _ h => h.1⟩
  intro u v hu hothers
  unfold Present
  rw [hothers.generation]
  exact hu

theorem Assertion.linked : Assertion ext desired operationId state
    fun u => Underway ext desired operationId state u ∧ Linked desired u := by
  refine ⟨Routine.Stable.and Underway.stable ?_, fun _ h => h.1⟩
  intro u v hu hothers
  unfold Linked
  rw [hothers.skill]
  exact hu

/-- A directory that is what its manifest says is not empty. -/
theorem verifyTree_ne_nil {name : Text} {manifest : SkillManifest} {tree : Tree}
    (h : verifyTree ext name manifest tree = .ok ()) : tree ≠ [] := by
  rcases bind_eq_ok.mp h with ⟨actual, hactual, _⟩
  rcases bind_eq_ok.mp (mapError_eq_ok.mp hactual) with ⟨skill, hskill, _⟩
  rcases (validateSkillDirectory_eq_ok (mapError_eq_ok.mp hskill)).2 with
    ⟨bytes, executable, hmem, _⟩
  exact List.ne_nil_of_mem hmem

/-- The stage becomes the generation, unless there is one. -/
theorem tame_renameDir (hs : Underway ext desired operationId .staged s) :
    Tame desired operationId
      (fun _ u => Underway ext desired operationId .staged u ∧ Present desired u)
      (fun _ => Underway ext desired operationId .staged)
      (renameDir (desired.stageDir operationId) desired.generationDir) s := by
  apply Assertion.underwayOnly.act (fun _ => Assertion.present.stable) _ hs
  intro u _ t hu _ hrename
  rcases bind_eq_ok.mp hrename with ⟨tree, _, hrename⟩
  rcases bind_eq_ok.mp hrename with ⟨_, hempty, hrename⟩
  cases hrename
  have hfree : Free desired operationId u := by
    rcases hu.generation with hfree | ⟨old, hold, hverifies⟩
    · exact hfree
    · have hnil := ensure_eq_ok.mp hempty
      rw [hold, Option.getD_some, List.isEmpty_iff] at hnil
      exact absurd hnil (verifyTree_ne_nil hverifies)
  have hmoved := hu.setGeneration (.inr rfl) hfree (some tree)
  have hcleared := hmoved.2.quiet (.setStage none)
  have hpresent : Present desired
      ((u.setDirectory desired.generationDir (some tree)).setDirectory
        (desired.stageDir operationId) none) := by
    unfold Present
    rw [LocalState.directories_setDirectory_of_ne GenerationPath.noConfusion,
      LocalState.directories_setDirectory]
    rfl
  refine ⟨?_, hcleared.2, hpresent⟩
  constructor
  · intro hrecoverable
    exact hcleared.1.recoverable (hmoved.1.recoverable hrecoverable)
  · exact hmoved.1.others
  · exact hmoved.1.own
  · intro path hgeneration hstage
    rw [hcleared.1.directories path hgeneration hstage]
    exact hmoved.1.directories path hgeneration hstage
  · exact hmoved.1.skills

theorem tame_renameLink (hs : Underway ext desired operationId .verified s) :
    Tame desired operationId
      (fun _ u => Underway ext desired operationId .verified u ∧ Linked desired u)
      (fun _ => Underway ext desired operationId .verified)
      (renameLink desired.generationDir desired.canonicalPath) s := by
  apply Assertion.underwayOnly.act (fun _ => Assertion.linked.stable) _ hs
  intro u _ t hu _ hrename
  rcases bind_eq_ok.mp hrename with ⟨_, _, hrename⟩
  cases hrename
  have hlinked : Linked desired (u.setSkill desired.canonicalPath
      (some (.link desired.generationDir))) :=
    LocalState.skills_setSkill
  have hpath : forall journal, journal ∈ u.materializations ->
      journal.isPast = true ->
        journal.payload.canonicalPath = desired.canonicalPath ->
          journal.payload.generationDir = desired.generationDir := by
    intro journal hjournal hpast hsame
    by_cases hkey : journal.operationId = operationId
    · rw [(hu.own journal hjournal hkey).2]
      rfl
    · exact hu.path journal ⟨hjournal, hpast, hkey⟩ hsame
  constructor
  · constructor
    · intro hrecoverable
      exact hrecoverable.setLink hpath
    · intro journal hjournal _
      exact hjournal
    · intro journal hjournal hkey
      exact (hu.own journal hjournal hkey).2
    · intro path _ _
      rfl
    · intro path hother
      exact LocalState.skills_setSkill_of_ne hother
  · refine ⟨⟨hu.own, ?_, hu.path, hu.generation⟩, hlinked⟩
    rw [hlinked]
    exact fun hlink => nomatch hlink

theorem tame_finishMaterialization
    (hs : Underway ext desired operationId .verified s) :
    Tame desired operationId (fun _ _ => True) (fun _ _ => True)
      (finishMaterialization operationId (desired.payload operationId)) s := by
  have hcheck := (Assertion.underwayOnly.inspect hs :
    Tame desired operationId _ _ (refuseUnmanaged desired.canonicalPath) s)
  have hswitch : Tame desired operationId
      (fun _ u => Underway ext desired operationId .verified u ∧ Linked desired u)
      (fun _ _ => True)
      (atomicSwitchDirectoryLink desired.generationDir desired.canonicalPath)
      s := by
    apply Routine.Safe.weaken (hcheck.bind fun _ u hu => tame_renameLink hu)
    · exact fun _ _ h => h
    · exact fun _ _ _ => trivial
  apply Routine.Safe.bind hswitch
  intro _ u hu
  apply Routine.Safe.bind
  · apply Routine.Safe.weaken (Assertion.linked.advance
      .switched Underway.stable _ (fun _ _ h => h) hu)
    · exact fun _ _ h => h
    · exact fun _ _ _ => trivial
    · intro v hv _ hrecoverable
      apply hrecoverable.switch
      intro journal hjournal hkey _
      rw [(hv.1.own journal hjournal hkey).2]
      exact hv.2
  · intro _ v hv
    apply Routine.Safe.bind
    · apply Routine.Safe.weaken (Assertion.underwayOnly.keep _ hv)
      · exact fun _ _ h => h
      · exact fun _ _ _ => trivial
      · intro w _ t hw hmark
        rcases LocalState.markSkillMaterialized_eq_ok.mp
          (mapError_eq_ok.mp hmark) with ⟨_, rfl⟩
        exact hw.quiet
          ⟨rfl, rfl, fun _ _ => LocalState.wants_stamp, fun _ _ => rfl⟩
    · intro _ w hw
      apply Routine.Safe.weaken (Assertion.underwayOnly.advance
        .complete Underway.stable _ (fun _ _ h => h) hw)
      · exact fun _ _ _ => trivial
      · exact fun _ _ _ => trivial
      · intro x _ _ hrecoverable
        exact hrecoverable.moveBack JournalState.noConfusion (.inr rfl)

theorem tame_writeStage {entries : List OwnedSkillEntry} {ready : Bool}
    (hs : Underway ext desired operationId .planned s) :
    Tame desired operationId
      (fun _ => Underway ext desired operationId .planned) (fun _ _ => True)
      (writeStage ext desired entries operationId ready) s := by
  cases ready with
  | true => exact Routine.Safe.pure Underway.stable hs
  | false =>
      have hremoved := Assertion.underwayOnly.removeDirAll
        (desired.stageDir operationId)
        (fun u tree hu => hu.quiet (.setStage tree)) hs
      apply (Routine.Safe.ignore Underway.stable hremoved).bind
      intro _ u hu
      exact (tame_writeGeneration hu).forget

theorem tame_moveStage (hs : Underway ext desired operationId .staged s) :
    Tame desired operationId
      (fun _ u => Underway ext desired operationId .staged u ∧ Present desired u)
      (fun _ _ => True) (moveStage ext desired operationId) s := by
  apply (Assertion.underwayOnly.isDir hs).forget.bind
  intro found u hu
  cases found with
  | true =>
      exact Routine.Safe.pure Assertion.present.stable ⟨hu.1, hu.2 rfl⟩
  | false =>
      apply (Assertion.underwayOnly.inspect hu.1).forget.bind
      intro _ v hv
      exact (tame_renameDir hv).forget

/-- Wherever a materialization is stopped, recovery is possible. -/
theorem tame_materializeWithLease {entries : List OwnedSkillEntry}
    (hs : Underway ext desired operationId .planned s) :
    Tame desired operationId (fun _ _ => True) (fun _ _ => True)
      (materializeWithLease ext desired entries operationId) s := by
  have hcreate : Tame desired operationId
      (fun _ => Underway ext desired operationId .planned)
      (fun _ => Underway ext desired operationId .planned)
      (transaction fun s => s.createMaterializationJournal operationId
        (desired.payload operationId)) s := by
    apply Assertion.underwayOnly.keep _ hs
    intro u _ t hu hcreate
    exact hu.createJournal (mapError_eq_ok.mp hcreate)
  apply hcreate.forget.bind
  intro _ u hu
  apply (tame_generationReady hu).bind
  intro ready v hv
  apply (tame_writeStage hv).bind
  intro _ w hw
  apply (Assertion.underwayOnly.advance .staged Underway.stable
    (fun _ _ _ hrecoverable =>
      hrecoverable.moveBack JournalState.noConfusion (.inl rfl))
    (fun _ _ h => h) hw).forget.bind
  intro _ x hx
  apply (tame_moveStage hx).bind
  intro _ y hy
  apply (Assertion.present.advance .verified Underway.stable
    _ (fun _ _ h => h) hy).forget.bind
  · intro _ z hz
    apply (tame_finishMaterialization hz).bind
    intro _ last _
    exact Routine.Safe.pure (fun _ _ _ _ => trivial) trivial
  · intro z hz hwanted hrecoverable
    apply hrecoverable.verify hwanted
    · intro journal hjournal hkey
      exact (hz.1.own journal hjournal hkey).2
    · exact hz.2
    · exact hz.1.managed
    · intro journal hjournal hpast hpath
      apply hz.1.path journal ⟨hjournal, hpast, fun hkey => ?_⟩ hpath
      have hstate := (hz.1.own journal hjournal hkey).1
      simp [MaterializationJournal.isPast, hstate] at hpast

end Underway

/-!
## Devices

A device runs any number of materializations.  One operation happens at a time,
or fails, and a materialization may be stopped for good between two of its
operations.  The desired rows change at any time.
-/

structure RunningMaterialization where
  operationId : OperationId
  desired : DesiredSkillMaterialization
  routine : LocalRoutine GenerationPath

structure Device where
  store : LocalState
  running : List RunningMaterialization

inductive DeviceEvent where
  | start (desired : DesiredSkillMaterialization)
      (entries : List OwnedSkillEntry) (operationId : OperationId)
  | act (operationId : OperationId)
  | fault (operationId : OperationId)
  | stop (operationId : OperationId)
  | rows (subscriptions : List SubscriptionRecord)
      (ownedSkills : List OwnedSkillRecord)
      (packSkills : List PackMaterializedSkillRecord)
      (suppressions : List (SuppressedKind × ResourceId))
  | tick (clock : Nat)

def LocalState.setRows (subscriptions : List SubscriptionRecord)
    (ownedSkills : List OwnedSkillRecord)
    (packSkills : List PackMaterializedSkillRecord)
    (suppressions : List (SuppressedKind × ResourceId)) (s : LocalState) :
    LocalState :=
  { s with subscriptions, ownedSkills, packSkills, suppressions }

namespace Device

def idle (store : LocalState) : Device :=
  { store, running := [] }

variable (ext) in
def next (device : Device) : DeviceEvent -> Device
  | .start desired entries operationId =>
      { device with
        running := device.running ++
          [{ operationId, desired
             routine := materializeWithLease ext desired entries operationId }] }
  | .act operationId =>
      match device.running.find? fun current =>
          current.operationId = operationId with
      | none => device
      | some current =>
          { store := (current.routine.perform device.store).2
            running := updateWhere (fun row => row.operationId = operationId)
              (fun row => { row with
                routine := (current.routine.perform device.store).1 })
              device.running }
  | .fault operationId =>
      match device.running.find? fun current =>
          current.operationId = operationId with
      | none => device
      | some current =>
          { device with
            running := updateWhere (fun row => row.operationId = operationId)
              (fun row => { row with routine := current.routine.faulted })
              device.running }
  | .stop operationId =>
      { device with
        running := deleteWhere (fun row => row.operationId = operationId)
          device.running }
  | .rows subscriptions ownedSkills packSkills suppressions =>
      { device with
        store := device.store.setRows subscriptions ownedSkills packSkills
          suppressions }
  | .tick clock => { device with store := { device.store with clock } }

variable (ext) in
/-- An operation identifier is new, and the entries are what the manifest says. -/
def Allows (device : Device) : DeviceEvent -> Prop
  | .start desired entries operationId =>
      device.store.operationTaken operationId = false ∧
        (forall row, row ∈ device.running -> row.operationId ≠ operationId) ∧
          buildSkillManifest ext desired.skillName entries =
            .ok desired.manifest
  | _ => True

variable (ext) in
/-- A materialization starts where no other uses its generation or its path, and
a verified journal never lacks a row that wants its revision. -/
def KeepsJournals (device : Device) : DeviceEvent -> Prop
  | .start desired _ _ =>
      device.store.skills desired.canonicalPath ≠ some .unmanaged ∧
        (forall row, row ∈ device.running ->
          row.desired.generationDir ≠ desired.generationDir ∧
            row.desired.canonicalPath ≠ desired.canonicalPath) ∧
          forall journal, journal ∈ device.store.materializations ->
            journal.isPast = true ->
              (journal.payload.canonicalPath = desired.canonicalPath ->
                journal.payload.generationDir = desired.generationDir) ∧
                (journal.payload.generationDir = desired.generationDir ->
                  Verifies ext desired device.store)
  | .act operationId => WantedWhenStaged operationId device.store
  | .rows subscriptions ownedSkills packSkills suppressions =>
      forall journal, journal ∈ device.store.materializations ->
        journal.isPast = true ->
          (device.store.setRows subscriptions ownedSkills packSkills
            suppressions).wants journal.payload.resourceId
              journal.payload.revisionId = true
  | _ => True

instance {desired : DesiredSkillMaterialization} {s : LocalState} :
    Decidable (Verifies ext desired s) :=
  match htree : s.directories desired.generationDir with
  | none => .isFalse fun ⟨_, hsome, _⟩ => by
      rw [htree] at hsome
      cases hsome
  | some tree =>
      decidable_of_iff
        (verifyTree ext desired.skillName desired.manifest tree = .ok ()) <| by
        constructor
        · intro hverifies
          exact ⟨tree, htree, hverifies⟩
        · rintro ⟨other, hother, hverifies⟩
          rw [htree] at hother
          cases hother
          exact hverifies

instance {operationId : OperationId} {s : LocalState} :
    Decidable (WantedWhenStaged operationId s) := by
  unfold WantedWhenStaged
  exact inferInstance

instance : forall (device : Device) (event : DeviceEvent),
    Decidable (device.Allows ext event)
  | _, .start _ _ _ => inferInstanceAs (Decidable (_ ∧ _ ∧ _))
  | _, .act _ => .isTrue trivial
  | _, .fault _ => .isTrue trivial
  | _, .stop _ => .isTrue trivial
  | _, .rows _ _ _ _ => .isTrue trivial
  | _, .tick _ => .isTrue trivial

instance : forall (device : Device) (event : DeviceEvent),
    Decidable (device.KeepsJournals ext event)
  | _, .start _ _ _ => inferInstanceAs (Decidable (_ ∧ _ ∧ _))
  | _, .act _ => inferInstanceAs (Decidable (WantedWhenStaged _ _))
  | _, .fault _ => .isTrue trivial
  | _, .stop _ => .isTrue trivial
  | _, .rows _ _ _ _ => inferInstanceAs (Decidable (forall _, _ -> _))
  | _, .tick _ => .isTrue trivial

end Device

/-!
## Every run keeps recovery possible
-/

structure DeviceSound (device : Device) : Prop where
  recoverable : Recoverable device.store
  keys : (device.running.map RunningMaterialization.operationId).Nodup
  apart : forall one other, one ∈ device.running -> other ∈ device.running ->
    one.operationId ≠ other.operationId ->
      one.desired.generationDir ≠ other.desired.generationDir ∧
        one.desired.canonicalPath ≠ other.desired.canonicalPath
  tame : forall current, current ∈ device.running ->
    Tame current.desired current.operationId (fun _ _ => True)
      (fun _ _ => True) current.routine device.store

section Device

variable {device : Device} {s t : LocalState}

/-- What one materialization does, another with its own generation and path does
not notice. -/
theorem Contained.undisturbed {desired other : DesiredSkillMaterialization}
    {operationId otherId : OperationId}
    (h : Contained desired operationId s t) (hkey : operationId ≠ otherId)
    (hgeneration : desired.generationDir ≠ other.generationDir)
    (hpath : desired.canonicalPath ≠ other.canonicalPath) :
    Undisturbed other otherId s t := by
  constructor
  · intro journal hjournal htouch
    by_cases hown : journal.operationId = operationId
    · have hpayload := h.own journal hjournal hown
      rw [hown, hpayload] at htouch
      rcases htouch with hsame | hsame | hsame
      · exact absurd hsame hkey
      · exact absurd hsame hpath
      · exact absurd hsame hgeneration
    · exact h.others journal hjournal hown
  · exact h.directories _ hgeneration.symm GenerationPath.noConfusion
  · exact h.skills _ fun hsame => hpath hsame.symm

/-- A change of rows, or of the clock. -/
theorem DeviceSound.change (h : DeviceSound device)
    (hjournals : t.materializations = device.store.materializations)
    (hskills : t.skills = device.store.skills)
    (hdirectories : t.directories = device.store.directories)
    (hwants : forall journal, journal ∈ device.store.materializations ->
      journal.isPast = true ->
        t.wants journal.payload.resourceId journal.payload.revisionId = true) :
    DeviceSound { device with store := t } where
  recoverable := by
    apply h.recoverable.mono
    · rw [hjournals]
      exact h.recoverable.keys
    · rw [hjournals]
      exact h.recoverable.payloads
    · intro journal hjournal _
      rw [← hjournals]
      exact hjournal
    · intro journal _ _ hpresent
      rw [hdirectories]
      exact hpresent
    · intro journal hjournal hpast
      rw [hjournals] at hjournal
      exact hwants journal hjournal hpast
    · exact hskills
  keys := h.keys
  apart := h.apart
  tame := by
    intro current hcurrent
    apply (h.tame current hcurrent).others
    apply Relation.ReflTransGen.single
    constructor
    · intro journal hjournal _
      rw [← hjournals]
      exact hjournal
    · rw [hdirectories]
    · rw [hskills]

/-- A routine of the device is replaced by what it becomes, and nobody else
notices the change of the state. -/
theorem DeviceSound.replace (h : DeviceSound device)
    {current : RunningMaterialization} (hcurrent : current ∈ device.running)
    {routine : LocalRoutine GenerationPath}
    (hrecoverable : Recoverable t)
    (htame : Tame current.desired current.operationId (fun _ _ => True)
      (fun _ _ => True) routine t)
    (hothers : forall other, other ∈ device.running ->
      other.operationId ≠ current.operationId ->
        Relation.ReflTransGen (Undisturbed other.desired other.operationId)
          device.store t) :
    DeviceSound
      { store := t
        running := updateWhere
          (fun row => row.operationId = current.operationId)
          (fun row => { row with routine }) device.running } := by
  have hrow : forall row, row ∈ updateWhere
        (fun row => row.operationId = current.operationId)
        (fun row : RunningMaterialization => { row with routine })
          device.running ->
      exists old, old ∈ device.running ∧ row.operationId = old.operationId ∧
        row.desired = old.desired ∧
          ((old.operationId = current.operationId ∧ row.routine = routine) ∨
            (old.operationId ≠ current.operationId ∧ row = old)) := by
    intro row hrow
    rcases mem_updateWhere.mp hrow with ⟨old, hold, hsame⟩
    refine ⟨old, hold, ?_⟩
    by_cases hkey : old.operationId = current.operationId
    · rw [if_pos (by simpa using hkey)] at hsame
      rw [← hsame]
      exact ⟨rfl, rfl, .inl ⟨hkey, rfl⟩⟩
    · rw [if_neg (by simpa using hkey)] at hsame
      rw [← hsame]
      exact ⟨rfl, rfl, .inr ⟨hkey, rfl⟩⟩
  constructor
  · exact hrecoverable
  · have hsame : (updateWhere (fun row => row.operationId = current.operationId)
        (fun row : RunningMaterialization => { row with routine })
          device.running).map RunningMaterialization.operationId =
        device.running.map RunningMaterialization.operationId := by
      unfold updateWhere
      rw [List.map_map]
      apply List.map_congr_left
      intro row _
      show (if _ then _ else row).operationId = row.operationId
      split
      · rfl
      · rfl
    rw [hsame]
    exact h.keys
  · intro one other hone hother hkeys
    rcases hrow one hone with ⟨oldOne, holdOne, hkeyOne, hdesiredOne, _⟩
    rcases hrow other hother with ⟨old, hold, hkey, hdesired, _⟩
    rw [hdesiredOne, hdesired]
    apply h.apart oldOne old holdOne hold
    rw [← hkeyOne, ← hkey]
    exact hkeys
  · intro row hmem
    rcases hrow row hmem with ⟨old, hold, hkey, hdesired, hcase⟩
    rcases hcase with ⟨hsame, hroutine⟩ | ⟨hother, rfl⟩
    · have hself : old = current :=
        List.inj_on_of_nodup_map h.keys hold hcurrent hsame
      rw [hkey, hdesired, hroutine, hself]
      exact htame
    · exact (h.tame row hold).others (hothers row hold hother)

/-- One event keeps recovery possible. -/
theorem DeviceSound.next (h : DeviceSound device) {event : DeviceEvent}
    (hallows : device.Allows ext event)
    (hkeeps : device.KeepsJournals ext event) :
    DeviceSound (device.next ext event) := by
  cases event with
  | start desired entries operationId =>
      rcases hallows with ⟨hfree, hfresh, _⟩
      rcases hkeeps with ⟨hmanaged, hapart, hjournals⟩
      have hunused : forall journal, journal ∈ device.store.materializations ->
          journal.operationId ≠ operationId := by
        simp only [LocalState.operationTaken, Bool.or_eq_false_iff,
          List.any_eq_false, decide_eq_true_eq] at hfree
        exact hfree.1
      have hunder : Underway ext desired operationId .planned device.store := by
        constructor
        · intro journal hjournal hkey
          exact absurd hkey (hunused journal hjournal)
        · exact hmanaged
        · intro journal hforeign hpath
          exact (hjournals journal hforeign.1 hforeign.2.1).1 hpath
        · by_cases hverifies : Verifies ext desired device.store
          · exact .inr hverifies
          · left
            intro journal hforeign hsame
            exact hverifies
              ((hjournals journal hforeign.1 hforeign.2.1).2 hsame)
      have hrow : forall row, row ∈ device.running ++
          [{ operationId, desired
             routine := materializeWithLease ext desired entries operationId }] ->
            row ∈ device.running ∨
              row = { operationId, desired
                      routine := materializeWithLease ext desired entries
                        operationId } := by
        intro row hrow
        rcases List.mem_append.mp hrow with hold | hnew
        · exact .inl hold
        · exact .inr (List.mem_singleton.mp hnew)
      constructor
      · exact h.recoverable
      · show (List.map _ (_ ++ _)).Nodup
        rw [List.map_append, List.nodup_append]
        refine ⟨h.keys, List.nodup_singleton _, ?_⟩
        intro key hkey other hother
        rcases List.mem_map.mp hkey with ⟨row, hmem, rfl⟩
        rw [List.mem_singleton.mp hother]
        exact hfresh row hmem
      · intro one other hone hother hkeys
        rcases hrow one hone with holdOne | rfl
        · rcases hrow other hother with hold | rfl
          · exact h.apart one other holdOne hold hkeys
          · exact hapart one holdOne
        · rcases hrow other hother with hold | rfl
          · have hsides := hapart other hold
            exact ⟨fun hsame => hsides.1 hsame.symm,
              fun hsame => hsides.2 hsame.symm⟩
          · exact absurd rfl hkeys
      · intro row hmem
        rcases hrow row hmem with hold | rfl
        · exact h.tame row hold
        · exact tame_materializeWithLease hunder
  | act operationId =>
      cases hfind : device.running.find? fun current =>
          current.operationId = operationId with
      | none =>
          simp only [Device.next, hfind]
          exact h
      | some current =>
          have hcurrent := List.mem_of_find?_eq_some hfind
          have hkey : current.operationId = operationId := by
            simpa using List.find?_some hfind
          have hwanted : WantedWhenStaged operationId device.store := hkeeps
          simp only [Device.next, hfind]
          rw [← hkey] at hwanted ⊢
          rcases (h.tame current hcurrent).perform hwanted with
            hidle | ⟨hcontained, htame⟩
          · have hidle' : current.routine.perform device.store =
                (current.routine, device.store) := hidle
            simp only [hidle']
            exact h.replace hcurrent h.recoverable (h.tame current hcurrent)
              fun _ _ _ => .refl
          · apply h.replace hcurrent (hcontained.recoverable h.recoverable) htame
            intro other hother hkeys
            have hsides := h.apart current other hcurrent hother hkeys.symm
            exact .single (hcontained.undisturbed hkeys.symm hsides.1 hsides.2)
  | fault operationId =>
      cases hfind : device.running.find? fun current =>
          current.operationId = operationId with
      | none =>
          simp only [Device.next, hfind]
          exact h
      | some current =>
          have hcurrent := List.mem_of_find?_eq_some hfind
          have hkey : current.operationId = operationId := by
            simpa using List.find?_some hfind
          simp only [Device.next, hfind]
          rw [← hkey]
          exact h.replace hcurrent h.recoverable
            (h.tame current hcurrent).faulted fun _ _ _ => .refl
  | stop operationId =>
      have hsub : forall row, row ∈ deleteWhere
          (fun row : RunningMaterialization => row.operationId = operationId)
            device.running -> row ∈ device.running :=
        fun row hrow => (mem_deleteWhere.mp hrow).1
      constructor
      · exact h.recoverable
      · exact h.keys.sublist (List.filter_sublist.map _)
      · intro one other hone hother
        exact h.apart one other (hsub one hone) (hsub other hother)
      · intro row hrow
        exact h.tame row (hsub row hrow)
  | rows subscriptions ownedSkills packSkills suppressions =>
      exact h.change rfl rfl rfl hkeeps
  | tick clock =>
      exact h.change (t := { device.store with clock }) rfl rfl rfl
        fun journal hjournal hpast =>
          (h.recoverable.sound journal hjournal hpast).wanted

end Device

theorem DeviceSound.idle {store : LocalState}
    (hkeys : (store.materializations.map
      MaterializationJournal.operationId).Nodup)
    (hjournals : store.materializationJournals = []) :
    DeviceSound (Device.idle store) := by
  have hcomplete : forall journal, journal ∈ store.materializations ->
      journal.state = .complete := by
    intro journal hjournal
    by_contra hstate
    have hmem := LocalState.mem_materializationJournals.mpr ⟨hjournal, hstate⟩
    rw [hjournals] at hmem
    exact List.not_mem_nil hmem
  constructor
  · constructor
    · exact hkeys
    · intro journal hjournal hstate
      exact absurd (hcomplete journal hjournal) hstate
    · intro journal hjournal hpast
      exact absurd (hcomplete journal hjournal)
        (MaterializationJournal.incomplete_of_isPast hpast)
  · exact List.nodup_nil
  · intro _ _ hone
    exact absurd hone List.not_mem_nil
  · intro _ hcurrent
    exact absurd hcurrent List.not_mem_nil

/-- From a state without open journals on, recovery succeeds after every run
that keeps a row for each verified journal and does not use a path or a
generation twice, wherever its materializations have been stopped. -/
theorem recoverMaterializations_completes {store : LocalState}
    {events : List DeviceEvent} {device : Device}
    (hkeys : (store.materializations.map
      MaterializationJournal.operationId).Nodup)
    (hjournals : store.materializationJournals = [])
    (hrun : Run (Guarded (fun device event => device.Allows ext event ∧
        device.KeepsJournals ext event) (Device.next ext))
      (Device.idle store) events device) :
    exists t, recoverMaterializations.run device.store = (.ok (), t) ∧
      t.materializationJournals = [] := by
  have hsound : DeviceSound device := by
    apply hrun.invariant (P := DeviceSound) (DeviceSound.idle hkeys hjournals)
    intro s event t hs hstep
    rcases hstep with ⟨⟨hallows, hkeeps⟩, rfl⟩
    exact hs.next hallows hkeeps
  exact hsound.recoverable.recover

/-- A materialization that is stopped behind the verified state. -/
def Sample.stopped : List DeviceEvent :=
  .start Sample.desired Sample.entries (Sample.deviceOperation 1) ::
    List.replicate 6 (.act (Sample.deviceOperation 1)) ++
      [.stop (Sample.deviceOperation 1)]

theorem recoverMaterializations_completes_stopped :
    exists t, recoverMaterializations.run
        (Sample.stopped.foldl (Device.next Denju.Sample.externals)
          (Device.idle Sample.store)).store = (.ok (), t) ∧
      t.materializationJournals = [] :=
  recoverMaterializations_completes (by decide) (by decide)
    (Run.guarded_of_all (by decide +kernel))

/-- The skill is unsubscribed before recovery comes to the journal: from then on
every recovery fails. -/
theorem recoverMaterializations_blocked :
    exists device,
      Run (Guarded (fun device event =>
          device.Allows Denju.Sample.externals event)
          (Device.next Denju.Sample.externals))
        (Device.idle Sample.store)
        (Sample.stopped ++ [.rows [] [] [] []]) device ∧
      (recoverMaterializations.run device.store).1 =
        .error (.database .queryReturnedNoRows) ∧
      (recoverMaterializations.run
        (recoverMaterializations.run device.store).2).1 =
          .error (.database .queryReturnedNoRows) := by
  refine ⟨_, Run.guarded_of_all (by decide +kernel), ?_⟩
  decide +kernel


end Denju.Local
