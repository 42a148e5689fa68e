import Denju.Registry.ReleaseOrder

/-!
# The history of packs

The versions of a pack are numbered without a gap, and none of them ever
changes.  One that a release made is the version before it with this release of
one skill.
-/

namespace Denju

open Lib

namespace Db

variable {db db' db'' : Db} {pack next : PackRow} {packId : Uuid}

/-!
## Reading a version back
-/

section Reading

variable {version other generation : Generation}
  {members : List ResolvedPackMember} {source : Option Nat}

theorem resolved_packMemberRows :
    (packMemberRows packId version members).map
      PackRevisionMemberRow.resolved = members := by
  unfold packMemberRows
  rw [List.map_map]
  exact List.zipIdx_map_fst 0 members

theorem packMemberRows_pairwise :
    (packMemberRows packId version members).Pairwise
      (keyLe PackRevisionMemberRow.ordinal) := by
  have hordinals : ((packMemberRows packId version members).map
      PackRevisionMemberRow.ordinal) = List.range' 0 members.length := by
    unfold packMemberRows
    rw [List.map_map]
    exact List.zipIdx_map_snd 0 members
  have hsorted : (List.range' 0 members.length).Pairwise fun a b => a < b :=
    List.pairwise_lt_range'
  rw [← hordinals] at hsorted
  exact (List.pairwise_map.mp hsorted).imp Nat.le_of_lt

theorem mem_packMemberRows {row : PackRevisionMemberRow}
    (h : row ∈ packMemberRows packId version members) :
    row.packResourceId = packId ∧ row.packVersion = version := by
  rcases List.mem_map.mp h with ⟨member, _, hrow⟩
  rw [← hrow]
  exact ⟨rfl, rfl⟩

/-- A new version reads as it was written. -/
theorem loadPackRevisionMembers_written
    (hfree : forall row, row ∈ db.packRevisionMembers ->
      row.packResourceId = packId -> row.packVersion ≠ version) :
    (db.writePackVersion packId version generation members
      source).loadPackRevisionMembers packId version = members := by
  have hold : db.packRevisionMembers.filter (fun row =>
      row.packResourceId = packId ∧ row.packVersion = version) = [] := by
    rw [List.filter_eq_nil_iff]
    intro row hrow hsame
    simp only [decide_eq_true_eq] at hsame
    exact hfree row hrow hsame.1 hsame.2
  have hnew : (packMemberRows packId version members).filter (fun row =>
      row.packResourceId = packId ∧ row.packVersion = version) =
        packMemberRows packId version members := by
    rw [List.filter_eq_self]
    intro row hrow
    simpa using mem_packMemberRows hrow
  unfold loadPackRevisionMembers packVersionRows
  show (sortByKey PackRevisionMemberRow.ordinal
    ((db.packRevisionMembers ++ _).filter _)).map _ = members
  rw [List.filter_append, hold, hnew, List.nil_append,
    sortByKey_eq_self packMemberRows_pairwise]
  exact resolved_packMemberRows

theorem loadPackRevisionMembers_kept {otherId : Uuid}
    (hother : otherId = packId -> other ≠ version) :
    (db.writePackVersion packId version generation members
      source).loadPackRevisionMembers otherId other =
        db.loadPackRevisionMembers otherId other := by
  have hnew : (packMemberRows packId version members).filter (fun row =>
      row.packResourceId = otherId ∧ row.packVersion = other) = [] := by
    rw [List.filter_eq_nil_iff]
    intro row hrow hsame
    simp only [decide_eq_true_eq] at hsame
    rcases mem_packMemberRows hrow with ⟨hpack, hversion⟩
    exact hother (hsame.1.symm.trans hpack) (hsame.2.symm.trans hversion)
  unfold loadPackRevisionMembers packVersionRows
  show (sortByKey PackRevisionMemberRow.ordinal
    ((db.packRevisionMembers ++ _).filter _)).map _ = _
  rw [List.filter_append, hnew, List.append_nil]

end Reading

/-!
## What holds of every version
-/

/-- The version is the one before it with the release of the event. -/
structure MadeBy (db : Db) (row : PackRevisionRow) (event : PackReleaseEvent) :
    Prop where
  visible : event ∈ db.releaseEvents
  made : exists before resolved : Generation,
    before.value + 1 = row.version.value ∧
      resolved.value = event.releaseVersion ∧
      (exists member, member ∈
          db.loadPackRevisionMembers row.packResourceId before ∧
        member.skillResourceId = event.skillResourceId) ∧
      db.loadPackRevisionMembers row.packResourceId row.version =
        (db.loadPackRevisionMembers row.packResourceId before).map
          (setResolved event resolved)

/-- The versions of every pack are numbered up to its current one. -/
structure PackHistory (db : Db) : Prop where
  stated : forall row, row ∈ db.packRevisions -> exists state,
    db.packState row.packResourceId = some state ∧
      row.version.value ≤ state.currentVersion.value
  numbered : forall packId state, db.packState packId = some state ->
    forall number, 0 < number -> number ≤ state.currentVersion.value ->
      exists row, row ∈ db.packRevisions ∧ row.packResourceId = packId ∧
        row.version.value = number
  key : (db.packRevisions.map fun row =>
    (row.packResourceId, row.version)).Nodup
  placed : forall member, member ∈ db.packRevisionMembers -> exists row,
    row ∈ db.packRevisions ∧ row.packResourceId = member.packResourceId ∧
      row.version = member.packVersion
  explained : forall row past, row ∈ db.packRevisions ->
    row.sourceReleaseEventId = some past -> exists event,
      event.id = past ∧ db.MadeBy row event

/-- A transaction that only adds to the history of packs. -/
structure KeepsHistory (db db' : Db) : Prop where
  events : db.authorityEvents <+: db'.authorityEvents
  history : PackHistory db -> PackHistory db'
  versions : PackHistory db -> forall row, row ∈ db.packRevisions ->
    row ∈ db'.packRevisions ∧
      db'.loadPackRevisionMembers row.packResourceId row.version =
        db.loadPackRevisionMembers row.packResourceId row.version

theorem mem_releaseEvents_of_prefix
    (h : db.authorityEvents <+: db'.authorityEvents)
    {event : PackReleaseEvent} (hevent : event ∈ db.releaseEvents) :
    event ∈ db'.releaseEvents := by
  unfold releaseEvents at hevent ⊢
  rcases List.mem_filterMap.mp hevent with ⟨row, hrow, hread⟩
  exact List.mem_filterMap.mpr ⟨row, h.subset hrow, hread⟩

theorem MadeBy.keep {row : PackRevisionRow} {event : PackReleaseEvent}
    (h : db.MadeBy row event)
    (hevents : db.authorityEvents <+: db'.authorityEvents)
    (hloads : forall version : Generation,
      version.value ≤ row.version.value ->
        db'.loadPackRevisionMembers row.packResourceId version =
          db.loadPackRevisionMembers row.packResourceId version) :
    db'.MadeBy row event where
  visible := mem_releaseEvents_of_prefix hevents h.visible
  made := by
    rcases h.made with ⟨before, resolved, hnext, hrelease, hmember, hmade⟩
    have hbefore : before.value ≤ row.version.value := by
      rw [← hnext]
      exact Nat.le_succ _
    refine ⟨before, resolved, hnext, hrelease, ?_, ?_⟩
    · rw [hloads before hbefore]
      exact hmember
    · rw [hloads before hbefore, hloads row.version (Nat.le_refl _)]
      exact hmade

namespace KeepsHistory

theorem refl (db : Db) : KeepsHistory db db :=
  ⟨List.prefix_rfl, id, fun _ _ hrow => ⟨hrow, rfl⟩⟩

theorem trans (h : KeepsHistory db db') (h' : KeepsHistory db' db'') :
    KeepsHistory db db'' where
  events := h.events.trans h'.events
  history := fun hdb => h'.history (h.history hdb)
  versions := by
    intro hdb row hrow
    rcases h.versions hdb row hrow with ⟨hkept, hsame⟩
    rcases h'.versions (h.history hdb) row hkept with ⟨hkept', hsame'⟩
    exact ⟨hkept', hsame'.trans hsame⟩

end KeepsHistory

/-- The tables of versions stay as they are. -/
structure KeepsVersions (db db' : Db) : Prop where
  revisions : db'.packRevisions = db.packRevisions
  members : db'.packRevisionMembers = db.packRevisionMembers
  states : db'.packStates = db.packStates
  events : db.authorityEvents <+: db'.authorityEvents

namespace KeepsVersions

theorem refl (db : Db) : KeepsVersions db db :=
  ⟨rfl, rfl, rfl, List.prefix_rfl⟩

theorem trans (h : KeepsVersions db db') (h' : KeepsVersions db' db'') :
    KeepsVersions db db'' where
  revisions := h'.revisions.trans h.revisions
  members := h'.members.trans h.members
  states := h'.states.trans h.states
  events := h.events.trans h'.events

/-- One more event. -/
theorem event (h : KeepsVersions db db') {row : AuthorityEventRow}
    {sequence : Nat} :
    KeepsVersions db { db' with
      authorityEvents := db'.authorityEvents ++ [row]
      authorityEventSequence := sequence } :=
  h.trans ⟨rfl, rfl, rfl, List.prefix_append _ _⟩

theorem wake (h : KeepsVersions db db') {id : Uuid} {generation : Nat} :
    KeepsVersions db (db'.enqueueResourceWake id generation) :=
  h.event

theorem load (h : KeepsVersions db db') (packId : Uuid)
    (version : Generation) : db'.loadPackRevisionMembers packId version =
      db.loadPackRevisionMembers packId version := by
  unfold loadPackRevisionMembers packVersionRows
  rw [h.members]

theorem keepsHistory (h : KeepsVersions db db') : KeepsHistory db db' where
  events := h.events
  history := by
    intro hdb
    have hstate : forall id, db'.packState id = db.packState id := by
      intro id
      unfold packState
      rw [h.states]
    constructor
    · intro row hrow
      rw [h.revisions] at hrow
      rw [hstate]
      exact hdb.stated row hrow
    · intro packId state hfound
      rw [hstate] at hfound
      rw [h.revisions]
      exact hdb.numbered packId state hfound
    · rw [h.revisions]
      exact hdb.key
    · intro member hmember
      rw [h.members] at hmember
      rw [h.revisions]
      exact hdb.placed member hmember
    · intro row past hrow hsource
      rw [h.revisions] at hrow
      rcases hdb.explained row past hrow hsource with ⟨event, hid, hmade⟩
      exact ⟨event, hid,
        hmade.keep h.events fun version _ => h.load _ version⟩
  versions := by
    intro _ row hrow
    rw [h.revisions]
    exact ⟨hrow, h.load _ _⟩

end KeepsVersions

/-!
## The next version
-/

theorem PackHistory.beyond (h : PackHistory db) (hat : db.AtVersion pack)
    {version : Generation} (hless : pack.currentVersion.value < version.value)
    {row : PackRevisionRow} (hrow : row ∈ db.packRevisions)
    (hpack : row.packResourceId = pack.id) :
    row.version.value < version.value := by
  rcases hat with ⟨state, hstate, hcurrent⟩
  rcases h.stated row hrow with ⟨found, hfound, hle⟩
  rw [hpack, hstate] at hfound
  cases hfound
  rw [hcurrent] at hle
  exact Nat.lt_of_le_of_lt hle hless

theorem writePackVersion_keepsHistory {version generation : Generation}
    {members : List ResolvedPackMember} {source : Option Nat}
    (hat : db.AtVersion pack)
    (hnext : pack.currentVersion.checkedSucc = some version)
    (hsource : forall past, source = some past -> exists event resolved,
      event ∈ db.releaseEvents ∧ event.id = past ∧
        resolved.value = event.releaseVersion ∧
        (exists member, member ∈
            db.loadPackRevisionMembers pack.id pack.currentVersion ∧
          member.skillResourceId = event.skillResourceId) ∧
        members = (db.loadPackRevisionMembers pack.id
          pack.currentVersion).map (setResolved event resolved)) :
    KeepsHistory db
      (db.writePackVersion pack.id version generation members source) := by
  have hsucc : version.value = pack.currentVersion.value + 1 :=
    Generation.checkedSucc_eq_some hnext
  have hless : pack.currentVersion.value < version.value := by
    rw [hsucc]
    exact Nat.lt_succ_self _
  have hevents : db.authorityEvents <+:
      (db.writePackVersion pack.id version generation members
        source).authorityEvents := List.prefix_rfl
  have hkept : PackHistory db -> forall row, row ∈ db.packRevisions ->
      forall other : Generation, other.value ≤ row.version.value ->
        (db.writePackVersion pack.id version generation members
            source).loadPackRevisionMembers row.packResourceId other =
          db.loadPackRevisionMembers row.packResourceId other := by
    intro hdb row hrow other hle
    refine loadPackRevisionMembers_kept ?_
    intro hpack hsame
    have hlt := hdb.beyond hat hless hrow hpack
    rw [hsame] at hle
    exact absurd hlt (Nat.not_lt_of_le hle)
  refine ⟨hevents, ?_, ?_⟩
  · intro hdb
    rcases hat with ⟨state, hstate, hcurrent⟩
    have hat : db.AtVersion pack := ⟨state, hstate, hcurrent⟩
    have hstateId : state.resourceId = pack.id := by
      simpa using List.find?_some hstate
    have hstated : (db.writePackVersion pack.id version generation members
        source).packState pack.id =
          some { state with currentVersion := version } := by
      rw [packState_writePackVersion, hstate, Option.map_some,
        if_pos hstateId]
    have hothers : forall id, id ≠ pack.id ->
        (db.writePackVersion pack.id version generation members
          source).packState id = db.packState id := by
      intro id hid
      rw [packState_writePackVersion]
      cases hfound : db.packState id with
      | none => rfl
      | some found =>
          have hfoundId : found.resourceId = id := by
            simpa using List.find?_some hfound
          rw [Option.map_some, if_neg fun hsame =>
            hid (hfoundId.symm.trans hsame)]
    have hcurrentLoad : (db.writePackVersion pack.id version generation
        members source).loadPackRevisionMembers pack.id
          pack.currentVersion =
        db.loadPackRevisionMembers pack.id pack.currentVersion := by
      refine loadPackRevisionMembers_kept fun _ hsame => ?_
      rw [hsame] at hless
      exact absurd hless (Nat.lt_irrefl _)
    constructor
    · intro row hrow
      rcases List.mem_append.mp hrow with hold | hlast
      · by_cases hpack : row.packResourceId = pack.id
        · rw [hpack, hstated]
          exact ⟨_, rfl, Nat.le_of_lt (hdb.beyond hat hless hold hpack)⟩
        · rw [hothers _ hpack]
          exact hdb.stated row hold
      · rw [List.mem_singleton.mp hlast, hstated]
        exact ⟨_, rfl, Nat.le_refl _⟩
    · intro packId found hfound number hpositive hle
      by_cases hpack : packId = pack.id
      · rw [hpack, hstated] at hfound
        cases hfound
        rcases Nat.lt_or_eq_of_le hle with hlt | heq
        · have hold : number ≤ state.currentVersion.value := by
            rw [hcurrent]
            rw [hsucc] at hlt
            exact Nat.le_of_lt_succ hlt
          rcases hdb.numbered pack.id state hstate number hpositive hold with
            ⟨row, hrow, hid, hnumber⟩
          exact ⟨row, List.mem_append_left _ hrow, hid.trans hpack.symm,
            hnumber⟩
        · exact ⟨⟨pack.id, version, source⟩,
            List.mem_append_right _ (List.mem_singleton_self _), hpack.symm,
            heq.symm⟩
      · rw [hothers _ hpack] at hfound
        rcases hdb.numbered packId found hfound number hpositive hle with
          ⟨row, hrow, hid, hnumber⟩
        exact ⟨row, List.mem_append_left _ hrow, hid, hnumber⟩
    · apply nodup_concat hdb.key
      intro htaken
      rcases List.mem_map.mp htaken with ⟨row, hrow, hsame⟩
      injection hsame with hpack hversion
      have hlt := hdb.beyond hat hless hrow hpack
      rw [hversion] at hlt
      exact absurd hlt (Nat.lt_irrefl _)
    · intro member hmember
      rcases List.mem_append.mp hmember with hold | hnew
      · rcases hdb.placed member hold with ⟨row, hrow, hid, hversion⟩
        exact ⟨row, List.mem_append_left _ hrow, hid, hversion⟩
      · rcases mem_packMemberRows hnew with ⟨hid, hversion⟩
        exact ⟨⟨pack.id, version, source⟩,
          List.mem_append_right _ (List.mem_singleton_self _), hid.symm,
          hversion.symm⟩
    · intro row past hrow hpast
      rcases List.mem_append.mp hrow with hold | hlast
      · rcases hdb.explained row past hold hpast with ⟨event, hid, hmade⟩
        exact ⟨event, hid, hmade.keep hevents fun other hle =>
          hkept hdb row hold other hle⟩
      · rw [List.mem_singleton.mp hlast] at hpast ⊢
        rcases hsource past hpast with
          ⟨event, resolved, hvisible, hid, hrelease, hmember, hmade⟩
        refine ⟨event, hid, hvisible, pack.currentVersion, resolved,
          hsucc.symm, hrelease, ?_, ?_⟩
        · rw [hcurrentLoad]
          exact hmember
        · rw [hcurrentLoad, ← hmade]
          refine loadPackRevisionMembers_written ?_
          intro member hmember hpack hversion
          rcases hdb.placed member hmember with ⟨row, hrow, hid, hsame⟩
          have hlt := hdb.beyond hat hless hrow (hid.trans hpack)
          rw [hsame, hversion] at hlt
          exact absurd hlt (Nat.lt_irrefl _)
  · intro hdb row hrow
    exact ⟨List.mem_append_left _ hrow,
      hkept hdb row hrow row.version (Nat.le_refl _)⟩

theorem insertPackRevision_keepsHistory {members : List ResolvedPackMember}
    (hat : db.AtVersion pack)
    (h : db.insertPackRevision pack members none = .ok (next, db')) :
    KeepsHistory db db' := by
  rcases insertPackRevision_eq_ok h with
    ⟨version, generation, hversion, _, _, hdb'⟩
  rw [hdb']
  apply writePackVersion_keepsHistory hat hversion
  intro past hpast
  cases hpast

/-- An event that applies is applied to the current version. -/
theorem advancePackEvent_keepsHistory {session : Session}
    {event : PackReleaseEvent} {advanced : Option PackRow}
    (hvisible : event ∈ db.releaseEvents)
    (h : db.advancePackEvent session packId event = .ok (advanced, db')) :
    KeepsHistory db db' := by
  unfold advancePackEvent at h
  split at h
  · cases h
    exact .refl _
  · rcases bind_eq_ok.mp h with ⟨release, hrelease, h⟩
    rcases bind_eq_ok.mp h with ⟨_, _, h⟩
    dsimp only at h
    split at h
    · cases h
      exact .refl _
    · rename_i pack hpack
      rcases bind_eq_ok.mp h with ⟨_, hmember, h⟩
      rcases bind_eq_ok.mp h with ⟨⟨after, stored⟩, hstored, h⟩
      cases h
      rcases insertPackRevision_eq_ok hstored with
        ⟨version, generation, hversion, _, _, hdb'⟩
      rw [hdb']
      apply writePackVersion_keepsHistory (lockPack_atVersion hpack) hversion
      intro past hpast
      injection hpast with hpast
      have hnumber : release.version.value = event.releaseVersion := by
        have hread := List.find?_some (okOr_eq_ok.mp hrelease)
        simp only [Bool.and_eq_true, decide_eq_true_eq] at hread
        exact hread.1.2
      have hfound := ensure_eq_ok.mp hmember
      rcases List.any_eq_true.mp hfound with ⟨member, hin, hskill⟩
      exact ⟨event, release.version, hvisible, hpast, hnumber,
        ⟨member, hin, of_decide_eq_true hskill⟩, rfl⟩

theorem catchUp_keepsHistory {session : Session}
    {events : List PackReleaseEvent}
    {state after : Option Generation × PackRow × Db}
    (hvisible : forall event, event ∈ events ->
      event ∈ state.2.2.releaseEvents)
    (h : events.foldlM (catchUpStep session packId) state = .ok after) :
    KeepsHistory state.2.2 after.2.2 := by
  induction events generalizing state with
  | nil =>
      cases h
      exact .refl _
  | cons event rest ih =>
      rw [List.foldlM_cons] at h
      rcases bind_eq_ok.mp h with ⟨middle, hmiddle, h⟩
      rcases bind_eq_ok.mp hmiddle with ⟨⟨advanced, stored⟩, hstored, hmiddle⟩
      have hsame : middle.2.2 = stored := by
        cases advanced with
        | none =>
            cases hmiddle
            rfl
        | some pack =>
            cases hmiddle
            rfl
      have hfirst : KeepsHistory state.2.2 middle.2.2 := by
        rw [hsame]
        exact advancePackEvent_keepsHistory
          (hvisible event List.mem_cons_self) hstored
      apply hfirst.trans
      apply ih _ h
      intro other hother
      exact mem_releaseEvents_of_prefix hfirst.events
        (hvisible other (List.mem_cons_of_mem _ hother))

theorem lockAndCatchUpPack_keepsHistory {user : Uuid}
    {state : Option Generation × PackRow × Db}
    (h : db.lockAndCatchUpPack user pack = .ok state) :
    KeepsHistory db state.2.2 := by
  rcases bind_eq_ok.mp h with ⟨_, _, h⟩
  exact catchUp_keepsHistory
    (packPendingReleaseEvents_catchingUp user pack.id _).visible h

theorem recordPackOperation_keepsHistory {row : OperationRow PackOutcome}
    (h : db.recordPackOperation row = .ok db') : KeepsHistory db db' := by
  rcases recordPackOperation_eq_ok h with ⟨operations, hdb'⟩
  rw [hdb']
  exact KeepsVersions.keepsHistory ⟨rfl, rfl, rfl, List.prefix_rfl⟩

theorem wake_keepsHistory {id : Uuid} {generation : Nat} :
    KeepsHistory db (db.enqueueResourceWake id generation) :=
  (KeepsVersions.refl db).wake.keepsHistory

/-- The first version of a pack that has no state yet. -/
theorem firstVersion_keepsHistory (hnew : (db.packState packId).isNone) :
    KeepsHistory db { db with
      packStates := db.packStates ++ [⟨packId, .one⟩]
      packRevisions := db.packRevisions ++ [⟨packId, .one, none⟩] } := by
  have hnone := Option.isNone_iff_eq_none.mp hnew
  have hstate : forall id, ({ db with
      packStates := db.packStates ++ [⟨packId, .one⟩]
      packRevisions := db.packRevisions ++ [⟨packId, .one, none⟩] } :
        Db).packState id =
      (db.packState id).or (if id = packId then some ⟨packId, .one⟩
        else none) := by
    intro id
    unfold packState
    dsimp only
    rw [List.find?_append]
    by_cases hid : id = packId
    · simp [hid]
    · have hne : ¬packId = id := fun hsame => hid hsame.symm
      simp [hid, hne]
  refine ⟨List.prefix_rfl, ?_, ?_⟩
  · intro hdb
    have hfree : forall row, row ∈ db.packRevisions ->
        row.packResourceId ≠ packId := by
      intro row hrow hpack
      rcases hdb.stated row hrow with ⟨state, hfound, _⟩
      rw [hpack, hnone] at hfound
      cases hfound
    constructor
    · intro row hrow
      rw [hstate]
      rcases List.mem_append.mp hrow with hold | hlast
      · rcases hdb.stated row hold with ⟨state, hfound, hle⟩
        rw [hfound]
        exact ⟨state, rfl, hle⟩
      · rw [List.mem_singleton.mp hlast, hnone, if_pos rfl]
        exact ⟨_, rfl, Nat.le_refl _⟩
    · intro id state hfound number hpositive hle
      rw [hstate] at hfound
      cases hold : db.packState id with
      | some found =>
          rw [hold, Option.some_or] at hfound
          injection hfound with hfound
          rw [← hfound] at hle
          rcases hdb.numbered id found hold number hpositive hle with
            ⟨row, hrow, hpack, hnumber⟩
          exact ⟨row, List.mem_append_left _ hrow, hpack, hnumber⟩
      | none =>
          rw [hold, Option.none_or] at hfound
          split at hfound
          · rename_i hid
            cases hfound
            refine ⟨⟨packId, .one, none⟩,
              List.mem_append_right _ (List.mem_singleton_self _), hid.symm,
              ?_⟩
            exact Nat.le_antisymm hpositive hle
          · cases hfound
    · apply nodup_concat hdb.key
      intro htaken
      rcases List.mem_map.mp htaken with ⟨row, hrow, hsame⟩
      injection hsame with hpack _
      exact hfree row hrow hpack
    · intro member hmember
      rcases hdb.placed member hmember with ⟨row, hrow, hid, hversion⟩
      exact ⟨row, List.mem_append_left _ hrow, hid, hversion⟩
    · intro row past hrow hsource
      rcases List.mem_append.mp hrow with hold | hlast
      · rcases hdb.explained row past hold hsource with ⟨event, hid, hmade⟩
        exact ⟨event, hid, hmade.keep List.prefix_rfl fun _ _ => rfl⟩
      · rw [List.mem_singleton.mp hlast] at hsource
        cases hsource
  · intro _ row hrow
    exact ⟨List.mem_append_left _ hrow, rfl⟩

end Db

namespace Registry

open Db

variable {self : Registry} {db db' : Db} {pack next : PackRow} {userId : Uuid}

/-!
## Operations on packs
-/

theorem wakePack_keepsHistory {changed : Bool} :
    KeepsHistory db (wakePack changed pack db) := by
  unfold wakePack
  split
  · exact wake_keepsHistory
  · exact .refl _

theorem onCurrentPack_keepsHistory {α : Type} {user : Uuid}
    {change : PackRow -> Db -> Except ApiError (α × Db)}
    {answer : Except ApiError α}
    (hchange : forall outcome, change pack db = .ok (outcome, db') ->
      KeepsHistory db db')
    (h : onCurrentPack user pack change db = .ok (answer, db')) :
    KeepsHistory db db' := by
  rcases bind_eq_ok.mp h with ⟨⟨advanced, current, caught⟩, hcaught, h⟩
  dsimp only at h
  split at h
  · cases h
    exact (lockAndCatchUpPack_keepsHistory hcaught).trans wake_keepsHistory
  · have hsame := (lockAndCatchUpPack_eq_ok hcaught).2.2 rfl
    cases hsame
    rcases bind_eq_ok.mp h with ⟨⟨outcome, changed⟩, hchanged, h⟩
    cases h
    exact hchange outcome hchanged

theorem changeMembers_keepsHistory {kind : PackMutationKind}
    {authority : UserAuthority} {target : NamespacePublishAuthority}
    {request : PackMutationRequest} {outcome : PackMutationResponse}
    (hat : db.AtVersion pack) (hfound : (db.findResource pack.id).isSome)
    (h : changeMembers kind authority target request pack db =
      .ok (outcome, db')) : KeepsHistory db db' := by
  rcases bind_eq_ok.mp h with ⟨_, _, h⟩
  rcases bind_eq_ok.mp h with ⟨edit, hedit, h⟩
  rcases bind_eq_ok.mp h with ⟨⟨after, stored⟩, hstored, h⟩
  rcases bind_eq_ok.mp h with ⟨recorded, hrecorded, h⟩
  cases h
  have hedited : Edits db edit :=
    foldlM_invariant (P := Edits db)
      (fun _ _ _ hbefore hstep => editMember_edits hfound hbefore hstep)
      ⟨⟨db.packMembers, rfl⟩, .refl db⟩ hedit
  rcases hedited.tables with ⟨packMembers, hdb⟩
  have hfirst : KeepsHistory db edit.db := by
    rw [hdb]
    exact KeepsVersions.keepsHistory ⟨rfl, rfl, rfl, List.prefix_rfl⟩
  have hversion : KeepsHistory edit.db stored := by
    unfold storeEdit at hstored
    split at hstored
    · rcases bind_eq_ok.mp hstored with ⟨members, _, hstored⟩
      refine insertPackRevision_keepsHistory (hat.keep ?_) hstored
      rw [hdb]
    · cases hstored
      exact .refl _
  exact hfirst.trans (hversion.trans
    ((recordPackOperation_keepsHistory hrecorded).trans wakePack_keepsHistory))

theorem mutatePack_keepsHistory {kind : PackMutationKind}
    {request : PackMutationRequest}
    {answer : Except ApiError PackMutationResponse}
    (h : self.mutatePack kind userId request db = .ok (answer, db')) :
    KeepsHistory db db' := by
  rcases bind_eq_ok.mp h with ⟨authority, _, h⟩
  rcases bind_eq_ok.mp h with ⟨_, _, h⟩
  rcases bind_eq_ok.mp h with ⟨_, _, h⟩
  rcases bind_eq_ok.mp h with ⟨_, _, h⟩
  rcases bind_eq_ok.mp h with ⟨replay, _, h⟩
  split at h
  · cases h
    exact .refl _
  · rcases bind_eq_ok.mp h with ⟨target, _, h⟩
    rcases bind_eq_ok.mp h with ⟨pack, hpack, h⟩
    rcases loadOwnedPackForUpdate_locks hpack with ⟨hat, hfound⟩
    exact onCurrentPack_keepsHistory
      (fun _ hchanged => changeMembers_keepsHistory hat hfound hchanged) h

theorem setPublished_keepsHistory {visibilityChanged resolutionChanged : Bool}
    (h : setPublished db pack visibilityChanged resolutionChanged =
      .ok (next, db')) : KeepsHistory db db' := by
  apply KeepsVersions.keepsHistory
  unfold setPublished at h
  split at h
  · rcases bind_eq_ok.mp h with ⟨generation, _, h⟩
    cases h
    exact ⟨rfl, rfl, rfl, List.prefix_rfl⟩
  · split at h
    · cases h
      exact ⟨rfl, rfl, rfl, List.prefix_rfl⟩
    · cases h
      exact .refl _

theorem releasePack_keepsHistory {authority : UserAuthority}
    {target : NamespacePublishAuthority} {request : PackPublishRequest}
    {outcome : PackMutationResponse} (hat : db.AtVersion pack)
    (h : releasePack authority target request pack db =
      .ok (outcome, db')) : KeepsHistory db db' := by
  rcases bind_eq_ok.mp h with ⟨_, _, h⟩
  rcases bind_eq_ok.mp h with ⟨resolved, _, h⟩
  dsimp only at h
  split at h
  · rcases bind_eq_ok.mp h with ⟨⟨after, stored⟩, hstored, h⟩
    rcases bind_eq_ok.mp h with ⟨⟨last, published⟩, hpublished, h⟩
    rcases bind_eq_ok.mp h with ⟨recorded, hrecorded, h⟩
    cases h
    exact (insertPackRevision_keepsHistory hat hstored).trans
      ((setPublished_keepsHistory hpublished).trans
        ((recordPackOperation_keepsHistory hrecorded).trans
          wakePack_keepsHistory))
  · rcases bind_eq_ok.mp h with ⟨unchanged, hunchanged, h⟩
    cases hunchanged
    rcases bind_eq_ok.mp h with ⟨⟨last, published⟩, hpublished, h⟩
    rcases bind_eq_ok.mp h with ⟨recorded, hrecorded, h⟩
    cases h
    exact (setPublished_keepsHistory hpublished).trans
      ((recordPackOperation_keepsHistory hrecorded).trans
        wakePack_keepsHistory)

theorem publishPack_keepsHistory {request : PackPublishRequest}
    {answer : Except ApiError PackMutationResponse}
    (h : self.publishPack userId request db = .ok (answer, db')) :
    KeepsHistory db db' := by
  rcases bind_eq_ok.mp h with ⟨authority, _, h⟩
  rcases bind_eq_ok.mp h with ⟨_, _, h⟩
  rcases bind_eq_ok.mp h with ⟨replay, _, h⟩
  split at h
  · cases h
    exact .refl _
  · rcases bind_eq_ok.mp h with ⟨target, _, h⟩
    rcases bind_eq_ok.mp h with ⟨pack, hpack, h⟩
    have hat := (loadOwnedPackForUpdate_locks hpack).1
    exact onCurrentPack_keepsHistory
      (fun _ hchanged => releasePack_keepsHistory hat hchanged) h

theorem renamePack_keepsHistory {request : PackRenameRequest}
    {answer : Except ApiError PackLifecycleResponse}
    (h : self.renamePack userId request db = .ok (answer, db')) :
    KeepsHistory db db' := by
  rcases bind_eq_ok.mp h with ⟨authority, _, h⟩
  rcases bind_eq_ok.mp h with ⟨_, _, h⟩
  rcases bind_eq_ok.mp h with ⟨replay, _, h⟩
  split at h
  · cases h
    exact .refl _
  · rcases bind_eq_ok.mp h with ⟨target, _, h⟩
    rcases bind_eq_ok.mp h with ⟨pack, hpack, h⟩
    rcases loadOwnedPackForUpdate_eq_ok hpack with ⟨row, hfound, howner⟩
    refine onCurrentPack_keepsHistory (fun _ hmoved => ?_) h
    have hrenamed := movePack_eq_ok hfound howner hmoved
    rcases hrenamed.tables with ⟨_, _, _, _, hdb'⟩
    rw [hdb']
    apply KeepsVersions.keepsHistory
    apply KeepsVersions.wake
    exact ⟨rfl, rfl, rfl, List.prefix_rfl⟩

theorem unpublishPack_keepsHistory {request : ResourceLifecycleRequest}
    {answer : Except ApiError PackLifecycleResponse}
    (h : self.unpublishPack userId request db = .ok (answer, db')) :
    KeepsHistory db db' := by
  rcases bind_eq_ok.mp h with ⟨authority, _, h⟩
  rcases bind_eq_ok.mp h with ⟨_, _, h⟩
  rcases bind_eq_ok.mp h with ⟨replay, _, h⟩
  split at h
  · cases h
    exact .refl _
  · rcases bind_eq_ok.mp h with ⟨target, _, h⟩
    rcases bind_eq_ok.mp h with ⟨pack, hpack, h⟩
    refine onCurrentPack_keepsHistory (fun _ hhidden => ?_) h
    rcases bind_eq_ok.mp hhidden with ⟨_, _, hhidden⟩
    rcases bind_eq_ok.mp hhidden with ⟨_, _, hhidden⟩
    rcases bind_eq_ok.mp hhidden with ⟨generation, _, hhidden⟩
    rcases bind_eq_ok.mp hhidden with ⟨recorded, hrecorded, hhidden⟩
    rcases recordPackOperation_eq_ok hrecorded with ⟨operations, rfl⟩
    cases hhidden
    apply KeepsVersions.keepsHistory
    apply KeepsVersions.wake
    exact ⟨rfl, rfl, rfl, List.prefix_rfl⟩

theorem deletePack_keepsHistory {request : ResourceLifecycleRequest}
    {answer : Except ApiError PackLifecycleResponse}
    (h : self.deletePack userId request db = .ok (answer, db')) :
    KeepsHistory db db' := by
  rcases bind_eq_ok.mp h with ⟨authority, _, h⟩
  rcases bind_eq_ok.mp h with ⟨_, _, h⟩
  rcases bind_eq_ok.mp h with ⟨replay, _, h⟩
  split at h
  · cases h
    exact .refl _
  · rcases bind_eq_ok.mp h with ⟨target, _, h⟩
    rcases bind_eq_ok.mp h with ⟨_, _, h⟩
    rcases bind_eq_ok.mp h with ⟨pack, hpack, h⟩
    refine onCurrentPack_keepsHistory (fun _ hdeleted => ?_) h
    rcases tombstonePack_eq_ok hdeleted with
      ⟨_, _, _, _, _, _, _, _, _, _, _, hdb'⟩
    rw [hdb']
    apply KeepsVersions.keepsHistory
    apply KeepsVersions.wake
    exact ⟨rfl, rfl, rfl, List.prefix_rfl⟩

theorem transferPack_keepsHistory {request : ResourceTransferRequest}
    {outcome : ResourceTransferResponse}
    (h : self.transferPack userId request db = .ok (outcome, db')) :
    KeepsHistory db db' := by
  rcases transferPack_eq_ok h with hsame | ⟨_, _, _, _, _, hmoved⟩
  · rw [hsame]
    exact .refl _
  · rcases hmoved.tables with ⟨_, _, _, _, _, hdb'⟩
    rw [hdb']
    apply KeepsVersions.keepsHistory
    apply KeepsVersions.wake
    exact ⟨rfl, rfl, rfl, List.prefix_rfl⟩

theorem createPack_keepsHistory {newResourceId : Uuid}
    {request : PackCreateRequest} {outcome : PackSummary}
    (h : self.createPack newResourceId userId request db =
      .ok (outcome, db')) : KeepsHistory db db' := by
  rcases bind_eq_ok.mp h with ⟨authority, _, h⟩
  rcases bind_eq_ok.mp h with ⟨_, _, h⟩
  rcases bind_eq_ok.mp h with ⟨owner, _, h⟩
  rcases bind_eq_ok.mp h with ⟨replay, _, h⟩
  split at h
  · cases h
    exact .refl _
  · rcases bind_eq_ok.mp h with ⟨_, _, h⟩
    rcases bind_eq_ok.mp h with ⟨inserted, hinserted, h⟩
    rcases bind_eq_ok.mp h with ⟨recorded, hrecorded, h⟩
    cases h
    rcases bind_eq_ok.mp hinserted with ⟨stored, hstored, hinserted⟩
    rcases bind_eq_ok.mp hinserted with ⟨_, hnew, hinserted⟩
    rcases bind_eq_ok.mp hstored with ⟨_, _, hstored⟩
    have hrow : KeepsHistory db stored := by
      cases hstored
      apply KeepsVersions.keepsHistory
      exact ⟨rfl, rfl, rfl, List.prefix_rfl⟩
    cases hinserted
    exact hrow.trans ((firstVersion_keepsHistory (ensure_eq_ok.mp hnew)).trans
      (recordPackOperation_keepsHistory hrecorded))

end Registry
end Denju
