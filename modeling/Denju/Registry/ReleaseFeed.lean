import Denju.Lib.Feed
import Denju.Registry.NamingRuns

/-!
# The order in which packs follow releases

A pack awaits the release events of the skills that it follows, and each event
that it applies makes a version of the pack.  Here is what the transactions of
the registry do to this feed: they keep the versions in order as long as an
event is applied only when the pack awaits no earlier one.
-/

namespace Denju

open Lib

namespace Db

def releaseEvents (db : Db) : List PackReleaseEvent :=
  db.authorityEvents.filterMap AuthorityEventRow.packReleaseEvent

def livePack (db : Db) (id : Uuid) : Bool :=
  (db.findResource id).any fun row => !row.deleted

/-- A live pack follows the skill since before the number, and has not applied
the event of that number. -/
def awaitsNumber (db : Db) (packId skillId : Uuid) (number : Nat) : Bool :=
  db.livePack packId &&
    ((db.findPackMember packId skillId).any fun row =>
      row.pinnedReleaseVersion.isNone &&
        decide (row.followAfterEventId < number)) &&
      !db.packHasEvent packId number

def awaits (db : Db) (packId : Uuid) (event : PackReleaseEvent) : Bool :=
  db.awaitsNumber packId event.skillResourceId event.id

/-- The packs as readers of the release events. -/
def feed (db : Db) : Feed Uuid PackReleaseEvent Nat where
  visible := fun event => event ∈ db.releaseEvents
  awaits := fun packId event => db.awaits packId event = true
  applied := fun packId past => db.packHasEvent packId past = true

/-- The events that made the versions of a pack increase with the versions. -/
def SourcesIncrease (db : Db) : Prop :=
  forall earlier later past next, earlier ∈ db.packRevisions ->
    later ∈ db.packRevisions ->
    earlier.packResourceId = later.packResourceId ->
    earlier.version.value < later.version.value ->
    earlier.sourceReleaseEventId = some past ->
    later.sourceReleaseEventId = some next -> past < next

/-- Events have numbers of their own, packs have applied no event behind one
that they await, and the versions are in order. -/
structure FollowsInOrder (db : Db) : Prop where
  keyed : (db.releaseEvents.map PackReleaseEvent.id).Nodup
  known : forall event, event ∈ db.releaseEvents ->
    event.id ≤ db.authorityEventSequence
  sourced : forall packId past, db.packHasEvent packId past = true ->
    past ≤ db.authorityEventSequence
  held : forall row, row ∈ db.packMembers ->
    (db.findResource row.packResourceId).isSome
  versions : forall row, row ∈ db.packRevisions ->
    exists state, db.packState row.packResourceId = some state ∧
      row.version.value ≤ state.currentVersion.value
  increasing : db.SourcesIncrease
  caught : db.feed.Caught PackReleaseEvent.id

/-- Events that are visible stay so and are awaited no more than before; later
ones get larger numbers. -/
structure Carries (db db' : Db) : Prop where
  eases : Feed.Eases db.feed db'.feed
  fresh : forall event, event ∈ db'.releaseEvents ->
    event ∈ db.releaseEvents ∨ db.authorityEventSequence < event.id
  sequence : db.authorityEventSequence ≤ db'.authorityEventSequence
  completions : db'.packReleaseEventCompletions =
    db.packReleaseEventCompletions

/-- A transaction that keeps the order. -/
def KeepsOrder (db db' : Db) : Prop :=
  FollowsInOrder db -> FollowsInOrder db' ∧ Carries db db'

variable {db db' db'' : Db}

theorem awaits_iff {packId : Uuid} {event : PackReleaseEvent} :
    db.awaits packId event = true <-> db.livePack packId = true ∧
      db.packFollows packId event = true ∧
        db.packHasEvent packId event.id = false := by
  simp [awaits, awaitsNumber, packFollows, and_assoc]

theorem packHasEvent_iff {packId : Uuid} {past : Nat} :
    db.packHasEvent packId past = true <-> exists row,
      row ∈ db.packRevisions ∧ row.packResourceId = packId ∧
        row.sourceReleaseEventId = some past := by
  simp [packHasEvent]

theorem Carries.refl (db : Db) : Carries db db where
  eases := .refl _
  fresh := fun _ => .inl
  sequence := Nat.le_refl _
  completions := rfl

theorem Carries.trans (h : Carries db db') (h' : Carries db' db'') :
    Carries db db'' where
  eases := h.eases.trans h'.eases
  fresh := by
    intro event hevent
    rcases h'.fresh event hevent with hold | hlater
    · exact h.fresh event hold
    · exact .inr (Nat.lt_of_le_of_lt h.sequence hlater)
  sequence := Nat.le_trans h.sequence h'.sequence
  completions := h'.completions.trans h.completions

theorem KeepsOrder.refl (db : Db) : KeepsOrder db db :=
  fun hdb => ⟨hdb, .refl db⟩

theorem KeepsOrder.trans (h : KeepsOrder db db')
    (h' : KeepsOrder db' db'') : KeepsOrder db db'' := by
  intro hdb
  rcases h hdb with ⟨hdb', hcarries⟩
  rcases h' hdb' with ⟨hdb'', hcarries'⟩
  exact ⟨hdb'', hcarries.trans hcarries'⟩

/-!
## Transactions beside the feed
-/

/-- The tables that packs and release events are in stay as they are. -/
structure KeepsFeed (db db' : Db) : Prop where
  members : db'.packMembers = db.packMembers
  revisions : db'.packRevisions = db.packRevisions
  states : db'.packStates = db.packStates
  completions : db'.packReleaseEventCompletions =
    db.packReleaseEventCompletions
  events : db'.releaseEvents = db.releaseEvents
  sequence : db.authorityEventSequence ≤ db'.authorityEventSequence

namespace KeepsFeed

theorem refl (db : Db) : KeepsFeed db db :=
  ⟨rfl, rfl, rfl, rfl, rfl, Nat.le_refl _⟩

theorem trans (h : KeepsFeed db db') (h' : KeepsFeed db' db'') :
    KeepsFeed db db'' where
  members := h'.members.trans h.members
  revisions := h'.revisions.trans h.revisions
  states := h'.states.trans h.states
  completions := h'.completions.trans h.completions
  events := h'.events.trans h.events
  sequence := Nat.le_trans h.sequence h'.sequence

/-- A wake is no release event. -/
theorem wake (h : KeepsFeed db db') {id : Uuid} {generation : Nat} :
    KeepsFeed db (db'.enqueueResourceWake id generation) :=
  h.trans
    { members := rfl
      revisions := rfl
      states := rfl
      completions := rfl
      events := by
        show (db'.authorityEvents ++ [_]).filterMap _ = _
        rw [List.filterMap_append]
        exact List.append_nil _
      sequence := Nat.le_succ _ }

end KeepsFeed

/-- What concerns neither the feed nor the life of resources. -/
structure Quiet (db db' : Db) : Prop extends KeepsFeed db db' where
  found : forall id, (db.findResource id).isSome ->
    (db'.findResource id).isSome
  live : forall id, (db.findResource id).isSome ->
    db'.livePack id = true -> db.livePack id = true

namespace Quiet

theorem refl (db : Db) : Quiet db db :=
  ⟨.refl db, fun _ h => h, fun _ _ h => h⟩

theorem trans (h : Quiet db db') (h' : Quiet db' db'') : Quiet db db'' where
  toKeepsFeed := h.toKeepsFeed.trans h'.toKeepsFeed
  found := fun id hid => h'.found id (h.found id hid)
  live := fun id hid hlive =>
    h.live id hid (h'.live id (h.found id hid) hlive)

theorem packHasEvent (h : Quiet db db') (packId : Uuid) (past : Nat) :
    db'.packHasEvent packId past = db.packHasEvent packId past := by
  unfold Db.packHasEvent
  rw [h.revisions]

theorem packFollows (h : Quiet db db') (packId : Uuid)
    (event : PackReleaseEvent) :
    db'.packFollows packId event = db.packFollows packId event := by
  unfold Db.packFollows findPackMember
  rw [h.members]

theorem awaits (h : Quiet db db') (hdb : FollowsInOrder db) {packId : Uuid}
    {event : PackReleaseEvent} (hawaits : db'.awaits packId event = true) :
    db.awaits packId event = true := by
  rcases awaits_iff.mp hawaits with ⟨hlive, hfollows, hnew⟩
  rw [h.packFollows] at hfollows
  rw [h.packHasEvent] at hnew
  refine awaits_iff.mpr ⟨h.live packId ?_ hlive, hfollows, hnew⟩
  rcases (Option.any_eq_true_iff_get _ _).mp hfollows with ⟨hmember, _⟩
  rcases Option.isSome_iff_exists.mp hmember with ⟨row, hrow⟩
  have hid : row.packResourceId = packId := by
    simpa using (by simpa using List.find?_some hrow :
      row.packResourceId = packId ∧ _).1
  rw [← hid]
  exact hdb.held row (List.mem_of_find?_eq_some hrow)

theorem eases (h : Quiet db db') (hdb : FollowsInOrder db) :
    Feed.Eases db.feed db'.feed where
  visible := by
    intro event hevent
    show event ∈ db'.releaseEvents
    rw [h.events]
    exact hevent
  awaits := fun _ _ _ => h.awaits hdb

theorem keepsOrder (h : Quiet db db') : KeepsOrder db db' := by
  intro hdb
  constructor
  · constructor
    · rw [h.events]
      exact hdb.keyed
    · intro event hevent
      rw [h.events] at hevent
      exact Nat.le_trans (hdb.known event hevent) h.sequence
    · intro packId past hpast
      rw [h.packHasEvent] at hpast
      exact Nat.le_trans (hdb.sourced packId past hpast) h.sequence
    · intro row hrow
      rw [h.members] at hrow
      exact h.found _ (hdb.held row hrow)
    · intro row hrow
      rw [h.revisions] at hrow
      unfold packState
      rw [h.states]
      exact hdb.versions row hrow
    · unfold SourcesIncrease
      rw [h.revisions]
      exact hdb.increasing
    · refine hdb.caught.reveal (h.eases hdb) ?_ ?_
      · intro packId past hpast
        have hold : db'.packHasEvent packId past = true := hpast
        rw [h.packHasEvent] at hold
        exact hold
      · intro event hevent hnew
        have hold : event ∈ db'.releaseEvents := hevent
        rw [h.events] at hold
        exact absurd hold hnew
  · refine ⟨h.eases hdb, ?_, h.sequence, h.completions⟩
    intro event hevent
    rw [h.events] at hevent
    exact .inl hevent

theorem ofSameResources (h : KeepsFeed db db')
    (hresources : db'.resources = db.resources) : Quiet db db' where
  toKeepsFeed := h
  found := by
    intro id hid
    unfold findResource
    rw [hresources]
    exact hid
  live := by
    intro id _ hlive
    unfold livePack findResource at hlive ⊢
    rw [← hresources]
    exact hlive

/-- Rewriting rows brings none back to life. -/
theorem ofRewrite {p : ResourceRow -> Bool} {f : ResourceRow -> ResourceRow}
    (h : KeepsFeed db db')
    (hresources : db'.resources = updateWhere p f db.resources)
    (hid : forall row, (f row).id = row.id)
    (hdeleted : forall row, (f row).deleted = false -> row.deleted = false) :
    Quiet db db' := by
  have hfound : forall id, db'.findResource id =
      (db.findResource id).map fun row => if p row then f row else row := by
    intro id
    unfold findResource
    rw [hresources]
    exact find?_updateWhere fun row _ => by rw [hid]
  refine ⟨h, ?_, ?_⟩
  · intro id hsome
    rw [hfound, Option.isSome_map]
    exact hsome
  · intro id hsome hlive
    unfold livePack at hlive ⊢
    rw [hfound] at hlive
    rcases Option.isSome_iff_exists.mp hsome with ⟨row, hrow⟩
    simp only [hrow, Option.map_some, Option.any_some,
      Bool.not_eq_true'] at hlive ⊢
    split at hlive
    · exact hdeleted row hlive
    · exact hlive

/-- Rows that show the same names and deletions. -/
theorem ofNamed (h : KeepsFeed db db') (hnamed : SameNames db db') :
    Quiet db db' := by
  have hshown : forall (other : Db) (id : Uuid),
      (other.findResource id).map ResourceRow.named =
        (other.resources.map ResourceRow.named).find? fun row =>
          row.id = id := by
    intro other id
    rw [List.find?_map]
    rfl
  have hsame : forall id, (db'.findResource id).map ResourceRow.named =
      (db.findResource id).map ResourceRow.named := by
    intro id
    rw [hshown, hshown, hnamed.resources]
  have hlives : forall (other : Db) (id : Uuid), other.livePack id =
      ((other.findResource id).map ResourceRow.named).any fun row =>
        !row.deleted := by
    intro other id
    rw [Option.any_map]
    rfl
  refine ⟨h, ?_, ?_⟩
  · intro id hsome
    rw [← Option.isSome_map (f := ResourceRow.named), hsame,
      Option.isSome_map]
    exact hsome
  · intro id _ hlive
    rw [hlives, ← hsame, ← hlives]
    exact hlive

/-- A row for a new resource. -/
theorem ofInsert {row : ResourceRow} (h : KeepsFeed db db')
    (hresources : db'.resources = db.resources ++ [row]) : Quiet db db' := by
  have hsame : forall id, (db.findResource id).isSome ->
      db'.findResource id = db.findResource id := by
    intro id hid
    unfold findResource at hid ⊢
    rw [hresources, List.find?_append]
    exact Option.or_of_isSome hid
  refine ⟨h, ?_, ?_⟩
  · intro id hid
    rw [hsame id hid]
    exact hid
  · intro id hid hlive
    unfold livePack at hlive ⊢
    rw [← hsame id hid]
    exact hlive

theorem wake (h : Quiet db db') {id : Uuid} {generation : Nat} :
    Quiet db (db'.enqueueResourceWake id generation) :=
  h.trans (ofSameResources (KeepsFeed.refl db').wake rfl)

end Quiet

/-!
## Releasing
-/

/-- A release event may become visible where no pack that awaits it has applied
a later one. -/
theorem FollowsInOrder.reveal (hdb : FollowsInOrder db)
    {row : AuthorityEventRow} {event : PackReleaseEvent} {sequence : Nat}
    (hevent : row.packReleaseEvent = some event)
    (hnew : forall other, other ∈ db.releaseEvents -> other.id ≠ event.id)
    (hsequence : db.authorityEventSequence ≤ sequence)
    (hid : event.id ≤ sequence)
    (hbehind : forall packId past, db.awaits packId event = true ->
      db.packHasEvent packId past = true -> past < event.id) :
    FollowsInOrder
        { db with
          authorityEvents := db.authorityEvents ++ [row]
          authorityEventSequence := sequence } ∧
      Feed.Eases db.feed
        (feed
          { db with
            authorityEvents := db.authorityEvents ++ [row]
            authorityEventSequence := sequence }) := by
  have hevents : releaseEvents
      { db with
        authorityEvents := db.authorityEvents ++ [row]
        authorityEventSequence := sequence } =
      db.releaseEvents ++ [event] := by
    unfold releaseEvents
    rw [List.filterMap_append]
    simp [hevent]
  have heases : Feed.Eases db.feed
      (feed
        { db with
          authorityEvents := db.authorityEvents ++ [row]
          authorityEventSequence := sequence }) := by
    refine ⟨?_, fun _ _ _ hawaits => hawaits⟩
    intro other hother
    show other ∈ releaseEvents _
    rw [hevents]
    exact List.mem_append_left _ hother
  refine ⟨⟨?_, ?_, ?_, hdb.held, hdb.versions, hdb.increasing, ?_⟩, heases⟩
  · rw [hevents, List.map_append]
    refine List.nodup_append.mpr ⟨hdb.keyed, List.nodup_singleton _, ?_⟩
    rintro _ hold _ hlast rfl
    rcases List.mem_map.mp hold with ⟨other, hother, hsame⟩
    exact hnew other hother (hsame.trans (List.mem_singleton.mp hlast))
  · intro other hother
    rw [hevents] at hother
    rcases List.mem_append.mp hother with hold | hlast
    · exact Nat.le_trans (hdb.known other hold) hsequence
    · rw [List.mem_singleton.mp hlast]
      exact hid
  · intro packId past hpast
    exact Nat.le_trans (hdb.sourced packId past hpast) hsequence
  · refine hdb.caught.reveal heases (fun _ _ hpast => hpast) ?_
    intro other hother hunseen packId past hawaits hpast
    have hmember : other ∈ releaseEvents _ := hother
    rw [hevents] at hmember
    rcases List.mem_append.mp hmember with hold | hlast
    · exact absurd hold hunseen
    · rw [List.mem_singleton.mp hlast] at hawaits ⊢
      exact hbehind packId past hawaits hpast

/-- A release that takes its number and becomes visible at once. -/
theorem enqueueRelease_keepsOrder (db : Db) {resourceId : Uuid}
    {generation : Nat} {release : ReleaseEvent} :
    KeepsOrder db
      (db.enqueueSkillReleaseWake resourceId generation release) := by
  intro hdb
  rcases @FollowsInOrder.reveal _ hdb
    { id := db.authorityEventSequence + 1
      resourceId
      resourceGeneration := generation
      release := some release }
    { id := db.authorityEventSequence + 1
      skillResourceId := resourceId
      releaseVersion := release.releaseVersion
      revisionId := release.revisionId }
    (db.authorityEventSequence + 1) rfl
    (fun other hother =>
      Nat.ne_of_lt (Nat.lt_succ_of_le (hdb.known other hother)))
    (Nat.le_succ _) (Nat.le_refl _)
    (fun packId past _ hpast =>
      Nat.lt_succ_of_le (hdb.sourced packId past hpast)) with
    ⟨hkept, heases⟩
  refine ⟨hkept, heases, ?_, Nat.le_succ _, rfl⟩
  intro event hevent
  have hmember : event ∈ (db.authorityEvents ++ [_]).filterMap
      AuthorityEventRow.packReleaseEvent := hevent
  rw [List.filterMap_append] at hmember
  rcases List.mem_append.mp hmember with hold | hlast
  · exact .inl hold
  · right
    rw [List.mem_singleton.mp hlast]
    exact Nat.lt_succ_self _

/-!
## Versions
-/

/-- A locked pack is at the current version of its state. -/
def AtVersion (db : Db) (pack : PackRow) : Prop :=
  exists state, db.packState pack.id = some state ∧
    state.currentVersion = pack.currentVersion

theorem lockPack_atVersion {session : Session} {packId : Uuid}
    {pack : PackRow} (h : db.lockPack session packId = some pack) :
    db.AtVersion pack := by
  rcases Option.bind_eq_some_iff.mp h with ⟨row, _, hpack⟩
  unfold packRow at hpack
  rcases Option.bind_eq_some_iff.mp hpack with ⟨owner, _, hpack⟩
  rcases Option.bind_eq_some_iff.mp hpack with ⟨state, hstate, hpack⟩
  cases hpack
  exact ⟨state, hstate, rfl⟩

theorem AtVersion.keep {pack : PackRow} (h : db.AtVersion pack)
    (hstates : db'.packStates = db.packStates) : db'.AtVersion pack := by
  rcases h with ⟨state, hstate, hversion⟩
  refine ⟨state, ?_, hversion⟩
  unfold packState
  rw [hstates]
  exact hstate

section Version

variable {pack next : PackRow} {members : List ResolvedPackMember}
  {source : Option Nat} {version generation : Generation}

theorem packState_writePackVersion (packId id : Uuid) :
    (db.writePackVersion packId version generation members
        source).packState id =
      (db.packState id).map fun row =>
        if row.resourceId = packId then { row with currentVersion := version }
        else row := by
  have hfind := @find?_updateWhere PackStateRow
    (fun row => decide (row.resourceId = packId))
    (fun row => decide (row.resourceId = id))
    (fun row => { row with currentVersion := version })
    db.packStates fun _ _ => rfl
  simp only [decide_eq_true_eq] at hfind
  exact hfind

theorem packHasEvent_writePackVersion {packId other : Uuid} {past : Nat} :
    (db.writePackVersion packId version generation members
        source).packHasEvent other past = true <->
      db.packHasEvent other past = true ∨
        packId = other ∧ source = some past := by
  unfold packHasEvent
  show (db.packRevisions ++ [_]).any _ = true <-> _
  simp

/-- The next version of a pack keeps the order if the event that it applies, if
any, is the least that the pack awaits. -/
theorem writePackVersion_keepsOrder (hat : db.AtVersion pack)
    (hnext : pack.currentVersion.checkedSucc = some version)
    (hsource : forall past, source = some past -> exists event,
      event ∈ db.releaseEvents ∧ event.id = past ∧
        db.awaits pack.id event = true ∧
        forall other, other ∈ db.releaseEvents ->
          db.awaits pack.id other = true -> event.id ≤ other.id) :
    KeepsOrder db
      (db.writePackVersion pack.id version generation members source) := by
  intro hdb
  rcases hat with ⟨state, hstate, hcurrent⟩
  have hstateId : state.resourceId = pack.id := by
    simpa using List.find?_some hstate
  have hless : pack.currentVersion.value < version.value := by
    rw [Generation.checkedSucc_eq_some hnext]
    exact Nat.lt_succ_self _
  have hquiet : Quiet db { db with
      resources := (db.writePackVersion pack.id version generation members
        source).resources } :=
    .ofRewrite ⟨rfl, rfl, rfl, rfl, rfl, Nat.le_refl _⟩ rfl (fun _ => rfl)
      fun _ hlive => hlive
  have hawaits : forall packId event,
      (db.writePackVersion pack.id version generation members
        source).awaits packId event = true ->
      db.awaits packId event = true ∧
        ¬(packId = pack.id ∧ source = some event.id) := by
    intro packId event h
    rcases awaits_iff.mp h with ⟨hlive, hfollows, hnew⟩
    have hno := (not_congr packHasEvent_writePackVersion).mp
      (Bool.not_eq_true _ ▸ hnew)
    rw [not_or] at hno
    constructor
    · refine hquiet.awaits hdb (awaits_iff.mpr ⟨hlive, hfollows, ?_⟩)
      exact Bool.not_eq_true _ ▸ hno.1
    · rintro ⟨rfl, hsame⟩
      exact hno.2 ⟨rfl, hsame⟩
  have heases : Feed.Eases db.feed
      (db.writePackVersion pack.id version generation members
        source).feed :=
    ⟨fun _ hevent => hevent, fun packId event _ h => (hawaits packId event h).1⟩
  have hbounded : forall row, row ∈ db.packRevisions ->
      row.packResourceId = pack.id -> row.version.value < version.value := by
    intro row hrow hid
    rcases hdb.versions row hrow with ⟨found, hfound, hle⟩
    rw [hid, hstate] at hfound
    cases hfound
    rw [hcurrent] at hle
    exact Nat.lt_of_le_of_lt hle hless
  refine ⟨⟨hdb.keyed, hdb.known, ?_, ?_, ?_, ?_, ?_⟩, heases, fun _ => .inl,
    Nat.le_refl _, rfl⟩
  · intro packId past hpast
    rcases packHasEvent_writePackVersion.mp hpast with hold | ⟨_, hsame⟩
    · exact hdb.sourced packId past hold
    · rcases hsource past hsame with ⟨event, hevent, rfl, _⟩
      exact hdb.known event hevent
  · intro row hrow
    exact hquiet.found _ (hdb.held row hrow)
  · intro row hrow
    rw [packState_writePackVersion]
    rcases List.mem_append.mp hrow with hold | hlast
    · rcases hdb.versions row hold with ⟨found, hfound, hle⟩
      rw [hfound, Option.map_some]
      refine ⟨_, rfl, ?_⟩
      by_cases hid : row.packResourceId = pack.id
      · rw [hid, hstate] at hfound
        cases hfound
        rw [if_pos hstateId]
        exact Nat.le_of_lt (hbounded row hold hid)
      · have hfoundId : found.resourceId = row.packResourceId := by
          simpa using List.find?_some hfound
        rw [if_neg fun hsame => hid (hfoundId.symm.trans hsame)]
        exact hle
    · rw [List.mem_singleton.mp hlast, hstate, Option.map_some]
      refine ⟨_, rfl, ?_⟩
      rw [if_pos hstateId]
  · intro earlier later past following hearlier hlater hpack hlt hpast hfollowing
    rcases List.mem_append.mp hlater with hlaterOld | hlaterNew
    · rcases List.mem_append.mp hearlier with hearlierOld | hearlierNew
      · exact hdb.increasing earlier later past following hearlierOld
          hlaterOld hpack hlt hpast hfollowing
      · rw [List.mem_singleton.mp hearlierNew] at hpack hlt
        have hbefore := hbounded later hlaterOld hpack.symm
        exact absurd hlt (Nat.not_lt_of_lt hbefore)
    · rw [List.mem_singleton.mp hlaterNew] at hpack hlt hfollowing
      rcases List.mem_append.mp hearlier with hearlierOld | hearlierNew
      · rcases hsource following hfollowing with
          ⟨event, hevent, rfl, hawaited, _⟩
        exact hdb.caught pack.id event past hevent hawaited
          (packHasEvent_iff.mpr ⟨earlier, hearlierOld, hpack, hpast⟩)
      · rw [List.mem_singleton.mp hearlierNew] at hlt
        exact absurd hlt (Nat.lt_irrefl _)
  · cases source with
    | none =>
        refine hdb.caught.reveal heases ?_ ?_
        · intro packId past hpast
          rcases packHasEvent_writePackVersion.mp hpast with
            hold | ⟨_, hsame⟩
          · exact hold
          · cases hsame
        · intro event hevent hunseen
          exact absurd hevent hunseen
    | some past =>
        rcases hsource past rfl with ⟨event, hevent, hid, _, hleast⟩
        refine @Feed.Caught.apply _ _ _ _ _ _ _ event pack.id hdb.caught
          heases (fun _ h => h) hleast ?_ ?_
        · intro packId other hother
          rcases packHasEvent_writePackVersion.mp hother with
            hold | ⟨hpack, hsame⟩
          · exact .inl hold
          · injection hsame with hsame
            exact .inr ⟨hpack.symm, hsame.symm.trans hid.symm⟩
        · intro other hother hawaited
          refine (hawaits pack.id other hawaited).2 ⟨rfl, ?_⟩
          rw [hother, hid]

theorem insertPackRevision_keepsOrder (hat : db.AtVersion pack)
    (hsource : forall past, source = some past -> exists event,
      event ∈ db.releaseEvents ∧ event.id = past ∧
        db.awaits pack.id event = true ∧
        forall other, other ∈ db.releaseEvents ->
          db.awaits pack.id other = true -> event.id ≤ other.id)
    (h : db.insertPackRevision pack members source = .ok (next, db')) :
    KeepsOrder db db' ∧ db'.AtVersion next := by
  rcases insertPackRevision_eq_ok h with
    ⟨version, generation, hversion, _, rfl, rfl⟩
  constructor
  · exact writePackVersion_keepsOrder hat hversion hsource
  · rcases hat with ⟨state, hstate, _⟩
    have hid : state.resourceId = pack.id := by
      simpa using List.find?_some hstate
    refine ⟨{ state with currentVersion := version }, ?_, rfl⟩
    rw [packState_writePackVersion]
    show (db.packState pack.id).map _ = _
    rw [hstate, Option.map_some, if_pos hid]

end Version

/-!
## Applying events
-/

section Events

variable {session : Session} {packId : Uuid} {event : PackReleaseEvent}
  {advanced : Option PackRow}

theorem livePack_of_lockPack {pack : PackRow}
    (h : db.lockPack session packId = some pack) :
    db.livePack packId = true ∧ pack.id = packId := by
  rcases lockPack_eq_some h with ⟨row, hfound, _⟩
  unfold livePack
  rw [hfound.found]
  exact ⟨by simp [hfound.live], hfound.id⟩

/-- A pack that may be locked applies an event that it awaits. -/
theorem advancePackEvent_awaits
    (h : db.advancePackEvent session packId event = .ok (advanced, db')) :
    (advanced = none ∧ db' = db ∧
        (db.awaits packId event = true ->
          db.lockPack session packId = none)) ∨
      exists pack next members, advanced = some next ∧
        db.lockPack session packId = some pack ∧
        db.awaits packId event = true ∧
        db.insertPackRevision pack members (some event.id) =
          .ok (next, db') := by
  unfold advancePackEvent at h
  split at h
  · rename_i hskip
    cases h
    refine .inl ⟨rfl, rfl, fun hawaits => ?_⟩
    rcases awaits_iff.mp hawaits with ⟨_, hfollows, hnew⟩
    simp [hfollows, hnew] at hskip
  · rename_i hskip
    simp only [Bool.or_eq_true, Bool.not_eq_true', not_or,
      Bool.not_eq_false, Bool.not_eq_true] at hskip
    rcases bind_eq_ok.mp h with ⟨release, _, h⟩
    rcases bind_eq_ok.mp h with ⟨_, _, h⟩
    dsimp only at h
    split at h
    · rename_i hnone
      cases h
      exact .inl ⟨rfl, rfl, fun _ => hnone⟩
    · rename_i pack hpack
      rcases bind_eq_ok.mp h with ⟨_, _, h⟩
      rcases bind_eq_ok.mp h with ⟨⟨next, stored⟩, hstored, h⟩
      cases h
      exact .inr ⟨pack, next, _, rfl, hpack,
        awaits_iff.mpr ⟨(livePack_of_lockPack hpack).1, hskip⟩, hstored⟩

theorem advancePackEvent_keepsOrder (hvisible : event ∈ db.releaseEvents)
    (hleast : db.awaits packId event = true -> forall other,
      other ∈ db.releaseEvents -> db.awaits packId other = true ->
        event.id ≤ other.id)
    (h : db.advancePackEvent session packId event = .ok (advanced, db')) :
    KeepsOrder db db' := by
  rcases advancePackEvent_awaits h with
    ⟨_, rfl, _⟩ | ⟨pack, next, members, _, hpack, hawaits, hinserted⟩
  · exact .refl _
  · refine (insertPackRevision_keepsOrder (lockPack_atVersion hpack) ?_
      hinserted).1
    intro past hpast
    injection hpast with hpast
    rw [(livePack_of_lockPack hpack).2]
    exact ⟨event, hvisible, hpast, hawaits, hleast hawaits⟩

/-- What a catch-up has still to go through: the pack awaits nothing but the
rest, and events behind it, or it cannot be locked. -/
structure CatchingUp (session : Session) (packId : Uuid)
    (rest : List PackReleaseEvent) (db : Db) : Prop where
  visible : forall event, event ∈ rest -> event ∈ db.releaseEvents
  sorted : rest.Pairwise fun a b => a.id ≤ b.id
  ahead : db.lockPack session packId = none ∨
    forall other, other ∈ db.releaseEvents ->
      db.awaits packId other = true ->
        other ∈ rest ∨ forall event, event ∈ rest -> event.id ≤ other.id

theorem CatchingUp.least {rest : List PackReleaseEvent} {pack : PackRow}
    (h : CatchingUp session packId (event :: rest) db)
    (hpack : db.lockPack session packId = some pack)
    (other : PackReleaseEvent) (hother : other ∈ db.releaseEvents)
    (hawaits : db.awaits packId other = true) : event.id ≤ other.id := by
  rcases h.ahead with hnone | hahead
  · rw [hpack] at hnone
    cases hnone
  · rcases hahead other hother hawaits with hrest | hbehind
    · rcases List.mem_cons.mp hrest with rfl | hrest
      · exact Nat.le_refl _
      · exact List.rel_of_pairwise_cons h.sorted hrest
    · exact hbehind event List.mem_cons_self

theorem CatchingUp.advance {rest : List PackReleaseEvent}
    (hdb : FollowsInOrder db)
    (h : CatchingUp session packId (event :: rest) db)
    (hadvanced : db.advancePackEvent session packId event =
      .ok (advanced, db')) : CatchingUp session packId rest db' := by
  have hkept : KeepsOrder db db' := by
    rcases advancePackEvent_awaits hadvanced with
      ⟨_, rfl, _⟩ | ⟨pack, _, _, _, hpack, _, _⟩
    · exact .refl _
    · exact advancePackEvent_keepsOrder (h.visible event List.mem_cons_self)
        (fun _ => h.least hpack) hadvanced
  rcases advancePackEvent_awaits hadvanced with
    ⟨_, rfl, hstuck⟩ | ⟨pack, next, members, _, hpack, _, hinserted⟩
  · refine ⟨fun other hother => h.visible other (List.mem_cons_of_mem _ hother),
      (List.pairwise_cons.mp h.sorted).2, ?_⟩
    by_cases hawaits : db'.awaits packId event = true
    · exact .inl (hstuck hawaits)
    · rcases h.ahead with hnone | hahead
      · exact .inl hnone
      · right
        intro other hother hawaited
        rcases hahead other hother hawaited with hrest | hbehind
        · rcases List.mem_cons.mp hrest with rfl | hrest
          · exact absurd hawaited hawaits
          · exact .inl hrest
        · exact .inr fun later hlater =>
            hbehind later (List.mem_cons_of_mem _ hlater)
  · have heases := (hkept hdb).2.eases
    rcases insertPackRevision_eq_ok hinserted with
      ⟨version, generation, _, _, _, rfl⟩
    refine ⟨fun other hother => h.visible other (List.mem_cons_of_mem _ hother),
      (List.pairwise_cons.mp h.sorted).2, .inr ?_⟩
    intro other hother hawaited
    have hbefore : db.awaits packId other = true :=
      heases.awaits packId other hother hawaited
    rcases h.ahead with hnone | hahead
    · rw [hpack] at hnone
      cases hnone
    · rcases hahead other hother hbefore with hrest | hbehind
      · rcases List.mem_cons.mp hrest with rfl | hrest
        · have hhas := (@packHasEvent_writePackVersion db members
            (some other.id) version generation pack.id packId other.id).mpr
              (.inr ⟨(livePack_of_lockPack hpack).2, rfl⟩)
          rw [(awaits_iff.mp hawaited).2.2] at hhas
          cases hhas
        · exact .inl hrest
      · exact .inr fun later hlater =>
          hbehind later (List.mem_cons_of_mem _ hlater)

theorem catchUp_keepsOrder {events : List PackReleaseEvent}
    {state next : Option Generation × PackRow × Db}
    (hstart : CatchingUp session packId events state.2.2)
    (h : events.foldlM (catchUpStep session packId) state = .ok next) :
    KeepsOrder state.2.2 next.2.2 := by
  induction events generalizing state with
  | nil =>
      cases h
      exact .refl _
  | cons event rest ih =>
      rw [List.foldlM_cons] at h
      rcases bind_eq_ok.mp h with ⟨middle, hmiddle, h⟩
      rcases bind_eq_ok.mp hmiddle with ⟨⟨advanced, stored⟩, hstored, hmiddle⟩
      have hstoredDb : middle.2.2 = stored := by
        cases advanced with
        | none =>
            cases hmiddle
            rfl
        | some pack =>
            cases hmiddle
            rfl
      rw [← hstoredDb] at hstored
      intro hdb
      have hrest := ih (hstart.advance hdb hstored) h
      refine KeepsOrder.trans ?_ hrest hdb
      rcases advancePackEvent_awaits hstored with
        ⟨_, hsame, _⟩ | ⟨pack, _, _, _, hpack, _, _⟩
      · rw [hsame]
        exact .refl _
      · exact advancePackEvent_keepsOrder
          (hstart.visible event List.mem_cons_self)
          (fun _ => hstart.least hpack) hstored

end Events

/-- The events that a user's mutation of a pack catches up with. -/
theorem packPendingReleaseEvents_catchingUp (user packId : Uuid)
    (limit : Nat) :
    CatchingUp (.actor user) packId
      (db.packPendingReleaseEvents user packId limit) db := by
  unfold packPendingReleaseEvents
  split
  · let pending := ((sortByKey AuthorityEventRow.id
      db.authorityEvents).filterMap AuthorityEventRow.packReleaseEvent).filter
        fun event => db.packFollows packId event &&
          !db.packHasEvent packId event.id
    have hsorted : pending.Pairwise fun a b => a.id ≤ b.id := by
      refine List.Pairwise.filter _ ?_
      refine List.Pairwise.filterMap _ ?_
        (sortByKey_pairwise AuthorityEventRow.id db.authorityEvents)
      intro a b hle event hevent later hlater
      rcases Option.map_eq_some_iff.mp hevent with ⟨_, _, rfl⟩
      rcases Option.map_eq_some_iff.mp hlater with ⟨_, _, rfl⟩
      exact hle
    have hmember : forall event, event ∈ pending <->
        event ∈ db.releaseEvents ∧ (db.packFollows packId event &&
          !db.packHasEvent packId event.id) = true := by
      intro event
      rw [List.mem_filter]
      unfold releaseEvents
      simp only [List.mem_filterMap, mem_sortByKey]
    refine ⟨?_, hsorted.sublist (List.take_sublist _ _), .inr ?_⟩
    · intro event hevent
      exact ((hmember event).mp (List.mem_of_mem_take hevent)).1
    · intro other hother hawaits
      rcases awaits_iff.mp hawaits with ⟨_, hfollows, hnew⟩
      have hpending : other ∈ pending :=
        (hmember other).mpr ⟨hother, by simp [hfollows, hnew]⟩
      rw [← List.take_append_drop (min limit 1024) pending] at hpending hsorted
      rcases List.mem_append.mp hpending with htaken | hdropped
      · exact .inl htaken
      · exact .inr fun event hevent =>
          (List.pairwise_append.mp hsorted).2.2 event hevent other hdropped
  · rename_i hnot
    refine ⟨fun _ h => absurd h List.not_mem_nil, .nil, .inl ?_⟩
    unfold lockPack
    simp [canManage, hnot]

theorem lockAndCatchUpPack_keepsOrder {user : Uuid} {pack : PackRow}
    {state : Option Generation × PackRow × Db}
    (h : db.lockAndCatchUpPack user pack = .ok state) :
    KeepsOrder db state.2.2 := by
  rcases bind_eq_ok.mp h with ⟨_, _, h⟩
  exact catchUp_keepsOrder
    (packPendingReleaseEvents_catchingUp user pack.id _) h

end Db
end Denju
