import Denju.Registry.Locators
import Denju.Registry.AncestryAccess

/-!
# Reading a pack

A pack is read with all the members of its current version.  A member that the
reader may not have any more stays in the list with the reason.  A subscriber
reads every pack that it requires at once.
-/

namespace Denju

open Lib

inductive PackUnavailableReason where
  | deleted
  | unpublished
  | accessRevoked
  | quarantined
deriving DecidableEq, Repr

inductive SubscriptionContent where
  | release (version : Nat) (followingLatest : Bool)
  | privateWorkspace
deriving DecidableEq, Repr

/-- A skill as a device receives it.  The archive comes by a link that is made
from the key of the stored snapshot. -/
structure SubscribedSkill where
  resourceId : Uuid
  locator : Text
  owner : Text
  name : Text
  description : Text
  generation : Nat
  revisionId : RevisionId
  deprecation : Option SkillDeprecation
  content : SubscriptionContent
  snapshot : StoredSnapshot
  retainOnDelete : Bool
  retainedAfterDelete : Bool
deriving DecidableEq

structure PackMember where
  resourceId : Uuid
  locator : Text
  pinnedReleaseVersion : Option Nat
  resolvedReleaseVersion : Option Nat
  revisionId : RevisionId
  unavailableReason : Option PackUnavailableReason
  desired : Option SubscribedSkill
deriving DecidableEq

structure PackDetail where
  pack : PackSummary
  members : List PackMember
deriving DecidableEq

/-- The user who reads a private pack, and the namespace through which. -/
structure PackActor where
  userId : Uuid
  namespaceId : Uuid
deriving DecidableEq

namespace Db

variable (db : Db)

/-!
## Members
-/

/-- The skill of a member, where the viewer sees it. -/
def memberRow (viewer : Viewer) (member : ResolvedPackMember) :
    Option ResourceRow :=
  (db.findResource member.skillResourceId).filter fun row =>
    decide (row.kind = .skill) && db.seesResource viewer row.id

def revisionInUserWorkspace (user id : Uuid) (revision : RevisionId) : Bool :=
  ((db.workspace id user).filter (db.canReadWorkspace user)).any fun row =>
    decide (revision ∈ ancestry (db.readableEdges user) row.revisionId)

/-- A user reads a private member in the namespace of the pack, through a
share, or as a member of the team that owns it. -/
def actorReadsMember (viewer : Viewer) (actor : PackActor)
    (row : ResourceRow) (member : ResolvedPackMember) : Bool :=
  if decide (row.ownerNamespaceId = actor.namespaceId) ||
      db.sharedWith row.id actor.userId then true
  else if decide (db.ownerKind row = some .team) &&
      (db.directory.membership row.ownerNamespaceId actor.userId).isSome then
    (db.released row.id member.resolvedRevisionId &&
      db.readsRevision viewer row.id member.resolvedRevisionId) ||
      db.revisionInUserWorkspace actor.userId row.id member.resolvedRevisionId
  else false

def memberReadable (viewer : Viewer) (pack : PackRow)
    (actor : Option PackActor) (row : ResourceRow)
    (member : ResolvedPackMember) : Bool :=
  if row.deleted then false
  else if pack.visibility = .pub then decide (row.visibility = .pub)
  else if row.visibility = .pub then true
  else actor.any fun actor => db.actorReadsMember viewer actor row member

/-- A quarantine of the skill, or of the release of the member. -/
def memberQuarantined (member : ResolvedPackMember) : Bool :=
  db.quarantines.any fun row =>
    row.resourceId = member.skillResourceId ∧ row.lifted = false ∧
      (row.releaseVersion = none ∨
        row.releaseVersion = member.resolvedReleaseVersion)

def unavailableReason (viewer : Viewer) (pack : PackRow)
    (actor : Option PackActor) (row : ResourceRow)
    (member : ResolvedPackMember) : Option PackUnavailableReason :=
  if db.memberQuarantined member then some .quarantined
  else if row.deleted then some .deleted
  else if pack.visibility = .pub ∧ row.visibility ≠ .pub then
    some .unpublished
  else if !db.memberReadable viewer pack actor row member then
    some .accessRevoked
  else none

def memberSnapshot (viewer : Viewer) (member : ResolvedPackMember) :
    Option SnapshotRow :=
  db.snapshots.find? fun row =>
    decide (row.resourceId = member.skillResourceId ∧
      row.revisionId = member.resolvedRevisionId) && db.seesSnapshot viewer row

def memberContent (member : ResolvedPackMember) : SubscriptionContent :=
  match member.resolvedReleaseVersion with
  | some version => .release version.value member.pinnedReleaseVersion.isNone
  | none => .privateWorkspace

/-- The content of a member that has no reason against it. -/
def memberDesired (viewer : Viewer) (member : ResolvedPackMember)
    (row : ResourceRow) (owner : Text) :
    Option PackUnavailableReason -> Except ApiError (Option SubscribedSkill)
  | some _ => .ok none
  | none => do
      let stored <- okOr (db.memberSnapshot viewer member)
        (ApiError.new .internal
          "pack member revision lost its immutable snapshot")
      return some {
        resourceId := row.id
        locator := locator owner row.slug
        owner
        name := row.slug
        description := row.metadata.description
        generation := row.generation.value
        revisionId := member.resolvedRevisionId
        deprecation := none
        content := memberContent member
        snapshot := stored.snapshot
        retainOnDelete := false
        retainedAfterDelete := false }

def packMemberDetail (viewer : Viewer) (pack : PackRow)
    (actor : Option PackActor) (member : ResolvedPackMember) :
    Except ApiError PackMember := do
  let row <- okOr (db.memberRow viewer member)
    (ApiError.new .internal "pack member resource is missing")
  let owner := ((db.directory.namespaceById row.ownerNamespaceId).map
    Namespace.slug).getD "deleted".toList
  let reason := db.unavailableReason viewer pack actor row member
  let desired <- db.memberDesired viewer member row owner reason
  return {
    resourceId := row.id
    locator := locator owner row.slug
    pinnedReleaseVersion := member.pinnedReleaseVersion.map Generation.value
    resolvedReleaseVersion :=
      member.resolvedReleaseVersion.map Generation.value
    revisionId := member.resolvedRevisionId
    unavailableReason := reason
    desired }

/-!
## Packs
-/

/-- The user behind a request that only reads. -/
def readAuthority (reader : Option Uuid) :
    Except ApiError (Option UserAuthority) :=
  match reader with
  | none => .ok none
  | some user => do
      let authority <- db.directory.userAuthority user
      return some authority

/-- Who reads the pack.  Nobody in particular reads a public one. -/
def packActor (authority : Option UserAuthority) (pack : PackRow) :
    Except ApiError (Option PackActor) :=
  if pack.visibility = .pub then .ok none
  else do
    let authority <- okOr authority packNotFound
    let teamMember := db.isTeamMember authority.userId pack.ownerNamespaceId
    ensure (decide (authority.namespaceId = pack.ownerNamespaceId) ||
        teamMember)
      packNotFound
    return some {
      userId := authority.userId
      namespaceId :=
        if teamMember then pack.ownerNamespaceId
        else authority.namespaceId }

end Db

def readingViewer : Option Uuid -> Viewer
  | none => .anonymous
  | some user => .user user

namespace Registry

def packDetail (reader : Option Uuid) (owner slug : Text) (db : Db) :
    Except ApiError PackDetail := do
  let authority <- db.readAuthority reader
  let viewer := readingViewer reader
  let pack <- loadPackByLocator viewer owner slug db
  ensure (!db.quarantined pack.id) packNotFound
  let actor <- db.packActor authority pack
  let members <- (db.loadPackRevisionMembers pack.id
    pack.currentVersion).mapM (db.packMemberDetail viewer pack actor)
  return {
    pack := { db.packSummary pack with
      degraded := members.any fun member => member.unavailableReason.isSome }
    members }

end Registry

/-!
## Packs that are required
-/

/-- Why a subscriber requires a pack: its own subscription, or a team, with the
slug that the team is shown under. -/
inductive PackRequirementSource where
  | direct
  | teamAssignment (teamNamespaceId : Uuid) (team : Text)
deriving DecidableEq, Repr

structure PackRequirement where
  source : PackRequirementSource
  pack : PackDetail
deriving DecidableEq

def SubscriptionSubject.user? : SubscriptionSubject -> Option Uuid
  | .installation _ => none
  | .user id => some id

namespace Db

variable (db : Db)

/-- A live pack that the subscriber sees. -/
def subscribedPack (subject : SubscriptionSubject) (id : Uuid) :
    Option ResourceRow :=
  (db.findResource id).filter fun row =>
    decide (row.kind = .pack) && !row.deleted &&
      db.seesResource subject.viewer row.id

def directPacks : SubscriptionSubject -> List ResourceRow
  | .installation id =>
      (db.installationSubscriptions.filter fun row =>
        row.installationId = id).filterMap fun row =>
          (db.subscribedPack (.installation id) row.resourceId).filter
            fun pack => decide (pack.visibility = .pub)
  | .user id =>
      (db.subscriptions.filter fun row => row.userId = id).filterMap fun row =>
        (db.subscribedPack (.user id) row.resourceId).filter fun pack =>
          decide (pack.visibility = .pub) ||
            db.directory.ownsNamespace id pack.ownerNamespaceId ||
              db.isTeamMember id pack.ownerNamespaceId

/-- A pack that a team of the user assigns, with the team. -/
def assignedPack (user : Uuid) (row : TeamPackAssignmentRow) :
    Option (Namespace × ResourceRow) := do
  let team <- (db.directory.namespaceById row.teamNamespaceId).filter
    fun team => db.isTeamMember user team.id
  let pack <- (db.subscribedPack (.user user) row.packResourceId).filter
    fun pack =>
      decide (pack.visibility = .pub ∨
        pack.ownerNamespaceId = row.teamNamespaceId)
  return (team, pack)

def assignmentOrder (assigned : Namespace × ResourceRow) :
    Lex (Bytes × Lex (List UInt8 × List UInt8)) :=
  toLex (utf8 assigned.1.slug,
    toLex (assigned.1.id.toList, assigned.2.id.toList))

/-- The packs that a subscriber requires. -/
def packRequirements (subject : SubscriptionSubject) :
    List (ResourceRow × PackRequirementSource) :=
  let direct := (sortByKey (fun pack : ResourceRow => pack.id.toList)
    (db.directPacks subject)).map fun pack =>
      (pack, PackRequirementSource.direct)
  match subject with
  | .installation _ => direct
  | .user user =>
      direct ++ (sortByKey assignmentOrder
        (db.teamPackAssignments.filterMap (db.assignedPack user))).map
          fun assigned =>
            (assigned.2, .teamAssignment assigned.1.id assigned.1.slug)

end Db

namespace Registry

/-- One required pack, read through its locator. -/
def packRequirement (subject : SubscriptionSubject)
    (requirement : ResourceRow × PackRequirementSource) (db : Db) :
    Except ApiError PackRequirement := do
  let missing := internalApiError
    "no rows returned by a query that expected to return at least one row"
  let row <- okOr ((db.findResource requirement.1.id).filter fun row =>
    db.seesResource subject.reader row.id) missing
  let owner <- okOr (db.directory.namespaceById row.ownerNamespaceId) missing
  let pack <- packDetail subject.user? owner.slug row.slug db
  return { source := requirement.2, pack }

def packSubscriptionCatalog (subject : SubscriptionSubject) (db : Db) :
    Except ApiError (List PackRequirement) :=
  (db.packRequirements subject).mapM fun requirement =>
    packRequirement subject requirement db

end Registry

namespace Db

variable {db : Db} {viewer : Viewer} {pack : PackRow}
variable {actor : Option PackActor} {row : ResourceRow}
variable {member : ResolvedPackMember}

/-!
## Which members are served
-/

variable (db viewer pack actor row member) in
/-- A member is open to the reader of a pack: it is live and not quarantined,
and it is public, or the pack is private and its reader reads the skill. -/
structure MemberOpen : Prop where
  unquarantined : db.memberQuarantined member = false
  live : row.deleted = false
  readable : row.visibility = .pub ∨
    (pack.visibility ≠ .pub ∧ exists reader, actor = some reader ∧
      db.actorReadsMember viewer reader row member = true)

theorem unavailableReason_eq_none :
    db.unavailableReason viewer pack actor row member = none <->
      db.MemberOpen viewer pack actor row member := by
  have hreadable : row.deleted = false ->
      ¬(pack.visibility = .pub ∧ row.visibility ≠ .pub) ->
        (db.memberReadable viewer pack actor row member = true <->
          row.visibility = .pub ∨ (pack.visibility ≠ .pub ∧
            exists reader, actor = some reader ∧
              db.actorReadsMember viewer reader row member = true)) := by
    intro hlive hshown
    unfold memberReadable
    by_cases hpack : pack.visibility = .pub
    · by_cases hrow : row.visibility = .pub
      · simp [hlive, hpack, hrow]
      · exact absurd ⟨hpack, hrow⟩ hshown
    · by_cases hrow : row.visibility = .pub
      · simp [hlive, hpack, hrow]
      · simp [hlive, hpack, hrow, Option.any_eq_true]
  unfold unavailableReason
  constructor
  · intro h
    split at h
    · cases h
    · rename_i hquarantined
      split at h
      · cases h
      · rename_i hdeleted
        split at h
        · cases h
        · rename_i hshown
          split at h
          · cases h
          · rename_i hread
            have hlive : row.deleted = false := by simpa using hdeleted
            exact ⟨by simpa using hquarantined, hlive,
              (hreadable hlive hshown).mp (by simpa using hread)⟩
  · intro h
    have hshown : ¬(pack.visibility = .pub ∧ row.visibility ≠ .pub) := by
      rintro ⟨hpack, hrow⟩
      rcases h.readable with hpublic | ⟨hprivate, _⟩
      · exact hrow hpublic
      · exact hprivate hpack
    have hread := (hreadable h.live hshown).mpr h.readable
    rw [if_neg (by simp [h.unquarantined]), if_neg (by simp [h.live]),
      if_neg hshown, if_neg (by simp [hread])]

variable (db viewer pack actor member) in
/-- What the viewer needs to see of a member: its skill, and the snapshot of
its revision if the member is open. -/
def ReachesMember : Prop :=
  exists row, db.memberRow viewer member = some row ∧
    (db.MemberOpen viewer pack actor row member ->
      (db.memberSnapshot viewer member).isSome)

variable (db viewer pack actor member) in
/-- The entry of a member has its content if the member is open, and otherwise
a reason. -/
structure MemberServed (entry : PackMember) : Prop where
  resourceId : entry.resourceId = member.skillResourceId
  revisionId : entry.revisionId = member.resolvedRevisionId
  served : exists row, db.memberRow viewer member = some row ∧
    (entry.desired.isSome <-> db.MemberOpen viewer pack actor row member) ∧
    entry.unavailableReason =
      db.unavailableReason viewer pack actor row member
  stored : forall skill, entry.desired = some skill ->
    exists snapshot, snapshot ∈ db.snapshots ∧
      snapshot.resourceId = member.skillResourceId ∧
        snapshot.revisionId = member.resolvedRevisionId ∧
          skill.snapshot = snapshot.snapshot

theorem memberRow_id (h : db.memberRow viewer member = some row) :
    row.id = member.skillResourceId :=
  (mem_of_findResource_eq_some (Option.filter_eq_some_iff.mp h).1).2

theorem memberDesired_eq_ok {owner : Text}
    {reason : Option PackUnavailableReason} {desired : Option SubscribedSkill}
    (h : db.memberDesired viewer member row owner reason = .ok desired) :
    (desired.isSome <-> reason = none) ∧
      forall skill, desired = some skill ->
        exists snapshot, snapshot ∈ db.snapshots ∧
          snapshot.resourceId = member.skillResourceId ∧
            snapshot.revisionId = member.resolvedRevisionId ∧
              skill.snapshot = snapshot.snapshot := by
  cases reason with
  | some reason =>
      cases h
      exact ⟨by simp, fun _ h => nomatch h⟩
  | none =>
      rcases bind_eq_ok.mp h with ⟨stored, hstored, h⟩
      cases h
      have hsnapshot := okOr_eq_ok.mp hstored
      refine ⟨by simp, ?_⟩
      rintro skill ⟨⟩
      have hkeys := List.find?_some hsnapshot
      simp only [Bool.and_eq_true, decide_eq_true_eq] at hkeys
      exact ⟨stored, List.mem_of_find?_eq_some hsnapshot, hkeys.1.1,
        hkeys.1.2, rfl⟩

theorem exists_memberDesired_eq_ok {owner : Text}
    {reason : Option PackUnavailableReason} :
    (exists desired,
        db.memberDesired viewer member row owner reason = .ok desired) <->
      (reason = none -> (db.memberSnapshot viewer member).isSome) := by
  cases reason with
  | some reason =>
      constructor
      · intro _ hnone
        cases hnone
      · exact fun _ => ⟨none, rfl⟩
  | none =>
      constructor
      · rintro ⟨_, h⟩ _
        rcases bind_eq_ok.mp h with ⟨stored, hstored, _⟩
        rw [okOr_eq_ok.mp hstored]
        rfl
      · intro h
        rcases Option.isSome_iff_exists.mp (h rfl) with ⟨stored, hstored⟩
        refine ⟨_, bind_eq_ok.mpr ⟨stored, okOr_eq_ok.mpr hstored, rfl⟩⟩

theorem packMemberDetail_eq_ok {entry : PackMember}
    (h : db.packMemberDetail viewer pack actor member = .ok entry) :
    db.MemberServed viewer pack actor member entry := by
  rcases bind_eq_ok.mp h with ⟨row, hrow, h⟩
  rcases bind_eq_ok.mp h with ⟨desired, hdesired, h⟩
  cases h
  have hfound := okOr_eq_ok.mp hrow
  rcases memberDesired_eq_ok hdesired with ⟨hsome, hstored⟩
  exact
    { resourceId := memberRow_id hfound
      revisionId := rfl
      served :=
        ⟨row, hfound, hsome.trans unavailableReason_eq_none, rfl⟩
      stored := hstored }

theorem exists_packMemberDetail_eq_ok :
    (exists entry, db.packMemberDetail viewer pack actor member = .ok entry) <->
      db.ReachesMember viewer pack actor member := by
  constructor
  · rintro ⟨entry, h⟩
    rcases bind_eq_ok.mp h with ⟨row, hrow, h⟩
    rcases bind_eq_ok.mp h with ⟨desired, hdesired, _⟩
    refine ⟨row, okOr_eq_ok.mp hrow, fun hopen => ?_⟩
    exact exists_memberDesired_eq_ok.mp ⟨desired, hdesired⟩
      (unavailableReason_eq_none.mpr hopen)
  · rintro ⟨row, hrow, hstored⟩
    rcases exists_memberDesired_eq_ok.mpr fun hreason =>
      hstored (unavailableReason_eq_none.mp hreason) with ⟨desired, hdesired⟩
    exact ⟨_, bind_eq_ok.mpr ⟨row, okOr_eq_ok.mpr hrow,
      bind_eq_ok.mpr ⟨desired, hdesired, rfl⟩⟩⟩

/-!
## Which packs are served
-/

variable (db) in
/-- The reader may read the pack, in the name of the actor. -/
def ReadsPack (reader : Option Uuid) (pack : PackRow)
    (actor : Option PackActor) : Prop :=
  exists authority, db.readAuthority reader = .ok authority ∧
    db.packActor authority pack = .ok actor

variable (db) in
def packVersion (pack : PackRow) : List ResolvedPackMember :=
  db.loadPackRevisionMembers pack.id pack.currentVersion

variable (db) in
def ReachesMembers (reader : Option Uuid) (pack : PackRow)
    (actor : Option PackActor) : Prop :=
  forall member, member ∈ db.packVersion pack ->
    db.ReachesMember (readingViewer reader) pack actor member

variable (db) in
/-- Every member of the current version has its entry, in its order. -/
structure PackServed (reader : Option Uuid) (pack : PackRow)
    (actor : Option PackActor) (detail : PackDetail) : Prop where
  resourceId : detail.pack.resourceId = pack.id
  members : List.Forall₂
    (db.MemberServed (readingViewer reader) pack actor)
    (db.packVersion pack) detail.members

/-- What a pack that is found and read shows. -/
theorem packDetail_eq_ok {reader : Option Uuid} {owner slug : Text}
    {detail : PackDetail}
    (hpack : Registry.loadPackByLocator (readingViewer reader) owner slug db =
      .ok pack)
    (hreads : db.ReadsPack reader pack actor)
    (h : Registry.packDetail reader owner slug db = .ok detail) :
    db.quarantined pack.id = false ∧ db.ReachesMembers reader pack actor ∧
      db.PackServed reader pack actor detail := by
  rcases hreads with ⟨authority, hauthority, hactor⟩
  rcases bind_eq_ok.mp h with ⟨read, hread, h⟩
  rw [hauthority] at hread
  cases hread
  rcases bind_eq_ok.mp h with ⟨found, hfound, h⟩
  rw [hpack] at hfound
  cases hfound
  rcases bind_eq_ok.mp h with ⟨_, hquarantined, h⟩
  rcases bind_eq_ok.mp h with ⟨reading, hreading, h⟩
  rw [hactor] at hreading
  cases hreading
  rcases bind_eq_ok.mp h with ⟨entries, hentries, h⟩
  cases h
  refine ⟨by simpa using ensure_eq_ok.mp hquarantined, ?_, rfl, ?_⟩
  · intro member hmember
    rcases mapM_eq_ok_forall hentries member hmember with ⟨entry, _, hentry⟩
    exact exists_packMemberDetail_eq_ok.mp ⟨entry, hentry⟩
  · exact (mapM_eq_ok_forall2 hentries).imp fun _ _ => packMemberDetail_eq_ok

/-- A pack that its reader finds and may read is served exactly when it is not
quarantined and the reader reaches its members. -/
theorem exists_packDetail_eq_ok {reader : Option Uuid} {owner slug : Text}
    (hpack : Registry.loadPackByLocator (readingViewer reader) owner slug db =
      .ok pack)
    (hreads : db.ReadsPack reader pack actor) :
    (exists detail, Registry.packDetail reader owner slug db = .ok detail) <->
      db.quarantined pack.id = false ∧
        db.ReachesMembers reader pack actor := by
  constructor
  · rintro ⟨detail, hdetail⟩
    rcases packDetail_eq_ok hpack hreads hdetail with
      ⟨hquarantined, hreaches, _⟩
    exact ⟨hquarantined, hreaches⟩
  · rintro ⟨hquarantined, hreaches⟩
    rcases hreads with ⟨authority, hauthority, hactor⟩
    rcases exists_mapM_eq_ok.mpr fun member hmember =>
      exists_packMemberDetail_eq_ok.mpr (hreaches member hmember) with
      ⟨entries, hentries⟩
    have hopen : ensure (!db.quarantined pack.id) packNotFound = .ok () := by
      rw [hquarantined]
      rfl
    exact ⟨_, bind_eq_ok.mpr ⟨authority, hauthority,
      bind_eq_ok.mpr ⟨pack, hpack, bind_eq_ok.mpr ⟨(), hopen,
        bind_eq_ok.mpr ⟨actor, hactor,
          bind_eq_ok.mpr ⟨entries, hentries, rfl⟩⟩⟩⟩⟩⟩

/-!
## Which catalogs are served
-/

/-- A required pack is live, its subscriber sees it, and it is public, or the
subscriber reads it through its own namespace or its teams. -/
structure Required (db : Db) (subject : SubscriptionSubject)
    (row : ResourceRow) : Prop where
  found : db.findResource row.id = some row
  pack : row.kind = .pack
  live : row.deleted = false
  sees : db.seesResource subject.viewer row.id = true
  readable : row.visibility = .pub ∨ exists user, subject = .user user ∧
    (db.directory.ownsNamespace user row.ownerNamespaceId = true ∨
      db.isTeamMember user row.ownerNamespaceId = true)

theorem readingViewer_user (subject : SubscriptionSubject) :
    readingViewer subject.user? = subject.reader := by
  cases subject with
  | installation id => rfl
  | user id => rfl

theorem subscribedPack_eq_some {subject : SubscriptionSubject} {id : Uuid}
    (h : db.subscribedPack subject id = some row) :
    db.findResource row.id = some row ∧ row.kind = .pack ∧
      row.deleted = false ∧
        db.seesResource subject.viewer row.id = true := by
  rcases Option.filter_eq_some_iff.mp h with ⟨hfound, hchecks⟩
  simp only [Bool.and_eq_true, decide_eq_true_eq,
    Bool.not_eq_true'] at hchecks
  have hid := (mem_of_findResource_eq_some hfound).2
  rw [← hid] at hfound
  exact ⟨hfound, hchecks.1.1, hchecks.1.2, hchecks.2⟩

theorem required_of_direct {subject : SubscriptionSubject}
    (h : row ∈ db.directPacks subject) : db.Required subject row := by
  cases subject with
  | installation id =>
      rcases List.mem_filterMap.mp h with ⟨subscription, _, hpack⟩
      rcases Option.filter_eq_some_iff.mp hpack with ⟨hfound, hpublic⟩
      rcases subscribedPack_eq_some hfound with ⟨hrow, hkind, hlive, hsees⟩
      exact ⟨hrow, hkind, hlive, hsees, .inl (by simpa using hpublic)⟩
  | user id =>
      rcases List.mem_filterMap.mp h with ⟨subscription, _, hpack⟩
      rcases Option.filter_eq_some_iff.mp hpack with ⟨hfound, hreads⟩
      rcases subscribedPack_eq_some hfound with ⟨hrow, hkind, hlive, hsees⟩
      refine ⟨hrow, hkind, hlive, hsees, ?_⟩
      simp only [Bool.or_eq_true, decide_eq_true_eq] at hreads
      rcases hreads with (hpublic | howns) | hteam
      · exact .inl hpublic
      · exact .inr ⟨id, rfl, .inl howns⟩
      · exact .inr ⟨id, rfl, .inr hteam⟩

theorem required_of_assigned {user : Uuid} {assignment : TeamPackAssignmentRow}
    {team : Namespace}
    (h : db.assignedPack user assignment = some (team, row)) :
    db.Required (.user user) row := by
  rcases Option.bind_eq_some_iff.mp h with ⟨found, hteam, h⟩
  rcases Option.bind_eq_some_iff.mp h with ⟨pack, hpack, h⟩
  cases h
  rcases Option.filter_eq_some_iff.mp hteam with ⟨hspace, hmember⟩
  rcases Option.filter_eq_some_iff.mp hpack with ⟨hfound, hreads⟩
  rcases subscribedPack_eq_some hfound with ⟨hrow, hkind, hlive, hsees⟩
  refine ⟨hrow, hkind, hlive, hsees, ?_⟩
  rcases of_decide_eq_true hreads with hpublic | howner
  · exact .inl hpublic
  · refine .inr ⟨user, rfl, .inr ?_⟩
    rw [howner, ← (Directory.namespaceById_eq_some hspace).2]
    exact hmember

theorem required_of_mem {subject : SubscriptionSubject}
    {source : PackRequirementSource}
    (h : (row, source) ∈ db.packRequirements subject) :
    db.Required subject row := by
  have hdirect : forall pair, pair ∈ ((sortByKey
      (fun pack : ResourceRow => pack.id.toList)
        (db.directPacks subject)).map fun pack =>
          (pack, PackRequirementSource.direct)) ->
      db.Required subject pair.1 := by
    intro pair hpair
    rcases List.mem_map.mp hpair with ⟨pack, hpack, rfl⟩
    exact required_of_direct (mem_sortByKey.mp hpack)
  unfold packRequirements at h
  cases subject with
  | installation id => exact hdirect _ h
  | user id =>
      rcases List.mem_append.mp h with hown | hteam
      · exact hdirect _ hown
      · rcases List.mem_map.mp hteam with ⟨⟨team, pack⟩, hassigned, heq⟩
        cases heq
        rcases List.mem_filterMap.mp (mem_sortByKey.mp hassigned) with
          ⟨assignment, _, hpack⟩
        exact required_of_assigned hpack

theorem canReadResource_of_public {user id : Uuid}
    (hfound : db.findResource id = some row) (hpublic : row.visibility = .pub)
    (hlive : row.deleted = false) : db.canReadResource user id = true := by
  unfold canReadResource
  rw [hfound]
  simp [hpublic, hlive]

/-- What a subscriber requires is seen by its requests that read packs. -/
theorem Required.reader_sees {subject : SubscriptionSubject}
    (h : db.Required subject row) :
    db.seesResource (readingViewer subject.user?) row.id = true := by
  rcases h.readable with hpublic | ⟨user, rfl, _⟩
  · cases subject with
    | installation id =>
        show db.publicResource row.id = true
        unfold publicResource
        rw [h.found]
        simp [ResourceRow.isPublic, hpublic, h.live]
    | user id => exact canReadResource_of_public h.found hpublic h.live
  · exact h.sees

theorem Required.packRow_isSome {subject : SubscriptionSubject}
    (h : db.Required subject row) (hl : db.Located) :
    exists owner pack,
      db.directory.namespaceById row.ownerNamespaceId = some owner ∧
        owner ∈ db.directory.namespaces ∧ owner.id = row.ownerNamespaceId ∧
          db.packRow row = some pack ∧ pack.id = row.id ∧
            pack.visibility = row.visibility ∧
              pack.ownerNamespaceId = row.ownerNamespaceId := by
  have hmem := (mem_of_findResource_eq_some h.found).1
  rcases hl.owned row hmem with ⟨space, hspace, hid⟩
  have howner : db.directory.namespaceById row.ownerNamespaceId =
      some space := by
    rw [← hid]
    exact find?_key_eq_some db.directory.namespaceKey hspace
  rcases List.mem_map.mp (hl.packed row hmem h.pack) with
    ⟨state, hstate, hstateId⟩
  have hfound : (db.packState row.id).isSome := by
    rw [packState, List.find?_isSome]
    exact ⟨state, hstate, by simpa using hstateId⟩
  rcases Option.isSome_iff_exists.mp hfound with ⟨current, hcurrent⟩
  have hpack : exists pack, db.packRow row = some pack ∧ pack.id = row.id ∧
      pack.visibility = row.visibility ∧
        pack.ownerNamespaceId = row.ownerNamespaceId := by
    unfold packRow
    rw [howner, hcurrent]
    exact ⟨_, rfl, rfl, rfl, rfl⟩
  rcases hpack with ⟨pack, hpack, hfields⟩
  exact ⟨space, pack, howner, hspace, hid, hpack, hfields⟩

/-- The locator of a required pack leads back to it. -/
theorem Required.loadPackByLocator {subject : SubscriptionSubject}
    {owner : Namespace} (h : db.Required subject row) (hl : db.Located)
    (howner : owner ∈ db.directory.namespaces)
    (hid : owner.id = row.ownerNamespaceId)
    (hpack : db.packRow row = some pack) :
    Registry.loadPackByLocator (readingViewer subject.user?) owner.slug
      row.slug db = .ok pack := by
  have hmem := (mem_of_findResource_eq_some h.found).1
  have hactive : db.activeAt (readingViewer subject.user?) .pack owner.slug
      row.slug = some row := by
    unfold activeAt
    rw [Directory.namespaceBySlug_of_mem howner]
    have hholds : (holdsName .pack owner.id row.slug row &&
        db.seesResource (readingViewer subject.user?) row.id) = true := by
      rw [h.reader_sees, Bool.and_true]
      simp [holdsName, hid, h.pack, h.live]
    have hsome : (db.resources.find? fun other =>
        holdsName .pack owner.id row.slug other &&
          db.seesResource (readingViewer subject.user?) other.id).isSome := by
      rw [List.find?_isSome]
      exact ⟨row, hmem, hholds⟩
    rcases Option.isSome_iff_exists.mp hsome with ⟨other, hother⟩
    have hname := List.find?_some hother
    simp only [holdsName, Bool.and_eq_true, decide_eq_true_eq] at hname
    have hotherMem := List.mem_of_find?_eq_some hother
    have hsame : other.id = row.id := by
      refine hl.unique other.id row.id row.name
        ⟨other, hotherMem, rfl, hname.1.2.2.2, ?_⟩
        ⟨row, hmem, rfl, h.live, rfl⟩
      unfold ResourceRow.name
      rw [hname.1.1, hname.1.2.1, hname.1.2.2.1, hid, h.pack]
    have hrow := List.inj_on_of_nodup_map hl.keyed hotherMem hmem hsame
    show (db.resources.find? _) = some row
    rw [hother, hrow]
  unfold Registry.loadPackByLocator
  rw [hactive]
  simp [hpack]

/-- A subscriber reads what it requires. -/
theorem Required.readsPack {subject : SubscriptionSubject}
    {authority : Option UserAuthority} (h : db.Required subject row)
    (hauthority : db.readAuthority subject.user? = .ok authority)
    (hvisibility : pack.visibility = row.visibility)
    (howner : pack.ownerNamespaceId = row.ownerNamespaceId) :
    exists actor, db.ReadsPack subject.user? pack actor := by
  by_cases hpublic : pack.visibility = .pub
  · exact ⟨none, authority, hauthority, if_pos hpublic⟩
  · rcases h.readable with hrow | ⟨user, rfl, hreads⟩
    · exact absurd (hvisibility.trans hrow) hpublic
    · rcases bind_eq_ok.mp hauthority with ⟨account, haccount, hsome⟩
      cases hsome
      rcases Directory.userAuthority_eq_ok haccount with
        ⟨owner, hmem, hownerId, huser, hspace, _⟩
      have hallowed : (decide (account.namespaceId = pack.ownerNamespaceId) ||
          db.isTeamMember account.userId pack.ownerNamespaceId) = true := by
        rw [howner, huser]
        rcases hreads with howns | hteam
        · rcases List.any_eq_true.mp howns with ⟨other, hother, hkeys⟩
          have hkeys := of_decide_eq_true hkeys
          have hsame := List.inj_on_of_nodup_map db.directory.userKey hother
            hmem (hkeys.1.trans hownerId.symm)
          rw [hspace, ← hsame, hkeys.2]
          simp
        · rw [hteam]
          simp
      have hactor : exists actor,
          db.packActor (some account) pack = .ok actor := by
        unfold packActor
        rw [if_neg hpublic]
        exact ⟨_, bind_eq_ok.mpr ⟨account, rfl,
          bind_eq_ok.mpr ⟨(), ensure_eq_ok.mpr hallowed, rfl⟩⟩⟩
      rcases hactor with ⟨actor, hactor⟩
      exact ⟨actor, some account, hauthority, hactor⟩

variable (db) in
/-- A required pack is not quarantined, and its reader reaches its members. -/
def ServesPack (reader : Option Uuid) (row : ResourceRow) : Prop :=
  db.quarantined row.id = false ∧
    forall pack actor, db.packRow row = some pack ->
      db.ReadsPack reader pack actor -> db.ReachesMembers reader pack actor

variable (db) in
/-- The entry of a required pack shows the pack with all its members. -/
def RequirementServed (subject : SubscriptionSubject)
    (requirement : ResourceRow × PackRequirementSource)
    (entry : PackRequirement) : Prop :=
  entry.source = requirement.2 ∧
    exists pack actor, db.packRow requirement.1 = some pack ∧
      db.ReadsPack subject.user? pack actor ∧
        db.PackServed subject.user? pack actor entry.pack

theorem packRequirement_eq_ok {subject : SubscriptionSubject}
    {authority : Option UserAuthority} {source : PackRequirementSource}
    {entry : PackRequirement} (h : db.Required subject row) (hl : db.Located)
    (hauthority : db.readAuthority subject.user? = .ok authority)
    (hentry : Registry.packRequirement subject (row, source) db = .ok entry) :
    db.ServesPack subject.user? row ∧
      db.RequirementServed subject (row, source) entry := by
  rcases h.packRow_isSome hl with
    ⟨owner, pack, hspace, howner, hownerId, hpack, hid, hvisibility,
      hpackOwner⟩
  rcases h.readsPack hauthority hvisibility hpackOwner with ⟨actor, hreads⟩
  have hload := h.loadPackByLocator hl howner hownerId hpack
  rcases bind_eq_ok.mp hentry with ⟨found, hrow, hentry⟩
  have hfound := (Option.filter_eq_some_iff.mp (okOr_eq_ok.mp hrow)).1
  rw [h.found] at hfound
  cases hfound
  rcases bind_eq_ok.mp hentry with ⟨space, hnamed, hentry⟩
  have hsame := okOr_eq_ok.mp hnamed
  rw [hspace] at hsame
  cases hsame
  rcases bind_eq_ok.mp hentry with ⟨detail, hdetail, hentry⟩
  cases hentry
  rcases packDetail_eq_ok hload hreads hdetail with
    ⟨hquarantined, _, hserved⟩
  refine ⟨⟨by rw [← hid]; exact hquarantined, ?_⟩, rfl, pack, actor, hpack,
    hreads, hserved⟩
  intro other reading hother hreading
  rw [hpack] at hother
  cases hother
  exact (packDetail_eq_ok hload hreading hdetail).2.1

theorem exists_packRequirement_eq_ok {subject : SubscriptionSubject}
    {authority : Option UserAuthority} {source : PackRequirementSource}
    (h : db.Required subject row) (hl : db.Located)
    (hauthority : db.readAuthority subject.user? = .ok authority) :
    (exists entry,
        Registry.packRequirement subject (row, source) db = .ok entry) <->
      db.ServesPack subject.user? row := by
  constructor
  · rintro ⟨entry, hentry⟩
    exact (packRequirement_eq_ok h hl hauthority hentry).1
  · rintro ⟨hquarantined, hreaches⟩
    rcases h.packRow_isSome hl with
      ⟨owner, pack, hspace, howner, hownerId, hpack, hid, hvisibility,
        hpackOwner⟩
    rcases h.readsPack hauthority hvisibility hpackOwner with ⟨actor, hreads⟩
    have hload := h.loadPackByLocator hl howner hownerId hpack
    rw [← hid] at hquarantined
    rcases (exists_packDetail_eq_ok hload hreads).mpr
      ⟨hquarantined, hreaches pack actor hpack hreads⟩ with
      ⟨detail, hdetail⟩
    have hsees := h.reader_sees
    rw [readingViewer_user] at hsees
    exact ⟨⟨source, detail⟩, bind_eq_ok.mpr ⟨row,
      okOr_eq_ok.mpr (Option.filter_eq_some_iff.mpr ⟨h.found, hsees⟩),
      bind_eq_ok.mpr ⟨owner, okOr_eq_ok.mpr hspace,
        bind_eq_ok.mpr ⟨detail, hdetail, rfl⟩⟩⟩⟩

/-- A subscriber is served with everything that it requires exactly when none
of it is quarantined and the members of all of it are reached. -/
theorem packSubscriptionCatalog_served {subject : SubscriptionSubject}
    {authority : Option UserAuthority} (hl : db.Located)
    (hauthority : db.readAuthority subject.user? = .ok authority) :
    (exists catalog,
        Registry.packSubscriptionCatalog subject db = .ok catalog ∧
          List.Forall₂ (db.RequirementServed subject)
            (db.packRequirements subject) catalog) <->
      forall requirement, requirement ∈ db.packRequirements subject ->
        db.ServesPack subject.user? requirement.1 := by
  constructor
  · rintro ⟨catalog, hcatalog, _⟩ ⟨row, source⟩ hmem
    rcases mapM_eq_ok_forall hcatalog (row, source) hmem with
      ⟨entry, _, hentry⟩
    exact (packRequirement_eq_ok (required_of_mem hmem) hl hauthority
      hentry).1
  · intro hserves
    rcases exists_mapM_eq_ok.mpr fun requirement hmem =>
      (exists_packRequirement_eq_ok (required_of_mem hmem) hl hauthority).mpr
        (hserves requirement hmem) with ⟨catalog, hcatalog⟩
    refine ⟨catalog, hcatalog, ?_⟩
    have hentries := List.forall₂_iff_zip.mp (mapM_eq_ok_forall2 hcatalog)
    refine List.forall₂_iff_zip.mpr ⟨hentries.1, ?_⟩
    rintro ⟨row, source⟩ entry hzip
    exact (packRequirement_eq_ok
      (required_of_mem (List.of_mem_zip hzip).1) hl hauthority
        (hentries.2 hzip)).2

end Db

namespace Site

variable {registry : Registry} {site : Site registry} {directory : Directory}

/-- In every run, a pack that its reader finds, that is not quarantined and
that the reader may read is served with all its members exactly when the reader
reaches them, and a subscriber gets all it requires exactly when every required
pack is such a pack. -/
theorem packs_served {past : List Operation}
    (hrun : Run (Operates fun _ _ => True) (empty registry directory) past
      site) :
    (forall reader owner slug pack actor,
        Registry.loadPackByLocator (readingViewer reader) owner slug site.db =
            .ok pack ->
          site.db.quarantined pack.id = false ->
            site.db.ReadsPack reader pack actor ->
              ((exists detail,
                  Registry.packDetail reader owner slug site.db = .ok detail ∧
                    site.db.PackServed reader pack actor detail) <->
                site.db.ReachesMembers reader pack actor)) ∧
      forall subject authority,
        site.db.readAuthority subject.user? = .ok authority ->
          ((exists catalog,
              Registry.packSubscriptionCatalog subject site.db = .ok catalog ∧
                List.Forall₂ (site.db.RequirementServed subject)
                  (site.db.packRequirements subject) catalog) <->
            forall requirement,
              requirement ∈ site.db.packRequirements subject ->
                site.db.ServesPack subject.user? requirement.1) := by
  have hplaced : site.Placed :=
    hrun.invariant placed_empty fun _ operation _ h hstep => by
      rw [hstep.2]
      exact (operate_renames operation h).2
  constructor
  · intro reader owner slug pack actor hpack hquarantined hreads
    constructor
    · rintro ⟨detail, hdetail, _⟩
      exact (Db.packDetail_eq_ok hpack hreads hdetail).2.1
    · intro hreaches
      rcases (Db.exists_packDetail_eq_ok hpack hreads).mpr
        ⟨hquarantined, hreaches⟩ with ⟨detail, hdetail⟩
      exact ⟨detail, hdetail,
        (Db.packDetail_eq_ok hpack hreads hdetail).2.2⟩
  · exact fun _ _ => Db.packSubscriptionCatalog_served hplaced.located

end Site

/-!
## A member that goes private

A user collects the published skill of another one in a private pack.  When the
skill is unpublished, the pack cannot be read any more.
-/

namespace Sample

def collectingHashes : List (Uuid × RequestHash) :=
  [ (uuid 61, digestOfNat
      0xf3b9f840a04d5d424c1a0c3efb85051eab058aa07c961a62fd186ba21b37421c),
    (uuid 62, digestOfNat
      0x43a234ef664da861f2454b99d9444afeb85c5de6234f8b08ca7550f7891d49cc),
    (uuid 63, digestOfNat
      0x2e5312facec2b43d83b5796afb61cf62a913f350c9e0eb4bcef233a97c6dae0c) ]

def collectingHashOf (operation : UInt8) : RequestHash :=
  (collectingHashes.lookup (uuid operation)).getD (Vector.replicate 32 0)

def collecting : Registry :=
  registryOf saveDigests (collectingHashes ++ forkHashes ++ saveHashes)

def callOperation (call : ServiceCall) : Operation :=
  .mutation (.activity (.call call))

/-- A published skill, and the pack that collects it. -/
def collectingOperations : List Operation :=
  [ callOperation
      (.prepareImport (uuid 4) (fun _ => uuid 9) amy.id importRequest),
    callOperation (.commitImport store amy.id (commitOf 5)),
    callOperation (.write 0 (uuid 8)),
    callOperation (.publish (uuid 8) amy.id (publishRequest 11 1)),
    .mutation (.createPack (uuid 50) bob.id
      { operationId := operationId 61
        owner := "bob".toList
        name := "p".toList
        requestHash := collectingHashOf 61 }),
    .mutation (.mutatePack .add bob.id
      { operationId := operationId 62
        resourceId := uuid 50
        expectedGeneration := 1
        members := [⟨uuid 4, none⟩]
        requestHash := collectingHashOf 62 }) ]

def unpublishing : Operation :=
  .mutation (.activity (.unpublish amy.id
    { operationId := operationId 63
      resourceId := uuid 4
      expectedGeneration := 2
      requestHash := collectingHashOf 63 }))

def collectingSite (operations : List Operation) : Site collecting :=
  operations.foldl Site.operate (.empty collecting twoUsers)

/-- The skill is private again. -/
def hiddenSite : Site collecting :=
  collectingSite (collectingOperations ++ [unpublishing])

def collection : PackRow where
  id := uuid 50
  ownerNamespaceId := bob.namespaceId
  owner := "bob".toList
  name := "p".toList
  generation := secondGeneration
  visibility := .priv
  currentVersion := secondGeneration

def collected : ResolvedPackMember where
  skillResourceId := uuid 4
  pinnedReleaseVersion := none
  resolvedReleaseVersion := some .one
  resolvedRevisionId := imported

def collectorAuthority : UserAuthority where
  userId := bob.id
  namespaceId := bob.namespaceId
  namespaceSlug := "bob".toList
  authorPrincipalId := bob.authorPrincipalId

def collector : PackActor where
  userId := bob.id
  namespaceId := bob.namespaceId

end Sample

theorem Site.pack_unserved :
    Run (Site.Operates fun _ _ => True)
        (Site.empty Sample.collecting Sample.twoUsers)
        (Sample.collectingOperations ++ [Sample.unpublishing])
        Sample.hiddenSite ∧
      Registry.loadPackByLocator (.user Sample.bob.id) "bob".toList
          "p".toList Sample.hiddenSite.db = .ok Sample.collection ∧
        Sample.hiddenSite.db.quarantined Sample.collection.id = false ∧
          Sample.hiddenSite.db.ReadsPack (some Sample.bob.id)
              Sample.collection (some Sample.collector) ∧
            Registry.packDetail (some Sample.bob.id) "bob".toList
                "p".toList Sample.hiddenSite.db =
              .error (ApiError.new .internal
                "pack member resource is missing") := by
  constructor
  · exact Run.guarded_of_all (by decide +kernel)
  · constructor
    · decide +kernel
    · constructor
      · decide +kernel
      · constructor
        · refine ⟨some Sample.collectorAuthority, ?_, ?_⟩
          · decide +kernel
          · decide +kernel
        · rw [← map_eq_error (f := fun _ => ())]
          decide +kernel

/-- While the skill is published, the pack shows it. -/
theorem Site.packs_served_while_published :
    exists detail,
      Registry.packDetail (some Sample.bob.id) "bob".toList "p".toList
          (Sample.collectingSite Sample.collectingOperations).db =
        .ok detail ∧
      (Sample.collectingSite Sample.collectingOperations).db.PackServed
        (some Sample.bob.id) Sample.collection (some Sample.collector)
        detail := by
  have hrun : Run (Site.Operates fun _ _ => True)
      (Site.empty Sample.collecting Sample.twoUsers)
      Sample.collectingOperations
      (Sample.collectingSite Sample.collectingOperations) :=
    Run.guarded_of_all (by decide +kernel)
  apply ((Site.packs_served hrun).1 (some Sample.bob.id) "bob".toList
    "p".toList Sample.collection (some Sample.collector) ?_ ?_ ?_).mpr
  · have hversion :
        (Sample.collectingSite Sample.collectingOperations).db.packVersion
          Sample.collection = [Sample.collected] := by
      decide +kernel
    intro member hmember
    rw [hversion, List.mem_singleton] at hmember
    subst hmember
    have hrow :
        ((Sample.collectingSite Sample.collectingOperations).db.memberRow
          (.user Sample.bob.id) Sample.collected).isSome := by
      decide +kernel
    rcases Option.isSome_iff_exists.mp hrow with ⟨row, hrow⟩
    exact ⟨row, hrow, fun _ => by decide +kernel⟩
  · decide +kernel
  · decide +kernel
  · refine ⟨some Sample.collectorAuthority, ?_, ?_⟩
    · decide +kernel
    · decide +kernel

end Denju
