import Denju.Registry.DraftRuns
import Denju.Registry.TeamCleanup

/-!
# Who may read a revision

Three implementations decide who may read a revision of a skill: the check
before a fork, the check of an access that has been computed for a user, and
the function of the database behind the row policies.  Each of them splits the
cases in its own way.  All three follow one table, as long as they walk the
same revision graph.
-/

namespace Denju

open Lib

namespace Db

/-!
## The walk as a parameter
-/

/-- The check before a fork, with the walk over a part of the graph. -/
def userCanForkRevisionOver (edges : List (RevisionId × RevisionId)) (db : Db)
    (user personalNamespace resourceId : Uuid) (revision : RevisionId) :
    Bool :=
  match (db.findResource resourceId).filter fun row =>
      decide (row.kind = .skill) && !row.deleted &&
        db.canReadResource user resourceId with
  | none => false
  | some row =>
      let ownerKind := db.ownerKind row
      let shared := db.sharedWith resourceId user
      let snapshotExists := db.snapshots.any fun snapshot =>
        decide (snapshot.resourceId = resourceId ∧
          snapshot.revisionId = revision) && db.snapshotVisible user snapshot
      let released := db.releases.any fun release =>
        decide (release.resourceId = resourceId ∧
          release.revisionId = revision) && db.releaseVisible user release
      let teamMember :=
        (db.directory.membership row.ownerNamespaceId user).isSome
      if !snapshotExists then false
      else if ownerKind = some .user ∧
          (row.ownerNamespaceId = personalNamespace ∨ shared = true) then true
      else if row.visibility = .pub ∧ released = true then true
      else if ownerKind ≠ some .team then false
      else if released ∧ (teamMember ∨ shared) then true
      else if !teamMember then false
      else decide (revision ∈ db.workspaceAncestry edges resourceId user)

theorem userCanForkRevision_eq (db : Db)
    (user personalNamespace resourceId : Uuid) (revision : RevisionId) :
    db.userCanForkRevision user personalNamespace resourceId revision =
      db.userCanForkRevisionOver (db.readableEdges user) user
        personalNamespace resourceId revision :=
  rfl

/-- The check of an access, with the walk over a part of the graph. -/
def userCanReadRevisionOver (edges : List (RevisionId × RevisionId)) (db : Db)
    (access : SkillAccess) (resourceId : Uuid) (revision : RevisionId) :
    Bool :=
  if access.canReadPrivate then
    db.snapshots.any fun row =>
      decide (row.resourceId = resourceId ∧ row.revisionId = revision) &&
        db.snapshotVisible access.userId row
  else
    (access.workspaceAccess &&
      decide (revision ∈ db.workspaceAncestry edges resourceId
        access.userId)) ||
      (access.canReadReleased &&
        db.releases.any fun row =>
          decide (row.resourceId = resourceId ∧ row.revisionId = revision) &&
            db.releaseVisible access.userId row)

theorem userCanReadRevision_eq (db : Db) (access : SkillAccess)
    (resourceId : Uuid) (revision : RevisionId) :
    db.userCanReadRevision access resourceId revision =
      db.userCanReadRevisionOver (db.readableEdges access.userId) access
        resourceId revision :=
  rfl

/-!
## The table
-/

/-- A skill that is live and not quarantined, not even in one release. -/
structure ActiveSkill (db : Db) (id : Uuid) (row : ResourceRow)
    (owner : Namespace) : Prop where
  found : db.findResource id = some row
  skill : row.kind = .skill
  live : row.deleted = false
  owned : db.directory.namespaceById row.ownerNamespaceId = some owner
  unquarantined : forall quarantine, quarantine ∈ db.quarantines ->
    quarantine.resourceId = id -> quarantine.lifted = true

/-- Memberships are of teams. -/
def MembershipsOfTeams (directory : Directory) : Prop :=
  forall row, row ∈ directory.memberships ->
    exists team, team ∈ directory.teams ∧
      team.namespaceId = row.teamNamespaceId

/-- The workspaces of a skill belong to its owner or to members of its team. -/
def WorkspacesOfMembers (db : Db) : Prop :=
  forall row, row ∈ db.workspaces ->
    forall resource, db.findResource row.resourceId = some resource ->
      db.directory.hasNamespaceAccess row.workspaceUserId
        resource.ownerNamespaceId = true

/-- The user has proposed nothing from the skill and reviews nothing from
it. -/
def NoPartIn (db : Db) (user id : Uuid) : Prop :=
  forall proposal, proposal ∈ db.proposals -> proposal.sourceResourceId = id ->
    proposal.proposerUserId ≠ user ∧
      forall target, db.findResource proposal.targetResourceId = some target ->
        db.directory.canPublishNamespace user target.ownerNamespaceId = false

/-- Who may read a revision: the audience of a release, the readers of a
personal skill, and the author of a draft of a team. -/
def MayRead (db : Db) (user id : Uuid) (row : ResourceRow) (owner : Namespace)
    (revision : RevisionId) : Prop :=
  (db.released id revision = true ∧
    (row.visibility = .pub ∨
      db.directory.hasNamespaceAccess user row.ownerNamespaceId = true ∨
      db.sharedWith id user = true)) ∨
  (owner.kind = .user ∧
    (db.directory.hasNamespaceAccess user row.ownerNamespaceId = true ∨
      db.sharedWith id user = true)) ∨
  (owner.kind = .team ∧ revision ∈ db.workspaceAncestry db.edges id user)

variable {db : Db} {user id : Uuid} {authority : UserAuthority}
  {row : ResourceRow} {owner : Namespace} {revision : RevisionId}

/-!
## Access to the namespace
-/

/-- Two namespaces with one id are the same. -/
theorem namespace_eq {directory : Directory} {a b : Namespace}
    (ha : a ∈ directory.namespaces) (hb : b ∈ directory.namespaces)
    (hid : a.id = b.id) : a = b :=
  List.inj_on_of_nodup_map directory.namespaceKey ha hb hid

theorem ownsNamespace_iff
    (hauthority : db.directory.userAuthority user = .ok authority)
    {target : Uuid} :
    db.directory.ownsNamespace user target = true <->
      target = authority.namespaceId := by
  rcases Directory.userAuthority_eq_ok hauthority with
    ⟨found, hmem, hid, _, hspace, _⟩
  unfold Directory.ownsNamespace
  rw [List.any_eq_true]
  constructor
  · rintro ⟨other, hother, hboth⟩
    rcases of_decide_eq_true hboth with ⟨hsame, htarget⟩
    have hequal := List.inj_on_of_nodup_map db.directory.userKey hother hmem
      (hsame.trans hid.symm)
    rw [<- htarget, hspace, hequal]
  · intro htarget
    exact ⟨found, hmem, decide_eq_true ⟨hid, by rw [htarget, hspace]⟩⟩

theorem memberOf_iff {target : Uuid} :
    (db.directory.memberships.any fun row =>
      row.userId = user ∧ row.teamNamespaceId = target) = true <->
      (db.directory.membership target user).isSome = true := by
  unfold Directory.membership
  rw [List.find?_isSome, List.any_eq_true]
  simp only [decide_eq_true_eq, and_comm]

/-- A personal namespace is open to its owner. -/
theorem access_of_user (hteams : MembershipsOfTeams db.directory)
    (hauthority : db.directory.userAuthority user = .ok authority)
    (howned : db.directory.namespaceById row.ownerNamespaceId = some owner)
    (hkind : owner.kind = .user) :
    db.directory.hasNamespaceAccess user row.ownerNamespaceId = true <->
      row.ownerNamespaceId = authority.namespaceId := by
  rcases Directory.namespaceById_eq_some howned with ⟨hmem, hid⟩
  unfold Directory.hasNamespaceAccess
  rw [Bool.or_eq_true, ownsNamespace_iff hauthority]
  apply or_iff_left
  rw [List.any_eq_true]
  rintro ⟨membership, hmembership, hboth⟩
  rcases hteams membership hmembership with ⟨team, hteam, hspace⟩
  rcases db.directory.teamsTeam team hteam with
    ⟨found, hfound, hteamId, hteamKind⟩
  have hsame : found = owner := by
    apply namespace_eq hfound hmem
    rw [hteamId, hspace, (of_decide_eq_true hboth).2, hid]
  rw [hsame, hkind] at hteamKind
  cases hteamKind

/-- The namespace of a team is open to its members. -/
theorem access_of_team (user : Uuid)
    (howned : db.directory.namespaceById row.ownerNamespaceId = some owner)
    (hkind : owner.kind = .team) :
    db.directory.hasNamespaceAccess user row.ownerNamespaceId = true <->
      (db.directory.membership row.ownerNamespaceId user).isSome = true := by
  rcases Directory.namespaceById_eq_some howned with ⟨hmem, hid⟩
  unfold Directory.hasNamespaceAccess
  rw [Bool.or_eq_true, memberOf_iff]
  apply or_iff_right
  unfold Directory.ownsNamespace
  rw [List.any_eq_true]
  rintro ⟨other, hother, hboth⟩
  rcases db.directory.usersPersonal other hother with
    ⟨found, hfound, hpersonal, huser⟩
  have hsame : found = owner := by
    apply namespace_eq hfound hmem
    rw [hpersonal, (of_decide_eq_true hboth).2, hid]
  rw [hsame, hkind] at huser
  cases huser

/-!
## The function of the database
-/

theorem not_quarantined (hactive : ActiveSkill db id row owner) :
    db.quarantined id = false := by
  unfold quarantined
  rw [List.any_eq_false]
  intro quarantine hmem hboth
  rcases of_decide_eq_true hboth with ⟨hid, hlifted, _⟩
  rw [hactive.unquarantined quarantine hmem hid] at hlifted
  cases hlifted

theorem not_releaseQuarantined (hactive : ActiveSkill db id row owner)
    (version : Generation) : db.releaseQuarantined id version = false := by
  unfold releaseQuarantined
  rw [List.any_eq_false]
  intro quarantine hmem hboth
  rcases of_decide_eq_true hboth with ⟨hid, hlifted, _⟩
  rw [hactive.unquarantined quarantine hmem hid] at hlifted
  cases hlifted

theorem not_reviews (hpart : NoPartIn db user id) :
    db.canReviewSourceResource user id = false := by
  unfold canReviewSourceResource
  rw [List.any_eq_false]
  intro proposal hmem hchecks
  rw [Bool.and_eq_true, Bool.and_eq_true, decide_eq_true_eq] at hchecks
  rcases hchecks with ⟨⟨hsource, _⟩, htarget⟩
  rcases hpart proposal hmem hsource with ⟨hproposer, hreviewer⟩
  cases hfound : db.findResource proposal.targetResourceId with
  | none =>
      rw [hfound] at htarget
      cases htarget
  | some target =>
      rw [hfound, Option.any_some, Bool.and_eq_true, Bool.or_eq_true,
        decide_eq_true_eq] at htarget
      rcases htarget.2 with hself | hpublishes
      · exact hproposer hself
      · rw [hreviewer target hfound] at hpublishes
        cases hpublishes

theorem canReadRevisionSnapshot_iff (revision : RevisionId)
    (hactive : ActiveSkill db id row owner)
    (hpart : NoPartIn db user id) :
    db.canReadRevisionSnapshot user id revision = true <->
      MayRead db user id row owner revision := by
  have hkind : db.ownerKind row = some owner.kind := by
    unfold ownerKind
    rw [hactive.owned]
    rfl
  have htombstone : db.canReadTombstone user id revision = false := by
    unfold canReadTombstone
    rw [hactive.found, Option.any_some, hactive.live]
    rfl
  have hreleases : (db.releases.any fun release =>
      decide (release.resourceId = id ∧ release.revisionId = revision) &&
        !db.releaseQuarantined id release.version) =
      db.released id revision := by
    simp only [not_releaseQuarantined hactive, Bool.not_false, Bool.and_true]
    rfl
  unfold canReadRevisionSnapshot MayRead
  rw [hactive.found, Option.any_some, hactive.live, not_quarantined hactive,
    not_reviews hpart, htombstone, hreleases, hkind]
  simp only [Bool.not_false, Bool.true_and, Bool.or_false, Bool.or_eq_true,
    Bool.and_eq_true, decide_eq_true_eq, Option.some.injEq, or_assoc]

/-!
## What a reader of the table sees
-/

/-- A revision that has been kept. -/
def Retained (db : Db) (id : Uuid) (revision : RevisionId) : Prop :=
  exists row, row ∈ db.snapshots ∧ row.resourceId = id ∧
    row.revisionId = revision

theorem snapshot_seen (hretained : Retained db id revision)
    (hreads : db.canReadRevisionSnapshot user id revision = true) :
    (db.snapshots.any fun snapshot =>
      decide (snapshot.resourceId = id ∧ snapshot.revisionId = revision) &&
        db.snapshotVisible user snapshot) = true := by
  rcases hretained with ⟨snapshot, hmem, hid, hrevision⟩
  rw [List.any_eq_true]
  refine ⟨snapshot, hmem, ?_⟩
  rw [Bool.and_eq_true, decide_eq_true_eq]
  constructor
  · exact ⟨hid, hrevision⟩
  · unfold snapshotVisible
    rw [hid, hrevision, hreads]
    rfl

/-- A release is seen by those who may read its revision. -/
theorem release_seen_iff (db : Db) (user id : Uuid) (revision : RevisionId) :
    (db.releases.any fun release =>
      decide (release.resourceId = id ∧ release.revisionId = revision) &&
        db.releaseVisible user release) = true <->
      db.released id revision = true ∧
        db.canReadRevisionSnapshot user id revision = true := by
  unfold released
  rw [List.any_eq_true, List.any_eq_true]
  constructor
  · rintro ⟨release, hmem, hboth⟩
    rw [Bool.and_eq_true] at hboth
    rcases of_decide_eq_true hboth.1 with ⟨hid, hrevision⟩
    constructor
    · exact ⟨release, hmem, hboth.1⟩
    · rw [<- hid, <- hrevision]
      exact hboth.2
  · rintro ⟨⟨release, hmem, hboth⟩, hreads⟩
    rcases of_decide_eq_true hboth with ⟨hid, hrevision⟩
    refine ⟨release, hmem, ?_⟩
    rw [Bool.and_eq_true]
    constructor
    · exact hboth
    · unfold releaseVisible
      rw [hid, hrevision]
      exact hreads

/-- Who has a workspace has access to the namespace. -/
theorem access_of_workspace (hactive : ActiveSkill db id row owner)
    (hworkspaces : WorkspacesOfMembers db)
    {edges : List (RevisionId × RevisionId)}
    (h : revision ∈ db.workspaceAncestry edges id user) :
    db.directory.hasNamespaceAccess user row.ownerNamespaceId = true := by
  unfold workspaceAncestry at h
  cases hfound : db.workspace id user with
  | none =>
      rw [hfound] at h
      cases h
  | some workspace =>
      have hmem := List.mem_of_find?_eq_some hfound
      have hkey : workspace.resourceId = id ∧
          workspace.workspaceUserId = user := by
        simpa using List.find?_some hfound
      have hresource : db.findResource workspace.resourceId = some row := by
        rw [hkey.1]
        exact hactive.found
      rw [<- hkey.2]
      exact hworkspaces workspace hmem row hresource

/-- Who may read a revision of a skill sees the skill. -/
theorem canReadResource_of_mayRead (hactive : ActiveSkill db id row owner)
    (hworkspaces : WorkspacesOfMembers db)
    (h : MayRead db user id row owner revision) :
    db.canReadResource user id = true := by
  have hseen : row.visibility = .pub ∨
      db.directory.hasNamespaceAccess user row.ownerNamespaceId = true ∨
      db.sharedWith id user = true := by
    rcases h with hreleased | hpersonal | hdraft
    · exact hreleased.2
    · exact .inr hpersonal.2
    · exact .inr (.inl (access_of_workspace hactive hworkspaces hdraft.2))
  unfold canReadResource
  rw [hactive.found, Option.any_some, hactive.live]
  rcases hseen with hpublic | haccess | hshared
  · rw [hpublic]
    rfl
  · rw [haccess]
    simp
  · rw [hshared]
    simp

/-!
## The check before a fork
-/

theorem mayRead_of_user (revision : RevisionId)
    (hteams : MembershipsOfTeams db.directory)
    (hauthority : db.directory.userAuthority user = .ok authority)
    (hactive : ActiveSkill db id row owner) (hkind : owner.kind = .user) :
    MayRead db user id row owner revision <->
      (row.ownerNamespaceId = authority.namespaceId ∨
        db.sharedWith id user = true) ∨
      (row.visibility = .pub ∧ db.released id revision = true) := by
  have haccess := access_of_user hteams hauthority hactive.owned hkind
  unfold MayRead
  rw [haccess, hkind]
  constructor
  · rintro (⟨hreleased, hpublic | hseen⟩ | ⟨_, hseen⟩ | ⟨hteam, _⟩)
    · exact .inr ⟨hpublic, hreleased⟩
    · exact .inl hseen
    · exact .inl hseen
    · cases hteam
  · rintro (hseen | ⟨hpublic, hreleased⟩)
    · exact .inr (.inl ⟨rfl, hseen⟩)
    · exact .inl ⟨hreleased, .inl hpublic⟩

theorem mayRead_of_team (user : Uuid) (revision : RevisionId)
    (hactive : ActiveSkill db id row owner)
    (hkind : owner.kind = .team) :
    MayRead db user id row owner revision <->
      (db.released id revision = true ∧
        (row.visibility = .pub ∨
          (db.directory.membership row.ownerNamespaceId user).isSome = true ∨
          db.sharedWith id user = true)) ∨
      revision ∈ db.workspaceAncestry db.edges id user := by
  have haccess := access_of_team user hactive.owned hkind
  unfold MayRead
  rw [haccess, hkind]
  constructor
  · rintro (hreleased | ⟨huser, _⟩ | ⟨_, hdraft⟩)
    · exact .inl hreleased
    · cases huser
    · exact .inr hdraft
  · rintro (hreleased | hdraft)
    · exact .inl hreleased
    · exact .inr (.inr ⟨rfl, hdraft⟩)

theorem userCanForkRevisionOver_iff
    (hteams : MembershipsOfTeams db.directory)
    (hauthority : db.directory.userAuthority user = .ok authority)
    (hactive : ActiveSkill db id row owner)
    (hworkspaces : WorkspacesOfMembers db) (hpart : NoPartIn db user id)
    (hretained : Retained db id revision) :
    db.userCanForkRevisionOver db.edges user authority.namespaceId id
        revision = true <->
      MayRead db user id row owner revision := by
  have hreads := canReadRevisionSnapshot_iff revision hactive hpart
  have hkind : db.ownerKind row = some owner.kind := by
    unfold ownerKind
    rw [hactive.owned]
    rfl
  unfold userCanForkRevisionOver
  rw [hactive.found]
  cases hvisible : db.canReadResource user id with
  | false =>
      have hnot : ¬MayRead db user id row owner revision := by
        intro hmay
        rw [canReadResource_of_mayRead hactive hworkspaces hmay] at hvisible
        cases hvisible
      simp [hnot]
  | true =>
      have hfilter : (some row).filter (fun row =>
          decide (row.kind = .skill) && !row.deleted && true) = some row := by
        simp [hactive.skill, hactive.live]
      rw [hfilter]
      dsimp only
      have hsnapshot := fun hmay => snapshot_seen hretained (hreads.mpr hmay)
      have hrelease := release_seen_iff db user id revision
      rw [hreads] at hrelease
      rw [hkind]
      generalize (db.snapshots.any fun snapshot =>
        decide (snapshot.resourceId = id ∧ snapshot.revisionId = revision) &&
          db.snapshotVisible user snapshot) = seen at hsnapshot ⊢
      generalize (db.releases.any fun release =>
        decide (release.resourceId = id ∧ release.revisionId = revision) &&
          db.releaseVisible user release) = released at hrelease ⊢
      cases hspace : owner.kind with
      | user =>
          have htable := mayRead_of_user revision hteams
            hauthority hactive hspace
          grind
      | team =>
          have htable := mayRead_of_team user revision hactive hspace
          have hdraft : revision ∈ db.workspaceAncestry db.edges id user ->
              (db.directory.membership row.ownerNamespaceId user).isSome =
                true :=
            fun h => (access_of_team user hactive.owned hspace).mp
              (access_of_workspace hactive hworkspaces h)
          grind

/-!
## The check of an access
-/

/-- What is computed for a user who sees the skill. -/
def accessOf (db : Db) (user namespaceId id : Uuid) (row : ResourceRow)
    (owner : Namespace) : SkillAccess where
  userId := user
  visibility := row.visibility
  teamOwned := owner.kind = .team
  ownerAccess := owner.kind = .user ∧ row.ownerNamespaceId = namespaceId
  sharedAccess := db.sharedWith id user
  teamReleaseAccess := owner.kind = .team ∧
    (db.directory.membership row.ownerNamespaceId user).isSome
  workspaceAccess := (db.workspace id user).isSome

theorem skillAccessForUser_visible (hactive : ActiveSkill db id row owner)
    (hvisible : db.canReadResource user id = true) {namespaceId : Uuid} :
    db.skillAccessForUser user namespaceId id =
      .ok (db.accessOf user namespaceId id row owner) := by
  have hfilter : (some row).filter (fun row =>
      decide (row.kind = .skill) && !row.deleted &&
        db.canReadResource user id) = some row := by
    simp [hactive.skill, hactive.live, hvisible]
  unfold skillAccessForUser
  rw [hactive.found, hfilter]
  show (okOr (db.directory.namespaceById row.ownerNamespaceId) _ >>= _) = _
  rw [hactive.owned]
  rfl

theorem skillAccessForUser_hidden
    (hhidden : db.canReadResource user id = false) {namespaceId : Uuid} :
    db.skillAccessForUser user namespaceId id =
      .error (ApiError.new .notFound "skill not found") := by
  have hfilter : (db.findResource id).filter (fun row =>
      decide (row.kind = .skill) && !row.deleted &&
        db.canReadResource user id) = none := by
    simp [hhidden]
  unfold skillAccessForUser
  rw [hfilter]
  rfl

theorem userCanReadRevisionOver_iff
    (hteams : MembershipsOfTeams db.directory)
    (hauthority : db.directory.userAuthority user = .ok authority)
    (hactive : ActiveSkill db id row owner)
    (hworkspaces : WorkspacesOfMembers db) (hpart : NoPartIn db user id)
    (hretained : Retained db id revision) :
    db.userCanReadRevisionOver db.edges
        (db.accessOf user authority.namespaceId id row owner) id revision =
          true <->
      MayRead db user id row owner revision := by
  have hreads := canReadRevisionSnapshot_iff revision hactive hpart
  have hsnapshot := fun hmay => snapshot_seen hretained (hreads.mpr hmay)
  have hrelease := release_seen_iff db user id revision
  rw [hreads] at hrelease
  have hworkspace : revision ∈ db.workspaceAncestry db.edges id user ->
      (db.workspace id user).isSome = true := by
    intro hmem
    unfold workspaceAncestry at hmem
    cases hfound : db.workspace id user with
    | none =>
        rw [hfound] at hmem
        cases hmem
    | some workspace => rfl
  have hdraft : revision ∈ db.workspaceAncestry db.edges id user ->
      db.directory.hasNamespaceAccess user row.ownerNamespaceId = true :=
    access_of_workspace hactive hworkspaces
  unfold userCanReadRevisionOver SkillAccess.canReadPrivate
    SkillAccess.canReadReleased accessOf
  dsimp only
  generalize (db.snapshots.any fun snapshot =>
    decide (snapshot.resourceId = id ∧ snapshot.revisionId = revision) &&
      db.snapshotVisible user snapshot) = seen at hsnapshot ⊢
  generalize (db.releases.any fun release =>
    decide (release.resourceId = id ∧ release.revisionId = revision) &&
      db.releaseVisible user release) = released at hrelease ⊢
  cases hspace : owner.kind with
  | user =>
      have htable := mayRead_of_user revision hteams hauthority
        hactive hspace
      have haccess := access_of_user hteams hauthority hactive.owned hspace
      rw [haccess] at hdraft
      grind
  | team =>
      have htable := mayRead_of_team user revision hactive hspace
      grind

/-!
## Agreement
-/

/-- The answer of the check of an access; who has none may not read. -/
def readsByAccess (edges : List (RevisionId × RevisionId)) (db : Db)
    (user namespaceId id : Uuid) (revision : RevisionId) : Bool :=
  match db.skillAccessForUser user namespaceId id with
  | .ok access => db.userCanReadRevisionOver edges access id revision
  | .error _ => false

/-- The three implementations give the same answer. -/
theorem read_authority_agrees (hteams : MembershipsOfTeams db.directory)
    (hauthority : db.directory.userAuthority user = .ok authority)
    (hactive : ActiveSkill db id row owner)
    (hworkspaces : WorkspacesOfMembers db) (hpart : NoPartIn db user id)
    (hretained : Retained db id revision) :
    db.userCanForkRevisionOver db.edges user authority.namespaceId id
        revision = db.canReadRevisionSnapshot user id revision ∧
      db.readsByAccess db.edges user authority.namespaceId id revision =
        db.canReadRevisionSnapshot user id revision := by
  have hreads := canReadRevisionSnapshot_iff revision hactive hpart
  constructor
  · rw [Bool.eq_iff_iff, hreads]
    exact userCanForkRevisionOver_iff hteams hauthority hactive hworkspaces
      hpart hretained
  · rw [Bool.eq_iff_iff, hreads]
    unfold readsByAccess
    cases hvisible : db.canReadResource user id with
    | false =>
        rw [skillAccessForUser_hidden hvisible]
        have hnot : ¬MayRead db user id row owner revision := by
          intro hmay
          rw [canReadResource_of_mayRead hactive hworkspaces hmay] at hvisible
          cases hvisible
        simp [hnot]
    | true =>
        rw [skillAccessForUser_visible hactive hvisible]
        exact userCanReadRevisionOver_iff hteams hauthority hactive
          hworkspaces hpart hretained

end Db

/-!
## A draft of a team
-/

namespace Sample

def draftedRevision : RevisionId :=
  ⟨digestOfNat 33⟩

def crewOwner : Namespace :=
  ⟨uuid 30, "crew".toList, .team⟩

def crewRow : ResourceRow :=
  { crewResource with id := uuid 50, ownerNamespaceId := uuid 30 }

/-- A released skill of a team on which one member works. -/
def drafted : Db :=
  { directory := crewUsers
    resources := [crewRow]
    releases := [{ crewRelease with resourceId := uuid 50 }]
    snapshots :=
      [⟨uuid 50, crewRevision, crewSnapshot⟩,
        ⟨uuid 50, draftedRevision, crewSnapshot⟩]
    revisionParents := [⟨draftedRevision, crewRevision, 0⟩]
    workspaces :=
      [ { resourceId := uuid 50
          workspaceUserId := amy.id
          metadata := crewResource.metadata
          revisionId := draftedRevision
          generation := .one
          snapshot := crewSnapshot } ] }

def amyAuthority : UserAuthority where
  userId := amy.id
  namespaceId := amy.namespaceId
  namespaceSlug := "amy".toList
  authorPrincipalId := amy.authorPrincipalId

theorem drafted_workspacesOfMembers : Db.WorkspacesOfMembers drafted := by
  intro row hrow resource hresource
  have hmem := (Db.mem_of_findResource_eq_some hresource).1
  rw [List.mem_singleton.mp hrow, List.mem_singleton.mp hmem]
  decide +kernel

end Sample

theorem Db.read_authority_agrees_drafted :
    Sample.drafted.userCanForkRevisionOver Sample.drafted.edges Sample.amy.id
        Sample.amy.namespaceId (Sample.uuid 50) Sample.draftedRevision =
      Sample.drafted.canReadRevisionSnapshot Sample.amy.id (Sample.uuid 50)
        Sample.draftedRevision ∧
    Sample.drafted.readsByAccess Sample.drafted.edges Sample.amy.id
        Sample.amy.namespaceId (Sample.uuid 50) Sample.draftedRevision =
      Sample.drafted.canReadRevisionSnapshot Sample.amy.id (Sample.uuid 50)
        Sample.draftedRevision := by
  apply @Db.read_authority_agrees Sample.drafted Sample.amy.id
    (Sample.uuid 50) Sample.amyAuthority Sample.crewRow Sample.crewOwner
    Sample.draftedRevision
  · unfold Db.MembershipsOfTeams
    decide +kernel
  · decide +kernel
  · constructor
    · decide +kernel
    · rfl
    · rfl
    · decide +kernel
    · intro quarantine hmem
      cases hmem
  · exact Sample.drafted_workspacesOfMembers
  · intro proposal hmem
    cases hmem
  · unfold Db.Retained
    decide +kernel

end Denju
