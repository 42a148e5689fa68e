import Denju.Registry.SubscriptionCatalog

/-!
# The content of a catalog

In a sound state every column of the catalog that must not be null has a value:
the release or the workspace that a subscription stands for exists, and the row
policies let the subscriber see it unless it is withheld.
-/

namespace Denju

open Lib

namespace SubscribedResource

variable {row : SubscribedResource}

theorem wantedByInstallation_holds :
    row.wantedByInstallation.holds = true <->
      row.resource.kind = .skill ∧
        (row.resource.deleted = false ∧ row.resource.visibility = .pub ∨
          row.resource.deleted = true ∧ row.retain = true ∧
            row.resource.tombstoneReleaseVersion.isSome = true) := by
  simp [wantedByInstallation, retained, isPublic]

theorem wantedByUser_holds :
    row.wantedByUser.holds = true <->
      row.resource.kind = .skill ∧
        (row.resource.deleted = false ∧
            (row.resource.visibility = .pub ∨
              row.shared = true ∧
                  (row.owner.map Namespace.kind = some .user ∨
                    row.resource.latestReleaseVersion.isSome = true) ∨
                row.member = true ∧
                  row.resource.latestReleaseVersion.isSome = true) ∨
          row.resource.deleted = true ∧ row.retain = true ∧
            row.resource.tombstoneReleaseVersion.isSome = true) := by
  simp [wantedByUser, retained, isPublic]

end SubscribedResource

namespace SubscriptionContentRow

variable {row : SubscriptionContentRow} {content : SubscriptionContent}

theorem wireContent_of_live (hlive : row.livePrivate = true)
    (hversion : row.version = none)
    (hkept : row.retainedAfterDelete = false) :
    row.wireContent = .ok .privateWorkspace := by
  unfold wireContent
  rw [if_pos hlive, hversion, hkept]
  rfl

theorem wireContent_of_release {version : Generation}
    (hlive : row.livePrivate = false)
    (hversion : row.version = some version) :
    row.wireContent = .ok (.release version.value
      (!row.retainedAfterDelete && row.pinnedReleaseVersion.isNone)) := by
  unfold wireContent
  rw [if_neg (ne_true_of_eq_false hlive), hversion]
  rfl

theorem intoWire_of_content (h : row.wireContent = .ok content) :
    exists skill, row.intoWire = .ok skill ∧ skill.content = content ∧
      skill.resourceId = row.id ∧ skill.name = row.name ∧
        skill.generation = row.generation.value ∧
          skill.retainOnDelete = row.retainOnDelete ∧
            skill.retainedAfterDelete = row.retainedAfterDelete ∧
              skill.description = row.description ∧
                skill.revisionId = row.revisionId ∧
                  skill.snapshot = row.snapshot := by
  unfold intoWire
  rw [h]
  exact ⟨_, rfl, rfl, rfl, rfl, rfl, rfl, rfl, rfl, rfl, rfl⟩

end SubscriptionContentRow

/-- A personal namespace has a user, and members are in teams. -/
structure Directory.Peopled (directory : Directory) : Prop where
  personal : forall space, space ∈ directory.namespaces ->
    space.kind = .user -> exists user, user ∈ directory.users ∧
      user.namespaceId = space.id
  teamed : forall membership, membership ∈ directory.memberships ->
    exists team, team ∈ directory.teams ∧
      team.namespaceId = membership.teamNamespaceId

namespace Db

variable {db : Db} {subject : SubscriptionSubject} {id : Uuid}

/-!
## Sound states
-/

/-- The releases of a skill that its row names exist, a public skill has one,
the owner of a live personal skill has a workspace, and a deleted skill names
the owner that it had. -/
structure SoundSkill (db : Db) (row : ResourceRow) : Prop where
  latest : forall version, row.latestReleaseVersion = some version ->
    (db.findRelease row.id version).isSome = true
  tombstone : forall version, row.tombstoneReleaseVersion = some version ->
    (db.findRelease row.id version).isSome = true
  published : row.deleted = false -> row.visibility = .pub ->
    row.latestReleaseVersion.isSome = true
  worked : row.deleted = false -> forall user,
    user ∈ db.directory.users -> user.namespaceId = row.ownerNamespaceId ->
      (db.workspace row.id user.id).isSome = true
  owned : row.deleted = false ->
    (db.directory.namespaceById row.ownerNamespaceId).isSome = true
  signed : row.deleted = true -> row.deletedOwnerSlug.isSome = true

/-- The pinned release of a subscription exists, and what is retained has a
release. -/
structure SoundSubscription (db : Db) (id : Uuid)
    (pinned : Option Generation) (retain : Bool) : Prop where
  found : (db.findResource id).isSome = true
  pin : forall row, db.findResource id = some row -> row.kind = .skill ->
    forall version, pinned = some version ->
      (db.findRelease id version).isSome = true
  kept : forall row, db.findResource id = some row -> row.kind = .skill ->
    retain = true -> row.latestReleaseVersion.isSome = true

structure CatalogSound (db : Db) : Prop where
  skills : forall id row, db.findResource id = some row ->
    row.kind = .skill -> db.SoundSkill row
  subscriptions : forall row, row ∈ db.subscriptions ->
    db.SoundSubscription row.resourceId row.pinnedReleaseVersion
      row.retainOnDelete
  devices : forall row, row ∈ db.installationSubscriptions ->
    db.SoundSubscription row.resourceId row.pinnedReleaseVersion
      row.retainOnDelete
  subscriptionKey : (db.subscriptions.map fun row =>
    (row.userId, row.resourceId)).Nodup
  deviceKey : (db.installationSubscriptions.map fun row =>
    (row.installationId, row.resourceId)).Nodup
  peopled : db.directory.Peopled

/-!
## Subscriptions of one subscriber
-/

theorem CatalogSound.subscription (h : CatalogSound db)
    {pinned : Option Generation} {retain : Bool}
    (hmem : (id, pinned, retain) ∈ db.subscriptionsOf subject) :
    db.SoundSubscription id pinned retain := by
  cases subject with
  | installation installation =>
      rcases List.mem_map.mp hmem with ⟨row, hrow, hsame⟩
      cases hsame
      exact h.devices row (List.mem_filter.mp hrow).1
  | user user =>
      rcases List.mem_map.mp hmem with ⟨row, hrow, hsame⟩
      cases hsame
      exact h.subscriptions row (List.mem_filter.mp hrow).1

/-- Rows with distinct pairs of keys have distinct second keys where the first
one is fixed. -/
theorem nodup_second_of_pairs {α β γ : Type} [DecidableEq β] {rows : List α}
    {first : α -> β} {second : α -> γ} {key : β}
    (h : (rows.map fun row => (first row, second row)).Nodup) :
    ((rows.filter fun row => first row = key).map second).Nodup := by
  induction rows with
  | nil => exact List.nodup_nil
  | cons row rest ih =>
      rw [List.map_cons, List.nodup_cons] at h
      rcases h with ⟨hfresh, hrest⟩
      by_cases hkey : first row = key
      · rw [List.filter_cons_of_pos (by simpa using hkey), List.map_cons,
          List.nodup_cons]
        constructor
        · intro hmem
          rcases List.mem_map.mp hmem with ⟨other, hother, hsame⟩
          rcases List.mem_filter.mp hother with ⟨hin, hsecond⟩
          apply hfresh
          refine List.mem_map.mpr ⟨other, hin, ?_⟩
          rw [of_decide_eq_true hsecond, hkey, hsame]
        · exact ih hrest
      · rw [List.filter_cons_of_neg (by simpa using hkey)]
        exact ih hrest

theorem CatalogSound.nodup_subscriptionsOf (h : CatalogSound db) :
    ((db.subscriptionsOf subject).map Prod.fst).Nodup := by
  cases subject with
  | installation installation =>
      unfold subscriptionsOf
      rw [List.map_map]
      exact nodup_second_of_pairs h.deviceKey
  | user user =>
      unfold subscriptionsOf
      rw [List.map_map]
      exact nodup_second_of_pairs h.subscriptionKey

/-!
## The joined rows
-/

/-- A subscription with what the queries join to it. -/
def joined (db : Db) (subject : SubscriptionSubject)
    (subscription : Subscription) : SubscribedResource where
  resource := subscription.resource
  owner := db.directory.namespaceById subscription.resource.ownerNamespaceId
  shared :=
    match subject with
    | .installation _ => false
    | .user user => db.sharedWith subscription.resource.id user
  member :=
    match subject with
    | .installation _ => false
    | .user user =>
        db.isTeamMember user subscription.resource.ownerNamespaceId
  pinned := subscription.pinned
  retain := subscription.retain

theorem joinSubscription_eq_some {pinned : Option Generation} {retain : Bool}
    {row : SubscribedResource} :
    db.joinSubscription subject id pinned retain = some row <->
      exists resource, db.findResource id = some resource ∧
        db.seesResource subject.viewer resource.id = true ∧
          row = db.joined subject ⟨resource, pinned, retain⟩ := by
  unfold joinSubscription
  rw [Option.map_eq_some_iff]
  constructor
  · rintro ⟨resource, hresource, hrow⟩
    rcases Option.filter_eq_some_iff.mp hresource with ⟨hfound, hseen⟩
    exact ⟨resource, hfound, hseen, hrow.symm⟩
  · rintro ⟨resource, hfound, hseen, hrow⟩
    exact ⟨resource, Option.filter_eq_some_iff.mpr ⟨hfound, hseen⟩, hrow.symm⟩

theorem map_owner_kind (resource : ResourceRow) :
    (db.directory.namespaceById resource.ownerNamespaceId).map
      Namespace.kind = db.ownerKind resource :=
  rfl

theorem livePrivate_holds {subscription : Subscription} :
    (takesLive subject (db.joined subject subscription)).holds = true <->
      db.FollowsWorkspace subject subscription := by
  cases subject with
  | installation installation =>
      constructor
      · intro h
        cases h
      · rintro ⟨_, _, _, _, user, huser, _⟩
        cases huser
  | user user =>
      simp only [takesLive, joined, SubscribedResource.livePrivate,
        map_owner_kind, Truth.holds_and, Truth.holds_equals,
        Truth.holds_some, Bool.and_eq_true, decide_eq_true_eq,
        Bool.not_eq_true', Option.isNone_iff_eq_none]
      constructor
      · rintro ⟨hkind, hshared, hlive, hpin, hretain⟩
        exact ⟨hlive, hpin, hretain, hkind, user, rfl, hshared⟩
      · rintro ⟨hlive, hpin, hretain, hkind, other, hsame, hshared⟩
        cases hsame
        exact ⟨hkind, hshared, hlive, hpin, hretain⟩

theorem wanted_holds {subscription : Subscription} :
    (wanted subject (db.joined subject subscription)).holds = true <->
      subscription.resource.kind = .skill ∧
        (subscription.resource.deleted = false ∧
            db.OpenTo subject subscription.resource ∨
          subscription.resource.deleted = true ∧ subscription.retain = true ∧
            subscription.resource.tombstoneReleaseVersion.isSome = true) := by
  cases subject with
  | installation installation =>
      refine SubscribedResource.wantedByInstallation_holds.trans ?_
      simp [joined, OpenTo]
  | user user =>
      refine SubscribedResource.wantedByUser_holds.trans ?_
      simp [joined, map_owner_kind, OpenTo]

/-!
## Row policies
-/

theorem hasNamespaceAccess_of_member {user namespaceId : Uuid}
    (h : db.isTeamMember user namespaceId = true) :
    db.directory.hasNamespaceAccess user namespaceId = true := by
  rcases Option.isSome_iff_exists.mp h with ⟨membership, hfound⟩
  have hrow := List.mem_of_find?_eq_some hfound
  have hkeys := List.find?_some hfound
  simp only [decide_eq_true_eq] at hkeys
  unfold Directory.hasNamespaceAccess
  rw [Bool.or_eq_true]
  right
  refine List.any_eq_true.mpr ⟨membership, hrow, ?_⟩
  simp [hkeys]

/-- A retained subscription is a row of its subscriber. -/
theorem seesResource_of_kept {resource : ResourceRow}
    {pinned : Option Generation}
    (hmem : (resource.id, pinned, true) ∈ db.subscriptionsOf subject)
    (hfound : db.findResource resource.id = some resource)
    (hdeleted : resource.deleted = true) :
    db.seesResource subject.viewer resource.id = true := by
  cases subject with
  | installation installation =>
      rcases List.mem_map.mp hmem with ⟨row, hrow, hsame⟩
      rcases List.mem_filter.mp hrow with ⟨hin, hkey⟩
      simp only [Prod.mk.injEq] at hsame
      show (db.publicResource resource.id ||
        db.installationKeeps installation resource.id) = true
      rw [Bool.or_eq_true]
      right
      unfold installationKeeps
      rw [Bool.and_eq_true]
      constructor
      · simp [hfound, hdeleted]
      · refine List.any_eq_true.mpr ⟨row, hin, ?_⟩
        simpa [hsame] using hkey
  | user user =>
      rcases List.mem_map.mp hmem with ⟨row, hrow, hsame⟩
      rcases List.mem_filter.mp hrow with ⟨hin, hkey⟩
      simp only [Prod.mk.injEq] at hsame
      show db.canReadResource user resource.id = true
      unfold canReadResource keepsDeleted
      rw [Bool.or_eq_true]
      right
      rw [Bool.and_eq_true]
      constructor
      · simp [hfound, hdeleted]
      · refine List.any_eq_true.mpr ⟨row, hin, ?_⟩
        simpa [hsame] using hkey

theorem seesResource_of_open {resource : ResourceRow}
    (hfound : db.findResource resource.id = some resource)
    (hlive : resource.deleted = false) (hopen : db.OpenTo subject resource) :
    db.seesResource subject.viewer resource.id = true := by
  rcases hopen with hpublic | ⟨user, rfl, hopen⟩
  · have hvisible : db.publicResource resource.id = true := by
      simp [publicResource, hfound, ResourceRow.isPublic, hpublic, hlive]
    cases subject with
    | installation installation =>
        show (db.publicResource resource.id || _) = true
        rw [hvisible, Bool.true_or]
    | user user =>
        show db.canReadResource user resource.id = true
        simp [canReadResource, hfound, hpublic, hlive]
  · show db.canReadResource user resource.id = true
    rcases hopen with ⟨hshared, _⟩ | ⟨hmember, _⟩
    · simp [canReadResource, hfound, hlive, hshared]
    · simp [canReadResource, hfound, hasNamespaceAccess_of_member hmember]

theorem Desired.visible {subscription : Subscription}
    (h : db.Desired subject subscription) :
    db.seesResource subject.viewer subscription.resource.id = true := by
  rcases h.wanted with ⟨hlive, hopen⟩ | ⟨hdeleted, hretain, _⟩
  · exact seesResource_of_open h.found hlive hopen
  · have hmem := h.subscribed
    rw [hretain] at hmem
    exact seesResource_of_kept hmem h.found hdeleted

/-!
## What the queries find
-/

section Rows

variable {κ : Type} [LinearOrder κ] {collation : Collation κ}

/-- The rows of both queries are those that the subscriber should get. -/
theorem mem_subscribedRows {row : SubscribedResource} :
    row ∈ db.subscribedRows collation subject <->
      exists subscription, db.Desired subject subscription ∧
        row = db.joined subject subscription := by
  unfold subscribedRows
  rw [mem_sortByKey, List.mem_filter, List.mem_filterMap]
  constructor
  · rintro ⟨⟨⟨id, pinned, retain⟩, hmem, hjoined⟩, hwanted⟩
    rcases joinSubscription_eq_some.mp hjoined with
      ⟨resource, hfound, _, rfl⟩
    have hid := (mem_of_findResource_eq_some hfound).2
    rcases wanted_holds.mp hwanted with ⟨hskill, hopen⟩
    subst hid
    exact ⟨⟨resource, pinned, retain⟩, ⟨hmem, hfound, hskill, hopen⟩, rfl⟩
  · rintro ⟨subscription, hdesired, rfl⟩
    constructor
    · refine ⟨_, hdesired.subscribed, joinSubscription_eq_some.mpr ?_⟩
      exact ⟨subscription.resource, hdesired.found, hdesired.visible, rfl⟩
    · exact wanted_holds.mpr ⟨hdesired.skill, hdesired.wanted⟩

theorem CatalogSound.nodup_subscribedRows (h : CatalogSound db) :
    ((db.subscribedRows collation subject).map fun row =>
      row.resource.id).Nodup := by
  have hjoined : (((db.subscriptionsOf subject).filterMap fun row =>
      db.joinSubscription subject row.1 row.2.1 row.2.2).map fun row =>
        row.resource.id).Nodup := by
    refine nodup_map_filterMap h.nodup_subscriptionsOf ?_
    intro row _ other hother
    rcases joinSubscription_eq_some.mp hother with ⟨resource, hfound, _, rfl⟩
    exact (mem_of_findResource_eq_some hfound).2
  have hfiltered := hjoined.sublist (List.Sublist.map
    (fun row : SubscribedResource => row.resource.id)
    (List.filter_sublist
      (p := fun row => (wanted subject row).holds)))
  unfold subscribedRows
  exact ((sortByKey_perm _ _).map _).nodup_iff.mpr hfiltered

/-- Two desired subscriptions of one skill are the same. -/
theorem CatalogSound.desired_unique (h : CatalogSound db)
    {a b : Subscription} (ha : db.Desired subject a)
    (hb : db.Desired subject b) (hid : a.resource.id = b.resource.id) :
    a = b := by
  have hsame := List.inj_on_of_nodup_map h.nodup_subscriptionsOf
    ha.subscribed hb.subscribed hid
  simp only [Prod.mk.injEq] at hsame
  have hfound := ha.found
  rw [hid, hb.found] at hfound
  cases a
  cases b
  simp only [Option.some.injEq] at hfound
  simp only [Subscription.mk.injEq]
  exact ⟨hfound.symm, hsame.2⟩

end Rows

/-!
## The first query
-/

section Candidates

variable {subscription : Subscription}

theorem CatalogSound.skill (h : CatalogSound db)
    (hdesired : db.Desired subject subscription) :
    db.SoundSkill subscription.resource :=
  h.skills _ _ hdesired.found hdesired.skill

/-- A resource without an owner is deleted, and names the owner it had. -/
theorem CatalogSound.exists_ownerSlug (h : CatalogSound db)
    (hdesired : db.Desired subject subscription) :
    exists slug, (db.joined subject subscription).ownerSlug = some slug := by
  apply Option.isSome_iff_exists.mp
  show (((db.directory.namespaceById
    subscription.resource.ownerNamespaceId).map Namespace.slug).or
      subscription.resource.deletedOwnerSlug).isSome = true
  rw [Option.isSome_or, Option.isSome_map]
  cases hdeleted : subscription.resource.deleted with
  | false => rw [(h.skill hdesired).owned hdeleted, Bool.true_or]
  | true => rw [(h.skill hdesired).signed hdeleted, Bool.or_true]

theorem CatalogSound.takesLive_eq (h : CatalogSound db)
    (hdesired : db.Desired subject subscription) :
    takesLive subject (db.joined subject subscription) =
      some (takesLive subject (db.joined subject subscription)).holds := by
  apply Truth.eq_holds_of_isSome
  cases subject with
  | installation installation => rfl
  | user user =>
      cases hdeleted : subscription.resource.deleted with
      | false =>
          have hspace := (h.skill hdesired).owned hdeleted
          apply Truth.and_isSome
          · rcases Option.isSome_iff_exists.mp hspace with ⟨space, hspace⟩
            simp [joined, hspace, Truth.equals]
          · exact Truth.and_isSome rfl
              (Truth.and_isSome rfl (Truth.and_isSome rfl rfl))
      | true =>
          have hfalse : Truth.and (some (db.sharedWith
                subscription.resource.id user))
              (Truth.and (some !subscription.resource.deleted)
                (Truth.and (some subscription.pinned.isNone)
                  (some !subscription.retain))) = some false := by
            apply Truth.and_of_false
            rw [hdeleted]
            rfl
          show (Truth.and _ (Truth.and (some (db.sharedWith
                subscription.resource.id user))
              (Truth.and (some !subscription.resource.deleted)
                (Truth.and (some subscription.pinned.isNone)
                  (some !subscription.retain))))).isSome = true
          rw [Truth.and_of_false hfalse]
          rfl

theorem quarantineCandidate_eq_ok {row : SubscribedResource}
    {candidate : QuarantineCandidate}
    (h : quarantineCandidate subject row = .ok candidate) :
    candidate.resourceId = row.resource.id ∧
      candidate.livePrivate = (takesLive subject row).holds ∧
        candidate.desiredRelease =
          if (takesLive subject row).holds then none
          else row.releaseVersion := by
  rcases bind_eq_ok.mp h with ⟨owner, _, h⟩
  rcases bind_eq_ok.mp h with ⟨live, hlive, h⟩
  cases h
  rw [okOr_eq_ok.mp hlive]
  exact ⟨rfl, (Truth.holds_some live).symm, rfl⟩

theorem CatalogSound.exists_candidate (h : CatalogSound db)
    (hdesired : db.Desired subject subscription) :
    exists candidate, quarantineCandidate subject
      (db.joined subject subscription) = .ok candidate := by
  rcases h.exists_ownerSlug hdesired with ⟨slug, hslug⟩
  unfold quarantineCandidate
  rw [hslug, h.takesLive_eq hdesired]
  exact ⟨_, rfl⟩

theorem mem_activeQuarantines {row : QuarantineRow} :
    row ∈ db.activeQuarantines id <->
      row ∈ db.quarantines ∧ row.resourceId = id ∧ row.lifted = false := by
  unfold activeQuarantines
  rw [mem_sortByKey, List.mem_filter, decide_eq_true_eq]

theorem quarantined_iff : db.quarantined id = true <->
    exists row, row ∈ db.activeQuarantines id ∧
      row.releaseVersion.isNone = true := by
  unfold quarantined
  rw [List.any_eq_true]
  constructor
  · rintro ⟨row, hrow, hkeys⟩
    rcases of_decide_eq_true hkeys with ⟨hid, hlifted, hwhole⟩
    exact ⟨row, mem_activeQuarantines.mpr ⟨hrow, hid, hlifted⟩, by
      rw [hwhole, Option.isNone_none]⟩
  · rintro ⟨row, hrow, hwhole⟩
    rcases mem_activeQuarantines.mp hrow with ⟨hmem, hid, hlifted⟩
    exact ⟨row, hmem, decide_eq_true
      ⟨hid, hlifted, Option.isNone_iff_eq_none.mp hwhole⟩⟩

theorem releaseQuarantined_iff {version : Generation} :
    db.releaseQuarantined id version = true <->
      db.quarantined id = true ∨
        exists row, row ∈ db.activeQuarantines id ∧
          row.releaseVersion = some version := by
  rw [quarantined_iff]
  unfold releaseQuarantined
  rw [List.any_eq_true]
  constructor
  · rintro ⟨row, hrow, hkeys⟩
    rcases of_decide_eq_true hkeys with ⟨hid, hlifted, hwhole | hone⟩
    · exact .inl ⟨row, mem_activeQuarantines.mpr ⟨hrow, hid, hlifted⟩, by
        rw [hwhole, Option.isNone_none]⟩
    · exact .inr ⟨row, mem_activeQuarantines.mpr ⟨hrow, hid, hlifted⟩, hone⟩
  · rintro (⟨row, hrow, hwhole⟩ | ⟨row, hrow, hone⟩)
    · rcases mem_activeQuarantines.mp hrow with ⟨hmem, hid, hlifted⟩
      exact ⟨row, hmem, decide_eq_true
        ⟨hid, hlifted, .inl (Option.isNone_iff_eq_none.mp hwhole)⟩⟩
    · rcases mem_activeQuarantines.mp hrow with ⟨hmem, hid, hlifted⟩
      exact ⟨row, hmem, decide_eq_true ⟨hid, hlifted, .inr hone⟩⟩

theorem releaseVersion_joined :
    (db.joined subject subscription).releaseVersion =
      Subscription.version subscription :=
  rfl

/-- A candidate is withheld by a quarantine of the skill, or of the release
that it would get. -/
theorem withholding_isSome_iff {candidate : QuarantineCandidate}
    (hcandidate : quarantineCandidate subject
      (db.joined subject subscription) = .ok candidate) :
    (db.withholding candidate).isSome = true <->
      db.Withheld subject subscription := by
  rcases quarantineCandidate_eq_ok hcandidate with ⟨hid, hlive, hrelease⟩
  unfold withholding Withheld
  rw [Option.isSome_or, Bool.or_eq_true, List.find?_isSome,
    ← quarantined_iff, hid, hrelease, hlive, ← livePrivate_holds,
    releaseVersion_joined]
  show db.quarantined subscription.resource.id = true ∨ _ <-> _
  cases (takesLive subject (db.joined subject subscription)).holds with
  | true => simp
  | false =>
      cases Subscription.version subscription with
      | none => simp
      | some version =>
          simp only [Bool.false_eq_true, if_false, Option.bind_some,
            List.find?_isSome, decide_eq_true_eq, not_false_eq_true,
            true_and, Option.some.injEq, exists_eq_left',
            releaseQuarantined_iff]
          show db.quarantined subscription.resource.id = true ∨
            (exists row, row ∈ db.activeQuarantines subscription.resource.id ∧
              row.releaseVersion = some version) <-> _
          rw [← or_assoc, or_self]

/-!
## The second query
-/

theorem CatalogSound.exists_version (h : CatalogSound db)
    (hdesired : db.Desired subject subscription)
    (hreleased : ¬db.FollowsWorkspace subject subscription) :
    exists version release,
      Subscription.version subscription = some version ∧
        db.findRelease subscription.resource.id version = some release := by
  have hskill := h.skill hdesired
  have hsound := h.subscription hdesired.subscribed
  have hlatest : subscription.resource.deleted = false ->
      subscription.pinned = none ->
        subscription.resource.latestReleaseVersion.isSome = true := by
    intro hlive hpin
    have hopen : db.OpenTo subject subscription.resource := by
      rcases hdesired.wanted with ⟨_, hopen⟩ | ⟨hdeleted, _⟩
      · exact hopen
      · rw [hlive] at hdeleted
        cases hdeleted
    rcases hopen with hpublic | ⟨user, hsubject, hshared | hmember⟩
    · exact hskill.published hlive hpublic
    · rcases hshared with ⟨hshared, hkind | hlatest⟩
      · apply hsound.kept _ hdesired.found hdesired.skill
        by_contra hretain
        exact hreleased ⟨hlive, hpin, Bool.not_eq_true _ ▸ hretain, hkind,
          user, hsubject, hshared⟩
      · exact hlatest
    · exact hmember.2
  unfold Subscription.version
  cases hdeleted : subscription.resource.deleted with
  | true =>
      rcases hdesired.wanted with ⟨hlive, _⟩ | ⟨_, _, htombstone⟩
      · rw [hdeleted] at hlive
        cases hlive
      · rcases Option.isSome_iff_exists.mp htombstone with ⟨version, hversion⟩
        rcases Option.isSome_iff_exists.mp
          (hskill.tombstone version hversion) with ⟨release, hrelease⟩
        exact ⟨version, release, hversion, hrelease⟩
  | false =>
      cases hpin : subscription.pinned with
      | some version =>
          rcases Option.isSome_iff_exists.mp (hsound.pin _ hdesired.found
            hdesired.skill version hpin) with ⟨release, hrelease⟩
          exact ⟨version, release, rfl, hrelease⟩
      | none =>
          rcases Option.isSome_iff_exists.mp (hlatest hdeleted hpin) with
            ⟨version, hversion⟩
          rcases Option.isSome_iff_exists.mp
            (hskill.latest version hversion) with ⟨release, hrelease⟩
          exact ⟨version, release, hversion, hrelease⟩

theorem mem_of_findRelease {version : Generation} {release : ReleaseRow}
    (h : db.findRelease id version = some release) :
    release ∈ db.releases ∧ release.resourceId = id ∧
      release.version = version := by
  have hkeys := List.find?_some h
  simp only [decide_eq_true_eq] at hkeys
  exact ⟨List.mem_of_find?_eq_some h, hkeys⟩

/-- The row of a release that is not quarantined. -/
theorem any_release {version : Generation} {release : ReleaseRow}
    (hrelease : db.findRelease id version = some release)
    (hfree : db.releaseQuarantined id version = false) :
    (db.releases.any fun row =>
      decide (row.resourceId = id ∧ row.revisionId = release.revisionId) &&
        !db.releaseQuarantined id row.version) = true := by
  rcases mem_of_findRelease hrelease with ⟨hmem, hid, hversion⟩
  refine List.any_eq_true.mpr ⟨release, hmem, ?_⟩
  simp [hid, hversion, hfree]

theorem readsRevision_of_open {version : Generation} {release : ReleaseRow}
    {resource : ResourceRow}
    (hfound : db.findResource resource.id = some resource)
    (hlive : resource.deleted = false) (hopen : db.OpenTo subject resource)
    (hrelease : db.findRelease resource.id version = some release)
    (hfree : db.releaseQuarantined resource.id version = false) :
    db.readsRevision subject.viewer resource.id release.revisionId = true := by
  have hwhole : db.quarantined resource.id = false := by
    rw [← Bool.not_eq_true, releaseQuarantined_iff] at hfree
    rw [← Bool.not_eq_true]
    intro hwhole
    exact hfree (.inl hwhole)
  have hany := any_release hrelease hfree
  rcases hopen with hpublic | ⟨user, rfl, hopen⟩
  · cases subject with
    | installation installation =>
        show (db.publicRelease resource.id release.revisionId || _) = true
        rw [Bool.or_eq_true]
        left
        unfold publicRelease
        rw [hany, hwhole, hfound]
        simp [hlive, hpublic]
    | user user =>
        show db.canReadRevisionSnapshot user resource.id release.revisionId =
          true
        unfold canReadRevisionSnapshot
        rw [hany, hwhole, hfound]
        simp [hlive, hpublic]
  · show db.canReadRevisionSnapshot user resource.id release.revisionId = true
    unfold canReadRevisionSnapshot
    rw [hany, hwhole, hfound]
    rcases hopen with ⟨hshared, _⟩ | ⟨hmember, _⟩
    · simp [hlive, hshared]
    · simp [hlive, hasNamespaceAccess_of_member hmember]

theorem readsRevision_of_kept {version : Generation} {release : ReleaseRow}
    {resource : ResourceRow} {pinned : Option Generation}
    (hmem : (resource.id, pinned, true) ∈ db.subscriptionsOf subject)
    (hfound : db.findResource resource.id = some resource)
    (hdeleted : resource.deleted = true)
    (hversion : resource.tombstoneReleaseVersion = some version)
    (hrelease : db.findRelease resource.id version = some release)
    (hfree : db.releaseQuarantined resource.id version = false) :
    db.readsRevision subject.viewer resource.id release.revisionId = true := by
  rcases mem_of_findRelease hrelease with ⟨hrow, hid, hsame⟩
  have hany : (db.releases.any fun row =>
      decide (row.resourceId = resource.id ∧
        some row.version = resource.tombstoneReleaseVersion ∧
          row.revisionId = release.revisionId) &&
        !db.releaseQuarantined resource.id row.version) = true := by
    refine List.any_eq_true.mpr ⟨release, hrow, ?_⟩
    simp [hid, hsame, hversion, hfree]
  cases subject with
  | installation installation =>
      rcases List.mem_map.mp hmem with ⟨row, hrow, hsame⟩
      rcases List.mem_filter.mp hrow with ⟨hin, hkey⟩
      simp only [Prod.mk.injEq] at hsame
      have hkeeps : db.installationKeeps installation resource.id = true := by
        unfold installationKeeps
        rw [Bool.and_eq_true]
        constructor
        · simp [hfound, hdeleted]
        · refine List.any_eq_true.mpr ⟨row, hin, ?_⟩
          simpa [hsame] using hkey
      show (_ || db.installationTombstone installation resource.id
        release.revisionId) = true
      unfold installationTombstone
      rw [hkeeps, hfound, Option.any_some, hany]
      simp
  | user user =>
      rcases List.mem_map.mp hmem with ⟨row, hrow, hsame⟩
      rcases List.mem_filter.mp hrow with ⟨hin, hkey⟩
      simp only [Prod.mk.injEq] at hsame
      have hkeeps : (db.subscriptions.any fun row =>
          decide (row.userId = user ∧ row.resourceId = resource.id) &&
            row.retainOnDelete) = true := by
        refine List.any_eq_true.mpr ⟨row, hin, ?_⟩
        simpa [hsame] using hkey
      show db.canReadRevisionSnapshot user resource.id release.revisionId =
        true
      unfold canReadRevisionSnapshot canReadTombstone
      rw [Bool.or_eq_true]
      right
      rw [hfound, Option.any_some, hany, hkeeps, hdeleted]
      rfl

/-- The release that a subscription stands for is seen. -/
theorem CatalogSound.seenRelease_eq (h : CatalogSound db)
    (hdesired : db.Desired subject subscription)
    (hopen : ¬db.Withheld subject subscription)
    (hreleased : ¬db.FollowsWorkspace subject subscription) :
    exists version release,
      Subscription.version subscription = some version ∧
        db.findRelease subscription.resource.id version = some release ∧
          db.seenRelease subject (db.joined subject subscription) =
            some release := by
  rcases h.exists_version hdesired hreleased with
    ⟨version, release, hversion, hrelease⟩
  have hfree : db.releaseQuarantined subscription.resource.id version =
      false := by
    rw [← Bool.not_eq_true]
    intro hquarantined
    exact hopen (.inr ⟨hreleased, version, hversion, hquarantined⟩)
  have hseen : db.readsRevision subject.viewer subscription.resource.id
      release.revisionId = true := by
    rcases hdesired.wanted with ⟨hlive, hwanted⟩ | ⟨hdeleted, hretain, _⟩
    · exact readsRevision_of_open hdesired.found hlive hwanted hrelease hfree
    · have hmem := hdesired.subscribed
      rw [hretain] at hmem
      unfold Subscription.version at hversion
      rw [hdeleted] at hversion
      exact readsRevision_of_kept hmem hdesired.found hdeleted hversion
        hrelease hfree
  refine ⟨version, release, hversion, hrelease, ?_⟩
  unfold seenRelease
  rw [releaseVersion_joined, hversion]
  show (db.findRelease subscription.resource.id version).filter _ = _
  rw [hrelease]
  rw [← (mem_of_findRelease hrelease).2.1] at hseen
  exact Option.filter_eq_some_iff.mpr ⟨rfl, hseen⟩

/-- The workspace that a subscription follows is seen. -/
theorem CatalogSound.seenWorkspace_eq (h : CatalogSound db) {user : Uuid}
    (hdesired : db.Desired (.user user) subscription)
    (hopen : ¬db.Withheld (.user user) subscription)
    (hlive : db.FollowsWorkspace (.user user) subscription) :
    exists owner workspace, owner ∈ db.directory.users ∧
      owner.namespaceId = subscription.resource.ownerNamespaceId ∧
        db.workspace subscription.resource.id owner.id = some workspace ∧
          db.seenWorkspace user (db.joined (.user user) subscription) =
            some workspace := by
  rcases hlive with ⟨hlive, _, _, hkind, other, hsame, hshared⟩
  cases hsame
  rcases Option.map_eq_some_iff.mp hkind with ⟨space, hspace, hpersonal⟩
  have hid := Directory.namespaceById_eq_some hspace
  rcases h.peopled.personal space hid.1 hpersonal with ⟨found, hfound, hof⟩
  have hsome : (db.directory.users.find? fun owner =>
      owner.namespaceId = subscription.resource.ownerNamespaceId).isSome =
        true := by
    rw [List.find?_isSome]
    exact ⟨found, hfound, decide_eq_true (hof.trans hid.2)⟩
  rcases Option.isSome_iff_exists.mp hsome with ⟨owner, howner⟩
  have hmem := List.mem_of_find?_eq_some howner
  have hspaceOf : owner.namespaceId =
      subscription.resource.ownerNamespaceId := by
    simpa using List.find?_some howner
  rcases Option.isSome_iff_exists.mp
    ((h.skill hdesired).worked hlive owner hmem hspaceOf) with
      ⟨workspace, hworkspace⟩
  refine ⟨owner, workspace, hmem, hspaceOf, hworkspace, ?_⟩
  have hkeys := List.find?_some hworkspace
  simp only [decide_eq_true_eq] at hkeys
  have hwhole : db.quarantined subscription.resource.id = false := by
    rw [← Bool.not_eq_true]
    intro hwhole
    exact hopen (.inl hwhole)
  have hseen : db.canReadWorkspace user workspace = true := by
    unfold canReadWorkspace
    rw [hkeys.1, hwhole, hdesired.found]
    simp [hlive, hkind, hshared]
  unfold seenWorkspace
  show ((db.directory.users.find? fun owner =>
    owner.namespaceId = subscription.resource.ownerNamespaceId).bind
      fun owner => (db.workspace subscription.resource.id owner.id).filter
        fun workspace => db.canReadWorkspace user workspace) = some workspace
  rw [howner, Option.bind_some, hworkspace]
  exact Option.filter_eq_some_iff.mpr ⟨rfl, hseen⟩

/-- A row without nulls is decoded as it stands. -/
theorem subscriptionContentRow_of_columns {row : SubscribedResource}
    {slug description : Text} {version : Option Generation}
    {revisionId : RevisionId} {snapshot : StoredSnapshot} {live : Bool}
    (hcolumns : db.contentColumns subject row =
      (some description, version, some revisionId, some snapshot))
    (hslug : row.ownerSlug = some slug)
    (hlive : takesLive subject row = some live) :
    exists content, db.subscriptionContentRow subject row = .ok content ∧
      content.id = row.resource.id ∧
        content.name = row.resource.slug ∧
          content.generation = row.resource.generation ∧
            content.pinnedReleaseVersion = row.pinned ∧
              content.retainOnDelete = row.retain ∧
                content.retainedAfterDelete = row.resource.deleted ∧
                  content.livePrivate = live ∧
                    content.description = description ∧
                      content.version = version ∧
                        content.revisionId = revisionId ∧
                          content.snapshot = snapshot := by
  unfold subscriptionContentRow
  rw [hcolumns, hslug, hlive]
  exact ⟨_, rfl, rfl, rfl, rfl, rfl, rfl, rfl, rfl, rfl, rfl, rfl, rfl⟩

/-- The row of the second query, and the entry that it becomes. -/
theorem CatalogSound.exists_entry (h : CatalogSound db)
    (hdesired : db.Desired subject subscription)
    (hopen : ¬db.Withheld subject subscription) :
    db.joinsContent subject (db.joined subject subscription) = true ∧
      exists content skill,
        db.subscriptionContentRow subject (db.joined subject subscription) =
            .ok content ∧
          content.id = subscription.resource.id ∧
            content.intoWire = .ok skill ∧
              db.Delivers subject subscription skill := by
  rcases h.exists_ownerSlug hdesired with ⟨slug, hslug⟩
  have htakes := h.takesLive_eq hdesired
  by_cases hlive : db.FollowsWorkspace subject subscription
  · have hholds := livePrivate_holds.mpr hlive
    rw [hholds] at htakes
    have hdeleted := hlive.1
    rcases hlive.2.2.2.2 with ⟨user, rfl, _⟩
    rcases h.seenWorkspace_eq hdesired hopen hlive with
      ⟨owner, workspace, howner, hspace, hworkspace, hseen⟩
    constructor
    · rfl
    · have hcolumns : db.contentColumns (.user user)
          (db.joined (.user user) subscription) =
            (some workspace.metadata.description, none,
              some workspace.revisionId, some workspace.snapshot) := by
        unfold contentColumns
        simp only [hseen, Option.map_some]
        exact if_pos hholds
      rcases subscriptionContentRow_of_columns hcolumns hslug htakes with
        ⟨content, hcontent, hid, hname, hgeneration, _, hretain, hkept,
          hprivate, hdescription, hversion, hrevision, hsnapshot⟩
      rcases SubscriptionContentRow.intoWire_of_content
        (SubscriptionContentRow.wireContent_of_live hprivate hversion
          (hkept.trans hdeleted)) with
        ⟨skill, hwire, hof, hidOf, hnameOf, hgenerationOf, hretainOf, hkeptOf,
          hdescriptionOf, hrevisionOf, hsnapshotOf⟩
      refine ⟨content, skill, hcontent, hid, hwire, ?_⟩
      exact {
        resource := ⟨hidOf.trans hid, hnameOf.trans hname,
          hgenerationOf.trans (congrArg Generation.value hgeneration),
          hretainOf.trans hretain, hkeptOf.trans hkept⟩
        live := fun _ => ⟨owner, workspace, howner, hspace, hworkspace, hof,
          hrevisionOf.trans hrevision, hsnapshotOf.trans hsnapshot,
          hdescriptionOf.trans hdescription⟩
        released := fun hreleased => absurd hlive hreleased }
  · have hholds : (takesLive subject
        (db.joined subject subscription)).holds = false := by
      rw [← Bool.not_eq_true, livePrivate_holds]
      exact hlive
    rw [hholds] at htakes
    rcases h.seenRelease_eq hdesired hopen hlive with
      ⟨version, release, hversion, hrelease, hseen⟩
    have hcolumns : db.contentColumns subject
        (db.joined subject subscription) =
          (some subscription.resource.metadata.description,
            some release.version, some release.revisionId,
              some release.snapshot) := by
      unfold contentColumns
      cases subject with
      | installation installation =>
          simp only [hseen, Option.map_some]
          rfl
      | user user =>
          simp only [hseen, Option.map_some]
          rw [if_neg]
          · rfl
          · exact ne_true_of_eq_false hholds
    constructor
    · cases subject with
      | installation installation =>
          show (db.seenRelease _ _).isSome = true
          rw [hseen, Option.isSome_some]
      | user user => rfl
    · have hsame := (mem_of_findRelease hrelease).2.2
      rcases subscriptionContentRow_of_columns hcolumns hslug htakes with
        ⟨content, hcontent, hid, hname, hgeneration, hpinned, hretain, hkept,
          hprivate, hdescription, hversionOf, hrevision, hsnapshot⟩
      rcases SubscriptionContentRow.intoWire_of_content
        (SubscriptionContentRow.wireContent_of_release hprivate
          hversionOf) with
        ⟨skill, hwire, hof, hidOf, hnameOf, hgenerationOf, hretainOf, hkeptOf,
          hdescriptionOf, hrevisionOf, hsnapshotOf⟩
      refine ⟨content, skill, hcontent, hid, hwire, ?_⟩
      rw [hkept, hpinned, hsame] at hof
      exact {
        resource := ⟨hidOf.trans hid, hnameOf.trans hname,
          hgenerationOf.trans (congrArg Generation.value hgeneration),
          hretainOf.trans hretain, hkeptOf.trans hkept⟩
        live := fun hfollows => absurd hfollows hlive
        released := fun _ => ⟨version, release, hversion, hrelease, hof,
          hrevisionOf.trans hrevision, hsnapshotOf.trans hsnapshot,
          hdescriptionOf.trans hdescription⟩ }

end Candidates

/-!
## The catalog
-/

theorem quarantinedResource_id {candidate : QuarantineCandidate}
    {found : QuarantinedResource}
    (h : db.quarantinedResource candidate = some found) :
    found.resourceId = candidate.resourceId := by
  rcases Option.map_eq_some_iff.mp h with ⟨active, _, rfl⟩
  rfl

theorem subscriptionContentRow_id {row : SubscribedResource}
    {content : SubscriptionContentRow}
    (h : db.subscriptionContentRow subject row = .ok content) :
    content.id = row.resource.id := by
  rcases bind_eq_ok.mp h with ⟨_, _, h⟩
  rcases bind_eq_ok.mp h with ⟨_, _, h⟩
  rcases bind_eq_ok.mp h with ⟨_, _, h⟩
  rcases bind_eq_ok.mp h with ⟨_, _, h⟩
  rcases bind_eq_ok.mp h with ⟨_, _, h⟩
  cases h
  rfl

theorem subscribedSkill_eq_ok {presignGet : Text -> Except Text Text}
    {row : SubscriptionContentRow} {skill : SubscribedSkill}
    (h : subscribedSkill presignGet row = .ok skill) :
    row.intoWire = .ok skill ∧ skill.resourceId = row.id := by
  rcases bind_eq_ok.mp h with ⟨_, _, hwire⟩
  constructor
  · exact hwire
  · rcases bind_eq_ok.mp hwire with ⟨_, _, h⟩
    cases h
    rfl

/-- The quarantined ids are those of the withheld subscriptions. -/
def Reports (db : Db) (subject : SubscriptionSubject) (ids : List Uuid) :
    Prop :=
  forall id, id ∈ ids <-> exists subscription,
    db.Desired subject subscription ∧ subscription.resource.id = id ∧
      db.Withheld subject subscription

section Catalog

variable {κ : Type} [LinearOrder κ] {collation : Collation κ}
variable {presignGet : Text -> Except Text Text} {ids : List Uuid}

theorem reports_of_candidates {candidates : List QuarantineCandidate}
    (hcandidates : (db.subscribedRows collation subject).mapM
      (quarantineCandidate subject) = .ok candidates) :
    db.Reports subject ((candidates.filterMap db.quarantinedResource).map
      QuarantinedResource.resourceId) := by
  intro id
  rw [List.mem_map]
  constructor
  · rintro ⟨found, hfound, hid⟩
    rcases List.mem_filterMap.mp hfound with ⟨candidate, hmem, hsome⟩
    rcases mapM_eq_ok_exists hcandidates candidate hmem with
      ⟨row, hrow, hcandidate⟩
    rcases mem_subscribedRows.mp hrow with ⟨subscription, hdesired, rfl⟩
    refine ⟨subscription, hdesired, ?_, ?_⟩
    · rw [← hid, quarantinedResource_id hsome]
      exact (quarantineCandidate_eq_ok hcandidate).1.symm
    · apply (withholding_isSome_iff hcandidate).mp
      rcases Option.map_eq_some_iff.mp hsome with ⟨active, hactive, _⟩
      rw [hactive, Option.isSome_some]
  · rintro ⟨subscription, hdesired, hid, hwithheld⟩
    have hrow : db.joined subject subscription ∈
        db.subscribedRows collation subject :=
      mem_subscribedRows.mpr ⟨subscription, hdesired, rfl⟩
    rcases mapM_eq_ok_forall hcandidates _ hrow with
      ⟨candidate, hmem, hcandidate⟩
    have hsome : (db.quarantinedResource candidate).isSome = true := by
      unfold quarantinedResource
      rw [Option.isSome_map]
      exact (withholding_isSome_iff hcandidate).mpr hwithheld
    rcases Option.isSome_iff_exists.mp hsome with ⟨found, hfound⟩
    refine ⟨found, List.mem_filterMap.mpr ⟨candidate, hmem, hfound⟩, ?_⟩
    rw [quarantinedResource_id hfound, ← hid]
    exact (quarantineCandidate_eq_ok hcandidate).1

/-- The rows of the second query. -/
def contentRows (db : Db) (collation : Collation κ)
    (subject : SubscriptionSubject) (ids : List Uuid) :
    List SubscribedResource :=
  (db.subscribedRows collation subject).filter fun row =>
    db.joinsContent subject row && !decide (row.resource.id ∈ ids)

theorem CatalogSound.mem_contentRows (h : CatalogSound db)
    (hids : db.Reports subject ids) {row : SubscribedResource} :
    row ∈ db.contentRows collation subject ids <->
      exists subscription, db.Desired subject subscription ∧
        ¬db.Withheld subject subscription ∧
          row = db.joined subject subscription := by
  unfold contentRows
  rw [List.mem_filter, mem_subscribedRows, Bool.and_eq_true,
    Bool.not_eq_true', decide_eq_false_iff_not, hids]
  constructor
  · rintro ⟨⟨subscription, hdesired, rfl⟩, _, hfree⟩
    refine ⟨subscription, hdesired, ?_, rfl⟩
    intro hwithheld
    exact hfree ⟨subscription, hdesired, rfl, hwithheld⟩
  · rintro ⟨subscription, hdesired, hopen, rfl⟩
    refine ⟨⟨subscription, hdesired, rfl⟩,
      (h.exists_entry hdesired hopen).1, ?_⟩
    rintro ⟨other, hother, hid, hwithheld⟩
    rw [h.desired_unique hother hdesired hid] at hwithheld
    exact hopen hwithheld

theorem CatalogSound.content_of_row (h : CatalogSound db)
    (hids : db.Reports subject ids) {row : SubscribedResource}
    {content : SubscriptionContentRow}
    (hrow : row ∈ db.contentRows collation subject ids)
    (hcontent : db.subscriptionContentRow subject row = .ok content) :
    exists subscription skill, db.Desired subject subscription ∧
      content.intoWire = .ok skill ∧
        db.Delivers subject subscription skill := by
  rcases (h.mem_contentRows hids).mp hrow with
    ⟨subscription, hdesired, hopen, rfl⟩
  rcases (h.exists_entry hdesired hopen).2 with
    ⟨other, skill, hother, _, hwire, hdelivers⟩
  rw [hcontent] at hother
  cases hother
  exact ⟨subscription, skill, hdesired, hwire, hdelivers⟩

/-- No content is left out by the check after the second query. -/
theorem filter_contents {contents : List SubscriptionContentRow}
    (hcontents : (db.contentRows collation subject ids).mapM
      (db.subscriptionContentRow subject) = .ok contents) :
    contents.filter (fun row => !decide (row.id ∈ ids)) = contents := by
  rw [List.filter_eq_self]
  intro content hmem
  rcases mapM_eq_ok_exists hcontents content hmem with ⟨row, hrow, hcontent⟩
  have hchecks := (List.mem_filter.mp hrow).2
  rw [Bool.and_eq_true] at hchecks
  rw [subscriptionContentRow_id hcontent]
  exact hchecks.2

variable (collation subject) in
/-- Both queries and the links succeed. -/
theorem CatalogSound.exists_catalog (h : CatalogSound db)
    (hpresign : forall key, exists url, presignGet key = .ok url) :
    exists candidates contents skills,
      (db.subscribedRows collation subject).mapM
          (quarantineCandidate subject) = .ok candidates ∧
        (db.contentRows collation subject
            ((candidates.filterMap db.quarantinedResource).map
              QuarantinedResource.resourceId)).mapM
            (db.subscriptionContentRow subject) = .ok contents ∧
          contents.mapM (subscribedSkill presignGet) = .ok skills ∧
            db.subscriptionCatalog collation presignGet subject =
              .ok ⟨skills, candidates.filterMap db.quarantinedResource⟩ := by
  have hall : forall row, row ∈ db.subscribedRows collation subject ->
      exists candidate, quarantineCandidate subject row = .ok candidate := by
    intro row hrow
    rcases mem_subscribedRows.mp hrow with ⟨subscription, hdesired, rfl⟩
    exact h.exists_candidate hdesired
  rcases exists_mapM_eq_ok.mpr hall with ⟨candidates, hcandidates⟩
  have hids := reports_of_candidates hcandidates
  have hrows : forall row, row ∈ db.contentRows collation subject
        ((candidates.filterMap db.quarantinedResource).map
          QuarantinedResource.resourceId) ->
      exists content, db.subscriptionContentRow subject row =
        .ok content := by
    intro row hrow
    rcases (h.mem_contentRows hids).mp hrow with
      ⟨subscription, hdesired, hopen, rfl⟩
    rcases (h.exists_entry hdesired hopen).2 with ⟨content, _, hcontent, _⟩
    exact ⟨content, hcontent⟩
  rcases exists_mapM_eq_ok.mpr hrows with ⟨contents, hcontents⟩
  have hskills : forall content, content ∈ contents ->
      exists skill, subscribedSkill presignGet content = .ok skill := by
    intro content hmem
    rcases mapM_eq_ok_exists hcontents content hmem with
      ⟨row, hrow, hcontent⟩
    rcases h.content_of_row hids hrow hcontent with ⟨_, skill, _, hwire, _⟩
    rcases hpresign content.snapshot.snapshotKey with ⟨url, hurl⟩
    unfold subscribedSkill
    rw [hurl]
    exact ⟨skill, hwire⟩
  rcases exists_mapM_eq_ok.mpr hskills with ⟨skills, hskills⟩
  refine ⟨candidates, contents, skills, hcandidates, hcontents, hskills, ?_⟩
  have hfiltered := filter_contents hcontents
  unfold contentRows at hcontents
  unfold subscriptionCatalog
  rw [bind_eq_ok]
  refine ⟨candidates, hcandidates, ?_⟩
  rw [bind_eq_ok]
  refine ⟨contents, hcontents, ?_⟩
  rw [bind_eq_ok]
  refine ⟨skills, ?_, rfl⟩
  rw [hfiltered]
  exact hskills

/-- In a sound state the catalog lists what the subscriber should get. -/
theorem CatalogSound.catalog_exact (h : CatalogSound db)
    (hpresign : forall key, exists url, presignGet key = .ok url) :
    exists catalog,
      db.subscriptionCatalog collation presignGet subject = .ok catalog ∧
        db.CatalogExact subject catalog := by
  rcases h.exists_catalog subject collation hpresign with
    ⟨candidates, contents, skills, hcandidates, hcontents, hskills, hok⟩
  have hids := reports_of_candidates hcandidates
  generalize hquarantined :
    candidates.filterMap db.quarantinedResource = quarantined at *
  have hskillIds : skills.map SubscribedSkill.resourceId =
      (db.contentRows collation subject
        (quarantined.map QuarantinedResource.resourceId)).map fun row =>
          row.resource.id := by
    rw [map_eq_map_of_mapM (k := SubscriptionContentRow.id)
      (fun _ _ hskill => (subscribedSkill_eq_ok hskill).2) hskills]
    exact map_eq_map_of_mapM
      (fun _ _ hcontent => subscriptionContentRow_id hcontent) hcontents
  have hserved : forall id, id ∈ skills.map SubscribedSkill.resourceId <->
      exists subscription, db.Desired subject subscription ∧
        ¬db.Withheld subject subscription ∧
          subscription.resource.id = id := by
    intro id
    rw [hskillIds, List.mem_map]
    constructor
    · rintro ⟨row, hrow, hid⟩
      rcases (h.mem_contentRows hids).mp hrow with
        ⟨subscription, hdesired, hopen, rfl⟩
      exact ⟨subscription, hdesired, hopen, hid⟩
    · rintro ⟨subscription, hdesired, hopen, hid⟩
      exact ⟨_, (h.mem_contentRows hids).mpr
        ⟨subscription, hdesired, hopen, rfl⟩, hid⟩
  have hnodup : (skills.map SubscribedSkill.resourceId ++
      quarantined.map QuarantinedResource.resourceId).Nodup := by
    have hrows : ((db.subscribedRows collation subject).map fun row =>
        row.resource.id).Nodup := h.nodup_subscribedRows
    have hkeys : (candidates.map QuarantineCandidate.resourceId).Nodup := by
      rw [map_eq_map_of_mapM (k := fun row => row.resource.id)
        (fun _ _ hcandidate => (quarantineCandidate_eq_ok hcandidate).1)
        hcandidates]
      exact hrows
    rw [List.nodup_append']
    refine ⟨?_, ?_, ?_⟩
    · rw [hskillIds]
      exact hrows.sublist (List.filter_sublist.map _)
    · rw [← hquarantined]
      refine nodup_map_filterMap hkeys ?_
      intro candidate _ found hfound
      exact quarantinedResource_id hfound
    · intro id hskill hwithheld
      rcases (hserved id).mp hskill with ⟨a, ha, hopen, hida⟩
      rcases (hids id).mp hwithheld with ⟨b, hb, hidb, hclosed⟩
      rw [h.desired_unique hb ha (hidb.trans hida.symm)] at hclosed
      exact hopen hclosed
  refine ⟨_, hok, ?_⟩
  exact {
    once := by
      intro subscription hdesired
      refine List.count_eq_one_of_mem hnodup (List.mem_append.mpr ?_)
      by_cases hwithheld : db.Withheld subject subscription
      · exact .inr ((hids _).mpr ⟨subscription, hdesired, rfl, hwithheld⟩)
      · exact .inl ((hserved _).mpr ⟨subscription, hdesired, hwithheld, rfl⟩)
    only := by
      intro id hmem
      rcases List.mem_append.mp hmem with hskill | hwithheld
      · rcases (hserved id).mp hskill with ⟨subscription, hdesired, _, hid⟩
        exact ⟨subscription, hdesired, hid⟩
      · rcases (hids id).mp hwithheld with ⟨subscription, hdesired, hid, _⟩
        exact ⟨subscription, hdesired, hid⟩
    withheld := by
      intro subscription hdesired
      rw [hids]
      constructor
      · rintro ⟨other, hother, hid, hclosed⟩
        rw [h.desired_unique hother hdesired hid] at hclosed
        exact hclosed
      · intro hwithheld
        exact ⟨subscription, hdesired, rfl, hwithheld⟩
    content := by
      intro skill hskill
      rcases mapM_eq_ok_exists hskills skill hskill with
        ⟨content, hmem, hentry⟩
      rcases mapM_eq_ok_exists hcontents content hmem with
        ⟨row, hrow, hcontent⟩
      rcases h.content_of_row hids hrow hcontent with
        ⟨subscription, other, hdesired, hwire, hdelivers⟩
      rw [(subscribedSkill_eq_ok hentry).1] at hwire
      cases hwire
      exact ⟨subscription, hdesired, hdelivers⟩ }

end Catalog

end Db
end Denju
