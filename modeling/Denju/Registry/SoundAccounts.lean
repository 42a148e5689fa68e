import Denju.Registry.Conflicts
import Denju.Registry.Identities
import Denju.Registry.SoundOperations

/-!
# Accounts in a sound registry

Users come and go, and so do teams, members and devices.  A registry stays
sound as long as a new user comes with a namespace that owns nothing yet, and
an owner who leaves has no live resource.
-/

namespace Denju

open Lib

/-!
## Changes of the directory
-/

namespace Db

variable {db db' : Db}

/-- The users, the namespaces and the teams change, and workspaces and
subscriptions may be lost, except the workspaces of personal owners. -/
structure Resettles (db db' : Db) : Prop where
  resources : db'.resources = db.resources
  snapshots : db'.snapshots = db.snapshots
  revisions : db'.revisions = db.revisions
  releases : db'.releases = db.releases
  workspaces : db'.workspaces.Sublist db.workspaces
  subscriptions : db'.subscriptions.Sublist db.subscriptions
  devices : db'.installationSubscriptions.Sublist db.installationSubscriptions
  peopled : db'.directory.Peopled
  users : forall user, user ∈ db'.directory.users ->
    user ∈ db.directory.users ∨ forall row, row ∈ db.resources ->
      row.ownerNamespaceId ≠ user.namespaceId
  spaces : forall row, row ∈ db.resources -> row.deleted = false ->
    (db.directory.namespaceById row.ownerNamespaceId).isSome = true ->
      (db'.directory.namespaceById row.ownerNamespaceId).isSome = true
  homes : forall id row, db.findResource id = some row -> forall user,
    user ∈ db.directory.users -> user.namespaceId = row.ownerNamespaceId ->
      (db.workspace id user.id).isSome = true ->
        (db'.workspace id user.id).isSome = true

namespace Resettles

variable (h : Resettles db db')

include h

theorem findResource (id : Uuid) :
    db'.findResource id = db.findResource id := by
  unfold Db.findResource
  rw [h.resources]

theorem findRelease (id : Uuid) (version : Generation) :
    db'.findRelease id version = db.findRelease id version := by
  unfold Db.findRelease
  rw [h.releases]

/-- The owner of a resource is one that it had. -/
theorem owner {row : ResourceRow} (hrow : row ∈ db.resources) {user : User}
    (huser : user ∈ db'.directory.users)
    (howner : user.namespaceId = row.ownerNamespaceId) :
    user ∈ db.directory.users := by
  rcases h.users user huser with hold | hnew
  · exact hold
  · exact absurd howner.symm (hnew row hrow)

theorem soundSkill {id : Uuid} {row : ResourceRow}
    (hrow : db.findResource id = some row) (hsound : SoundSkill db row) :
    SoundSkill db' row where
  latest := by
    intro version hversion
    rw [h.findRelease]
    exact hsound.latest version hversion
  tombstone := by
    intro version hversion
    rw [h.findRelease]
    exact hsound.tombstone version hversion
  published := hsound.published
  worked := by
    intro hlive user huser howner
    rcases mem_of_findResource_eq_some hrow with ⟨hmem, rfl⟩
    have hold := h.owner hmem huser howner
    exact h.homes row.id row hrow user hold howner
      (hsound.worked hlive user hold howner)
  owned := by
    intro hlive
    have hmem := (mem_of_findResource_eq_some hrow).1
    exact h.spaces row hmem hlive (hsound.owned hlive)
  signed := hsound.signed

theorem continues (hdb : CatalogSound db) : Continues db db' := by
  constructor
  · intro id row hrow
    rw [← h.findResource] at hrow
    exact ⟨row, hrow, rfl, fun _ hlatest => hlatest⟩
  · intro id row hrow hskill
    rw [h.findResource] at hrow
    exact h.soundSkill hrow (hdb.skills id row hrow hskill)

theorem owners : KeepsOwners db db' := by
  intro id row hrow
  refine ⟨row, ?_, ?_⟩
  · rw [h.findResource]
    exact hrow
  · intro user hadmits owner howner hplace
    exact hadmits owner
      (h.owner (mem_of_findResource_eq_some hrow).1 howner hplace) hplace

theorem sound (hdb : RegistrySound db) : RegistrySound db' where
  catalog := by
    apply hdb.catalog.change h.peopled
    · intro id version hfound
      rw [h.findRelease]
      exact hfound
    · exact h.continues hdb.catalog
    · exact h.subscriptions
    · exact h.devices
  workspaces := hdb.workspaces.fewer
    (.ofTables h.snapshots h.revisions h.releases h.owners) h.workspaces

end Resettles

/-- Only the directory changes. -/
theorem Resettles.ofDirectory {directory : Directory}
    (hpeopled : directory.Peopled)
    (husers : forall user, user ∈ directory.users ->
      user ∈ db.directory.users ∨ forall row, row ∈ db.resources ->
        row.ownerNamespaceId ≠ user.namespaceId)
    (hspaces : forall id, (db.directory.namespaceById id).isSome = true ->
      (directory.namespaceById id).isSome = true) :
    Resettles db { db with directory } where
  resources := rfl
  snapshots := rfl
  revisions := rfl
  releases := rfl
  workspaces := .refl _
  subscriptions := .refl _
  devices := .refl _
  peopled := hpeopled
  users := husers
  spaces := fun row _ _ => hspaces row.ownerNamespaceId
  homes := fun _ _ _ _ _ _ hworkspace => hworkspace

/-!
## Workspaces of members
-/

theorem isSome_find?_deleteWhere {α : Type} {rows : List α}
    {p q : α -> Bool} (h : (rows.find? q).isSome = true)
    (hkept : forall row, q row = true -> p row = false) :
    ((deleteWhere p rows).find? q).isSome = true := by
  rw [List.find?_isSome] at h ⊢
  rcases h with ⟨row, hrow, hfound⟩
  exact ⟨row, mem_deleteWhere.mpr ⟨hrow, hkept row hfound⟩, hfound⟩

/-- The team of a membership is nobody's personal namespace. -/
theorem CatalogSound.team_impersonal (h : CatalogSound db) {team : Uuid}
    {membership : TeamMembership}
    (hmember : membership ∈ db.directory.memberships)
    (hteam : membership.teamNamespaceId = team) {user : User}
    (huser : user ∈ db.directory.users) : user.namespaceId ≠ team := by
  rcases h.peopled.teamed membership hmember with ⟨row, hrow, hid⟩
  rcases db.directory.teamsTeam row hrow with ⟨space, hspace, hspaceId, hkind⟩
  rw [← hteam, ← hid, ← hspaceId]
  exact Directory.not_personal_of_team hspace hkind huser

/-- Workspaces on the skills of a team may go. -/
theorem Resettles.ofTeamWorkspaces (h : RegistrySound db)
    {team member : Uuid} {conflicts : List WorkspaceConflictRow}
    (himpersonal : forall user, user ∈ db.directory.users ->
      user.namespaceId ≠ team) :
    Resettles db { db with
      conflicts
      workspaces := deleteWhere
        (fun row => decide (row.workspaceUserId = member) &&
          db.isTeamSkill team row.resourceId) db.workspaces } where
  resources := rfl
  snapshots := rfl
  revisions := rfl
  releases := rfl
  workspaces := List.filter_sublist
  subscriptions := .refl _
  devices := .refl _
  peopled := h.catalog.peopled
  users := fun _ huser => .inl huser
  spaces := fun _ _ _ hspace => hspace
  homes := by
    intro id row hrow user huser howner hworkspace
    refine isSome_find?_deleteWhere hworkspace ?_
    intro workspace hmatches
    simp only [decide_eq_true_eq] at hmatches
    have hother : db.isTeamSkill team workspace.resourceId = false := by
      unfold isTeamSkill
      rw [hmatches.1, hrow, Option.any_some, ← howner]
      simp [himpersonal user huser]
    rw [hother, Bool.and_false]

theorem removeTeamWorkspacesForUser_sound (h : RegistrySound db)
    {actor team member : Uuid}
    (hremoved : db.removeTeamWorkspacesForUser actor team member = .ok db') :
    RegistrySound db' := by
  rcases bind_eq_ok.mp hremoved with ⟨_, hallowed, hremoved⟩
  cases hremoved
  rw [ensure_eq_ok, Option.any_eq_true_iff_get] at hallowed
  rcases hallowed with ⟨hsome, _⟩
  rcases Option.isSome_iff_exists.mp hsome with ⟨membership, hfound⟩
  have hmatches := List.find?_some hfound
  simp only [decide_eq_true_eq] at hmatches
  apply (Resettles.ofTeamWorkspaces h ?_).sound h
  intro user huser
  exact h.catalog.team_impersonal (List.mem_of_find?_eq_some hfound)
    hmatches.1 huser

/-- Only the members, the settings of the teams, the devices and the author
links change. -/
theorem RegistrySound.remember {directory : Directory} (h : RegistrySound db)
    (hspaces : directory.namespaces = db.directory.namespaces)
    (husers : directory.users = db.directory.users)
    (hteamed : forall membership, membership ∈ directory.memberships ->
      exists team, team ∈ directory.teams ∧
        team.namespaceId = membership.teamNamespaceId) :
    RegistrySound { db with directory } := by
  refine (Resettles.ofDirectory ?_ ?_ ?_).sound h
  · constructor
    · intro space hspace hkind
      rw [hspaces] at hspace
      rw [husers]
      exact h.catalog.peopled.personal space hspace hkind
    · exact hteamed
  · intro user huser
    rw [husers] at huser
    exact .inl huser
  · intro id hfound
    unfold Directory.namespaceById at hfound ⊢
    rw [hspaces]
    exact hfound

theorem endMembership_sound (h : RegistrySound db) {actor team member : Uuid}
    (hended : db.endMembership actor team member = .ok db') :
    RegistrySound db' := by
  rcases bind_eq_ok.mp hended with ⟨cleaned, hcleaned, hended⟩
  have hsound := removeTeamWorkspacesForUser_sound h hcleaned
  cases hended
  have hfewer : RegistrySound
      (cleaned.removeTeamMembershipSubscriptions actor team member) :=
    hsound.same ⟨rfl, rfl, rfl, rfl, rfl, List.filter_sublist, .refl _⟩ rfl
  refine hfewer.remember rfl rfl ?_
  intro membership hmember
  exact hfewer.catalog.peopled.teamed membership
    (mem_deleteVisible.mp hmember).1

/-!
## Devices that sign in
-/

theorem nodup_map_of_comp {α β γ : Type} {rows : List α} {key : α -> β}
    {wider : α -> γ} (h : (rows.map wider).Nodup)
    (hkey : forall a, a ∈ rows -> forall b, b ∈ rows -> key a = key b ->
      wider a = wider b) : (rows.map key).Nodup := by
  apply List.Nodup.map_on
  · intro a ha b hb hsame
    exact List.inj_on_of_nodup_map h ha hb (hkey a ha b hb hsame)
  · exact h.of_map _

theorem RegistrySound.adopt (h : RegistrySound db) (installation user : Uuid) :
    RegistrySound (db.adoptInstallationSubscriptions installation user) := by
  refine h.resubscribe ?_ ?_ ?_ ?_
  · intro row hrow
    rcases List.mem_append.mp hrow with hold | hnew
    · exact h.catalog.subscriptions row hold
    · rcases List.mem_map.mp hnew with ⟨device, hdevice, rfl⟩
      exact h.catalog.devices device (List.mem_filter.mp hdevice).1
  · intro row hrow
    exact h.catalog.devices row (mem_deleteWhere.mp hrow).1
  · rw [List.map_append]
    apply List.Nodup.append h.catalog.subscriptionKey
    · rw [List.map_map]
      apply nodup_map_of_comp
        (h.catalog.deviceKey.sublist (List.filter_sublist.map _))
      intro a ha b hb hsame
      injection hsame with _ hid
      rcases List.mem_filter.mp ha with ⟨_, ha⟩
      rcases List.mem_filter.mp hb with ⟨_, hb⟩
      simp only [Bool.and_eq_true, decide_eq_true_eq] at ha hb
      rw [Prod.mk.injEq]
      exact ⟨ha.1.trans hb.1.symm, hid⟩
    · intro pair hold hnew
      rcases List.mem_map.mp hold with ⟨row, hrow, rfl⟩
      rcases List.mem_map.mp hnew with ⟨adopted, hadopted, hsame⟩
      rcases List.mem_map.mp hadopted with ⟨device, hdevice, rfl⟩
      injection hsame with huser hid
      rcases List.mem_filter.mp hdevice with ⟨_, hdevice⟩
      simp only [Bool.and_eq_true, Bool.not_eq_true'] at hdevice
      have hnone := List.any_eq_false.mp hdevice.2 row hrow
      simp [← huser, ← hid] at hnone
  · exact nodup_deleteWhere h.catalog.deviceKey

end Db

/-!
## What the tables of the directory accept
-/

namespace Directory

variable {directory directory' : Directory}

theorem insertNamespace_eq_ok {row : Namespace}
    (h : directory.insertNamespace row = .ok directory') :
    directory'.namespaces = directory.namespaces ++ [row] ∧
      directory'.users = directory.users ∧
        directory'.teams = directory.teams ∧
          directory'.memberships = directory.memberships := by
  unfold insertNamespace at h
  split at h
  · cases h
    exact ⟨rfl, rfl, rfl, rfl⟩
  · cases h

theorem insertUser_eq_ok {row : User} {device : AuthorPrincipalId}
    (h : directory.insertUser row device = .ok directory') :
    directory'.namespaces = directory.namespaces ∧
      directory'.users = directory.users ++ [row] ∧
        directory'.teams = directory.teams ∧
          directory'.memberships = directory.memberships := by
  unfold insertUser at h
  split at h
  · cases h
    exact ⟨rfl, rfl, rfl, rfl⟩
  · cases h

theorem insertTeam_eq_ok {row : Team}
    (h : directory.insertTeam row = .ok directory') :
    directory'.namespaces = directory.namespaces ∧
      directory'.users = directory.users ∧
        directory'.teams = directory.teams ++ [row] ∧
          directory'.memberships = directory.memberships := by
  unfold insertTeam at h
  split at h
  · cases h
    exact ⟨rfl, rfl, rfl, rfl⟩
  · cases h

theorem insertMembership_eq_ok {row : TeamMembership}
    (h : directory.insertMembership row = .ok directory') :
    directory'.namespaces = directory.namespaces ∧
      directory'.users = directory.users ∧
        directory'.teams = directory.teams ∧
          directory'.memberships = directory.memberships ++ [row] := by
  unfold insertMembership at h
  split at h
  · cases h
    exact ⟨rfl, rfl, rfl, rfl⟩
  · cases h

theorem linkInstallationToUser_eq_ok {installation userId : Uuid}
    (h : directory.linkInstallationToUser installation userId =
      .ok directory') :
    directory'.namespaces = directory.namespaces ∧
      directory'.users = directory.users ∧
        directory'.teams = directory.teams ∧
          directory'.memberships = directory.memberships := by
  rcases bind_eq_ok.mp h with ⟨row, _, h⟩
  split at h
  · rcases bind_eq_ok.mp h with ⟨_, _, h⟩
    cases h
    exact ⟨rfl, rfl, rfl, rfl⟩
  · cases h
    exact ⟨rfl, rfl, rfl, rfl⟩

theorem linkInstallationAuthorToUser_eq_ok {device : AuthorPrincipalId}
    {userId : Uuid}
    (h : directory.linkInstallationAuthorToUser device userId =
      .ok directory') :
    directory'.namespaces = directory.namespaces ∧
      directory'.users = directory.users ∧
        directory'.teams = directory.teams ∧
          directory'.memberships = directory.memberships := by
  unfold linkInstallationAuthorToUser at h
  split at h
  · split at h
    · cases h
      exact ⟨rfl, rfl, rfl, rfl⟩
    · cases h
      exact ⟨rfl, rfl, rfl, rfl⟩
  · cases h

theorem namespaceById_concat {space : Namespace} {id : Uuid}
    (hspaces : directory'.namespaces = directory.namespaces ++ [space])
    (h : (directory.namespaceById id).isSome = true) :
    (directory'.namespaceById id).isSome = true := by
  unfold namespaceById at h ⊢
  rw [hspaces]
  exact isSome_find?_append h

end Directory

/-!
## Identities
-/

namespace Registry

open Db

variable {db db' : Db}

theorem createInstallation_sound {newInstallationId answer : Uuid}
    (h : RegistrySound db)
    (hcreated : createInstallation newInstallationId db = .ok (answer, db')) :
    RegistrySound db' := by
  rcases bind_eq_ok.mp hcreated with ⟨_, _, hcreated⟩
  cases hcreated
  exact h.remember rfl rfl h.catalog.peopled.teamed

theorem claimIdentity_sound {namespaceId userId sessionId : Uuid}
    {userAuthor device : AuthorPrincipalId} {installation : Uuid}
    {username : Text} {answer : IdentitySessionResponse}
    (h : RegistrySound db)
    (hfresh : forall row, row ∈ db.resources ->
      row.ownerNamespaceId ≠ namespaceId)
    (hclaimed : claimIdentity namespaceId userId sessionId userAuthor device
      installation username db = .ok (answer, db')) : RegistrySound db' := by
  rcases bind_eq_ok.mp hclaimed with ⟨_, _, hclaimed⟩
  rcases bind_eq_ok.mp hclaimed with ⟨_, _, hclaimed⟩
  rcases bind_eq_ok.mp hclaimed with ⟨_, _, hclaimed⟩
  rcases bind_eq_ok.mp hclaimed with ⟨spaced, hspaced, hclaimed⟩
  rcases bind_eq_ok.mp hclaimed with ⟨peopled, hpeopled, hclaimed⟩
  rcases bind_eq_ok.mp hclaimed with ⟨linked, hlinked, hclaimed⟩
  cases hclaimed
  rcases Directory.insertNamespace_eq_ok hspaced with ⟨hs, hu, ht, hm⟩
  rcases Directory.insertUser_eq_ok hpeopled with ⟨hs', hu', ht', hm'⟩
  rcases Directory.linkInstallationToUser_eq_ok hlinked with
    ⟨hs'', hu'', ht'', hm''⟩
  have hspaces := hs''.trans (hs'.trans hs)
  have husers : linked.users = db.directory.users ++
      [{ id := userId, namespaceId, authorPrincipalId := userAuthor }] := by
    rw [hu'', hu', hu]
  have hteams := ht''.trans (ht'.trans ht)
  have hmembers := hm''.trans (hm'.trans hm)
  refine ((Resettles.ofDirectory ?_ ?_ ?_).sound h).adopt installation userId
  · constructor
    · intro space hspace hkind
      rw [hspaces] at hspace
      rw [husers]
      rcases List.mem_append.mp hspace with hold | hnew
      · exact exists_mem_concat
          (h.catalog.peopled.personal space hold hkind)
      · rw [List.mem_singleton.mp hnew]
        exact ⟨_, List.mem_append_right _ (List.mem_singleton_self _), rfl⟩
    · intro membership hmember
      rw [hmembers] at hmember
      rw [hteams]
      exact h.catalog.peopled.teamed membership hmember
  · intro user huser
    rw [husers] at huser
    rcases List.mem_append.mp huser with hold | hnew
    · exact .inl hold
    · rw [List.mem_singleton.mp hnew]
      exact .inr hfresh
  · intro id hfound
    exact Directory.namespaceById_concat hspaces hfound

theorem login_sound {sessionId : Uuid} {device : AuthorPrincipalId}
    {installation : Uuid} {username : Text}
    {answer : IdentitySessionResponse} (h : RegistrySound db)
    (hsigned : login sessionId device installation username db =
      .ok (answer, db')) : RegistrySound db' := by
  rcases bind_eq_ok.mp hsigned with ⟨userId, _, hsigned⟩
  rcases bind_eq_ok.mp hsigned with ⟨_, _, hsigned⟩
  rcases bind_eq_ok.mp hsigned with ⟨linked, hlinked, hsigned⟩
  rcases bind_eq_ok.mp hsigned with ⟨moved, hmoved, hsigned⟩
  cases hsigned
  rcases Directory.linkInstallationToUser_eq_ok hlinked with ⟨hs, hu, ht, hm⟩
  rcases Directory.linkInstallationAuthorToUser_eq_ok hmoved with
    ⟨hs', hu', ht', hm'⟩
  refine RegistrySound.adopt (h.remember (hs'.trans hs) (hu'.trans hu) ?_)
    installation userId
  intro membership hmember
  rw [hm', hm] at hmember
  rw [ht', ht]
  exact h.catalog.peopled.teamed membership hmember

theorem ensurePrivateWorkspaceForUser_tables (id user : Uuid) :
    (db.ensurePrivateWorkspaceForUser id user).directory = db.directory ∧
      (db.ensurePrivateWorkspaceForUser id user).resources =
        db.resources := by
  rcases ensurePrivateWorkspaceForUser_cases db id user with
    hsame | ⟨row, _, _, _, hinserted⟩
  · rw [hsame]
    exact ⟨rfl, rfl⟩
  · rw [hinserted]
    exact ⟨rfl, rfl⟩

/-- Team skills admit every user. -/
theorem admits_of_awaits {user id : Uuid}
    (hawaits : db.awaitsWorkspace user id = true) (row : ResourceRow)
    (hrow : db.findResource id = some row) :
    db.directory.Admits row.ownerNamespaceId user := by
  unfold awaitsWorkspace at hawaits
  rw [hrow, Option.any_some] at hawaits
  simp only [Bool.and_eq_true, decide_eq_true_eq] at hawaits
  rcases Option.map_eq_some_iff.mp hawaits.1.2 with ⟨space, hspace, hkind⟩
  have hid := List.find?_some hspace
  simp only [decide_eq_true_eq] at hid
  rw [← hid]
  exact Directory.admits_of_team (List.mem_of_find?_eq_some hspace) hkind user

theorem provisionTeamWorkspaces_sound (h : RegistrySound db) (user : Uuid) :
    RegistrySound (db.provisionTeamWorkspaces user) := by
  have hfold : forall (ids : List Uuid) (start : Db), RegistrySound start ->
      start.directory = db.directory -> start.resources = db.resources ->
      (forall id, id ∈ ids -> db.awaitsWorkspace user id = true) ->
        RegistrySound (ids.foldl
          (fun db id => db.ensurePrivateWorkspaceForUser id user) start) := by
    intro ids
    induction ids with
    | nil =>
        intro start hstart _ _ _
        exact hstart
    | cons id rest ih =>
        intro start hstart hdirectory hresources hawaits
        have htables :
            (start.ensurePrivateWorkspaceForUser id user).directory = _ ∧ _ :=
          ensurePrivateWorkspaceForUser_tables id user
        rcases htables with ⟨hsame, hkept⟩
        apply ih
        · apply hstart.ensured
          intro row hrow
          unfold findResource at hrow
          rw [hresources] at hrow
          rw [hdirectory]
          exact admits_of_awaits (hawaits id List.mem_cons_self) row hrow
        · exact hsame.trans hdirectory
        · exact hkept.trans hresources
        · exact fun other hother =>
            hawaits other (List.mem_cons_of_mem _ hother)
  apply hfold _ db h rfl rfl
  intro id hid
  exact (List.mem_filter.mp hid).2

/-!
## Teams
-/

theorem createTeam_sound {namespaceId userId : Uuid} {slug : Text}
    {answer : TeamMutationResponse} (h : RegistrySound db)
    (hcreated : createTeam namespaceId userId slug db = .ok (answer, db')) :
    RegistrySound db' := by
  rcases bind_eq_ok.mp hcreated with ⟨authority, _, hcreated⟩
  rcases bind_eq_ok.mp hcreated with ⟨_, _, hcreated⟩
  rcases bind_eq_ok.mp hcreated with ⟨spaced, hspaced, hcreated⟩
  rcases bind_eq_ok.mp hcreated with ⟨teamed, hteamed, hcreated⟩
  rcases bind_eq_ok.mp hcreated with ⟨joined, hjoined, hcreated⟩
  cases hcreated
  rcases Directory.insertNamespace_eq_ok hspaced with ⟨hs, hu, ht, hm⟩
  rcases Directory.insertTeam_eq_ok hteamed with ⟨hs', hu', ht', hm'⟩
  rcases Directory.insertMembership_eq_ok hjoined with
    ⟨hs'', hu'', ht'', hm''⟩
  have hspaces := hs''.trans (hs'.trans hs)
  have husers := hu''.trans (hu'.trans hu)
  refine (Resettles.ofDirectory ?_ ?_ ?_).sound h
  · constructor
    · intro space hspace hkind
      rw [hspaces] at hspace
      rw [husers]
      rcases List.mem_append.mp hspace with hold | hnew
      · exact h.catalog.peopled.personal space hold hkind
      · rw [List.mem_singleton.mp hnew] at hkind
        cases hkind
    · intro membership hmember
      rw [hm'', hm', hm] at hmember
      rw [ht'', ht', ht]
      rcases List.mem_append.mp hmember with hold | hnew
      · exact exists_mem_concat
          (h.catalog.peopled.teamed membership hold)
      · rw [List.mem_singleton.mp hnew]
        exact ⟨_, List.mem_append_right _ (List.mem_singleton_self _), rfl⟩
  · intro user huser
    rw [husers] at huser
    exact .inl huser
  · intro id hfound
    exact Directory.namespaceById_concat hspaces hfound

theorem joinTeam_sound {userId invitedTo : Uuid} {role : TeamRole}
    {answer : TeamMutationResponse} (h : RegistrySound db)
    (hjoined : joinTeam userId invitedTo role db = .ok (answer, db')) :
    RegistrySound db' := by
  rcases bind_eq_ok.mp hjoined with ⟨authority, _, hjoined⟩
  rcases bind_eq_ok.mp hjoined with ⟨space, _, hjoined⟩
  rcases bind_eq_ok.mp hjoined with ⟨team, hteam, hjoined⟩
  rcases bind_eq_ok.mp hjoined with ⟨_, _, hjoined⟩
  rcases bind_eq_ok.mp hjoined with ⟨joined, hinserted, hjoined⟩
  cases hjoined
  rcases Directory.insertMembership_eq_ok hinserted with ⟨hs, hu, ht, hm⟩
  have hfound := okOr_eq_ok.mp hteam
  have hid := List.find?_some hfound
  simp only [decide_eq_true_eq] at hid
  refine h.remember hs hu ?_
  intro membership hmember
  rw [hm] at hmember
  rw [ht]
  rcases List.mem_append.mp hmember with hold | hnew
  · exact h.catalog.peopled.teamed membership hold
  · rw [List.mem_singleton.mp hnew]
    exact ⟨team, List.mem_of_find?_eq_some hfound, hid⟩

theorem setRole_sound (h : RegistrySound db) (team user : Uuid)
    (role : TeamRole) :
    RegistrySound
      { db with directory := db.directory.setRole team user role } := by
  refine h.remember rfl rfl ?_
  intro membership hmember
  rcases mem_updateWhere.mp hmember with ⟨old, hold, rfl⟩
  split
  · exact h.catalog.peopled.teamed old hold
  · exact h.catalog.peopled.teamed old hold

theorem changeTeamMemberRole_sound {userId : Uuid} {slug member : Text}
    {role : TeamRole} {answer : TeamMutationResponse} (h : RegistrySound db)
    (hchanged : changeTeamMemberRole userId slug member role db =
      .ok (answer, db')) : RegistrySound db' := by
  rcases bind_eq_ok.mp hchanged with ⟨_, _, hchanged⟩
  rcases bind_eq_ok.mp hchanged with ⟨authority, _, hchanged⟩
  rcases bind_eq_ok.mp hchanged with ⟨⟨team, actorRole, publish⟩, _, hchanged⟩
  rcases bind_eq_ok.mp hchanged with ⟨_, _, hchanged⟩
  rcases bind_eq_ok.mp hchanged with ⟨target, _, hchanged⟩
  rcases bind_eq_ok.mp hchanged with ⟨membership, _, hchanged⟩
  rcases bind_eq_ok.mp hchanged with ⟨_, _, hchanged⟩
  dsimp only at hchanged
  split at hchanged
  · split at hchanged
    · rcases bind_eq_ok.mp hchanged with ⟨removed, hremoved, hchanged⟩
      cases hchanged
      exact removeTeamWorkspacesForUser_sound
        (setRole_sound h team target role) hremoved
    · cases hchanged
      exact setRole_sound h team target role
  · cases hchanged
    exact h

theorem updateTeamSettings_sound {userId : Uuid} {slug : Text}
    {membersCanPublish : Bool} {answer : TeamMutationResponse}
    (h : RegistrySound db)
    (hupdated : updateTeamSettings userId slug membersCanPublish db =
      .ok (answer, db')) : RegistrySound db' := by
  rcases bind_eq_ok.mp hupdated with ⟨authority, _, hupdated⟩
  rcases bind_eq_ok.mp hupdated with ⟨⟨team, actorRole, current⟩, _, hupdated⟩
  rcases bind_eq_ok.mp hupdated with ⟨_, _, hupdated⟩
  have hset : RegistrySound { db with
      directory :=
        db.directory.setMembersCanPublish team membersCanPublish } := by
    refine h.remember rfl rfl ?_
    intro membership hmember
    rcases h.catalog.peopled.teamed membership hmember with ⟨row, hrow, hid⟩
    refine ⟨_, mem_updateWhere.mpr ⟨row, hrow, rfl⟩, ?_⟩
    split
    · exact hid
    · exact hid
  dsimp only at hupdated
  split at hupdated
  · split at hupdated
    · cases hupdated
      exact hset
    · rcases bind_eq_ok.mp hupdated with ⟨removed, hremoved, hupdated⟩
      cases hupdated
      refine foldlM_invariant ?_ hset hremoved
      intro start member next hstart hnext
      exact removeTeamWorkspacesForUser_sound hstart hnext
  · cases hupdated
    exact h

variable {registry : Registry}

theorem removeTeamMember_sound {userId : Uuid}
    {request : TeamMemberRemoveRequest} {answer : TeamMutationResponse}
    (h : RegistrySound db)
    (hremoved : registry.removeTeamMember userId request db =
      .ok (answer, db')) : RegistrySound db' := by
  rcases bind_eq_ok.mp hremoved with ⟨authority, _, hremoved⟩
  rcases bind_eq_ok.mp hremoved with ⟨_, _, hremoved⟩
  rcases bind_eq_ok.mp hremoved with ⟨replay, _, hremoved⟩
  split at hremoved
  · cases hremoved
    exact h
  · rcases bind_eq_ok.mp hremoved with ⟨⟨team, role, publish⟩, _, hremoved⟩
    rcases bind_eq_ok.mp hremoved with ⟨_, _, hremoved⟩
    rcases bind_eq_ok.mp hremoved with ⟨target, _, hremoved⟩
    rcases bind_eq_ok.mp hremoved with ⟨membership, _, hremoved⟩
    rcases bind_eq_ok.mp hremoved with ⟨_, _, hremoved⟩
    rcases bind_eq_ok.mp hremoved with ⟨ended, hended, hremoved⟩
    rcases bind_eq_ok.mp hremoved with ⟨recorded, hrecorded, hremoved⟩
    rcases Db.recordTeamOperation_eq_ok hrecorded with ⟨operations, rfl⟩
    cases hremoved
    exact (endMembership_sound h hended).same
      ⟨rfl, rfl, rfl, rfl, rfl, .refl _, .refl _⟩ rfl

theorem leaveTeam_sound {userId : Uuid} {request : TeamLeaveRequest}
    {answer : TeamLeaveResponse} (h : RegistrySound db)
    (hleft : registry.leaveTeam userId request db = .ok (answer, db')) :
    RegistrySound db' := by
  rcases bind_eq_ok.mp hleft with ⟨authority, _, hleft⟩
  rcases bind_eq_ok.mp hleft with ⟨_, _, hleft⟩
  rcases bind_eq_ok.mp hleft with ⟨replay, _, hleft⟩
  split at hleft
  · cases hleft
    exact h
  · rcases bind_eq_ok.mp hleft with ⟨⟨team, role, publish⟩, _, hleft⟩
    rcases bind_eq_ok.mp hleft with ⟨_, _, hleft⟩
    rcases bind_eq_ok.mp hleft with ⟨ended, hended, hleft⟩
    rcases bind_eq_ok.mp hleft with ⟨recorded, hrecorded, hleft⟩
    rcases Db.recordTeamOperation_eq_ok hrecorded with ⟨operations, rfl⟩
    cases hleft
    exact (endMembership_sound h hended).same
      ⟨rfl, rfl, rfl, rfl, rfl, .refl _, .refl _⟩ rfl

/-!
## Leaving for good
-/

/-- Workspaces get another generation. -/
theorem stampWorkspaces_sound {p : WorkspaceRow -> Bool}
    {generation : Generation} (h : RegistrySound db) :
    RegistrySound { db with
      workspaces := updateWhere p
        (fun row => { row with generation }) db.workspaces } := by
  have hkeys : forall row : WorkspaceRow,
      row.resourceId = row.resourceId ∧
        row.workspaceUserId = row.workspaceUserId := fun _ => ⟨rfl, rfl⟩
  have hkeeps : KeepsContent db { db with
      workspaces := updateWhere p
        (fun row => { row with generation }) db.workspaces } := by
    constructor
    · rfl
    · exact fun _ _ hfound => hfound
    · exact fun _ _ hfound => workspaces_update rfl hkeys hfound
  constructor
  · exact (KeepsCatalog.ofContent hkeeps rfl rfl rfl).sound h.catalog
  · refine h.workspaces.move (.ofTables rfl rfl rfl (.ofSame rfl rfl)) rfl
      hkeys ?_
    intro row hrow _
    have harchived := h.workspaces.archived row hrow
    exact ⟨harchived.kept, harchived.stored⟩

theorem tombstoneOwned_sound {user : Uuid} {owner : Text} {row : ResourceRow}
    (h : RegistrySound db)
    (hburied : tombstoneOwned user owner db row = .ok db') :
    RegistrySound db' := by
  rcases bind_eq_ok.mp hburied with ⟨generation, _, hburied⟩
  cases hburied
  have hdeleted : RegistrySound { db with
      resources := updateWhere (fun other => other.id = row.id)
        (deletedRow generation owner) db.resources } := by
    refine h.update ⟨rfl, rfl, rfl, rfl, rfl, .refl _, .refl _⟩ rfl
      (fun _ => rfl) (fun _ => rfl) (fun _ _ _ hadmits => hadmits) ?_
    intro other _ _ hsound
    exact ⟨soundSkill_deleted hsound, fun hsome => hsome⟩
  exact (stampWorkspaces_sound hdeleted).same
    ⟨rfl, rfl, rfl, rfl, rfl, .refl _, .refl _⟩ rfl

theorem tombstoneOwnedResources_sound {user namespaceId : Uuid}
    {owner : Text} (h : RegistrySound db)
    (hburied : db.tombstoneOwnedResourcesForAccountDelete user namespaceId
      owner = .ok db') : RegistrySound db' :=
  foldlM_invariant (fun _ _ _ hstart hnext => tombstoneOwned_sound hstart hnext)
    h hburied

theorem peopled_deleteNamespace {directory : Directory}
    (h : directory.Peopled) (id : Uuid) :
    (directory.deleteNamespace id).Peopled where
  personal := by
    intro space hspace hkind
    rcases mem_deleteWhere.mp hspace with ⟨hmem, hother⟩
    rcases h.personal space hmem hkind with ⟨user, huser, howner⟩
    refine ⟨user, mem_deleteWhere.mpr ⟨huser, ?_⟩, howner⟩
    rw [howner]
    exact hother
  teamed := by
    intro membership hmember
    rcases mem_deleteWhere.mp hmember with ⟨hmem, hother⟩
    rcases h.teamed membership hmem with ⟨team, hteam, hid⟩
    refine ⟨team, mem_deleteWhere.mpr ⟨hteam, ?_⟩, hid⟩
    rw [hid]
    exact hother

/-- A namespace that is deleted owns nothing alive. -/
theorem deleteNamespace_sound {id : Uuid} (h : RegistrySound db)
    (hdeleted : db.deleteNamespace id = .ok db') : RegistrySound db' := by
  rcases bind_eq_ok.mp hdeleted with ⟨_, hdead, hdeleted⟩
  cases hdeleted
  rw [ensure_eq_ok, List.all_eq_true] at hdead
  have hresettled : Resettles db
      { db with directory := db.directory.deleteNamespace id } := {
    resources := rfl
    snapshots := rfl
    revisions := rfl
    releases := rfl
    workspaces := .refl _
    subscriptions := .refl _
    devices := .refl _
    peopled := peopled_deleteNamespace h.catalog.peopled id
    users := fun user huser => .inl (mem_deleteWhere.mp huser).1
    spaces := by
      intro row hrow hlive hspace
      have hother := hdead row hrow
      rw [hlive, Bool.false_or, decide_eq_true_eq] at hother
      refine isSome_find?_deleteWhere hspace ?_
      intro space hmatches
      rw [decide_eq_true_eq] at hmatches
      rw [hmatches]
      exact decide_eq_false hother
    homes := fun _ _ _ _ _ _ hworkspace => hworkspace }
  exact (hresettled.sound h).same
    ⟨rfl, rfl, rfl, rfl, rfl, .refl _, .refl _⟩ rfl

theorem deleteAccount_sound {userId : Uuid} {answer : AccountDeleteResponse}
    (h : RegistrySound db)
    (hdeleted : deleteAccount userId db = .ok (answer, db')) :
    RegistrySound db' := by
  rcases bind_eq_ok.mp hdeleted with ⟨authority, _, hdeleted⟩
  split at hdeleted
  · cases hdeleted
  · rcases bind_eq_ok.mp hdeleted with ⟨left, hleft, hdeleted⟩
    rcases bind_eq_ok.mp hdeleted with ⟨buried, hburied, hdeleted⟩
    rcases bind_eq_ok.mp hdeleted with ⟨cleared, hcleared, hdeleted⟩
    cases hdeleted
    have hsound : RegistrySound left :=
      foldlM_invariant
        (fun _ _ _ hstart hnext =>
          removeTeamWorkspacesForUser_sound hstart hnext) h hleft
    have halone : RegistrySound { left with
        directory := left.directory.deleteMemberships userId } := by
      refine hsound.remember rfl rfl ?_
      intro membership hmember
      exact hsound.catalog.peopled.teamed membership
        (mem_deleteWhere.mp hmember).1
    have hburiedSound := tombstoneOwnedResources_sound halone hburied
    have hcleaned : RegistrySound (buried.deleteUserRows userId) :=
      hburiedSound.same
        ⟨rfl, rfl, rfl, rfl, rfl, List.filter_sublist, List.filter_sublist⟩ rfl
    exact deleteNamespace_sound hcleaned hcleared

theorem deleteTeam_sound {userId : Uuid} {slug : Text}
    {answer : TeamDeleteResponse} (h : RegistrySound db)
    (hdeleted : deleteTeam userId slug db = .ok (answer, db')) :
    RegistrySound db' := by
  rcases bind_eq_ok.mp hdeleted with ⟨authority, _, hdeleted⟩
  rcases bind_eq_ok.mp hdeleted with ⟨⟨team, role, publish⟩, _, hdeleted⟩
  rcases bind_eq_ok.mp hdeleted with ⟨_, _, hdeleted⟩
  rcases bind_eq_ok.mp hdeleted with ⟨buried, hburied, hdeleted⟩
  rcases bind_eq_ok.mp hdeleted with ⟨cleared, hcleared, hdeleted⟩
  cases hdeleted
  have hrootless : RegistrySound
      (deleteTeamPackRoots authority.userId team db) :=
    h.same ⟨rfl, rfl, rfl, rfl, rfl, List.filter_sublist, List.filter_sublist⟩
      rfl
  exact deleteNamespace_sound
    (tombstoneOwnedResources_sound hrootless hburied) hcleared

theorem setResourceTopics_sound {userId resourceId : Uuid}
    {expectedGeneration : UInt64} {answer : Nat} (h : RegistrySound db)
    (hset : setResourceTopics userId resourceId expectedGeneration db =
      .ok (answer, db')) : RegistrySound db' := by
  rcases bind_eq_ok.mp hset with ⟨authority, _, hset⟩
  rcases bind_eq_ok.mp hset with ⟨_, _, hset⟩
  rcases bind_eq_ok.mp hset with ⟨row, _, hset⟩
  rcases bind_eq_ok.mp hset with ⟨_, _, hset⟩
  rcases bind_eq_ok.mp hset with ⟨generation, _, hset⟩
  cases hset
  exact h.touch ⟨rfl, rfl, rfl, rfl, rfl, .refl _, .refl _⟩ rfl
    (fun _ => rfl) fun _ => rfl

end Registry
end Denju
