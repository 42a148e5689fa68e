import Denju.Registry.CatalogKeeping

/-!
# Sound registries

A publication makes a release only if it can read the revision of the head.
It can, since the head of every workspace is archived: the revision and its
archive are stored.  A prune relies on the owner of a personal skill being the
only one with a workspace on it.
-/

namespace Denju

open Lib

namespace Directory

variable {directory : Directory}

/-- The user may have a workspace on a skill of the namespace, which is nobody
else's personal one. -/
def Admits (directory : Directory) (space user : Uuid) : Prop :=
  forall owner, owner ∈ directory.users -> owner.namespaceId = space ->
    owner.id = user

theorem admits_of_userAuthority {userId : Uuid} {authority : UserAuthority}
    (h : directory.userAuthority userId = .ok authority) :
    directory.Admits authority.namespaceId authority.userId := by
  rcases userAuthority_eq_ok h with ⟨user, huser, hid, hsame, hspace, _⟩
  intro owner howner hplace
  have hpersonal := List.inj_on_of_nodup_map directory.userNamespaceUnique
    howner huser (hplace.trans hspace)
  rw [hpersonal, hid, hsame]

theorem not_personal_of_team {space : Namespace}
    (hspace : space ∈ directory.namespaces) (hteam : space.kind = .team)
    {owner : User} (howner : owner ∈ directory.users) :
    owner.namespaceId ≠ space.id := by
  intro hplace
  rcases directory.usersPersonal owner howner with
    ⟨home, hhome, hhomeId, hhomeKind⟩
  have hsame := List.inj_on_of_nodup_map directory.namespaceKey hspace hhome
    (hplace.symm.trans hhomeId.symm)
  rw [hsame, hhomeKind] at hteam
  cases hteam

theorem admits_of_team {space : Namespace}
    (hspace : space ∈ directory.namespaces) (hteam : space.kind = .team)
    (user : Uuid) : directory.Admits space.id user := by
  intro owner howner hplace
  exact absurd hplace (not_personal_of_team hspace hteam howner)

end Directory

namespace Db

variable {db db' db'' : Db}

/-- The revision and its archive are stored. -/
structure Archived (db : Db) (id : Uuid) (revision : RevisionId) : Prop where
  kept : Retains db.snapshots id revision
  stored : (db.findRevision revision).isSome = true

/-- Every workspace is at an archived revision, and a user has at most one on a
skill. -/
structure WorkspacesSound (db : Db) : Prop where
  archived : forall row, row ∈ db.workspaces ->
    db.Archived row.resourceId row.revisionId
  released : forall row, row ∈ db.releases ->
    (db.findRevision row.revisionId).isSome = true
  key : (db.workspaces.map fun row =>
    (row.resourceId, row.workspaceUserId)).Nodup
  held : forall row, row ∈ db.workspaces ->
    exists resource, db.findResource row.resourceId = some resource ∧
      db.directory.Admits resource.ownerNamespaceId row.workspaceUserId

/-- What the catalogs of a registry and its workspaces rely on. -/
structure RegistrySound (db : Db) : Prop where
  catalog : CatalogSound db
  workspaces : WorkspacesSound db

/-!
## Keeping the archives
-/

/-- A resource stays with an owner that admits who the former one did. -/
def KeepsOwners (db db' : Db) : Prop :=
  forall id row, db.findResource id = some row ->
    exists row', db'.findResource id = some row' ∧
      forall user, db.directory.Admits row.ownerNamespaceId user ->
        db'.directory.Admits row'.ownerNamespaceId user

theorem KeepsOwners.refl (db : Db) : KeepsOwners db db :=
  fun _ row hrow => ⟨row, hrow, fun _ h => h⟩

theorem KeepsOwners.trans (h : KeepsOwners db db')
    (h' : KeepsOwners db' db'') : KeepsOwners db db'' := by
  intro id row hrow
  rcases h id row hrow with ⟨row', hrow', hadmits⟩
  rcases h' id row' hrow' with ⟨row'', hrow'', hadmits'⟩
  exact ⟨row'', hrow'', fun user huser => hadmits' user (hadmits user huser)⟩

theorem KeepsOwners.ofSame (hdirectory : db'.directory = db.directory)
    (hresources : db'.resources = db.resources) : KeepsOwners db db' := by
  intro id row hrow
  refine ⟨row, ?_, ?_⟩
  · unfold findResource at hrow ⊢
    rw [hresources]
    exact hrow
  · rw [hdirectory]
    exact fun _ h => h

theorem KeepsOwners.ofInsert {row : ResourceRow}
    (hdirectory : db'.directory = db.directory)
    (hresources : db'.resources = db.resources ++ [row]) :
    KeepsOwners db db' := by
  intro id old hold
  refine ⟨old, ?_, ?_⟩
  · unfold findResource at hold ⊢
    rw [hresources, List.find?_append, hold]
    rfl
  · rw [hdirectory]
    exact fun _ h => h

theorem KeepsOwners.ofUpdate {item : Uuid} {f : ResourceRow -> ResourceRow}
    (hdirectory : db'.directory = db.directory)
    (hresources : db'.resources =
      updateWhere (fun row => row.id = item) f db.resources)
    (hid : forall row, (f row).id = row.id)
    (howner : forall row, db.findResource item = some row -> forall user,
      db.directory.Admits row.ownerNamespaceId user ->
        db.directory.Admits (f row).ownerNamespaceId user) :
    KeepsOwners db db' := by
  intro id row hrow
  refine ⟨if id = item then f row else row, ?_, ?_⟩
  · rw [findResource_update hresources hid, hrow, Option.map_some]
  · rw [hdirectory]
    split
    · rename_i hitem
      rw [hitem] at hrow
      exact howner row hrow
    · exact fun _ h => h

theorem KeepsCatalog.owners (h : KeepsCatalog db db') : KeepsOwners db db' := by
  intro id row hrow
  have hsame := h.rows id
  rw [hrow, Option.map_some] at hsame
  rcases Option.map_eq_some_iff.mp hsame with ⟨row', hrow', hserved⟩
  have howner : row'.ownerNamespaceId = row.ownerNamespaceId :=
    congrArg ServedRow.ownerNamespaceId hserved
  refine ⟨row', hrow', ?_⟩
  rw [h.directory, howner]
  exact fun _ hadmits => hadmits

/-- What workspaces rely on stays. -/
structure KeepsArchives (db db' : Db) : Prop where
  archived : forall row, row ∈ db.workspaces ->
    db.Archived row.resourceId row.revisionId ->
      db'.Archived row.resourceId row.revisionId
  released : forall row, row ∈ db'.releases ->
    row ∈ db.releases ∨ (db'.findRevision row.revisionId).isSome = true
  revisions : forall id, (db.findRevision id).isSome = true ->
    (db'.findRevision id).isSome = true
  owners : KeepsOwners db db'

theorem KeepsArchives.ofTables (hsnapshots : db'.snapshots = db.snapshots)
    (hrevisions : db'.revisions = db.revisions)
    (hreleases : db'.releases = db.releases)
    (howners : KeepsOwners db db') : KeepsArchives db db' where
  archived := by
    intro row _ harchived
    constructor
    · rw [hsnapshots]
      exact harchived.kept
    · unfold findRevision
      rw [hrevisions]
      exact harchived.stored
  released := by
    intro row hrow
    rw [hreleases] at hrow
    exact .inl hrow
  revisions := by
    intro id hfound
    unfold findRevision at hfound ⊢
    rw [hrevisions]
    exact hfound
  owners := howners

theorem findRevision_of_stores {revision : RevisionId}
    (h : StoresRevision revision db.revisions db'.revisions) :
    (forall id, (db.findRevision id).isSome = true ->
        (db'.findRevision id).isSome = true) ∧
      (db'.findRevision revision).isSome = true := by
  unfold findRevision
  constructor
  · intro id hfound
    rw [List.find?_isSome] at hfound ⊢
    rcases hfound with ⟨row, hrow, hid⟩
    exact ⟨row, h.kept row hrow, hid⟩
  · rw [List.find?_isSome]
    rcases h.stored with ⟨row, hrow, hid⟩
    exact ⟨row, hrow, by simpa using hid⟩

/-- One more revision is archived. -/
theorem KeepsArchives.ofStored {id : Uuid} {revision : RevisionId}
    (hrevisions : StoresRevision revision db.revisions db'.revisions)
    (hretains : forall other head, Retains db.snapshots other head ->
      Retains db'.snapshots other head)
    (hretained : Retains db'.snapshots id revision)
    (hreleases : forall row, row ∈ db'.releases ->
      row ∈ db.releases ∨ row.revisionId = revision)
    (howners : KeepsOwners db db') :
    KeepsArchives db db' ∧ db'.Archived id revision := by
  have hfound := findRevision_of_stores hrevisions
  constructor
  · constructor
    · intro row _ harchived
      exact ⟨hretains _ _ harchived.kept, hfound.1 _ harchived.stored⟩
    · intro row hrow
      rcases hreleases row hrow with hold | hnew
      · exact .inl hold
      · rw [hnew]
        exact .inr hfound.2
    · exact hfound.1
    · exact howners
  · exact ⟨hretained, hfound.2⟩

theorem retains_append {rows : List SnapshotRow} {row : SnapshotRow}
    {id : Uuid} {revision : RevisionId} (h : Retains rows id revision) :
    Retains (rows ++ [row]) id revision := by
  rcases h with ⟨old, hold, hid, hrevision⟩
  exact ⟨old, List.mem_append_left _ hold, hid, hrevision⟩

namespace WorkspacesSound

theorem releasedOf (h : WorkspacesSound db) (hkeeps : KeepsArchives db db')
    (row : ReleaseRow) (hrow : row ∈ db'.releases) :
    (db'.findRevision row.revisionId).isSome = true := by
  rcases hkeeps.released row hrow with hold | hnew
  · exact hkeeps.revisions _ (h.released row hold)
  · exact hnew

theorem heldOf (h : WorkspacesSound db) (hkeeps : KeepsArchives db db')
    {row : WorkspaceRow} (hrow : row ∈ db.workspaces) :
    exists resource, db'.findResource row.resourceId = some resource ∧
      db'.directory.Admits resource.ownerNamespaceId row.workspaceUserId := by
  rcases h.held row hrow with ⟨resource, hresource, hadmits⟩
  rcases hkeeps.owners _ _ hresource with ⟨resource', hfound, hfollows⟩
  exact ⟨resource', hfound, hfollows _ hadmits⟩

/-- There may be fewer workspaces. -/
theorem fewer (h : WorkspacesSound db) (hkeeps : KeepsArchives db db')
    (hrows : db'.workspaces.Sublist db.workspaces) : WorkspacesSound db' where
  archived := fun row hrow => hkeeps.archived row (hrows.subset hrow)
    (h.archived row (hrows.subset hrow))
  released := h.releasedOf hkeeps
  key := h.key.sublist (hrows.map _)
  held := fun _ hrow => h.heldOf hkeeps (hrows.subset hrow)

theorem keep (h : WorkspacesSound db) (hkeeps : KeepsArchives db db')
    (hrows : db'.workspaces = db.workspaces) : WorkspacesSound db' := by
  apply h.fewer hkeeps
  rw [hrows]

/-- Some workspaces move to archived revisions. -/
theorem move {p : WorkspaceRow -> Bool} {f : WorkspaceRow -> WorkspaceRow}
    (h : WorkspacesSound db) (hkeeps : KeepsArchives db db')
    (hrows : db'.workspaces = updateWhere p f db.workspaces)
    (hkeys : forall row, (f row).resourceId = row.resourceId ∧
      (f row).workspaceUserId = row.workspaceUserId)
    (hmoved : forall row, row ∈ db.workspaces -> p row = true ->
      db'.Archived row.resourceId (f row).revisionId) :
    WorkspacesSound db' where
  archived := by
    intro row hrow
    rw [hrows] at hrow
    rcases mem_updateWhere.mp hrow with ⟨old, hold, rfl⟩
    split
    · rename_i hmatches
      rw [(hkeys old).1]
      exact hmoved old hold hmatches
    · exact hkeeps.archived old hold (h.archived old hold)
  released := h.releasedOf hkeeps
  key := by
    rw [hrows]
    unfold updateWhere
    rw [List.map_map]
    convert h.key using 1
    apply List.map_congr_left
    intro row _
    rw [Function.comp_apply]
    split
    · rw [(hkeys row).1, (hkeys row).2]
    · rfl
  held := by
    intro row hrow
    rw [hrows] at hrow
    rcases mem_updateWhere.mp hrow with ⟨old, hold, rfl⟩
    split
    · rw [(hkeys old).1, (hkeys old).2]
      exact h.heldOf hkeeps hold
    · exact h.heldOf hkeeps hold

/-- A user who has none gets a workspace. -/
theorem insert {row : WorkspaceRow} (h : WorkspacesSound db)
    (hkeeps : KeepsArchives db db')
    (hrows : db'.workspaces = db.workspaces ++ [row])
    (hfresh : db.workspace row.resourceId row.workspaceUserId = none)
    (harchived : db'.Archived row.resourceId row.revisionId)
    (hheld : exists resource,
      db'.findResource row.resourceId = some resource ∧
        db'.directory.Admits resource.ownerNamespaceId row.workspaceUserId) :
    WorkspacesSound db' where
  archived := by
    intro other hother
    rw [hrows] at hother
    rcases List.mem_append.mp hother with hold | hnew
    · exact hkeeps.archived other hold (h.archived other hold)
    · rw [List.mem_singleton.mp hnew]
      exact harchived
  released := h.releasedOf hkeeps
  key := by
    rw [hrows, List.map_append, List.map_singleton]
    apply List.Nodup.append h.key (List.nodup_singleton _)
    rw [List.disjoint_singleton]
    intro hmem
    rcases List.mem_map.mp hmem with ⟨other, hother, hsame⟩
    injection hsame with hresource huser
    have hnone := List.find?_eq_none.mp hfresh other hother
    simp [hresource, huser] at hnone
  held := by
    intro other hother
    rw [hrows] at hother
    rcases List.mem_append.mp hother with hold | hnew
    · exact h.heldOf hkeeps hold
    · rw [List.mem_singleton.mp hnew]
      exact hheld

/-- The workspaces of one user on one skill are the same. -/
theorem unique (h : WorkspacesSound db) {row other : WorkspaceRow}
    (hrow : row ∈ db.workspaces) (hother : other ∈ db.workspaces)
    (hid : row.resourceId = other.resourceId)
    (huser : row.workspaceUserId = other.workspaceUserId) : row = other :=
  List.inj_on_of_nodup_map h.key hrow hother (by rw [hid, huser])

end WorkspacesSound

/-!
## Transactions that only change resources
-/

/-- The tables beside the resources stay, and there may be fewer
subscriptions. -/
structure SameContent (db db' : Db) : Prop where
  directory : db'.directory = db.directory
  workspaces : db'.workspaces = db.workspaces
  snapshots : db'.snapshots = db.snapshots
  revisions : db'.revisions = db.revisions
  releases : db'.releases = db.releases
  subscriptions : db'.subscriptions.Sublist db.subscriptions
  devices : db'.installationSubscriptions.Sublist db.installationSubscriptions

theorem SameContent.keeps (h : SameContent db db') : KeepsContent db db' :=
  .ofTables h.directory h.releases h.workspaces

theorem SameContent.archives (h : SameContent db db')
    (howners : KeepsOwners db db') : KeepsArchives db db' :=
  .ofTables h.snapshots h.revisions h.releases howners

namespace RegistrySound

/-- No resource changes. -/
theorem same (h : RegistrySound db) (hsame : SameContent db db')
    (hresources : db'.resources = db.resources) : RegistrySound db' where
  catalog := by
    have hkeeps : KeepsCatalog db db' := by
      constructor
      · exact hsame.keeps
      · exact hsame.subscriptions
      · exact hsame.devices
      · intro id
        unfold findResource
        rw [hresources]
    exact hkeeps.sound h.catalog
  workspaces := h.workspaces.keep
    (hsame.archives (.ofSame hsame.directory hresources)) hsame.workspaces

/-- One resource changes in a way that keeps it sound. -/
theorem update {item : Uuid} {f : ResourceRow -> ResourceRow}
    (h : RegistrySound db) (hsame : SameContent db db')
    (hresources : db'.resources =
      updateWhere (fun row => row.id = item) f db.resources)
    (hid : forall row, (f row).id = row.id)
    (hkind : forall row, (f row).kind = row.kind)
    (howner : forall row, db.findResource item = some row -> forall user,
      db.directory.Admits row.ownerNamespaceId user ->
        db.directory.Admits (f row).ownerNamespaceId user)
    (hrow : forall row, db.findResource item = some row ->
      row.kind = .skill -> SoundSkill db' row ->
        SoundSkill db' (f row) ∧
          (row.latestReleaseVersion.isSome = true ->
            (f row).latestReleaseVersion.isSome = true)) :
    RegistrySound db' where
  catalog := by
    refine h.catalog.changeRow hsame.keeps hresources hid hkind ?_
      hsame.subscriptions hsame.devices
    intro row hfound hskill hsound
    exact hrow row hfound hskill (hsound.keep hsame.keeps rfl rfl)
  workspaces := h.workspaces.keep
    (hsame.archives (.ofUpdate hsame.directory hresources hid howner))
    hsame.workspaces

/-- One resource changes beside what a catalog depends on. -/
theorem touch {item : Uuid} {f : ResourceRow -> ResourceRow}
    (h : RegistrySound db) (hsame : SameContent db db')
    (hresources : db'.resources =
      updateWhere (fun row => row.id = item) f db.resources)
    (hid : forall row, (f row).id = row.id)
    (hserved : forall row, (f row).served = row.served) :
    RegistrySound db' := by
  have howner : forall row,
      (f row).ownerNamespaceId = row.ownerNamespaceId := fun row =>
    congrArg ServedRow.ownerNamespaceId (hserved row)
  have hlatest : forall row,
      (f row).latestReleaseVersion = row.latestReleaseVersion := fun row =>
    congrArg ServedRow.latestReleaseVersion (hserved row)
  refine h.update hsame hresources hid
    (fun row => congrArg ServedRow.kind (hserved row)) ?_ ?_
  · intro row _
    rw [howner]
    exact fun _ hadmits => hadmits
  · intro row _ _ hsound
    constructor
    · apply hsound.keep (.refl db')
      · exact hid row
      · exact hserved row
    · rw [hlatest]
      exact fun hsome => hsome

/-- A resource that is no skill changes. -/
theorem updatePack {item : Uuid} {row : ResourceRow}
    {f : ResourceRow -> ResourceRow} (h : RegistrySound db)
    (hsame : SameContent db db')
    (hresources : db'.resources =
      updateWhere (fun row => row.id = item) f db.resources)
    (hid : forall row, (f row).id = row.id)
    (hkind : forall row, (f row).kind = row.kind)
    (howner : forall row, db.findResource item = some row -> forall user,
      db.directory.Admits row.ownerNamespaceId user ->
        db.directory.Admits (f row).ownerNamespaceId user)
    (hfound : db.findResource item = some row) (hpack : row.kind = .pack) :
    RegistrySound db' := by
  refine h.update hsame hresources hid hkind howner ?_
  intro other hother hskill _
  rw [hfound] at hother
  cases hother
  rw [hpack] at hskill
  cases hskill

/-- A new resource is sound, if it is a skill. -/
theorem insert {row : ResourceRow} (h : RegistrySound db)
    (hsame : SameContent db db')
    (hresources : db'.resources = db.resources ++ [row])
    (hrow : row.kind = .skill -> SoundSkill db' row) : RegistrySound db' where
  catalog := h.catalog.insertRow hsame.keeps hresources hrow
    hsame.subscriptions hsame.devices
  workspaces := h.workspaces.keep
    (hsame.archives (.ofInsert hsame.directory hresources)) hsame.workspaces

end RegistrySound

end Db
end Denju
