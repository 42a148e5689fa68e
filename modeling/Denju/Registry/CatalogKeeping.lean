import Denju.Registry.Accounts
import Denju.Registry.CatalogContent

/-!
# What keeps a catalog sound

Most transactions lose no release and no workspace, drop subscriptions at most,
and change nothing of a resource that a catalog is made from.  The others
change one resource, or insert one.
-/

namespace Denju

open Lib

/-- What a catalog depends on of a resource. -/
structure ServedRow where
  ownerNamespaceId : Uuid
  kind : ResourceKind
  visibility : Visibility
  latestReleaseVersion : Option Generation
  tombstoneReleaseVersion : Option Generation
  deleted : Bool
  deletedOwnerSlug : Option Text

def ResourceRow.served (row : ResourceRow) : ServedRow where
  ownerNamespaceId := row.ownerNamespaceId
  kind := row.kind
  visibility := row.visibility
  latestReleaseVersion := row.latestReleaseVersion
  tombstoneReleaseVersion := row.tombstoneReleaseVersion
  deleted := row.deleted
  deletedOwnerSlug := row.deletedOwnerSlug

namespace Db

variable {db db' db'' : Db}

/-!
## Releases and workspaces
-/

/-- Releases and workspaces stay. -/
structure KeepsContent (db db' : Db) : Prop where
  directory : db'.directory = db.directory
  releases : forall id version, (db.findRelease id version).isSome = true ->
    (db'.findRelease id version).isSome = true
  workspaces : forall id user, (db.workspace id user).isSome = true ->
    (db'.workspace id user).isSome = true

theorem KeepsContent.refl (db : Db) : KeepsContent db db :=
  ⟨rfl, fun _ _ h => h, fun _ _ h => h⟩

theorem KeepsContent.trans (h : KeepsContent db db')
    (h' : KeepsContent db' db'') : KeepsContent db db'' where
  directory := h'.directory.trans h.directory
  releases := fun id version hfound =>
    h'.releases id version (h.releases id version hfound)
  workspaces := fun id user hfound =>
    h'.workspaces id user (h.workspaces id user hfound)

theorem KeepsContent.ofTables (hdirectory : db'.directory = db.directory)
    (hreleases : db'.releases = db.releases)
    (hworkspaces : db'.workspaces = db.workspaces) : KeepsContent db db' where
  directory := hdirectory
  releases := by
    intro id version hfound
    unfold findRelease at hfound ⊢
    rw [hreleases]
    exact hfound
  workspaces := by
    intro id user hfound
    unfold workspace at hfound ⊢
    rw [hworkspaces]
    exact hfound

theorem workspaces_insert {row : WorkspaceRow} {id user : Uuid}
    (hrows : db'.workspaces = db.workspaces ++ [row])
    (hfound : (db.workspace id user).isSome = true) :
    (db'.workspace id user).isSome = true := by
  unfold workspace at hfound ⊢
  rw [hrows]
  exact isSome_find?_append hfound

theorem workspaces_update {p : WorkspaceRow -> Bool}
    {f : WorkspaceRow -> WorkspaceRow} {id user : Uuid}
    (hrows : db'.workspaces = updateWhere p f db.workspaces)
    (hkeys : forall row, (f row).resourceId = row.resourceId ∧
      (f row).workspaceUserId = row.workspaceUserId)
    (hfound : (db.workspace id user).isSome = true) :
    (db'.workspace id user).isSome = true := by
  unfold workspace at hfound ⊢
  rw [hrows, isSome_find?_updateWhere]
  · exact hfound
  · intro row _
    rw [(hkeys row).1, (hkeys row).2]

theorem releases_append {more : List ReleaseRow} {id : Uuid}
    {version : Generation} (hrows : db'.releases = db.releases ++ more)
    (hfound : (db.findRelease id version).isSome = true) :
    (db'.findRelease id version).isSome = true := by
  unfold findRelease at hfound ⊢
  rw [hrows]
  exact isSome_find?_append hfound

/-!
## Resources
-/

theorem SoundSkill.keep {row row' : ResourceRow} (h : SoundSkill db row)
    (hkeeps : KeepsContent db db') (hid : row'.id = row.id)
    (hserved : row'.served = row.served) : SoundSkill db' row' := by
  simp only [ResourceRow.served, ServedRow.mk.injEq] at hserved
  rcases hserved with
    ⟨howner, hkind, hvisibility, hlatest, htombstone, hdeleted, hslug⟩
  constructor
  · intro version hversion
    rw [hid]
    rw [hlatest] at hversion
    exact hkeeps.releases _ _ (h.latest version hversion)
  · intro version hversion
    rw [hid]
    rw [htombstone] at hversion
    exact hkeeps.releases _ _ (h.tombstone version hversion)
  · intro hlive hpublic
    rw [hlatest]
    rw [hdeleted] at hlive
    rw [hvisibility] at hpublic
    exact h.published hlive hpublic
  · intro hlive user huser hspace
    rw [hid]
    rw [hdeleted] at hlive
    rw [hkeeps.directory] at huser
    rw [howner] at hspace
    exact hkeeps.workspaces _ _ (h.worked hlive user huser hspace)
  · intro hlive
    rw [hdeleted] at hlive
    rw [hkeeps.directory, howner]
    exact h.owned hlive
  · intro hgone
    rw [hdeleted] at hgone
    rw [hslug]
    exact h.signed hgone

/-- Resources stay, released skills stay released, and every skill is sound. -/
structure Continues (db db' : Db) : Prop where
  kept : forall id row, db.findResource id = some row ->
    exists row', db'.findResource id = some row' ∧ row'.kind = row.kind ∧
      (row.kind = .skill -> row.latestReleaseVersion.isSome = true ->
        row'.latestReleaseVersion.isSome = true)
  sound : forall id row, db'.findResource id = some row ->
    row.kind = .skill -> SoundSkill db' row

theorem SoundSubscription.keep {id : Uuid} {pinned : Option Generation}
    {retain : Bool} (h : SoundSubscription db id pinned retain)
    (hreleases : forall id version,
      (db.findRelease id version).isSome = true ->
        (db'.findRelease id version).isSome = true)
    (hrows : Continues db db') : SoundSubscription db' id pinned retain := by
  rcases Option.isSome_iff_exists.mp h.found with ⟨old, hold⟩
  rcases hrows.kept id old hold with ⟨row, hrow, hkind, hlatest⟩
  constructor
  · rw [hrow, Option.isSome_some]
  · intro other hother hskill version hversion
    rw [hrow] at hother
    cases hother
    rw [hkind] at hskill
    exact hreleases _ _ (h.pin old hold hskill version hversion)
  · intro other hother hskill hretain
    rw [hrow] at hother
    cases hother
    rw [hkind] at hskill
    exact hlatest hskill (h.kept old hold hskill hretain)

/-- A change that drops subscriptions at most. -/
theorem CatalogSound.change (hdb : CatalogSound db)
    (hpeopled : db'.directory.Peopled)
    (hreleases : forall id version,
      (db.findRelease id version).isSome = true ->
        (db'.findRelease id version).isSome = true)
    (hrows : Continues db db')
    (hsubscriptions : db'.subscriptions.Sublist db.subscriptions)
    (hdevices : db'.installationSubscriptions.Sublist
      db.installationSubscriptions) : CatalogSound db' where
  skills := hrows.sound
  subscriptions := fun row hrow =>
    (hdb.subscriptions row (hsubscriptions.subset hrow)).keep hreleases hrows
  devices := fun row hrow =>
    (hdb.devices row (hdevices.subset hrow)).keep hreleases hrows
  subscriptionKey := hdb.subscriptionKey.sublist (hsubscriptions.map _)
  deviceKey := hdb.deviceKey.sublist (hdevices.map _)
  peopled := hpeopled

/-!
## Transactions beside the catalog
-/

/-- Nothing changes that a catalog depends on, except that there may be more
releases, more workspaces and fewer subscriptions. -/
structure KeepsCatalog (db db' : Db) : Prop extends KeepsContent db db' where
  subscriptions : db'.subscriptions.Sublist db.subscriptions
  devices : db'.installationSubscriptions.Sublist db.installationSubscriptions
  rows : forall id, (db'.findResource id).map ResourceRow.served =
    (db.findResource id).map ResourceRow.served

namespace KeepsCatalog

theorem refl (db : Db) : KeepsCatalog db db :=
  ⟨.refl db, .refl _, .refl _, fun _ => rfl⟩

theorem trans (h : KeepsCatalog db db') (h' : KeepsCatalog db' db'') :
    KeepsCatalog db db'' where
  toKeepsContent := h.toKeepsContent.trans h'.toKeepsContent
  subscriptions := h'.subscriptions.trans h.subscriptions
  devices := h'.devices.trans h.devices
  rows := fun id => (h'.rows id).trans (h.rows id)

theorem continues (h : KeepsCatalog db db') (hdb : CatalogSound db) :
    Continues db db' := by
  constructor
  · intro id row hrow
    have hsame := h.rows id
    rw [hrow, Option.map_some] at hsame
    rcases Option.map_eq_some_iff.mp hsame with ⟨row', hrow', hserved⟩
    simp only [ResourceRow.served, ServedRow.mk.injEq] at hserved
    refine ⟨row', hrow', hserved.2.1, ?_⟩
    intro _ hlatest
    rw [hserved.2.2.2.1]
    exact hlatest
  · intro id row' hrow' hskill
    have hsame := h.rows id
    rw [hrow', Option.map_some] at hsame
    rcases Option.map_eq_some_iff.mp hsame.symm with ⟨row, hrow, hserved⟩
    have hid := (mem_of_findResource_eq_some hrow).2
    have hid' := (mem_of_findResource_eq_some hrow').2
    have hkind : row.kind = .skill := by
      rw [← hskill]
      exact congrArg ServedRow.kind hserved
    exact (hdb.skills id row hrow hkind).keep h.toKeepsContent
      (hid'.trans hid.symm) hserved.symm

theorem sound (h : KeepsCatalog db db') (hdb : CatalogSound db) :
    CatalogSound db' :=
  hdb.change (h.directory ▸ hdb.peopled) h.releases (h.continues hdb)
    h.subscriptions h.devices

/-- The resources stay as they are. -/
theorem ofContent (h : KeepsContent db db')
    (hsubscriptions : db'.subscriptions = db.subscriptions)
    (hdevices : db'.installationSubscriptions = db.installationSubscriptions)
    (hresources : db'.resources = db.resources) : KeepsCatalog db db' where
  toKeepsContent := h
  subscriptions := by rw [hsubscriptions]
  devices := by rw [hdevices]
  rows := by
    intro id
    unfold findResource
    rw [hresources]

/-- One resource changes beside what a catalog depends on. -/
theorem ofRow {p : ResourceRow -> Bool} {f : ResourceRow -> ResourceRow}
    (h : KeepsContent db db')
    (hsubscriptions : db'.subscriptions = db.subscriptions)
    (hdevices : db'.installationSubscriptions = db.installationSubscriptions)
    (hresources : db'.resources = updateWhere p f db.resources)
    (hid : forall row, (f row).id = row.id)
    (hserved : forall row, (f row).served = row.served) :
    KeepsCatalog db db' where
  toKeepsContent := h
  subscriptions := by rw [hsubscriptions]
  devices := by rw [hdevices]
  rows := by
    intro id
    unfold findResource
    rw [hresources, find?_updateWhere, Option.map_map]
    · congr 1
      funext row
      show (if p row then f row else row).served = row.served
      split
      · exact hserved row
      · rfl
    · intro row _
      rw [hid]

theorem wake (h : KeepsCatalog db db') {id : Uuid} {generation : Nat} :
    KeepsCatalog db (db'.enqueueResourceWake id generation) :=
  h.trans (ofContent (.ofTables rfl rfl rfl) rfl rfl rfl)

end KeepsCatalog

/-!
## Changing one resource
-/

/-- A change of the rows with one identifier. -/
theorem findResource_update {item id : Uuid} {f : ResourceRow -> ResourceRow}
    (hresources : db'.resources =
      updateWhere (fun row => row.id = item) f db.resources)
    (hid : forall row, (f row).id = row.id) :
    db'.findResource id =
      (db.findResource id).map fun row => if id = item then f row else row := by
  unfold findResource
  rw [hresources, find?_updateWhere]
  · cases hfind : db.resources.find? fun row => row.id = id with
    | none => rfl
    | some row =>
        have hrow : row.id = id := by
          simpa using List.find?_some hfind
        simp [hrow]
  · intro row _
    rw [hid]

/-- One resource changes in a way that keeps it sound. -/
theorem CatalogSound.changeRow {item : Uuid} {f : ResourceRow -> ResourceRow}
    (hdb : CatalogSound db) (hkeeps : KeepsContent db db')
    (hresources : db'.resources =
      updateWhere (fun row => row.id = item) f db.resources)
    (hid : forall row, (f row).id = row.id)
    (hkind : forall row, (f row).kind = row.kind)
    (hrow : forall row, db.findResource item = some row ->
      row.kind = .skill -> SoundSkill db row ->
        SoundSkill db' (f row) ∧
          (row.latestReleaseVersion.isSome = true ->
            (f row).latestReleaseVersion.isSome = true))
    (hsubscriptions : db'.subscriptions.Sublist db.subscriptions)
    (hdevices : db'.installationSubscriptions.Sublist
      db.installationSubscriptions) : CatalogSound db' := by
  refine hdb.change (hkeeps.directory ▸ hdb.peopled) hkeeps.releases ?_
    hsubscriptions hdevices
  have hfind : forall id, db'.findResource id = (db.findResource id).map
      fun row => if id = item then f row else row := fun _ =>
    findResource_update hresources hid
  constructor
  · intro id row hfound
    by_cases hitem : id = item
    · refine ⟨f row, ?_, hkind row, ?_⟩
      · rw [hfind, hfound, Option.map_some, if_pos hitem]
      · intro hskill
        rw [hitem] at hfound
        exact (hrow row hfound hskill (hdb.skills _ _ hfound hskill)).2
    · refine ⟨row, ?_, rfl, fun _ hlatest => hlatest⟩
      rw [hfind, hfound, Option.map_some, if_neg hitem]
  · intro id row' hfound hskill
    rw [hfind, Option.map_eq_some_iff] at hfound
    rcases hfound with ⟨row, hfound, rfl⟩
    by_cases hitem : id = item
    · rw [if_pos hitem] at hskill ⊢
      rw [hkind] at hskill
      rw [hitem] at hfound
      exact (hrow row hfound hskill (hdb.skills _ _ hfound hskill)).1
    · rw [if_neg hitem] at hskill ⊢
      exact (hdb.skills _ _ hfound hskill).keep hkeeps rfl rfl

/-- A new resource is sound, if it is a skill. -/
theorem CatalogSound.insertRow {row : ResourceRow} (hdb : CatalogSound db)
    (hkeeps : KeepsContent db db')
    (hresources : db'.resources = db.resources ++ [row])
    (hrow : row.kind = .skill -> SoundSkill db' row)
    (hsubscriptions : db'.subscriptions.Sublist db.subscriptions)
    (hdevices : db'.installationSubscriptions.Sublist
      db.installationSubscriptions) : CatalogSound db' := by
  refine hdb.change (hkeeps.directory ▸ hdb.peopled) hkeeps.releases ?_
    hsubscriptions hdevices
  constructor
  · intro id old hold
    refine ⟨old, ?_, rfl, fun _ hlatest => hlatest⟩
    unfold findResource at hold ⊢
    rw [hresources, List.find?_append, hold]
    rfl
  · intro id other hother hskill
    unfold findResource at hother
    rw [hresources, List.find?_append, Option.or_eq_some_iff] at hother
    rcases hother with hold | ⟨_, hnew⟩
    · exact (hdb.skills id other hold hskill).keep hkeeps rfl rfl
    · have hsame := List.mem_of_find?_eq_some hnew
      rw [List.mem_singleton] at hsame
      rw [hsame] at hskill ⊢
      exact hrow hskill

end Db
end Denju
