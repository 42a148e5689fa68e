import Denju.Registry.SoundCalls

/-!
# Other operations in a sound registry

The owners of skills and packs hide, share, prune, move and delete them, and
devices and accounts subscribe.  These operations keep a registry sound, too.
Most of them change one resource beside what a catalog depends on.
-/

namespace Denju

open Lib

theorem Directory.namespaceById_isSome {directory : Directory}
    {space : Namespace} (hspace : space ∈ directory.namespaces) :
    (directory.namespaceById space.id).isSome = true :=
  List.find?_isSome.mpr ⟨space, hspace, decide_eq_true rfl⟩

namespace Db

variable {db db' : Db} {userId packId : Uuid}

/-- A change of the rows with one identifier that may be seen as a change of
all rows. -/
theorem map_eq_updateWhere {rows : List ResourceRow} {id : Uuid}
    {f : ResourceRow -> ResourceRow}
    (hother : forall row, row.id ≠ id -> f row = row) :
    rows.map f = updateWhere (fun row => row.id = id) f rows := by
  unfold updateWhere
  apply List.map_congr_left
  intro row _
  by_cases hid : row.id = id
  · rw [if_pos (decide_eq_true hid)]
  · rw [hother row hid, if_neg (by simpa using hid)]

/-!
## Packs
-/

/-- The resource is a pack. -/
def IsPack (db : Db) (packId : Uuid) : Prop :=
  exists row, db.findResource packId = some row ∧ row.kind = .pack

/-- A change of a pack changes no skill. -/
theorem RegistrySound.packChange (h : RegistrySound db)
    (hchange : PackChange packId db db')
    (hpack : db' = db ∨ db.IsPack packId) : RegistrySound db' := by
  rcases hpack with rfl | ⟨row, hrow, hkind⟩
  · exact h
  · rcases hchange.rows with ⟨f, hrows, hnamed, hother⟩
    have hname : forall row, (f row).name = row.name := fun row =>
      congrArg NamedResource.name (hnamed row)
    have hsame : SameContent db db' := by
      rcases hchange.tables with ⟨_, _, _, _, _, _, _, _, rfl⟩
      exact ⟨rfl, rfl, rfl, rfl, rfl, .refl _, .refl _⟩
    refine h.updatePack hsame (hrows.trans (map_eq_updateWhere hother))
      (fun row => congrArg NamedResource.id (hnamed row))
      (fun row => congrArg (fun name => name.2.1) (hname row)) ?_ hrow hkind
    intro other _ user hadmits
    have howner : (f other).ownerNamespaceId = other.ownerNamespaceId :=
      congrArg Prod.fst (hname other)
    rw [howner]
    exact hadmits

theorem isPack_of_loadOwnedPack {user namespaceId : Uuid} {pack : PackRow}
    (h : db.loadOwnedPackForUpdate user packId namespaceId = .ok pack) :
    db.IsPack packId := by
  rcases loadOwnedPackForUpdate_eq_ok h with ⟨row, hfound, _⟩
  exact ⟨row, hfound.found, hfound.kind⟩

theorem advancePackEvent_isPack {session : Session} {event : PackReleaseEvent}
    {advanced : Option PackRow}
    (h : db.advancePackEvent session packId event = .ok (advanced, db')) :
    db' = db ∨ db.IsPack packId := by
  unfold advancePackEvent at h
  split at h
  · cases h
    exact .inl rfl
  · rcases bind_eq_ok.mp h with ⟨release, _, h⟩
    rcases bind_eq_ok.mp h with ⟨_, _, h⟩
    dsimp only at h
    split at h
    · cases h
      exact .inl rfl
    · rename_i pack hpack
      rcases lockPack_eq_some hpack with ⟨row, hfound, _⟩
      exact .inr ⟨row, hfound.found, hfound.kind⟩

end Db

open Db

variable {registry : Registry} {db db' : Db} {userId : Uuid}

theorem advancePackForReleaseEvent_sound {packId : Uuid}
    {event : PackReleaseEvent} {advanced : Bool} (h : RegistrySound db)
    (hadvanced : advancePackForReleaseEvent packId event db =
      .ok (advanced, db')) : RegistrySound db' := by
  rcases bind_eq_ok.mp hadvanced with ⟨⟨pack, stored⟩, hstored, hadvanced⟩
  have hsound := h.packChange (advancePackForReleaseEvent_change hstored)
    (advancePackEvent_isPack hstored)
  cases pack with
  | none =>
      cases hadvanced
      exact hsound
  | some pack =>
      cases hadvanced
      exact hsound.same ⟨rfl, rfl, rfl, rfl, rfl, .refl _, .refl _⟩ rfl

namespace Registry

theorem mutatePack_sound {kind : PackMutationKind}
    {request : PackMutationRequest}
    {answer : Except ApiError PackMutationResponse} (h : RegistrySound db)
    (hmutated : registry.mutatePack kind userId request db =
      .ok (answer, db')) : RegistrySound db' := by
  refine h.packChange (mutatePack_eq_ok hmutated) ?_
  rcases bind_eq_ok.mp hmutated with ⟨authority, _, hmutated⟩
  rcases bind_eq_ok.mp hmutated with ⟨_, _, hmutated⟩
  rcases bind_eq_ok.mp hmutated with ⟨_, _, hmutated⟩
  rcases bind_eq_ok.mp hmutated with ⟨_, _, hmutated⟩
  rcases bind_eq_ok.mp hmutated with ⟨replay, _, hmutated⟩
  split at hmutated
  · cases hmutated
    exact .inl rfl
  · rcases bind_eq_ok.mp hmutated with ⟨target, _, hmutated⟩
    rcases bind_eq_ok.mp hmutated with ⟨pack, hpack, _⟩
    exact .inr (isPack_of_loadOwnedPack hpack)

theorem publishPack_sound {request : PackPublishRequest}
    {answer : Except ApiError PackMutationResponse} (h : RegistrySound db)
    (hpublished : registry.publishPack userId request db =
      .ok (answer, db')) : RegistrySound db' := by
  refine h.packChange (publishPack_eq_ok hpublished) ?_
  rcases bind_eq_ok.mp hpublished with ⟨authority, _, hpublished⟩
  rcases bind_eq_ok.mp hpublished with ⟨_, _, hpublished⟩
  rcases bind_eq_ok.mp hpublished with ⟨replay, _, hpublished⟩
  split at hpublished
  · cases hpublished
    exact .inl rfl
  · rcases bind_eq_ok.mp hpublished with ⟨target, _, hpublished⟩
    rcases bind_eq_ok.mp hpublished with ⟨pack, hpack, _⟩
    exact .inr (isPack_of_loadOwnedPack hpack)

theorem unpublishPack_sound {request : ResourceLifecycleRequest}
    {answer : Except ApiError PackLifecycleResponse} (h : RegistrySound db)
    (hhidden : registry.unpublishPack userId request db =
      .ok (answer, db')) : RegistrySound db' := by
  refine h.packChange (unpublishPack_eq_ok hhidden) ?_
  rcases bind_eq_ok.mp hhidden with ⟨authority, _, hhidden⟩
  rcases bind_eq_ok.mp hhidden with ⟨_, _, hhidden⟩
  rcases bind_eq_ok.mp hhidden with ⟨replay, _, hhidden⟩
  split at hhidden
  · cases hhidden
    exact .inl rfl
  · rcases bind_eq_ok.mp hhidden with ⟨target, _, hhidden⟩
    rcases bind_eq_ok.mp hhidden with ⟨pack, hpack, _⟩
    exact .inr (isPack_of_loadOwnedPack hpack)

theorem createPack_sound {newResourceId : Uuid} {request : PackCreateRequest}
    {outcome : PackSummary} (h : RegistrySound db)
    (hcreated : registry.createPack newResourceId userId request db =
      .ok (outcome, db')) : RegistrySound db' := by
  rcases createPack_eq_ok hcreated with rfl | ⟨_, _, _, _, _, _, hnew⟩
  · exact h
  · rcases hnew.tables with ⟨_, row, _, hkind, _, _, rfl⟩
    refine h.insert ⟨rfl, rfl, rfl, rfl, rfl, .refl _, .refl _⟩ rfl ?_
    intro hskill
    rw [hkind] at hskill
    cases hskill

theorem renamePack_sound {request : PackRenameRequest}
    {answer : Except ApiError PackLifecycleResponse} (h : RegistrySound db)
    (hrenamed : registry.renamePack userId request db = .ok (answer, db')) :
    RegistrySound db' := by
  have hpack : db' = db ∨ db.IsPack request.resourceId := by
    rcases bind_eq_ok.mp hrenamed with ⟨authority, _, hrenamed⟩
    rcases bind_eq_ok.mp hrenamed with ⟨_, _, hrenamed⟩
    rcases bind_eq_ok.mp hrenamed with ⟨replay, _, hrenamed⟩
    split at hrenamed
    · cases hrenamed
      exact .inl rfl
    · rcases bind_eq_ok.mp hrenamed with ⟨target, _, hrenamed⟩
      rcases bind_eq_ok.mp hrenamed with ⟨pack, hpack, _⟩
      exact .inr (isPack_of_loadOwnedPack hpack)
  rcases renamePack_eq_ok hrenamed with hchange | ⟨_, _, _, _, _, _, hw⟩
  · exact h.packChange hchange hpack
  · rcases hw.tables with ⟨_, _, _, _, rfl⟩
    exact h.touch ⟨rfl, rfl, rfl, rfl, rfl, .refl _, .refl _⟩ rfl
      (fun _ => rfl) fun _ => rfl

/-- Subscriptions to a pack may go with it. -/
theorem deletePack_sound {request : ResourceLifecycleRequest}
    {answer : Except ApiError PackLifecycleResponse} (h : RegistrySound db)
    (hdeleted : registry.deletePack userId request db = .ok (answer, db')) :
    RegistrySound db' := by
  rcases bind_eq_ok.mp hdeleted with ⟨authority, _, hdeleted⟩
  rcases bind_eq_ok.mp hdeleted with ⟨_, _, hdeleted⟩
  rcases bind_eq_ok.mp hdeleted with ⟨replay, _, hdeleted⟩
  split at hdeleted
  · cases hdeleted
    exact h
  · rcases bind_eq_ok.mp hdeleted with ⟨target, _, hdeleted⟩
    rcases bind_eq_ok.mp hdeleted with ⟨_, _, hdeleted⟩
    rcases bind_eq_ok.mp hdeleted with ⟨pack, hpack, hdeleted⟩
    rcases loadOwnedPackForUpdate_eq_ok hpack with ⟨row, hfound, _⟩
    rcases onCurrentPack_eq_ok hdeleted with hcaught | ⟨_, _, hchanged⟩
    · rw [hfound.id] at hcaught
      exact h.packChange hcaught (.inr (isPack_of_loadOwnedPack hpack))
    · rcases bind_eq_ok.mp hchanged with ⟨_, _, hchanged⟩
      rcases bind_eq_ok.mp hchanged with ⟨generation, _, hchanged⟩
      rcases bind_eq_ok.mp hchanged with ⟨recorded, hrecorded, hchanged⟩
      rcases recordPackOperation_eq_ok hrecorded with ⟨operations, rfl⟩
      cases hchanged
      rw [hfound.id]
      exact h.updatePack
        ⟨rfl, rfl, rfl, rfl, rfl, List.filter_sublist, List.filter_sublist⟩
        rfl (fun _ => rfl) (fun _ => rfl) (fun _ _ _ hadmits => hadmits)
        hfound.found hfound.kind

/-- Everybody may have a workspace on what a team gets. -/
theorem admits_destination {space : Namespace}
    (hspace : space ∈ db.directory.namespaces) (hteam : space.kind = .team)
    (generation : Generation) (row : ResourceRow) (user : Uuid)
    (_ : db.directory.Admits row.ownerNamespaceId user) :
    db.directory.Admits
      ({ row with ownerNamespaceId := space.id, generation } :
        ResourceRow).ownerNamespaceId user :=
  Directory.admits_of_team hspace hteam user

theorem transferPack_sound {request : ResourceTransferRequest}
    {outcome : ResourceTransferResponse} (h : RegistrySound db)
    (hmoved : registry.transferPack userId request db =
      .ok (outcome, db')) : RegistrySound db' := by
  rcases transferPack_eq_ok hmoved with
    rfl | ⟨_, row, space, _, _, hw⟩
  · exact h
  · rcases hw.tables with ⟨_, _, _, generation, _, rfl⟩
    have hspace : space ∈ db.directory.namespaces :=
      List.mem_of_find?_eq_some hw.destination
    exact h.updatePack ⟨rfl, rfl, rfl, rfl, rfl, .refl _, .refl _⟩ rfl
      (fun _ => rfl) (fun _ => rfl)
      (fun row _ => admits_destination hspace hw.team generation row)
      hw.found hw.kind

/-!
## Lifecycle of a skill
-/

theorem unpublishSkill_sound {request : ResourceLifecycleRequest}
    {outcome : UnpublishSkillResponse} (h : RegistrySound db)
    (hhidden : registry.unpublishSkill userId request db =
      .ok (outcome, db')) : RegistrySound db' := by
  rcases unpublishSkill_eq_ok hhidden with rfl | ⟨_, _, rfl⟩
  · exact h
  · refine h.update ⟨rfl, rfl, rfl, rfl, rfl, .refl _, .refl _⟩ rfl
      (fun _ => rfl) (fun _ => rfl) (fun _ _ _ hadmits => hadmits) ?_
    intro row _ _ hsound
    refine ⟨?_, fun hsome => hsome⟩
    exact {
      latest := hsound.latest
      tombstone := hsound.tombstone
      published := fun _ hpublic => by cases hpublic
      worked := hsound.worked
      owned := hsound.owned
      signed := hsound.signed }

/-- A deleted skill names its owner, and its tombstone is its latest release. -/
theorem soundSkill_deleted {row : ResourceRow} {generation : Generation}
    {owner : Text} (hsound : SoundSkill db row) :
    SoundSkill db (deletedRow generation owner row) where
  latest := hsound.latest
  tombstone := hsound.latest
  published := fun hlive => by cases hlive
  worked := fun hlive => by cases hlive
  owned := fun hlive => by cases hlive
  signed := fun _ => rfl

theorem deleteSkill_sound {request : ResourceLifecycleRequest}
    {outcome : DeleteSkillResponse} (h : RegistrySound db)
    (hdeleted : registry.deleteSkill userId request db =
      .ok (outcome, db')) : RegistrySound db' := by
  rcases deleteSkill_eq_ok hdeleted with rfl | ⟨_, hw⟩
  · exact h
  · rcases hw.tables with ⟨_, _, generation, owner, _, rfl⟩
    refine h.update ⟨rfl, rfl, rfl, rfl, rfl, .refl _, .refl _⟩ rfl
      (fun _ => rfl) (fun _ => rfl) (fun _ _ _ hadmits => hadmits) ?_
    intro row _ _ hsound
    exact ⟨soundSkill_deleted hsound, fun hsome => hsome⟩

theorem deprecateSkill_sound {request : DeprecateSkillRequest}
    {outcome : DeprecateSkillResponse} (h : RegistrySound db)
    (hdeprecated : registry.deprecateSkill userId request db =
      .ok (outcome, db')) : RegistrySound db' := by
  rcases deprecateSkill_eq_ok hdeprecated with rfl | ⟨_, _, rfl⟩
  · exact h
  · exact h.touch ⟨rfl, rfl, rfl, rfl, rfl, .refl _, .refl _⟩ rfl
      (fun _ => rfl) fun _ => rfl

theorem mutatePrivateShare_sound {kind : ShareMutationKind}
    {request : ShareSkillRequest} {outcome : ShareSkillResponse}
    (h : RegistrySound db)
    (hshared : registry.mutatePrivateShare kind userId request db =
      .ok (outcome, db')) : RegistrySound db' := by
  rcases mutatePrivateShare_eq_ok hshared with ⟨_, _, _, _, rfl⟩
  exact h.same ⟨rfl, rfl, rfl, rfl, rfl, .refl _, .refl _⟩ rfl

theorem mutateQuarantine_sound {kind : AdminQuarantineMutationKind}
    {newQuarantineId operator : Uuid} {request : AdminQuarantineRequest}
    {outcome : AdminQuarantineResponse} (h : RegistrySound db)
    (hmutated : registry.mutateQuarantine kind newQuarantineId operator
      request db = .ok (outcome, db')) : RegistrySound db' := by
  rcases mutateQuarantine_eq_ok hmutated with
    ⟨_, _, _, _, rfl | ⟨_, _, rfl⟩⟩
  · exact h.same ⟨rfl, rfl, rfl, rfl, rfl, .refl _, .refl _⟩ rfl
  · exact h.touch ⟨rfl, rfl, rfl, rfl, rfl, .refl _, .refl _⟩ rfl
      (fun _ => rfl) fun _ => rfl

theorem transferResource_sound {request : ResourceTransferRequest}
    {outcome : ResourceTransferResponse} (h : RegistrySound db)
    (hmoved : registry.transferResource userId request db =
      .ok (outcome, db')) : RegistrySound db' := by
  rcases transferResource_eq_ok hmoved with rfl | ⟨_, _, _, hw⟩
  · exact h
  · rcases hw.resource with
      ⟨resource, _, space, _, generation, _, _, _, _, _, hspace, hteam, rfl,
        _, _, rfl⟩
    refine h.update ⟨rfl, rfl, rfl, rfl, rfl, .refl _, .refl _⟩ rfl
      (fun _ => rfl) (fun _ => rfl)
      (fun row _ => admits_destination hspace hteam generation row) ?_
    intro row _ _ hsound
    refine ⟨?_, fun hsome => hsome⟩
    exact {
      latest := hsound.latest
      tombstone := hsound.tombstone
      published := hsound.published
      worked := fun _ user huser hplace =>
        absurd hplace (Directory.not_personal_of_team hspace hteam huser)
      owned := fun _ => Directory.namespaceById_isSome hspace
      signed := hsound.signed }

theorem drainBlobGc_sound {blob : BlobId} {key : Option Text}
    (h : RegistrySound db)
    (hcollected : drainBlobGc blob db = .ok (key, db')) :
    RegistrySound db' := by
  rcases drainBlobGc_eq_ok hcollected with ⟨_, _, rfl, _⟩
  exact h.same ⟨rfl, rfl, rfl, rfl, rfl, .refl _, .refl _⟩ rfl

/-!
## Pruning
-/

/-- Only the owner of a personal skill has a workspace on it. -/
theorem workspaceUser_of_owned {authority : UserAuthority}
    {resource : ResourceRow} {row : WorkspaceRow} (h : WorkspacesSound db)
    (hauthority : db.directory.userAuthority userId = .ok authority)
    (hfound : db.findResource row.resourceId = some resource)
    (howner : resource.ownerNamespaceId = authority.namespaceId)
    (hrow : row ∈ db.workspaces) : row.workspaceUserId = authority.userId := by
  rcases h.held row hrow with ⟨held, hheld, hadmits⟩
  rw [hfound] at hheld
  cases hheld
  rcases Directory.userAuthority_eq_ok hauthority with
    ⟨owner, hmem, hid, hsame, hplace, _⟩
  rw [← hadmits owner hmem (hplace.symm.trans howner.symm), hsame, hid]

/-- The head of the owner is not pruned. -/
theorem head_not_prunable {authority : UserAuthority} {resource : ResourceRow}
    {row : WorkspaceRow} (h : WorkspacesSound db)
    (hauthority : db.directory.userAuthority userId = .ok authority)
    (hfound : db.findResource row.resourceId = some resource)
    (howner : resource.ownerNamespaceId = authority.namespaceId)
    (hrow : row ∈ db.workspaces) :
    row.revisionId ∉
      db.prunableRevisions authority.userId row.resourceId := by
  intro hprunable
  unfold prunableRevisions at hprunable
  rcases List.mem_flatMap.mp hprunable with ⟨snapshot, _, hmem⟩
  rcases List.mem_map.mp hmem with ⟨other, hother, hhead⟩
  rw [List.mem_filter] at hother
  rcases hother with ⟨hother, hcond⟩
  simp only [Bool.and_eq_true, decide_eq_true_eq, bne_iff_ne] at hcond
  rcases hcond with ⟨⟨⟨hid, _⟩, hne⟩, _⟩
  have hotherFound : db.findResource other.resourceId = some resource := by
    rw [hid]
    exact hfound
  have hsame := h.unique hother hrow hid
    ((workspaceUser_of_owned h hauthority hotherFound howner hother).trans
      (workspaceUser_of_owned h hauthority hfound howner hrow).symm)
  rw [hsame] at hne
  exact hne hhead.symm

theorem pruneSkillHistory_sound {request : ResourceLifecycleRequest}
    {outcome : HistoryPruneResponse} (h : RegistrySound db)
    (hpruned : registry.pruneSkillHistory userId request db =
      .ok (outcome, db')) : RegistrySound db' := by
  rcases pruneSkillHistory_eq_ok hpruned with
    rfl | ⟨authority, hauthority, _, hw⟩
  · exact h
  · rcases hw.tables with
      ⟨resource, generation, _, _, _, hfound, _, _, howner, _, _, hdb'⟩
    have hworkspaces : db'.workspaces = updateWhere
        (fun row => row.resourceId = request.resourceId ∧
          row.workspaceUserId = authority.userId)
        (fun row => { row with generation }) db.workspaces := by
      rw [hdb']
      rfl
    have hresources : db'.resources = updateWhere
        (fun row => row.id = request.resourceId)
        (fun row => { row with generation }) db.resources := by
      rw [hdb']
      rfl
    have hkept : forall row, row ∈ db.workspaces ->
        db'.Archived row.resourceId row.revisionId := by
      intro row hrow
      have hold := h.workspaces.archived row hrow
      rcases hold.kept with ⟨snapshot, hsnapshot, hid, hhead⟩
      constructor
      · refine ⟨snapshot, ?_, hid, hhead⟩
        rw [hdb']
        refine mem_deleteWhere.mpr ⟨hsnapshot, decide_eq_false ?_⟩
        rintro ⟨hsame, hprunable⟩
        rw [hid] at hsame
        rw [← hsame] at hfound hprunable
        rw [hhead] at hprunable
        exact head_not_prunable h.workspaces hauthority hfound howner hrow
          hprunable
      · rw [hdb']
        exact hold.stored
    constructor
    · have hkeeps : KeepsContent db db' := by
        constructor
        · rw [hdb']
          rfl
        · intro id version hrelease
          rw [hdb']
          exact hrelease
        · exact fun _ _ =>
            workspaces_update hworkspaces fun _ => ⟨rfl, rfl⟩
      exact (KeepsCatalog.ofRow hkeeps (by rw [hdb']; rfl) (by rw [hdb']; rfl)
        hresources (fun _ => rfl) fun _ => rfl).sound h.catalog
    · refine h.workspaces.move ?_ hworkspaces (fun _ => ⟨rfl, rfl⟩)
        fun row hrow _ => hkept row hrow
      constructor
      · exact fun row hrow _ => hkept row hrow
      · intro row hrow
        rw [hdb'] at hrow
        exact .inl hrow
      · intro id hstored
        rw [hdb']
        exact hstored
      · exact .ofUpdate (by rw [hdb']; rfl) hresources (fun _ => rfl)
          fun _ _ _ hadmits => hadmits

end Registry

/-!
## Subscribing
-/

namespace Db

theorem Continues.ofSame {db db' : Db} (h : CatalogSound db)
    (hkeeps : KeepsContent db db') (hresources : db'.resources = db.resources) :
    Continues db db' := by
  constructor
  · intro id row hrow
    refine ⟨row, ?_, rfl, fun _ hlatest => hlatest⟩
    unfold findResource at hrow ⊢
    rw [hresources]
    exact hrow
  · intro id row hrow hskill
    unfold findResource at hrow
    rw [hresources] at hrow
    exact (h.skills id row hrow hskill).keep hkeeps rfl rfl

/-- The tables of subscriptions are rewritten with sound ones. -/
theorem RegistrySound.resubscribe
    {subscriptions : List SubscriptionRow}
    {installationSubscriptions : List InstallationSubscriptionRow}
    (h : RegistrySound db)
    (hrows : forall row, row ∈ subscriptions -> SoundSubscription db
      row.resourceId row.pinnedReleaseVersion row.retainOnDelete)
    (hdevices : forall row, row ∈ installationSubscriptions ->
      SoundSubscription db row.resourceId row.pinnedReleaseVersion
        row.retainOnDelete)
    (hkey : (subscriptions.map fun row =>
      (row.userId, row.resourceId)).Nodup)
    (hdeviceKey : (installationSubscriptions.map fun row =>
      (row.installationId, row.resourceId)).Nodup) :
    RegistrySound { db with subscriptions, installationSubscriptions } where
  catalog := by
    have hcontinues : Continues db
        { db with subscriptions, installationSubscriptions } :=
      .ofSame h.catalog (.ofTables rfl rfl rfl) rfl
    exact {
      skills := hcontinues.sound
      subscriptions := fun row hrow =>
        (hrows row hrow).keep (fun _ _ hfound => hfound) hcontinues
      devices := fun row hrow =>
        (hdevices row hrow).keep (fun _ _ hfound => hfound) hcontinues
      subscriptionKey := hkey
      deviceKey := hdeviceKey
      peopled := h.catalog.peopled }
  workspaces := h.workspaces.keep (.ofTables rfl rfl rfl (.ofSame rfl rfl)) rfl

theorem nodup_subscriptions_insert {row : SubscriptionRow}
    (h : (db.subscriptions.map fun row =>
      (row.userId, row.resourceId)).Nodup)
    (hnew : db.subscribesUser row.userId row.resourceId = false) :
    ((db.subscriptions ++ [row]).map fun row =>
      (row.userId, row.resourceId)).Nodup := by
  apply nodup_concat h
  intro hmem
  rcases List.mem_map.mp hmem with ⟨other, hother, hsame⟩
  injection hsame with huser hid
  have hnone := List.any_eq_false.mp hnew other hother
  simp [huser, hid] at hnone

theorem nodup_devices_insert {row : InstallationSubscriptionRow}
    (h : (db.installationSubscriptions.map fun row =>
      (row.installationId, row.resourceId)).Nodup)
    (hnew : db.subscribesInstallation row.installationId row.resourceId =
      false) :
    ((db.installationSubscriptions ++ [row]).map fun row =>
      (row.installationId, row.resourceId)).Nodup := by
  apply nodup_concat h
  intro hmem
  rcases List.mem_map.mp hmem with ⟨other, hother, hsame⟩
  injection hsame with hdevice hid
  have hnone := List.any_eq_false.mp hnew other hother
  simp [hdevice, hid] at hnone

theorem RegistrySound.upsertSubscription {subject : SubscriptionSubject}
    {id : Uuid} {pinned : Option Generation} {retain : Bool}
    (h : RegistrySound db)
    (hnew : SoundSubscription db id pinned retain) :
    RegistrySound (db.upsertSubscription subject id pinned retain) := by
  unfold Db.upsertSubscription
  cases subject with
  | installation installation =>
      dsimp only
      split
      · refine h.resubscribe h.catalog.subscriptions ?_
          h.catalog.subscriptionKey ?_
        · intro row hrow
          rcases mem_updateWhere.mp hrow with ⟨old, hold, rfl⟩
          split
          · rename_i hmatches
            simp only [decide_eq_true_eq] at hmatches
            rw [hmatches.2]
            exact hnew
          · exact h.catalog.devices old hold
        · apply nodup_updateWhere h.catalog.deviceKey
          intro row
          rfl
      · rename_i hfresh
        refine h.resubscribe h.catalog.subscriptions ?_
          h.catalog.subscriptionKey ?_
        · intro row hrow
          rcases List.mem_append.mp hrow with hold | hlast
          · exact h.catalog.devices row hold
          · rw [List.mem_singleton.mp hlast]
            exact hnew
        · exact nodup_devices_insert h.catalog.deviceKey (by simpa using hfresh)
  | user user =>
      dsimp only
      split
      · refine h.resubscribe ?_ h.catalog.devices ?_ h.catalog.deviceKey
        · intro row hrow
          rcases mem_updateWhere.mp hrow with ⟨old, hold, rfl⟩
          split
          · rename_i hmatches
            simp only [decide_eq_true_eq] at hmatches
            rw [hmatches.2]
            exact hnew
          · exact h.catalog.subscriptions old hold
        · apply nodup_updateWhere h.catalog.subscriptionKey
          intro row
          rfl
      · rename_i hfresh
        refine h.resubscribe ?_ h.catalog.devices ?_ h.catalog.deviceKey
        · intro row hrow
          rcases List.mem_append.mp hrow with hold | hlast
          · exact h.catalog.subscriptions row hold
          · rw [List.mem_singleton.mp hlast]
            exact hnew
        · exact nodup_subscriptions_insert h.catalog.subscriptionKey
            (by simpa using hfresh)

/-- A subscription that exists stays as it is. -/
theorem insertSubscription_eq (subject : SubscriptionSubject) (id : Uuid) :
    db.insertSubscription subject id = db ∨
      db.insertSubscription subject id =
        db.upsertSubscription subject id none false := by
  unfold insertSubscription Db.upsertSubscription
  cases subject with
  | installation installation =>
      dsimp only
      split
      · exact .inl rfl
      · exact .inr rfl
  | user user =>
      dsimp only
      split
      · exact .inl rfl
      · exact .inr rfl

theorem RegistrySound.deleteSubscription {subject : SubscriptionSubject}
    {id : Uuid} (h : RegistrySound db) :
    RegistrySound (db.deleteSubscription subject id) := by
  unfold Db.deleteSubscription
  cases subject with
  | installation installation =>
      exact h.same ⟨rfl, rfl, rfl, rfl, rfl, .refl _, List.filter_sublist⟩ rfl
  | user user =>
      exact h.same ⟨rfl, rfl, rfl, rfl, rfl, List.filter_sublist, .refl _⟩ rfl

theorem RegistrySound.recordSubscription {subject : SubscriptionSubject}
    {row : SubscriptionOperationRow} (h : RegistrySound db)
    (hrecorded : db.recordSubscriptionOperation subject row = .ok db') :
    RegistrySound db' := by
  rcases bind_eq_ok.mp hrecorded with ⟨_, _, hrecorded⟩
  cases subject with
  | installation installation =>
      cases hrecorded
      exact h.same ⟨rfl, rfl, rfl, rfl, rfl, .refl _, .refl _⟩ rfl
  | user user =>
      cases hrecorded
      exact h.same ⟨rfl, rfl, rfl, rfl, rfl, .refl _, .refl _⟩ rfl

end Db

namespace Registry

/-- A pinned release exists. -/
theorem pinnedRelease_found {viewer : Viewer} {id : Uuid}
    {version : Option UInt64} {pinned : Option Generation}
    (h : pinnedRelease db viewer id version = .ok pinned)
    {release : Generation} (hpinned : pinned = some release) :
    (db.findRelease id release).isSome = true := by
  cases version with
  | none =>
      cases h
      cases hpinned
  | some version =>
      rcases bind_eq_ok.mp h with ⟨_, _, h⟩
      rcases bind_eq_ok.mp h with ⟨row, hrow, h⟩
      cases h
      cases hpinned
      have hfound := okOr_eq_ok.mp hrow
      have hmem := List.mem_of_find?_eq_some hfound
      have hmatches := List.find?_some hfound
      simp only [Bool.and_eq_true, decide_eq_true_eq] at hmatches
      unfold findRelease
      rw [List.find?_isSome]
      exact ⟨row, hmem, decide_eq_true ⟨hmatches.1.1, rfl⟩⟩

/-- Only what has a release is retained. -/
theorem checkSubscribable_retained {subject : SubscriptionSubject}
    {request : SubscriptionMutationRequest} {resource : ResourceRow}
    (hsound : SoundSkill db resource)
    (h : checkSubscribable db subject .subscribe request resource = .ok ())
    (hretain : request.retainOnDelete = true) :
    resource.latestReleaseVersion.isSome = true := by
  rcases bind_eq_ok.mp h with ⟨_, hopen, h⟩
  rcases bind_eq_ok.mp h with ⟨_, _, h⟩
  rcases bind_eq_ok.mp h with ⟨_, _, hoptions⟩
  simp only [ensure_eq_ok, hretain, Bool.or_true, Bool.not_true,
    Bool.or_false, reduceCtorEq, decide_false, Bool.false_or,
    Bool.or_eq_true, decide_eq_true_eq, Bool.not_eq_true',
    Bool.and_eq_true] at hopen hoptions
  rcases hopen with ⟨hlive, (hpublic | hshared) | hteam⟩
  · exact hsound.published hlive hpublic
  · rcases hoptions with hpublic | hunshared
    · exact hsound.published hlive hpublic
    · rw [hshared] at hunshared
      cases hunshared
  · unfold teamPrivate at hteam
    cases subject with
    | installation installation => cases hteam
    | user user =>
        simp only [Bool.and_eq_true] at hteam
        exact hteam.1.2

theorem changeSubscription_sound {subject : SubscriptionSubject}
    {kind : SubscriptionMutationKind} {request : SubscriptionMutationRequest}
    {outcome : SubscriptionMutationResponse} (h : RegistrySound db)
    (hchanged : changeSubscription subject kind request db =
      .ok (outcome, db')) : RegistrySound db' := by
  rcases bind_eq_ok.mp hchanged with ⟨resource, hresource, hchanged⟩
  rcases bind_eq_ok.mp hchanged with ⟨_, _, hchanged⟩
  rcases bind_eq_ok.mp hchanged with ⟨_, hcheck, hchanged⟩
  rcases bind_eq_ok.mp hchanged with ⟨pinned, hpinned, hchanged⟩
  rcases bind_eq_ok.mp hchanged with ⟨_, _, hchanged⟩
  rcases bind_eq_ok.mp hchanged with ⟨recorded, hrecorded, hchanged⟩
  cases hchanged
  refine RegistrySound.recordSubscription ?_ hrecorded
  cases kind with
  | unsubscribe => exact h.deleteSubscription
  | subscribe =>
      rcases Option.filter_eq_some_iff.mp (okOr_eq_ok.mp hresource) with
        ⟨hfound, hmatches⟩
      simp only [Bool.and_eq_true, decide_eq_true_eq] at hmatches
      have hsound := h.catalog.skills _ _ hfound hmatches.1
      apply h.upsertSubscription
      constructor
      · rw [hfound, Option.isSome_some]
      · intro _ _ _ version hversion
        exact pinnedRelease_found hpinned hversion
      · intro row hrow _ hretain
        rw [hfound] at hrow
        cases hrow
        exact checkSubscribable_retained hsound hcheck hretain

theorem mutateSubscription_sound {subject : SubscriptionSubject}
    {kind : SubscriptionMutationKind} {request : SubscriptionMutationRequest}
    {outcome : SubscriptionMutationResponse} (h : RegistrySound db)
    (hmutated : registry.mutateSubscription subject kind request db =
      .ok (outcome, db')) : RegistrySound db' := by
  rcases bind_eq_ok.mp hmutated with ⟨_, _, hmutated⟩
  split at hmutated
  · rcases bind_eq_ok.mp hmutated with ⟨_, _, hmutated⟩
    cases hmutated
    exact h
  · exact changeSubscription_sound h hmutated

/-- Nothing of a pack is pinned or retained. -/
theorem soundSubscription_pack {packId : Uuid}
    (hpack : (db.findResource packId).isSome = true) :
    SoundSubscription db packId none false where
  found := hpack
  pin := by
    intro _ _ _ version hversion
    cases hversion
  kept := by
    intro _ _ _ hretain
    cases hretain

theorem changePackSubscription_sound {subject : SubscriptionSubject}
    {kind : SubscriptionMutationKind} {request : ResourceLifecycleRequest}
    {outcome : PackSubscriptionResponse} (h : RegistrySound db)
    (hchanged : changePackSubscription subject kind request db =
      .ok (outcome, db')) : RegistrySound db' := by
  rcases bind_eq_ok.mp hchanged with ⟨⟨row, state⟩, hlocked, hchanged⟩
  rcases bind_eq_ok.mp hchanged with ⟨_, _, hchanged⟩
  rcases bind_eq_ok.mp hchanged with ⟨_, _, hchanged⟩
  rcases bind_eq_ok.mp hchanged with ⟨recorded, hrecorded, hchanged⟩
  cases hchanged
  refine RegistrySound.recordSubscription ?_ hrecorded
  cases kind with
  | unsubscribe => exact h.deleteSubscription
  | subscribe =>
      rcases Option.bind_eq_some_iff.mp (okOr_eq_ok.mp hlocked) with
        ⟨pack, hpack, _⟩
      have hfound := (Option.filter_eq_some_iff.mp hpack).1
      have hcases : _ ∨ db.insertSubscription subject request.resourceId = _ :=
        insertSubscription_eq subject request.resourceId
      rcases hcases with hsame | hnew
      · show RegistrySound (db.insertSubscription subject request.resourceId)
        rw [hsame]
        exact h
      · show RegistrySound (db.insertSubscription subject request.resourceId)
        rw [hnew]
        apply h.upsertSubscription
        apply soundSubscription_pack
        rw [hfound, Option.isSome_some]

theorem mutatePackSubscription_sound {subject : SubscriptionSubject}
    {kind : SubscriptionMutationKind} {request : ResourceLifecycleRequest}
    {outcome : PackSubscriptionResponse} (h : RegistrySound db)
    (hmutated : registry.mutatePackSubscription subject kind request db =
      .ok (outcome, db')) : RegistrySound db' := by
  rcases bind_eq_ok.mp hmutated with ⟨_, _, hmutated⟩
  split at hmutated
  · rcases bind_eq_ok.mp hmutated with ⟨_, _, hmutated⟩
    rcases bind_eq_ok.mp hmutated with ⟨_, _, hmutated⟩
    cases hmutated
    exact h
  · exact changePackSubscription_sound h hmutated

theorem mutateTeamPackAssignment_sound
    {kind : TeamPackAssignmentMutationKind}
    {request : TeamPackAssignmentRequest}
    {outcome : TeamPackAssignmentResponse} (h : RegistrySound db)
    (hmutated : registry.mutateTeamPackAssignment kind userId request db =
      .ok (outcome, db')) : RegistrySound db' := by
  rcases mutateTeamPackAssignment_eq_ok hmutated with ⟨_, _, rfl⟩
  exact h.same ⟨rfl, rfl, rfl, rfl, rfl, .refl _, .refl _⟩ rfl

end Registry
end Denju
