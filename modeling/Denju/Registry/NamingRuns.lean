import Denju.Registry.Operations
import Denju.Registry.PackChanges

/-!
# Names over runs

Which operations change what a resource is called, and what they leave at the
name that it takes.  An import and a rename delete the redirects of the new
name that their session may delete; a transfer and the creation of a pack
delete none.
-/

namespace Denju

open Lib

/-!
## Operations that keep the names
-/

namespace Service

variable {registry : Registry} {db db' : Db} {userId : Uuid}

theorem ensured_sameNames {resourceId user : Uuid} {start : Db}
    (hstart : start = db ∨
      start = db.ensurePrivateWorkspaceForUser resourceId user) :
    Db.SameNames db start := by
  rcases hstart with rfl | rfl
  · exact .refl _
  · unfold Db.ensurePrivateWorkspaceForUser
    repeat' split
    all_goals exact ⟨rfl, rfl, rfl, rfl⟩

theorem prepareImport_sameNames {newResourceId : Uuid}
    {fresh : BlobId -> Uuid} {request : PrivateSkillImportRequest}
    {answer : PrivateSkillImportPrepareResponse}
    (h : registry.preparePrivateSkillImport newResourceId fresh userId
      request db = .ok (answer, db')) : Db.SameNames db db' := by
  rcases Registry.preparePrivateSkillImport_eq_ok h with
    ⟨_, _, _, rfl | ⟨_, _, _, rfl⟩⟩
  · exact .refl _
  · exact ⟨rfl, rfl, rfl, rfl⟩

theorem prepare_sameNames {fresh : BlobId -> Uuid}
    {request : PrivateRevisionRequest}
    {answer : PrivateRevisionPrepareResponse}
    (h : registry.preparePrivateRevision fresh userId request db =
      .ok (answer, db')) : Db.SameNames db db' := by
  rcases Registry.preparePrivateRevision_eq_ok h with
    ⟨_, _, _, _, _, _, _, _, rfl | ⟨_, hstore⟩⟩
  · exact .refl _
  · rcases Registry.storePrivateRevision_eq_ok hstore with
      ⟨_, start, _, _, _, _, hstart, _, _, rfl⟩
    exact (ensured_sameNames hstart).trans ⟨rfl, rfl, rfl, rfl⟩

theorem publish_sameNames {newConflictId : Uuid}
    {request : PublishSkillRequest}
    {answer : Except ApiError PublishSkillResponse}
    (h : registry.publishSkill newConflictId userId request db =
      .ok (answer, db')) : Db.SameNames db db' := by
  rcases Registry.publishSkill_eq_ok h with rfl | ⟨_, _, _, hw⟩
  · exact .refl _
  · cases hw with
    | kept hdb' =>
        rw [hdb']
        exact .refl _
    | madePublic _ _ _ hdb' =>
        rw [hdb']
        exact ⟨rfl, rfl, Db.SameNames.updateWhere_named fun _ => rfl, rfl⟩
    | released _ _ _ _ _ _ hdb' =>
        rw [hdb']
        exact ⟨rfl, rfl, Db.SameNames.updateWhere_named fun _ => rfl, rfl⟩
    | raised _ _ _ _ hdb' _ =>
        rw [hdb']
        exact ⟨rfl, rfl, rfl, rfl⟩

theorem createProposal_sameNames {proposalId : Uuid}
    {request : ProposalCreateRequest} {outcome : SkillProposal}
    (h : registry.createProposal proposalId userId request db =
      .ok (outcome, db')) : Db.SameNames db db' := by
  rcases Registry.createProposal_eq_ok h with rfl | ⟨_, _, rfl, _⟩
  · exact .refl _
  · exact ⟨rfl, rfl, rfl, rfl⟩

theorem acceptProposal_sameNames {request : ProposalAcceptRequest}
    {outcome : SkillProposal}
    (h : registry.acceptProposal userId request db = .ok (outcome, db')) :
    Db.SameNames db db' := by
  rcases Registry.acceptProposal_eq_ok h with
    rfl | ⟨_, _, _, start, _, _, _, _, _, hstart, _, hw⟩
  · exact .refl _
  · rcases hw.tables with ⟨_, _, _, _, _, _, _, _, hattached, rfl⟩
    rcases Registry.attachProposalRevision_frame hattached with
      ⟨_, _, _, _, rfl⟩
    refine (ensured_sameNames hstart).trans ⟨rfl, rfl, ?_, rfl⟩
    dsimp only
    split
    · rfl
    · exact Db.SameNames.updateWhere_named fun _ => rfl

theorem writeRestore_sameNames {plan : PendingRestore}
    {outcome : PrivateRevisionResponse}
    (h : registry.writeRestore plan db = .ok (outcome, db')) :
    Db.SameNames db db' := by
  rcases Registry.writeRestore_eq_ok h with
    ⟨_, start, _, _, _, _, hstart, _, hw⟩
  rcases hw.tables with ⟨_, _, _, _, _, _, hstored, rfl⟩
  rcases Registry.storeRestored_frame hstored with ⟨_, _, _, _, _, rfl⟩
  refine (ensured_sameNames hstart).trans ⟨rfl, rfl, ?_, rfl⟩
  dsimp only
  split
  · rfl
  · exact Db.SameNames.updateWhere_named fun _ => rfl

theorem writeSave_sameNames {newConflictId : Uuid}
    {plan : PendingCommit registry.ext}
    {outcome : PrivateRevisionCommitResponse}
    (h : Registry.writePrivateRevision newConflictId plan db =
      .ok (outcome, db')) : Db.SameNames db db' := by
  rcases Registry.writePrivateRevision_eq_ok h with
    ⟨_, _, _, _, _, ⟨_, _, rfl⟩ | ⟨_, hw⟩⟩
  · exact .refl _
  · refine ⟨hw.savesOnly.directory, hw.redirects, ?_, by rw [hw.packStates]⟩
    rcases hw.resources with hsame | ⟨generation, hresources⟩
    · rw [hsame]
    · rw [hresources]
      exact Db.SameNames.updateWhere_named fun _ => rfl

theorem unpublish_sameNames {request : ResourceLifecycleRequest}
    {outcome : UnpublishSkillResponse}
    (h : registry.unpublishSkill userId request db = .ok (outcome, db')) :
    Db.SameNames db db' := by
  rcases Registry.unpublishSkill_eq_ok h with rfl | ⟨_, _, rfl⟩
  · exact .refl _
  · exact ⟨rfl, rfl, Db.SameNames.updateWhere_named fun _ => rfl, rfl⟩

theorem prune_sameNames {request : ResourceLifecycleRequest}
    {outcome : HistoryPruneResponse}
    (h : registry.pruneSkillHistory userId request db = .ok (outcome, db')) :
    Db.SameNames db db' := by
  rcases Registry.pruneSkillHistory_eq_ok h with rfl | ⟨_, _, _, hpruned⟩
  · exact .refl _
  · rcases hpruned.tables with ⟨_, _, _, _, _, _, _, _, _, _, _, rfl⟩
    exact ⟨rfl, rfl, Db.SameNames.updateWhere_named fun _ => rfl, rfl⟩

theorem deprecate_sameNames {request : DeprecateSkillRequest}
    {outcome : DeprecateSkillResponse}
    (h : registry.deprecateSkill userId request db = .ok (outcome, db')) :
    Db.SameNames db db' := by
  rcases Registry.deprecateSkill_eq_ok h with rfl | ⟨_, _, rfl⟩
  · exact .refl _
  · exact ⟨rfl, rfl, Db.SameNames.updateWhere_named fun _ => rfl, rfl⟩

theorem quarantine_sameNames {kind : AdminQuarantineMutationKind}
    {newQuarantineId operator : Uuid} {request : AdminQuarantineRequest}
    {outcome : AdminQuarantineResponse}
    (h : registry.mutateQuarantine kind newQuarantineId operator request db =
      .ok (outcome, db')) : Db.SameNames db db' := by
  rcases Registry.mutateQuarantine_eq_ok h with
    ⟨_, _, _, _, rfl | ⟨_, _, rfl⟩⟩
  · exact ⟨rfl, rfl, rfl, rfl⟩
  · exact ⟨rfl, rfl, Db.SameNames.updateWhere_named fun _ => rfl, rfl⟩

theorem subscribed_sameNames (h : Registry.Subscribed db db') :
    Db.SameNames db db' := by
  rcases h with ⟨_, _, _, _, rfl⟩
  exact ⟨rfl, rfl, rfl, rfl⟩

end Service

/-!
## Operations that change a name
-/

namespace Db

/-- A redirect of the name that the session may not delete. -/
def redirectStays (db : Db) (session : Session) (name : ResourceName) : Bool :=
  db.redirects.any fun row =>
    decide (row.name = name) && !db.canManage session row.targetResourceId

def redirectsName (db : Db) (name : ResourceName) : Bool :=
  db.redirects.any fun row => row.name = name

/-- A transfer is recorded already, or its name has no redirect in the new
namespace. -/
def transferClears (db : Db) (kind : ResourceKind) (userId : Uuid)
    (request : ResourceTransferRequest) : Bool :=
  (findOperation db.transferOperations userId request.operationId).isSome ||
    match db.directory.namespaceBySlug request.destinationTeam,
      db.findResource request.resourceId with
    | some space, some row => decide (row.kind ≠ kind) ||
        !db.redirectsName (space.id, kind, row.slug)
    | _, _ => true

def createPackClears (db : Db) (userId : Uuid) (request : PackCreateRequest) :
    Bool :=
  (findOperation db.packOperations userId request.operationId).isSome ||
    match db.directory.namespaceBySlug request.owner with
    | some space => !db.redirectsName (space.id, .pack, request.name)
    | none => true

def renamePackClears (db : Db) (userId : Uuid) (request : PackRenameRequest) :
    Bool :=
  match db.findResource request.resourceId with
  | some row => !db.redirectStays (.actor userId)
      (row.ownerNamespaceId, .pack, request.newName)
  | none => true

variable {db db' : Db} {session : Session} {namespaceId : Uuid} {slug : Text}
  {row : RedirectRow}

theorem redirectStays_worker (name : ResourceName) :
    db.redirectStays .worker name = false := by
  simp [redirectStays, canManage]

theorem name_ne_of_redirectsName {name : ResourceName}
    (h : db.redirectsName name = false) (hrow : row ∈ db.redirects) :
    row.name ≠ name := by
  simp only [redirectsName, List.any_eq_false, decide_eq_true_eq] at h
  exact h row hrow

theorem deleteRedirect_clears
    (h : db.redirectStays session (namespaceId, .skill, slug) = false)
    (hrow : row ∈ (db.deleteRedirect session namespaceId slug).redirects) :
    row.name ≠ (namespaceId, .skill, slug) := by
  rcases mem_deleteWhere.mp hrow with ⟨hold, hkept⟩
  intro hname
  have hname' := hname
  injection hname' with hnamespace hrest
  injection hrest with hkind hslug
  have hstays := List.any_eq_false.mp h row hold
  simp only [hname, decide_true, Bool.true_and, Bool.not_eq_true',
    Bool.not_eq_false] at hstays
  simp [redirectAt, hnamespace, hkind, hslug, hstays] at hkept

theorem deletePackRedirect_clears
    (h : db.redirectStays session (namespaceId, .pack, slug) = false)
    (hrow : row ∈ (db.deletePackRedirect session namespaceId slug).redirects) :
    row.name ≠ (namespaceId, .pack, slug) := by
  rcases mem_deleteWhere.mp hrow with ⟨hold, hkept⟩
  intro hname
  have hname' := hname
  injection hname' with hnamespace hrest
  injection hrest with hkind hslug
  have hstays := List.any_eq_false.mp h row hold
  simp only [hname, decide_true, Bool.true_and, Bool.not_eq_true',
    Bool.not_eq_false] at hstays
  simp [packRedirectAt, hnamespace, hkind, hslug, hstays] at hkept

theorem free_of_slugTaken (h : db.slugTaken namespaceId slug = false)
    (other : Uuid) : ¬db.names.holds other (namespaceId, .skill, slug) := by
  rintro ⟨row, hrow, _, hlive, hname⟩
  injection hname with hnamespace hrest
  injection hrest with hkind hslug
  have hfree := List.any_eq_false.mp h row hrow
  simp [hnamespace, hkind, hslug, hlive] at hfree

theorem free_of_packTaken (h : Registry.packTaken db namespaceId slug = false)
    (other : Uuid) : ¬db.names.holds other (namespaceId, .pack, slug) := by
  rintro ⟨row, hrow, _, hlive, hname⟩
  injection hname with hnamespace hrest
  injection hrest with hkind hslug
  have hfree := List.any_eq_false.mp h row hrow
  simp [hnamespace, hkind, hslug, hlive] at hfree

theorem free_of_slugTakenByOther {item : Uuid}
    (h : db.slugTakenByOther namespaceId item slug = false) {other : Uuid}
    (hother : other ≠ item) :
    ¬db.names.holds other (namespaceId, .skill, slug) := by
  rintro ⟨row, hrow, hid, hlive, hname⟩
  injection hname with hnamespace hrest
  injection hrest with hkind hslug
  have hfree := List.any_eq_false.mp h row hrow
  simp [hnamespace, hkind, hslug, hlive, hid, hother] at hfree

theorem free_of_packTakenByOther {item : Uuid}
    (h : db.packTakenByOther namespaceId item slug = false) {other : Uuid}
    (hother : other ≠ item) :
    ¬db.names.holds other (namespaceId, .pack, slug) := by
  rintro ⟨row, hrow, hid, hlive, hname⟩
  injection hname with hnamespace hrest
  injection hrest with hkind hslug
  have hfree := List.any_eq_false.mp h row hrow
  simp [hnamespace, hkind, hslug, hlive, hid, hother] at hfree

theorem Located.ownerOf (hl : Located db) {id : Uuid} {row : ResourceRow}
    (h : db.findResource id = some row) :
    exists space, space ∈ db.directory.namespaces ∧
      space.id = row.ownerNamespaceId :=
  hl.owned row (List.mem_of_find?_eq_some h)

end Db

/-- The namespace of a team is nobody's personal one. -/
theorem Directory.team_ne_personal {directory : Directory} {userId : Uuid}
    {authority : UserAuthority} {space : Namespace}
    (hauthority : directory.userAuthority userId = .ok authority)
    (hspace : space ∈ directory.namespaces) (hteam : space.kind = .team) :
    space.id ≠ authority.namespaceId := by
  rcases Directory.userAuthority_eq_ok hauthority with
    ⟨user, huser, _, _, hpersonal, _⟩
  rcases directory.usersPersonal user huser with
    ⟨home, hhome, hhomeId, hhomeKind⟩
  intro hsame
  have hrow := List.inj_on_of_nodup_map directory.namespaceKey hspace hhome
    (hsame.trans (hpersonal.trans hhomeId.symm))
  rw [hrow, hhomeKind] at hteam
  cases hteam

namespace Registry

variable {registry : Registry} {db db' : Db}

open Db

theorem writeImport_renames {plan : PendingImport registry.ext}
    {outcome : PrivateSkillImportResponse} (hl : Located db)
    (h : writePrivateSkillImport plan db = .ok (outcome, db')) :
    Renames (db.redirectStays (.actor plan.authority.userId)
      (plan.operation.namespaceId, .skill, plan.operation.slug) = false)
      db db' := by
  rcases writePrivateSkillImport_eq_ok h with rfl | ⟨locked, _, hw⟩
  · exact (SameNames.refl _).renames hl
  · rcases hw.named with ⟨row, hresources, hid, hkind, howner, hslug⟩
    have hname : row.name =
        (plan.operation.namespaceId, .skill, plan.operation.slug) := by
      unfold ResourceRow.name
      rw [howner, hkind, hslug]
    refine renames_of_insert hl hw.savesOnly.directory ?_ hresources ?_ ?_ ?_
      ?_ ?_ ?_
    · intro id hid'
      rw [hw.packStates]
      exact hid'
    · rw [hid]
      exact hw.fresh
    · rw [howner]
      exact hw.owner
    · intro hpack
      rw [hkind] at hpack
      cases hpack
    · rw [hname]
      exact free_of_slugTaken hw.unused
    · intro redirect hredirect
      exact (mem_deleteWhere.mp (hw.redirects redirect hredirect)).1
    · intro hclears redirect hredirect
      rw [hname]
      exact deleteRedirect_clears hclears (hw.redirects redirect hredirect)

/-- A skill that moves to a new name, its old one redirecting to it. -/
theorem skillRename_renames {session : Session} {resourceId namespaceId : Uuid}
    {oldName newName : Text} {resource : ResourceRow}
    {f : ResourceRow -> ResourceRow} (hl : Located db)
    (hrewrites : Rewrites resourceId f db db')
    (hmoves : forall row, (f row).name =
      (row.ownerNamespaceId, row.kind, newName))
    (hkeeps : forall row, (f row).deleted = row.deleted ∧
      (f row).ownerNamespaceId = row.ownerNamespaceId)
    (hfound : db.findResource resourceId = some resource)
    (hkind : resource.kind = .skill) (hlive : resource.deleted = false)
    (howner : resource.ownerNamespaceId = namespaceId)
    (hcurrent : resource.slug = oldName) (hchanged : oldName ≠ newName)
    (hunused : db.slugTakenByOther namespaceId resourceId newName = false)
    (hredirected : Redirected .skill namespaceId oldName resourceId
      (db.deleteRedirect session namespaceId newName).redirects
      db'.redirects) :
    Renames (db.redirectStays session (namespaceId, .skill, newName) = false)
      db db' := by
  have hnew : (f resource).name = (namespaceId, .skill, newName) := by
    rw [hmoves, howner, hkind]
  have hold : resource.name = (namespaceId, .skill, oldName) := by
    unfold ResourceRow.name
    rw [howner, hkind, hcurrent]
  have hdistinct : (f resource).name ≠ resource.name := by
    rw [hnew, hold]
    intro hsame
    injection hsame with _ hrest
    injection hrest with _ hslug
    exact hchanged hslug.symm
  refine hrewrites.renames hl hfound ?_ ?_ ?_ ?_ ?_
  · rw [(hkeeps resource).2]
    exact hl.ownerOf hfound
  · intro _ other hother
    rw [hnew]
    exact free_of_slugTakenByOther hunused hother
  · intro redirect hredirect
    rcases hredirected redirect hredirect with hkept | rfl
    · exact .inl (mem_deleteWhere.mp hkept).1
    · exact .inr ⟨rfl, hold.symm, hlive, .inr hdistinct⟩
  · intro hclears _ _ redirect hredirect
    rw [hnew]
    rcases hredirected redirect hredirect with hkept | rfl
    · exact deleteRedirect_clears hclears hkept
    · intro hsame
      exact hdistinct (hnew.trans (hsame.symm.trans hold.symm))
  · intro hdeleted
    rw [hlive] at hdeleted
    cases hdeleted

theorem writePersonalRename_renames {plan : PendingRename registry.ext}
    {outcome : RenameSkillResponse} (hl : Located db)
    (hchanged : plan.currentName ≠ plan.request.newName)
    (h : writePersonalRename plan db = .ok (outcome, db')) :
    Renames (db.redirectStays (.actor plan.authority.userId)
      (plan.authority.namespaceId, .skill, plan.request.newName) = false)
      db db' := by
  rcases writePersonalRename_eq_ok h with ⟨resource, hfound, hw⟩
  rcases hw.tables with
    ⟨_, generation, version, _, _, _, _, hstored, _, _, _, hdb'⟩
  rcases storeRenamed_frame hstored with ⟨_, _, _, _, _, _, _, _, _, hframe⟩
  refine skillRename_renames (f := fun row =>
      { row with
        slug := plan.request.newName
        metadata := plan.renamed.content.metadata
        generation
        latestReleaseVersion := version.or resource.latestReleaseVersion })
    hl ?_ (fun _ => rfl) (fun _ => ⟨rfl, rfl⟩) hfound.found hfound.skill
    hfound.live hfound.owned hfound.current hchanged hfound.unused
    hw.redirected
  rw [hdb', hframe]
  exact ⟨rfl, rfl, rfl, fun _ => rfl, fun _ => rfl⟩

theorem writeTeamRename_renames {plan : PendingTeamRename}
    {outcome : RenameSkillResponse} (hl : Located db)
    (hchanged : plan.source.name ≠ plan.request.newName)
    (h : writeTeamRename registry plan db = .ok (outcome, db')) :
    Renames (db.redirectStays .worker
      (plan.source.ownerNamespaceId, .skill, plan.request.newName) = false)
      db db' := by
  rcases writeTeamRename_eq_ok h with ⟨hfound, hw⟩
  rcases hfound.current with
    ⟨resource, hresource, hkind, hlive, howner, hcurrent⟩
  rcases hw.tables with
    ⟨_, _, _, generation, version, _, _, _, _, hstored, hmoved, _, _, _, hdb'⟩
  rcases persistContents_frame hstored with
    ⟨_, _, _, _, _, _, _, _, _, _, hstoredFrame⟩
  rcases moveTeamWorkspaces_frame hmoved with ⟨_, hmovedFrame, _⟩
  dsimp only at hstoredFrame
  refine skillRename_renames (f := fun row =>
      { row with
        slug := plan.request.newName
        metadata := row.metadata
        generation
        latestReleaseVersion :=
          version.or plan.source.latestReleaseVersion })
    hl ?_ (fun _ => rfl) (fun _ => ⟨rfl, rfl⟩) hresource hkind hlive howner
    hcurrent hchanged hfound.unused hw.redirected
  rw [hdb', hmovedFrame, hstoredFrame]
  exact ⟨rfl, rfl, rfl, fun _ => rfl, fun _ => rfl⟩

/-- A resource that moves to a team, its old name redirecting to it. -/
theorem transfer_renames {userId resourceId : Uuid}
    {authority : UserAuthority} {kind : ResourceKind} {resource : ResourceRow}
    {space : Namespace} {f : ResourceRow -> ResourceRow} (hl : Located db)
    (hauthority : db.directory.userAuthority userId = .ok authority)
    (hrewrites : Rewrites resourceId f db db')
    (hmoves : forall row, (f row).name = (space.id, row.kind, row.slug))
    (hkeeps : forall row, (f row).deleted = row.deleted ∧
      (f row).ownerNamespaceId = space.id)
    (hfound : db.findResource resourceId = some resource)
    (hkind : resource.kind = kind) (hlive : resource.deleted = false)
    (howner : resource.ownerNamespaceId = authority.namespaceId)
    (hspace : space ∈ db.directory.namespaces) (hteam : space.kind = .team)
    (hunused : forall other,
      ¬db.names.holds other (space.id, kind, resource.slug))
    (hredirected : Redirected kind authority.namespaceId resource.slug
      resourceId db.redirects db'.redirects) :
    Renames (db.redirectsName (space.id, kind, resource.slug) = false)
      db db' := by
  have hnew : (f resource).name = (space.id, kind, resource.slug) := by
    rw [hmoves, hkind]
  have hold : resource.name =
      (authority.namespaceId, kind, resource.slug) := by
    unfold ResourceRow.name
    rw [howner, hkind]
  have hdistinct : (f resource).name ≠ resource.name := by
    rw [hnew, hold]
    intro hsame
    injection hsame with hnamespace _
    exact Directory.team_ne_personal hauthority hspace hteam hnamespace
  refine hrewrites.renames hl hfound ?_ ?_ ?_ ?_ ?_
  · rw [(hkeeps resource).2]
    exact ⟨space, hspace, rfl⟩
  · intro _ other _
    rw [hnew]
    exact hunused other
  · intro redirect hredirect
    rcases hredirected redirect hredirect with hkept | rfl
    · exact .inl hkept
    · exact .inr ⟨rfl, hold.symm, hlive, .inr hdistinct⟩
  · intro hclears _ _ redirect hredirect
    rw [hnew]
    rcases hredirected redirect hredirect with hkept | rfl
    · exact name_ne_of_redirectsName hclears hkept
    · intro hsame
      exact hdistinct (hnew.trans (hsame.symm.trans hold.symm))
  · intro hdeleted
    rw [hlive] at hdeleted
    cases hdeleted

theorem transferResource_renames {userId : Uuid}
    {request : ResourceTransferRequest} {outcome : ResourceTransferResponse}
    (hl : Located db)
    (h : registry.transferResource userId request db = .ok (outcome, db')) :
    Renames (db.transferClears .skill userId request = true) db db' := by
  rcases transferResource_eq_ok h with
    rfl | ⟨authority, hauthority, hunrecorded, hmoved⟩
  · exact (SameNames.refl _).renames hl
  · rcases hmoved.moved with
      ⟨resource, space, hfound, hkind, hlive, howner, hspace, hteam, hunused,
        hredirected, generation, hresources⟩
    rcases hmoved.resource with
      ⟨_, _, _, _, _, _, _, _, _, _, _, _, _, _, _, hdb'⟩
    have hrename := transfer_renames (f := fun row =>
        { row with ownerNamespaceId := space.id, generation })
      hl hauthority ⟨by rw [hdb']; rfl, by rw [hdb']; rfl, hresources,
        fun _ => rfl, fun _ => rfl⟩ (fun _ => rfl) (fun _ => ⟨rfl, rfl⟩) hfound
      hkind hlive howner (List.mem_of_find?_eq_some hspace) hteam
      (free_of_slugTaken hunused) hredirected
    refine hrename.mono fun hclears => ?_
    rcases Directory.userAuthority_eq_ok hauthority with ⟨_, _, _, huser, _⟩
    rw [huser] at hunrecorded
    simpa [transferClears, hunrecorded, hspace, hfound, hkind] using hclears

theorem transferPack_renames {userId : Uuid}
    {request : ResourceTransferRequest} {outcome : ResourceTransferResponse}
    (hl : Located db)
    (h : registry.transferPack userId request db = .ok (outcome, db')) :
    Renames (db.transferClears .pack userId request = true) db db' := by
  rcases transferPack_eq_ok h with
    rfl | ⟨authority, row, space, hauthority, hunrecorded, hmoved⟩
  · exact (SameNames.refl _).renames hl
  · rcases hmoved.tables with
      ⟨redirects, _, _, generation, hredirected, hdb'⟩
    rw [hmoved.owned] at hredirected
    have hrewrites : Rewrites request.resourceId (fun row =>
        { row with ownerNamespaceId := space.id, generation }) db db' := by
      rw [hdb']
      exact ⟨rfl, rfl, rfl, fun _ => rfl, fun _ => rfl⟩
    have hredirects : db'.redirects = redirects := by
      rw [hdb']
      rfl
    rw [← hredirects] at hredirected
    have hrename := transfer_renames hl hauthority hrewrites (fun _ => rfl)
      (fun _ => ⟨rfl, rfl⟩) hmoved.found hmoved.kind hmoved.live hmoved.owned
      (List.mem_of_find?_eq_some hmoved.destination) hmoved.team
      (free_of_packTaken hmoved.unused) hredirected
    refine hrename.mono fun hclears => ?_
    rcases Directory.userAuthority_eq_ok hauthority with ⟨_, _, _, huser, _⟩
    rw [huser] at hunrecorded
    simpa [transferClears, hunrecorded, hmoved.destination, hmoved.found,
      hmoved.kind] using hclears

theorem createPack_renames {newResourceId userId : Uuid}
    {request : PackCreateRequest} {outcome : PackSummary} (hl : Located db)
    (h : registry.createPack newResourceId userId request db =
      .ok (outcome, db')) :
    Renames (db.createPackClears userId request = true) db db' := by
  rcases createPack_eq_ok h with
    rfl | ⟨authority, space, hauthority, hunrecorded, hspace, hmem, hcreated⟩
  · exact (SameNames.refl _).renames hl
  · rcases hcreated.tables with
      ⟨operations, row, hid, hkind, howner, hslug, hdb'⟩
    have hname : row.name = (space.id, .pack, request.name) := by
      unfold ResourceRow.name
      rw [howner, hkind, hslug]
    have hresources : db'.resources = db.resources ++ [row] := by
      rw [hdb']
    have hredirects : db'.redirects = db.redirects := by
      rw [hdb']
    refine renames_of_insert hl (by rw [hdb']) ?_ hresources ?_ ?_ ?_ ?_ ?_ ?_
    · intro id hstate
      rw [hdb']
      simp [hstate]
    · rw [hid]
      exact hcreated.fresh
    · rw [howner]
      exact ⟨space, hmem, rfl⟩
    · intro _
      rw [hdb', hid]
      simp
    · rw [hname]
      exact free_of_packTaken hcreated.unused
    · intro redirect hredirect
      rw [hredirects] at hredirect
      exact hredirect
    · intro hclears redirect hredirect
      rw [hredirects] at hredirect
      rw [hname]
      refine name_ne_of_redirectsName ?_ hredirect
      rcases Directory.userAuthority_eq_ok hauthority with
        ⟨_, _, _, huser, _⟩
      rw [huser] at hunrecorded
      simpa [createPackClears, hunrecorded, hspace] using hclears

theorem renamePack_renames {userId : Uuid} {request : PackRenameRequest}
    {answer : Except ApiError PackLifecycleResponse} (hl : Located db)
    (h : registry.renamePack userId request db = .ok (answer, db')) :
    Renames (db.renamePackClears userId request = true) db db' := by
  rcases renamePack_eq_ok h with
    hcaught | ⟨authority, row, hauthority, hfound, hkind, hlive, hrenamed⟩
  · exact hcaught.sameNames.renames hl
  · rcases hrenamed.tables with
      ⟨redirects, operations, generation, hredirected, hdb'⟩
    have hrewrites : Rewrites request.resourceId (fun row =>
        { row with slug := request.newName, generation }) db db' := by
      rw [hdb']
      exact ⟨rfl, rfl, rfl, fun _ => rfl, fun _ => rfl⟩
    have hredirects : db'.redirects = redirects := by
      rw [hdb']
      rfl
    have hold : row.name = (row.ownerNamespaceId, .pack, row.slug) := by
      unfold ResourceRow.name
      rw [hkind]
    have hnew : ({ row with slug := request.newName, generation } :
        ResourceRow).name = (row.ownerNamespaceId, .pack, request.newName) := by
      unfold ResourceRow.name
      rw [hkind]
    have hdistinct : ({ row with slug := request.newName, generation } :
        ResourceRow).name ≠ row.name := by
      rw [hnew, hold]
      intro hsame
      injection hsame with _ hrest
      injection hrest with _ hslug
      exact hrenamed.changed hslug.symm
    have howner := hl.ownerOf hfound
    refine hrewrites.renames hl hfound howner ?_ ?_ ?_ ?_
    · intro _ other hother
      rw [hnew]
      exact free_of_packTakenByOther hrenamed.unused hother
    · intro redirect hredirect
      rw [hredirects] at hredirect
      rcases hredirected redirect hredirect with hkept | rfl
      · exact .inl (mem_deleteWhere.mp hkept).1
      · exact .inr ⟨rfl, hold.symm, hlive, .inr hdistinct⟩
    · intro hclears _ _ redirect hredirect
      rw [hredirects] at hredirect
      rw [hnew]
      rcases Directory.userAuthority_eq_ok hauthority with
        ⟨_, _, _, huser, _⟩
      rcases hredirected redirect hredirect with hkept | rfl
      · refine deletePackRedirect_clears ?_ hkept
        rw [huser]
        simpa [renamePackClears, hfound] using hclears
      · intro hsame
        exact hdistinct (hnew.trans (hsame.symm.trans hold.symm))
    · intro hdeleted
      rw [hlive] at hdeleted
      cases hdeleted

/-- The row of a resource that is deleted. -/
def deletedRow (generation : Generation) (owner : Text) (row : ResourceRow) :
    ResourceRow :=
  { row with
    visibility := .priv
    generation
    deleted := true
    tombstoneReleaseVersion := row.latestReleaseVersion
    deletedOwnerSlug := some owner }

/-- A deleted resource gives its name up. -/
theorem delete_renames {resourceId : Uuid} {generation : Generation}
    {owner : Text} {resource : ResourceRow} {clears : Prop} (hl : Located db)
    (hrewrites : Rewrites resourceId (deletedRow generation owner) db db')
    (hfound : db.findResource resourceId = some resource)
    (hredirects : forall row, row ∈ db'.redirects -> row ∈ db.redirects) :
    Renames clears db db' := by
  have howner := hl.ownerOf hfound
  refine hrewrites.renames hl hfound howner ?_ ?_ ?_ ?_
  · intro hlive
    cases hlive
  · intro redirect hredirect
    exact .inl (hredirects redirect hredirect)
  · intro _ hlive
    cases hlive
  · intro _
    rfl

theorem deleteSkill_renames {userId : Uuid}
    {request : ResourceLifecycleRequest} {outcome : DeleteSkillResponse}
    {clears : Prop} (hl : Located db)
    (h : registry.deleteSkill userId request db = .ok (outcome, db')) :
    Renames clears db db' := by
  rcases deleteSkill_eq_ok h with rfl | ⟨resource, hdeleted⟩
  · exact (SameNames.refl _).renames hl
  · rcases hdeleted.tables with
      ⟨redirects, _, generation, owner, hredirects, hdb'⟩
    have hrewrites : Rewrites request.resourceId
        (deletedRow generation owner) db db' := by
      rw [hdb']
      exact ⟨rfl, rfl, rfl, fun _ => rfl, fun _ => rfl⟩
    refine delete_renames hl hrewrites hdeleted.found ?_
    rw [hdb']
    exact hredirects

theorem deletePack_renames {userId : Uuid}
    {request : ResourceLifecycleRequest}
    {answer : Except ApiError PackLifecycleResponse} {clears : Prop}
    (hl : Located db)
    (h : registry.deletePack userId request db = .ok (answer, db')) :
    Renames clears db db' := by
  rcases deletePack_eq_ok h with hcaught | ⟨resource, hfound, _, _, hdeleted⟩
  · exact hcaught.sameNames.renames hl
  · rcases hdeleted with
      ⟨redirects, _, _, _, _, generation, owner, hredirects, _, _, _, hdb'⟩
    have hrewrites : Rewrites request.resourceId
        (deletedRow generation owner) db db' := by
      rw [hdb']
      exact ⟨rfl, rfl, rfl, fun _ => rfl, fun _ => rfl⟩
    refine delete_renames hl hrewrites hfound ?_
    rw [hdb']
    exact hredirects

/-- The plan of a rename gives the skill another name. -/
def RenamePlan.Moves {ext : Externals} : RenamePlan ext -> Prop
  | .personal plan => plan.currentName ≠ plan.request.newName
  | .team plan => plan.source.name ≠ plan.request.newName

theorem readRename_moves {store : ObjectStore} {userId : Uuid}
    {request : RenameSkillRequest} {plan : RenamePlan registry.ext}
    (h : registry.readRename store userId request db = .ok (.inr plan)) :
    plan.Moves := by
  rcases bind_eq_ok.mp h with ⟨authority, _, h⟩
  rcases bind_eq_ok.mp h with ⟨_, _, h⟩
  rcases bind_eq_ok.mp h with ⟨_, _, h⟩
  rcases bind_eq_ok.mp h with ⟨replay, _, h⟩
  split at h
  · cases h
  · rcases bind_eq_ok.mp h with ⟨read, hread, h⟩
    cases h
    rcases bind_eq_ok.mp hread with ⟨resource, _, hread⟩
    split at hread
    · rcases bind_eq_ok.mp hread with ⟨team, hteam, hread⟩
      cases hread
      rcases bind_eq_ok.mp hteam with ⟨target, _, hteam⟩
      rcases bind_eq_ok.mp hteam with ⟨_, _, hteam⟩
      rcases bind_eq_ok.mp hteam with ⟨source, _, hteam⟩
      rcases bind_eq_ok.mp hteam with ⟨_, _, hteam⟩
      rcases bind_eq_ok.mp hteam with ⟨_, _, hteam⟩
      rcases bind_eq_ok.mp hteam with ⟨_, _, hteam⟩
      rcases bind_eq_ok.mp hteam with ⟨_, hchanged, hteam⟩
      rcases bind_eq_ok.mp hteam with ⟨_, _, hteam⟩
      rcases bind_eq_ok.mp hteam with ⟨renamed, _, hteam⟩
      rcases bind_eq_ok.mp hteam with ⟨release, _, hteam⟩
      rcases bind_eq_ok.mp hteam with ⟨actor, _, hteam⟩
      cases hteam
      simpa [RenamePlan.Moves] using hchanged
    · rcases bind_eq_ok.mp hread with ⟨personal, hpersonal, hread⟩
      cases hread
      rcases bind_eq_ok.mp hpersonal with ⟨⟨row, owner, head⟩, _, hpersonal⟩
      rcases bind_eq_ok.mp hpersonal with ⟨_, _, hpersonal⟩
      rcases bind_eq_ok.mp hpersonal with ⟨_, _, hpersonal⟩
      rcases bind_eq_ok.mp hpersonal with ⟨_, _, hpersonal⟩
      rcases bind_eq_ok.mp hpersonal with ⟨_, hchanged, hpersonal⟩
      rcases bind_eq_ok.mp hpersonal with ⟨entries, _, hpersonal⟩
      rcases bind_eq_ok.mp hpersonal with ⟨renamed, _, hpersonal⟩
      rcases bind_eq_ok.mp hpersonal with ⟨trees, _, hpersonal⟩
      cases hpersonal
      simpa [RenamePlan.Moves] using hchanged

end Registry

/-!
## One operation
-/

/-- The last transaction of a call leaves no redirect at the name it gives. -/
def Plan.clearsName {ext : Externals} (db : Db) : Plan ext -> Bool
  | .importing plan =>
      !db.redirectStays (.actor plan.authority.userId)
        (plan.operation.namespaceId, .skill, plan.operation.slug)
  | .rename (.personal plan) =>
      !db.redirectStays (.actor plan.authority.userId)
        (plan.authority.namespaceId, .skill, plan.request.newName)
  | _ => true

def Plan.Moves {ext : Externals} : Plan ext -> Prop
  | .rename plan => plan.Moves
  | _ => True

namespace Service

variable {registry : Registry} {service : Service registry}

/-- The change leaves no redirect at the name it gives. -/
def clearsName (service : Service registry) : Mutation -> Bool
  | .activity (.call (.write index _)) =>
      (service.plans[index]?).all (Plan.clearsName service.db)
  | .activity (.transfer userId request) =>
      service.db.transferClears .skill userId request
  | .transferPack userId request =>
      service.db.transferClears .pack userId request
  | .createPack _ userId request => service.db.createPackClears userId request
  | .renamePack userId request => service.db.renamePackClears userId request
  | _ => true

theorem settle_renames {α : Type} {clears : Prop}
    {result : Except ApiError (α × Db)} (hl : service.db.Located)
    (h : forall value db, result = .ok (value, db) ->
      Db.Renames clears service.db db) :
    Db.Renames clears service.db (service.settle result).db :=
  settle_of (P := fun next => Db.Renames clears service.db next.db)
    ((Db.SameNames.refl _).renames hl) h

theorem await_renames {α β : Type} {clears : Prop}
    {plan : β -> Plan registry.ext} {result : Except ApiError (α ⊕ β)}
    (hl : service.db.Located) :
    Db.Renames clears service.db (service.await plan result).db :=
  await_of (P := fun next => Db.Renames clears service.db next.db)
    ((Db.SameNames.refl _).renames hl)
    fun _ _ => (Db.SameNames.refl _).renames hl

theorem writePlan_renames (newConflictId : Uuid) {plan : Plan registry.ext}
    (hl : service.db.Located) (hmoves : plan.Moves) :
    Db.Renames (plan.clearsName service.db = true) service.db
      (service.writePlan newConflictId plan).db := by
  cases plan with
  | importing plan =>
      refine settle_renames hl fun _ _ h => ?_
      exact (Registry.writeImport_renames hl h).mono fun hclears => by
        simpa [Plan.clearsName] using hclears
  | save plan =>
      exact settle_renames hl fun _ _ h => (writeSave_sameNames h).renames hl
  | restore plan =>
      exact settle_renames hl fun _ _ h =>
        (writeRestore_sameNames h).renames hl
  | rename plan =>
      refine settle_renames hl fun _ _ h => ?_
      cases plan with
      | personal plan =>
          have hrenamed := Registry.writePersonalRename_renames hl hmoves h
          exact hrenamed.mono fun hclears => by
            simpa [Plan.clearsName] using hclears
      | team plan =>
          have hrenamed := Registry.writeTeamRename_renames hl hmoves h
          exact hrenamed.mono fun _ => Db.redirectStays_worker _

theorem serve_renames (call : ServiceCall) (hl : service.db.Located)
    (hmoves : forall plan, plan ∈ service.plans -> plan.Moves) :
    Db.Renames (service.clearsName (.activity (.call call)) = true) service.db
      (service.serve call).db := by
  cases call with
  | prepareImport =>
      exact settle_renames hl fun _ _ h =>
        (prepareImport_sameNames h).renames hl
  | commitImport => exact await_renames hl
  | prepare =>
      exact settle_renames hl fun _ _ h => (prepare_sameNames h).renames hl
  | commit => exact await_renames hl
  | publish =>
      exact settle_renames hl fun _ _ h => (publish_sameNames h).renames hl
  | restore => exact await_renames hl
  | rename => exact await_renames hl
  | createProposal =>
      exact settle_renames hl fun _ _ h =>
        (createProposal_sameNames h).renames hl
  | acceptProposal =>
      exact settle_renames hl fun _ _ h =>
        (acceptProposal_sameNames h).renames hl
  | write index newConflictId =>
      refine writeAt_of (P := fun next => Db.Renames _ service.db next.db)
        ((Db.SameNames.refl _).renames hl) ?_
      intro plan hplan
      have hwritten := @writePlan_renames _
        { service with plans := service.plans.eraseIdx index }
        newConflictId plan hl (hmoves plan (List.mem_of_getElem? hplan))
      exact hwritten.mono fun hclears => by
        simpa [clearsName, hplan] using hclears

theorem mutate_renames (mutation : Mutation) (hl : service.db.Located)
    (hmoves : forall plan, plan ∈ service.plans -> plan.Moves) :
    Db.Renames (service.clearsName mutation = true) service.db
      (service.mutate mutation).db := by
  cases mutation with
  | activity activity =>
      cases activity with
      | call call => exact serve_renames call hl hmoves
      | unpublish =>
          exact settle_renames hl fun _ _ h =>
            (unpublish_sameNames h).renames hl
      | prune =>
          exact settle_renames hl fun _ _ h => (prune_sameNames h).renames hl
      | transfer =>
          exact settle_renames hl fun _ _ h =>
            Registry.transferResource_renames hl h
      | collect =>
          refine settle_renames hl fun _ _ h => ?_
          rcases Registry.drainBlobGc_eq_ok h with ⟨_, _, rfl, _⟩
          exact Db.SameNames.renames ⟨rfl, rfl, rfl, rfl⟩ hl
  | deleteSkill =>
      exact settle_renames hl fun _ _ h => Registry.deleteSkill_renames hl h
  | deprecateSkill =>
      exact settle_renames hl fun _ _ h => (deprecate_sameNames h).renames hl
  | share =>
      refine settle_renames hl fun _ _ h => ?_
      rcases Registry.mutatePrivateShare_eq_ok h with ⟨_, _, _, _, rfl⟩
      exact Db.SameNames.renames ⟨rfl, rfl, rfl, rfl⟩ hl
  | quarantine =>
      exact settle_renames hl fun _ _ h => (quarantine_sameNames h).renames hl
  | createPack =>
      exact settle_renames hl fun _ _ h => Registry.createPack_renames hl h
  | mutatePack =>
      exact settle_renames hl fun _ _ h =>
        (Registry.mutatePack_eq_ok h).sameNames.renames hl
  | publishPack =>
      exact settle_renames hl fun _ _ h =>
        (Registry.publishPack_eq_ok h).sameNames.renames hl
  | renamePack =>
      exact settle_renames hl fun _ _ h => Registry.renamePack_renames hl h
  | unpublishPack =>
      exact settle_renames hl fun _ _ h =>
        (Registry.unpublishPack_eq_ok h).sameNames.renames hl
  | deletePack =>
      exact settle_renames hl fun _ _ h => Registry.deletePack_renames hl h
  | transferPack =>
      exact settle_renames hl fun _ _ h => Registry.transferPack_renames hl h
  | subscribe =>
      exact settle_renames hl fun _ _ h =>
        (subscribed_sameNames (Registry.mutateSubscription_eq_ok h)).renames hl
  | subscribePack =>
      exact settle_renames hl fun _ _ h =>
        (subscribed_sameNames
          (Registry.mutatePackSubscription_eq_ok h)).renames hl
  | assignPack =>
      refine settle_renames hl fun _ _ h => ?_
      rcases Registry.mutateTeamPackAssignment_eq_ok h with ⟨_, _, rfl⟩
      exact Db.SameNames.renames ⟨rfl, rfl, rfl, rfl⟩ hl

end Service
end Denju
