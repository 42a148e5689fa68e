import Denju.Registry.ContentTriples

/-!
# The authority behind a draft

A user has a workspace on a skill of a team only while the user may publish for
the team.  Whoever takes that authority away deletes the workspaces that are
there; whoever creates a workspace has read the authority before.  Neither of
them locks what it has read, so each relies on it until it commits.
-/

namespace Denju

open Lib Contract

/-- The user may publish for the team. -/
def MayPublish (rows : Rows TableRow) (team user : Uuid) : Prop :=
  exists role settings, rows (.membership team user) = some role ∧
    rows (.team team) = some settings ∧
      Directory.roleCanPublish role settings.membersCanPublish = true

/-- Only publishers of a team have workspaces on its skills. -/
def DraftsAuthorized (rows : Rows TableRow) : Prop :=
  forall resource user row, (rows (.workspace resource user)).isSome ->
    rows (.resource resource) = some row -> row.kind = .skill ->
      (rows (.team row.ownerNamespaceId)).isSome ->
        MayPublish rows row.ownerNamespaceId user

/-- The deleted workspaces are all that the user has on skills of the team. -/
def AllDeleted (rows : Rows TableRow) (team user : Uuid)
    (deleted : List Uuid) : Prop :=
  forall resource row, (rows (.workspace resource user)).isSome ->
    rows (.resource resource) = some row -> row.ownerNamespaceId = team ->
      row.kind = .skill -> resource ∈ deleted

def draftContract : Contract TableRow Note where
  invariant := DraftsAuthorized
  holds
    | .mayPublish team user, rows => MayPublish rows team user
    | .cleared team user deleted, rows => AllDeleted rows team user deleted
    | .membersCleared team members, rows => forall user,
        rows (.membership team user) = some .member -> user ∈ members
    | _, _ => True

/-- The keys on which the authority of drafts depends. -/
def DraftKey : TableKey -> Prop
  | .team _ => True
  | .membership _ _ => True
  | .resource _ => True
  | .workspace _ _ => True
  | _ => False

def NoDraftKey (k : TableKey) : Prop :=
  ¬DraftKey k

/-!
## Creating a workspace
-/

/-- What the transaction has done is authorized: it changes no team and moves
no skill, and every new workspace belongs to a publisher. -/
structure Authorized (rows seen : Rows TableRow) : Prop where
  teams : forall team, seen (.team team) = rows (.team team)
  memberships : forall team user,
    seen (.membership team user) = rows (.membership team user)
  resources : forall resource row, seen (.resource resource) = some row ->
    exists old, rows (.resource resource) = some old ∧
      old.ownerNamespaceId = row.ownerNamespaceId ∧ old.kind = row.kind
  workspaces : forall resource user,
    (seen (.workspace resource user)).isSome ->
      (rows (.workspace resource user)).isSome ∨
        exists row, seen (.resource resource) = some row ∧
          MayPublish rows row.ownerNamespaceId user

theorem MayPublish.congr {rows seen : Rows TableRow} {team user : Uuid}
    (h : MayPublish rows team user)
    (hmembership : seen (.membership team user) = rows (.membership team user))
    (hteam : seen (.team team) = rows (.team team)) :
    MayPublish seen team user := by
  rcases h with ⟨role, settings, hrole, hsettings, hmay⟩
  exact ⟨role, settings, hmembership.trans hrole, hteam.trans hsettings, hmay⟩

theorem DraftsAuthorized.authorized {rows seen : Rows TableRow}
    (h : DraftsAuthorized rows) (hdone : Authorized rows seen) :
    DraftsAuthorized seen := by
  intro resource user row hworkspace hresource hkind hteam
  have hpublish : MayPublish rows row.ownerNamespaceId user := by
    rcases hdone.workspaces resource user hworkspace with hold | hnew
    · rcases hdone.resources resource row hresource with
        ⟨old, hold', howner, hkind'⟩
      rw [hdone.teams, ← howner] at hteam
      rw [← howner]
      exact h resource user old hold hold' (hkind'.trans hkind) hteam
    · rcases hnew with ⟨found, hfound, hpublish⟩
      rw [hresource] at hfound
      cases hfound
      exact hpublish
  exact hpublish.congr (hdone.memberships _ _) (hdone.teams _)

theorem Authorized.start {rows seen : Rows TableRow} (h : seen = rows) :
    Authorized rows seen := by
  subst h
  constructor
  · exact fun _ => rfl
  · exact fun _ _ => rfl
  · exact fun _ row hrow => ⟨row, hrow, rfl, rfl⟩
  · exact fun _ _ hworkspace => .inl hworkspace

/-- Nothing that the authority depends on changes. -/
theorem Authorized.congr {rows seen seen' : Rows TableRow}
    (h : Authorized rows seen)
    (hsame : forall k, DraftKey k -> seen' k = seen k) :
    Authorized rows seen' := by
  have hresources : forall resource,
      seen' (.resource resource) = seen (.resource resource) :=
    fun resource => hsame (.resource resource) trivial
  constructor
  · intro team
    rw [hsame (.team team) trivial]
    exact h.teams team
  · intro team user
    rw [hsame (.membership team user) trivial]
    exact h.memberships team user
  · intro resource row hrow
    rw [hresources] at hrow
    exact h.resources resource row hrow
  · intro resource user hworkspace
    rw [hsame (.workspace resource user) trivial] at hworkspace
    rw [hresources]
    exact h.workspaces resource user hworkspace

/-- A new workspace of a publisher of the owner. -/
theorem Authorized.insert {rows seen : Rows TableRow}
    (h : Authorized rows seen) {resource user : Uuid} {row : ResourceRow}
    {workspace : Option WorkspaceRow}
    (hrow : seen (.resource resource) = some row)
    (hpublish : (rows (.workspace resource user)).isSome ∨
      MayPublish rows row.ownerNamespaceId user) :
    Authorized rows
      (Function.update seen (.workspace resource user) workspace) := by
  have hother : forall k, k ≠ .workspace resource user ->
      Function.update seen (.workspace resource user) workspace k = seen k :=
    fun k hk => Function.update_of_ne hk _ _
  constructor
  · intro team
    rw [hother _ (by simp)]
    exact h.teams team
  · intro team member
    rw [hother _ (by simp)]
    exact h.memberships team member
  · intro found other hfound
    rw [hother _ (by simp)] at hfound
    exact h.resources found other hfound
  · intro found member hworkspace
    rw [hother _ (by simp)]
    by_cases hsame : found = resource ∧ member = user
    · rcases hsame with ⟨rfl, rfl⟩
      exact hpublish.imp_right fun hmay => ⟨row, hrow, hmay⟩
    · rw [hother _ (by simpa using hsame)] at hworkspace
      exact h.workspaces found member hworkspace

/-- The skill stays with its owner. -/
theorem Authorized.setResource {rows seen : Rows TableRow}
    (h : Authorized rows seen) {resource : Uuid} {row row' : ResourceRow}
    (hrow : seen (.resource resource) = some row)
    (howner : row'.ownerNamespaceId = row.ownerNamespaceId)
    (hkind : row'.kind = row.kind) :
    Authorized rows
      (Function.update seen (.resource resource) (some row')) := by
  have hother : forall k, k ≠ .resource resource ->
      Function.update seen (.resource resource) (some row') k = seen k :=
    fun k hk => Function.update_of_ne hk _ _
  constructor
  · intro team
    rw [hother _ (by simp)]
    exact h.teams team
  · intro team user
    rw [hother _ (by simp)]
    exact h.memberships team user
  · intro found other hfound
    by_cases hsame : found = resource
    · subst hsame
      rw [Function.update_self] at hfound
      cases hfound
      rcases h.resources found row hrow with ⟨old, hold, howner', hkind'⟩
      exact ⟨old, hold, howner'.trans howner.symm, hkind'.trans hkind.symm⟩
    · rw [hother _ (by simpa using hsame)] at hfound
      exact h.resources found other hfound
  · intro found user hworkspace
    rw [hother _ (by simp)] at hworkspace
    refine (h.workspaces found user hworkspace).imp_right ?_
    rintro ⟨old, hold, hmay⟩
    by_cases hsame : found = resource
    · subst hsame
      rw [hrow] at hold
      cases hold
      refine ⟨row', Function.update_self _ _ _, ?_⟩
      rw [howner]
      exact hmay
    · exact ⟨old, by rw [hother _ (by simpa using hsame)]; exact hold, hmay⟩

/-- A workspace that was there changes, or goes. -/
theorem Authorized.setWorkspace {rows seen : Rows TableRow}
    (h : Authorized rows seen) {resource user : Uuid}
    {workspace : Option WorkspaceRow}
    (hkept : workspace.isSome -> (seen (.workspace resource user)).isSome) :
    Authorized rows
      (Function.update seen (.workspace resource user) workspace) := by
  have hother : forall k, k ≠ .workspace resource user ->
      Function.update seen (.workspace resource user) workspace k = seen k :=
    fun k hk => Function.update_of_ne hk _ _
  constructor
  · intro team
    rw [hother _ (by simp)]
    exact h.teams team
  · intro team member
    rw [hother _ (by simp)]
    exact h.memberships team member
  · intro found other hfound
    rw [hother _ (by simp)] at hfound
    exact h.resources found other hfound
  · intro found member hworkspace
    rw [hother _ (by simp)]
    refine h.workspaces found member ?_
    by_cases hsame : found = resource ∧ member = user
    · rcases hsame with ⟨rfl, rfl⟩
      rw [Function.update_self] at hworkspace
      exact hkept hworkspace
    · rw [hother _ (by simpa using hsame)] at hworkspace
      exact hworkspace

/-- At most a workspace of one publisher of the team is new. -/
def Drafted (team resource user : Uuid) : Assertion TableRow :=
  fun rows seen => exists base, Authorized rows base ∧
    (seen = base ∨ MayPublish rows team user ∧
      exists workspace,
        seen = Function.update base (.workspace resource user) workspace)

/-- The skill turns out to belong to the team. -/
theorem Drafted.authorized {team resource user : Uuid}
    {rows seen : Rows TableRow} (h : Drafted team resource user rows seen)
    {row : ResourceRow} (hrow : seen (.resource resource) = some row)
    (howner : row.ownerNamespaceId = team) : Authorized rows seen := by
  rcases h with ⟨base, hbase, rfl | ⟨hmay, workspace, rfl⟩⟩
  · exact hbase
  · rw [Function.update_of_ne (by simp)] at hrow
    rw [← howner] at hmay
    exact hbase.insert hrow (.inr hmay)

namespace Transaction

variable {authority : UserAuthority} {resourceId userId : Uuid}

theorem indifferent_authorized : Indifferent NoDraftKey Authorized := by
  intro k hk rows seen row h
  refine h.congr fun j hj => Function.update_of_ne ?_ _ _
  rintro rfl
  exact hk hj

theorem triple_ensureTeamWorkspace {target : NamespacePublishAuthority}
    {E : Assertion TableRow} (hE : Indifferent WorkspaceKey E) :
    draftContract.Triple (fun rows seen => Authorized rows seen ∧ E rows seen)
      (ensureTeamWorkspace target resourceId userId)
      fun _ rows seen =>
        Drafted target.namespaceId resourceId userId rows seen ∧
          E rows seen := by
  have hsame : forall rows seen, Authorized rows seen ∧ E rows seen ->
      Drafted target.namespaceId resourceId userId rows seen ∧ E rows seen :=
    fun rows seen hpre => ⟨⟨seen, hpre.1, .inl rfl⟩, hpre.2⟩
  unfold ensureTeamWorkspace
  split
  · refine Triple.bind
      (Q := fun inserted rows seen => E rows seen ∧
        exists base, Authorized rows base ∧
          (seen = base ∨ inserted = true ∧ exists workspace,
            seen = Function.update base (.workspace resourceId userId)
              workspace)) ?_ fun inserted => ?_
    · refine Triple.rows_bind fun view _ => ?_
      dsimp only
      split
      · refine Triple.pure _ fun rows seen _ hpre => ?_
        exact ⟨hpre.2, seen, hpre.1, .inl rfl⟩
      · refine Triple.bind
          (Q := fun inserted rows seen => E rows seen ∧
            exists base, Authorized rows base ∧
              (seen = base ∨ inserted = true ∧ exists workspace,
                seen = Function.update base (.workspace resourceId userId)
                  workspace)) ?_ fun inserted => ?_
        · refine Triple.insertRow ?_ ?_
          · intro rows seen _ hpre _
            exact ⟨hE (.workspace resourceId userId) trivial rows seen _ hpre.2,
              seen, hpre.1, .inr ⟨rfl, _, rfl⟩⟩
          · intro rows seen _ hpre
            exact ⟨hpre.2, seen, hpre.1, .inl rfl⟩
        · split
          · refine Triple.bind (triple_references _ _) fun _ => ?_
            refine Triple.bind (triple_references _ _) fun _ => ?_
            exact Triple.pure _ fun _ _ _ hpre => hpre.1.1
          · exact Triple.pure _ fun _ _ _ hpre => hpre
    · split
      · refine Triple.rely.post fun _ rows seen _ hpost => ?_
        rcases hpost with ⟨⟨hrest, base, hbase, hseen⟩, hnotes⟩
        refine ⟨⟨base, hbase, hseen.imp_right fun hnew => ?_⟩, hrest⟩
        exact ⟨hnotes _ List.mem_cons_self, hnew.2⟩
      · rename_i hnone
        refine Triple.pure () fun rows seen _ hpre => ?_
        rcases hpre with ⟨hrest, base, hbase, rfl | hnew⟩
        · exact ⟨⟨seen, hbase, .inl rfl⟩, hrest⟩
        · exact absurd hnew.1 hnone
  · exact Triple.pure () fun rows seen _ hpre => hsame rows seen hpre

theorem triple_setWorkspace {revision : RevisionId} {generation : Generation}
    {snapshot : StoredSnapshot} {metadata : SkillMetadata} :
    draftContract.Triple Authorized
      (setWorkspace resourceId userId revision generation snapshot metadata)
      fun _ => Authorized := by
  refine Triple.bind (Triple.update ?_ fun _ _ _ _ hpre => hpre)
    fun _ => Triple.pure () fun _ _ _ hpre => hpre
  intro row rows seen _ hpre hrow
  refine hpre.setWorkspace fun _ => ?_
  rw [hrow]
  rfl

theorem triple_setResourceMetadata {generation : Generation}
    {metadata : SkillMetadata} :
    draftContract.Triple Authorized
      (setResourceMetadata resourceId generation metadata)
      fun _ => Authorized := by
  refine Triple.bind (Triple.update ?_ fun _ _ _ _ hpre => hpre)
    fun _ => Triple.pure () fun _ _ _ hpre => hpre
  intro row rows seen _ hpre hrow
  exact hpre.setResource hrow rfl rfl

/-- The workspace that a maintainer gets is locked with its skill. -/
theorem triple_draftWorkspace {target : NamespacePublishAuthority}
    {missing unavailable : String} {β : Type}
    {f : ResourceRow × WorkspaceRow -> Transaction β}
    {R : β -> Assertion TableRow}
    (hf : forall found, draftContract.Triple Authorized (f found) R) :
    draftContract.Triple Authorized
      (do
        ensureTeamWorkspace target resourceId userId
        let found <- lockCurrentWorkspace target.namespaceId resourceId userId
          missing unavailable
        f found) R := by
  refine Triple.bind ((triple_ensureTeamWorkspace
    (E := fun _ _ => True) fun _ _ _ _ _ _ => trivial).pre
      fun rows seen _ hpre => ⟨hpre, trivial⟩) fun _ => ?_
  refine Triple.bind triple_lockCurrentWorkspace fun found => ?_
  refine (hf found).pre fun rows seen _ hpre => ?_
  exact hpre.1.1.authorized hpre.2.1 hpre.2.2

theorem authorized_preparePrivateRevision :
    draftContract.Triple (fun rows seen => seen = rows)
      (preparePrivateRevision authority resourceId)
      fun _ rows seen => seen = rows := by
  refine Triple.transaction (Q := fun _ => Authorized) ?_
    fun _ _ _ hinvariant hpost => hinvariant.authorized hpost
  refine Triple.pre ?_ fun rows seen _ hsame => Authorized.start hsame
  refine Triple.bind triple_authorizeResourcePublish fun target => ?_
  exact triple_draftWorkspace fun _ => Triple.pure () fun _ _ _ hpre => hpre

theorem authorized_restoreSkill {expectedGeneration : Generation}
    {target : RevisionId} {metadata : SkillMetadata}
    {newRevision : RevisionId -> RevisionId} :
    draftContract.Triple (fun rows seen => seen = rows)
      (restoreSkill authority resourceId expectedGeneration target metadata
        newRevision)
      fun _ rows seen => seen = rows := by
  refine Triple.bind (Q := fun _ rows seen => seen = rows) ?_ fun stored => ?_
  · refine Triple.transaction (Q := fun _ rows seen => seen = rows) ?_ ?_
    · refine Triple.bind triple_authorizeResourcePublish fun authorized => ?_
      refine Triple.rows_bind fun view _ => ?_
      refine Triple.lift_bind fun stored _ => ?_
      refine Triple.lift_bind fun resource _ => ?_
      refine Triple.lift_bind fun _ _ => ?_
      exact Triple.pure stored fun _ _ _ hpre => hpre
    · rintro _ rows seen hinvariant rfl
      exact hinvariant
  · refine Triple.transaction (Q := fun _ => Authorized) ?_
      fun _ _ _ hinvariant hpost => hinvariant.authorized hpost
    refine Triple.pre ?_ fun rows seen _ hsame => Authorized.start hsame
    refine Triple.bind triple_authorizeResourcePublish fun authorized => ?_
    refine triple_draftWorkspace fun found => ?_
    refine Triple.lift_bind fun _ _ => ?_
    refine Triple.lift_bind fun _ _ => ?_
    refine Triple.lift_bind fun nextWorkspace _ => ?_
    refine Triple.lift_bind fun nextResource _ => ?_
    refine Triple.lift_bind fun blobs _ => ?_
    refine Triple.bind (Triple.each fun blob _ => ?_) fun _ => ?_
    · refine Triple.bind
        (triple_insertNewRevisionBlob indifferent_authorized (fun h => h))
        fun _ => ?_
      exact triple_bumpReference indifferent_authorized (fun h => h)
        fun h => h
    refine Triple.bind
      (triple_insertNewSnapshot indifferent_authorized (fun h => h))
      fun _ => ?_
    dsimp only
    split
    · refine Triple.bind triple_setResourceMetadata fun _ => ?_
      exact triple_setWorkspace
    · exact triple_setWorkspace

theorem triple_attachProposalRevision {limits : Limits}
    {sourceId targetId space : Uuid} {revision : RevisionId} :
    draftContract.Triple Authorized
      (attachProposalRevision limits userId sourceId targetId space revision)
      fun _ => Authorized := by
  refine Triple.rows_bind fun view _ => ?_
  split
  · exact Triple.pure () fun _ _ _ hpre => hpre
  · refine Triple.rows_bind fun view _ => ?_
    refine Triple.lift_bind fun source _ => ?_
    refine Triple.lift_bind fun blobs _ => ?_
    refine Triple.bind triple_enforceNamespaceQuota fun _ => ?_
    refine Triple.pre ?_ fun rows seen _ hpre => hpre.1
    refine Triple.bind (Triple.each fun blob _ => ?_) fun _ => ?_
    · refine Triple.bind
        (triple_addReference indifferent_authorized (fun h => h) fun h => h)
        fun _ => ?_
      exact triple_cancelBlobGc indifferent_authorized fun h => h
    · exact triple_insertNewSnapshot indifferent_authorized fun h => h

theorem authorized_acceptProposal {limits : Limits} {proposalId : Uuid}
    {expected : RevisionId}
    {proposalGeneration sourceGeneration targetGeneration : Generation} :
    draftContract.Triple (fun rows seen => seen = rows)
      (acceptProposal limits authority proposalId expected proposalGeneration
        sourceGeneration targetGeneration)
      fun _ rows seen => seen = rows := by
  refine Triple.transaction (Q := fun _ => Authorized) ?_
    fun _ _ _ hinvariant hpost => hinvariant.authorized hpost
  refine Triple.pre ?_ fun rows seen _ hsame => Authorized.start hsame
  refine Triple.bind triple_lockProposalRows ?_
  rintro ⟨proposal, source, target, proposed⟩
  refine Triple.bind triple_authorizeResourcePublish fun authorized => ?_
  refine Triple.lift_bind fun _ howner => ?_
  have hsame : authorized.namespaceId = target.ownerNamespaceId := by
    simpa using ensure_eq_ok.mp howner
  refine Triple.bind (triple_ensureTeamWorkspace
    (E := fun _ seen => seen (.resource proposal.targetResourceId) =
      some target) (indifferent_row
        (k := .resource proposal.targetResourceId) (fun h => h) fun row =>
          row = some target)) fun _ => ?_
  refine Triple.pre (P := Authorized) ?_ fun rows seen _ hpre =>
    hpre.1.authorized hpre.2 hsame.symm
  refine Triple.lift_bind fun _ _ => ?_
  refine Triple.lift_bind fun _ _ => ?_
  refine Triple.lift_bind fun _ _ => ?_
  refine triple_lockRow_bind fun workspace => ?_
  refine Triple.pre (P := Authorized) ?_ fun rows seen _ hpre => hpre.1
  refine Triple.lift_bind fun _ _ => ?_
  refine Triple.rows_bind fun view _ => ?_
  refine Triple.lift_bind fun _ _ => ?_
  refine Triple.lift_bind fun _ _ => ?_
  refine Triple.lift_bind fun _ _ => ?_
  refine Triple.bind triple_attachProposalRevision fun _ => ?_
  refine Triple.rows_bind fun view _ => ?_
  refine Triple.lift_bind fun stored _ => ?_
  refine Triple.lift_bind fun nextWorkspace _ => ?_
  refine Triple.lift_bind fun nextResource _ => ?_
  have hclose : draftContract.Triple Authorized
      (do
        setWorkspace proposal.targetResourceId authority.userId expected
          nextWorkspace stored proposed.metadata
        let nextProposal <- nextGeneration proposal.generation
        let _ <- Script.updateRow (.proposal proposalId) fun row =>
          { row with
            generation := nextProposal
            state := .accepted
            closed := some
              { revisionId := expected
                sourceGeneration := source.generation
                userId := authority.userId } } : Transaction Unit)
      fun _ => Authorized := by
    refine Triple.bind triple_setWorkspace fun _ => ?_
    refine Triple.lift_bind fun nextProposal _ => ?_
    refine Triple.bind (triple_update_indifferent indifferent_authorized
      (fun h => h)) fun _ => ?_
    exact Triple.pure () fun _ _ _ hpre => hpre
  dsimp only
  split
  · exact Triple.bind triple_setResourceMetadata fun _ => hclose
  · exact hclose

end Transaction
/-!
## Taking authority away
-/

/-- The user has no workspace on the skills of the team. -/
def Cleared (seen : Rows TableRow) (team user : Uuid) : Prop :=
  forall resource row, seen (.resource resource) = some row ->
    row.ownerNamespaceId = team -> row.kind = .skill ->
      seen (.workspace resource user) = none

/-- Only the team and its members change, and workspaces are only deleted. -/
structure Narrowed (team : Uuid) (rows seen : Rows TableRow) : Prop where
  resources : forall resource,
    seen (.resource resource) = rows (.resource resource)
  workspaces : forall resource user,
    (seen (.workspace resource user)).isSome ->
      (rows (.workspace resource user)).isSome
  teams : forall other, other ≠ team ->
    seen (.team other) = rows (.team other)
  memberships : forall other user, other ≠ team ->
    seen (.membership other user) = rows (.membership other user)

theorem Narrowed.start {team : Uuid} {rows seen : Rows TableRow}
    (h : seen = rows) : Narrowed team rows seen := by
  subst h
  exact ⟨fun _ => rfl, fun _ _ hworkspace => hworkspace, fun _ _ => rfl,
    fun _ _ _ => rfl⟩

/-- The keys that a change of the team may write. -/
def ChangedKey (team : Uuid) : TableKey -> Prop
  | .team other => other = team
  | .membership other _ => other = team
  | .resource _ => False
  | .workspace _ _ => False
  | _ => True

theorem Narrowed.update {team : Uuid} {rows seen : Rows TableRow}
    (h : Narrowed team rows seen) {k : TableKey} (hk : ChangedKey team k)
    (row : Option (TableRow k)) :
    Narrowed team rows (Function.update seen k row) := by
  have hother : forall j, ¬ChangedKey team j ->
      Function.update seen k row j = seen j := by
    intro j hj
    apply Function.update_of_ne
    rintro rfl
    exact hj hk
  constructor
  · intro resource
    rw [hother _ id]
    exact h.resources resource
  · intro resource user hworkspace
    rw [hother _ id] at hworkspace
    exact h.workspaces resource user hworkspace
  · intro other hne
    rw [hother (.team other) hne]
    exact h.teams other hne
  · intro other user hne
    rw [hother (.membership other user) hne]
    exact h.memberships other user hne

theorem Narrowed.clear {team : Uuid} {rows seen : Rows TableRow}
    (h : Narrowed team rows seen) (resource user : Uuid) :
    Narrowed team rows
      (Function.update seen (.workspace resource user) none) := by
  have hother : forall k, k ≠ .workspace resource user ->
      Function.update seen (.workspace resource user) none k = seen k :=
    fun k hk => Function.update_of_ne hk _ _
  constructor
  · intro found
    rw [hother _ (by simp)]
    exact h.resources found
  · intro found member hworkspace
    by_cases hsame : found = resource ∧ member = user
    · rcases hsame with ⟨rfl, rfl⟩
      rw [Function.update_self] at hworkspace
      cases hworkspace
    · rw [hother _ (by simpa using hsame)] at hworkspace
      exact h.workspaces found member hworkspace
  · intro other hne
    rw [hother _ (by simp)]
    exact h.teams other hne
  · intro other member hne
    rw [hother _ (by simp)]
    exact h.memberships other member hne

theorem Narrowed.cleared {team user : Uuid} {rows seen : Rows TableRow}
    (h : Narrowed team rows seen) {deleted : List Uuid}
    (hall : AllDeleted rows team user deleted)
    (hnone : forall resource, resource ∈ deleted ->
      seen (.workspace resource user) = none) :
    Cleared seen team user := by
  intro resource row hrow howner hkind
  by_contra hsome
  have hworkspace := h.workspaces resource user
    (Option.isSome_iff_ne_none.mpr hsome)
  rw [h.resources] at hrow
  exact hsome (hnone resource (hall resource row hworkspace hrow howner hkind))

/-- Everyone who has a workspace left may still publish. -/
theorem DraftsAuthorized.narrowed {team : Uuid} {rows seen : Rows TableRow}
    (h : DraftsAuthorized rows) (hnarrowed : Narrowed team rows seen)
    (hteam : (seen (.team team)).isSome -> (rows (.team team)).isSome)
    (hkept : forall user, MayPublish rows team user ->
      MayPublish seen team user ∨ Cleared seen team user) :
    DraftsAuthorized seen := by
  intro resource user row hworkspace hresource hkind hfound
  have hbefore := h resource user row
    (hnarrowed.workspaces resource user hworkspace)
    ((hnarrowed.resources resource).symm.trans hresource) hkind
  by_cases hsame : row.ownerNamespaceId = team
  · rw [hsame] at hfound hbefore ⊢
    rcases hkept user (hbefore (hteam hfound)) with hmay | hcleared
    · exact hmay
    · rw [hcleared resource row hresource hsame hkind] at hworkspace
      cases hworkspace
  · rw [hnarrowed.teams _ hsame] at hfound
    exact (hbefore hfound).congr (hnarrowed.memberships _ user hsame)
      (hnarrowed.teams _ hsame)

/-- Apart from one member, the team stays as it is. -/
structure OnlyMember (team user : Uuid) (rows seen : Rows TableRow) :
    Prop where
  narrowed : Narrowed team rows seen
  settings : seen (.team team) = rows (.team team)
  members : forall other, other ≠ user ->
    seen (.membership team other) = rows (.membership team other)

theorem OnlyMember.start {team user : Uuid} {rows seen : Rows TableRow}
    (h : seen = rows) : OnlyMember team user rows seen := by
  subst h
  exact ⟨Narrowed.start rfl, rfl, fun _ _ => rfl⟩

theorem OnlyMember.clear {team user : Uuid} {rows seen : Rows TableRow}
    (h : OnlyMember team user rows seen) (resource other : Uuid) :
    OnlyMember team user rows
      (Function.update seen (.workspace resource other) none) := by
  refine ⟨h.narrowed.clear resource other, ?_, ?_⟩
  · rw [Function.update_of_ne (by simp)]
    exact h.settings
  · intro member hne
    rw [Function.update_of_ne (by simp)]
    exact h.members member hne

theorem OnlyMember.setMember {team user : Uuid} {rows seen : Rows TableRow}
    (h : OnlyMember team user rows seen) (role : Option TeamRole) :
    OnlyMember team user rows
      (Function.update seen (.membership team user) role) := by
  refine ⟨h.narrowed.update (k := .membership team user) rfl role, ?_, ?_⟩
  · rw [Function.update_of_ne (by simp)]
    exact h.settings
  · intro member hne
    rw [Function.update_of_ne (by simpa using hne)]
    exact h.members member hne

theorem DraftsAuthorized.onlyMember {team user : Uuid}
    {rows seen : Rows TableRow} (h : DraftsAuthorized rows)
    (honly : OnlyMember team user rows seen)
    (hkept : MayPublish seen team user ∨ Cleared seen team user) :
    DraftsAuthorized seen := by
  refine h.narrowed honly.narrowed ?_ ?_
  · intro hteam
    rw [honly.settings] at hteam
    exact hteam
  · intro other hmay
    by_cases hsame : other = user
    · rw [hsame]
      exact hkept
    · exact .inl (hmay.congr (honly.members other hsame) honly.settings)

namespace Transaction

variable {operationId : OperationId} {requestHash : RequestHash}
  {kind : TeamOperationKind} {userId : Uuid} {slug member : Text}

/-- The transaction would leave all drafts authorized. -/
def DraftsKept : Assertion TableRow :=
  fun _ seen => DraftsAuthorized seen

theorem indifferent_draftsKept : Indifferent NoDraftKey DraftsKept := by
  intro k hk rows seen row h
  exact h.authorized
    (indifferent_authorized k hk seen seen row (Authorized.start rfl))

theorem authorized_recorded {body : Transaction TeamOutcome}
    (hbody : draftContract.Triple (fun rows seen => seen = rows) body
      fun _ => DraftsKept) :
    draftContract.Triple (fun rows seen => seen = rows)
      (recorded userId operationId requestHash kind body)
      fun _ rows seen => seen = rows := by
  refine triple_recorded hbody (fun _ => ?_) fun _ _ _ _ hpost => hpost
  refine indifferent_draftsKept.sub fun k hk => ?_
  cases k with
  | operation user operation => exact fun hdraft => hdraft
  | _ => cases hk

/-- The workspaces of the member are gone. -/
theorem triple_clearMember {actor team user : Uuid}
    {P : Assertion TableRow}
    (hP : forall resource rows seen, P rows seen ->
      P rows (Function.update seen (.workspace resource user) none))
    (honly : forall rows seen, P rows seen -> Narrowed team rows seen) :
    draftContract.Triple P (removeTeamWorkspacesForUser actor team user)
      fun _ rows seen => P rows seen ∧ Cleared seen team user := by
  refine (triple_removeTeamWorkspacesForUser hP).post ?_
  rintro _ rows seen _ ⟨hpre, deleted, hall, hnone⟩
  exact ⟨hpre, (honly rows seen hpre).cleared hall hnone⟩

theorem cleared_setMember {team user : Uuid} {seen : Rows TableRow}
    (h : Cleared seen team user) (other : Uuid) (role : Option TeamRole) :
    Cleared (Function.update seen (.membership team other) role) team user := by
  intro resource row hrow howner hkind
  rw [Function.update_of_ne (by simp)] at hrow ⊢
  exact h resource row hrow howner hkind

theorem cleared_clear {team user : Uuid} {seen : Rows TableRow}
    (h : Cleared seen team user) (resource other : Uuid) :
    Cleared (Function.update seen (.workspace resource other) none) team
      user := by
  intro found row hrow howner hkind
  rw [Function.update_of_ne (by simp)] at hrow
  by_cases hsame : found = resource ∧ user = other
  · rcases hsame with ⟨rfl, rfl⟩
    exact Function.update_self _ _ _
  · rw [Function.update_of_ne (by simpa using hsame)]
    exact h found row hrow howner hkind

theorem authorized_changeTeamMemberRole {role : TeamRole} :
    draftContract.Triple (fun rows seen => seen = rows)
      (changeTeamMemberRole userId operationId requestHash slug member role)
      fun _ rows seen => seen = rows := by
  refine Triple.lift_bind fun _ hrole => ?_
  have hnew : role ≠ .owner := by simpa using ensure_eq_ok.mp hrole
  apply authorized_recorded
  refine Triple.bind triple_teamMembershipForUpdate ?_
  rintro ⟨team, actorRole, membersCanPublish⟩
  refine Triple.lift_bind fun _ _ => ?_
  refine Triple.bind triple_userBySlug fun target => ?_
  refine Triple.bind triple_lockedMember fun currentRole => ?_
  refine Triple.lift_bind fun _ _ => ?_
  dsimp only
  split
  · refine Triple.bind
      (Q := fun _ rows seen => OnlyMember team target rows seen ∧
        (exists settings : Team, seen (.team team) = some settings ∧
          settings.membersCanPublish = membersCanPublish) ∧
        seen (.membership team target) = some role) ?_ fun _ => ?_
    · refine Triple.update ?_ ?_
      · rintro row rows seen _ ⟨⟨hsame, hsettings, _⟩, _⟩ _
        refine ⟨(OnlyMember.start hsame).setMember (some role), ?_,
          Function.update_self _ _ _⟩
        rw [Function.update_of_ne (by simp)]
        exact hsettings
      · rintro ⟨rows, seen, _, ⟨_, hfound⟩, hnone⟩
        rw [hfound] at hnone
        cases hnone
    · split
      · refine Triple.bind (triple_clearMember ?_ fun _ _ hpre =>
          hpre.1.narrowed) fun _ => ?_
        · rintro resource rows seen ⟨honly, hsettings, hmember⟩
          refine ⟨honly.clear resource target, ?_, ?_⟩
          · rw [Function.update_of_ne (by simp)]
            exact hsettings
          · rw [Function.update_of_ne (by simp)]
            exact hmember
        · refine Triple.pure _ fun rows seen hinvariant hpre => ?_
          exact hinvariant.onlyMember hpre.1.1 (.inr hpre.2)
      · rename_i hkept
        refine Triple.pure _ ?_
        rintro rows seen hinvariant ⟨honly, ⟨settings, hteam, hsettings⟩,
          hmember⟩
        refine hinvariant.onlyMember honly
          (.inl ⟨role, settings, hmember, hteam, ?_⟩)
        rw [hsettings]
        cases role with
        | owner => rfl
        | maintainer => rfl
        | member =>
            change membersCanPublish = true
            simpa using hkept
  · refine Triple.pure _ ?_
    rintro rows seen hinvariant ⟨⟨hsame, _⟩, _⟩
    rw [hsame]
    exact hinvariant

/-- A member goes, with all workspaces on the skills of the team. -/
theorem triple_removeMember {actor team user : Uuid} {outcome : TeamOutcome} :
    draftContract.Triple (fun rows seen => seen = rows)
      (do
        removeTeamWorkspacesForUser actor team user
        let _ <- Script.deleteRow (.membership team user)
        return outcome : Transaction TeamOutcome)
      fun _ => DraftsKept := by
  refine Triple.pre (P := OnlyMember team user) ?_
    fun rows seen _ hsame => OnlyMember.start hsame
  refine Triple.bind (triple_clearMember
    (fun resource rows seen hpre => hpre.clear resource user)
    fun _ _ hpre => hpre.narrowed) fun _ => ?_
  refine Triple.bind
    (Q := fun _ rows seen => OnlyMember team user rows seen ∧
      Cleared seen team user) ?_ fun _ => ?_
  · refine Triple.update ?_ fun _ _ _ _ hpre => hpre
    intro row rows seen _ hpre _
    exact ⟨hpre.1.setMember none, cleared_setMember hpre.2 user none⟩
  · refine Triple.pure _ fun rows seen hinvariant hpre => ?_
    exact hinvariant.onlyMember hpre.1 (.inr hpre.2)

theorem authorized_removeTeamMember :
    draftContract.Triple (fun rows seen => seen = rows)
      (removeTeamMember userId operationId requestHash slug member)
      fun _ rows seen => seen = rows := by
  apply authorized_recorded
  refine Triple.bind triple_teamMembershipForUpdate ?_
  rintro ⟨team, actorRole, membersCanPublish⟩
  refine Triple.lift_bind fun _ _ => ?_
  refine Triple.bind triple_userBySlug fun target => ?_
  refine Triple.bind triple_lockedMember fun targetRole => ?_
  refine Triple.lift_bind fun _ _ => ?_
  exact triple_removeMember.pre fun rows seen _ hpre => hpre.1.1

theorem authorized_leaveTeam :
    draftContract.Triple (fun rows seen => seen = rows)
      (leaveTeam userId operationId requestHash slug)
      fun _ rows seen => seen = rows := by
  apply authorized_recorded
  refine Triple.bind triple_teamMembershipForUpdate ?_
  rintro ⟨team, role, membersCanPublish⟩
  refine Triple.lift_bind fun _ _ => ?_
  exact triple_removeMember.pre fun rows seen _ hpre => hpre.1

/-- The settings of the team change, and its members stay. -/
def OnlySettings (team : Uuid) (membersCanPublish : Bool) :
    Assertion TableRow :=
  fun rows seen => Narrowed team rows seen ∧
    (forall user, seen (.membership team user) =
      rows (.membership team user)) ∧
    (rows (.team team)).isSome ∧
    exists settings : Team, seen (.team team) = some settings ∧
      settings.membersCanPublish = membersCanPublish

theorem OnlySettings.clear {team : Uuid} {membersCanPublish : Bool}
    {rows seen : Rows TableRow}
    (h : OnlySettings team membersCanPublish rows seen)
    (resource user : Uuid) :
    OnlySettings team membersCanPublish rows
      (Function.update seen (.workspace resource user) none) := by
  rcases h with ⟨hnarrowed, hmembers, hteam, hsettings⟩
  refine ⟨hnarrowed.clear resource user, ?_, hteam, ?_⟩
  · intro member
    rw [Function.update_of_ne (by simp)]
    exact hmembers member
  · rw [Function.update_of_ne (by simp)]
    exact hsettings

/-- Members lose their workspaces when they may no longer publish. -/
theorem OnlySettings.authorized {team : Uuid} {membersCanPublish : Bool}
    {rows seen : Rows TableRow} (hinvariant : DraftsAuthorized rows)
    (h : OnlySettings team membersCanPublish rows seen)
    (hcleared : membersCanPublish = false -> forall user,
      rows (.membership team user) = some .member ->
        Cleared seen team user) : DraftsAuthorized seen := by
  rcases h with ⟨hnarrowed, hmembers, hteam, settings, hseen, hsettings⟩
  refine hinvariant.narrowed hnarrowed (fun _ => hteam) ?_
  rintro user ⟨role, before, hrole, hbefore, hmay⟩
  have hkept : Directory.roleCanPublish role membersCanPublish = true ->
      MayPublish seen team user := by
    intro hpublish
    refine ⟨role, settings, (hmembers user).trans hrole, hseen, ?_⟩
    rw [hsettings]
    exact hpublish
  cases role with
  | owner => exact .inl (hkept rfl)
  | maintainer => exact .inl (hkept rfl)
  | member =>
      cases membersCanPublish with
      | true => exact .inl (hkept rfl)
      | false => exact .inr (hcleared rfl user hrole)

theorem authorized_updateTeamSettings {membersCanPublish : Bool} :
    draftContract.Triple (fun rows seen => seen = rows)
      (updateTeamSettings userId operationId requestHash slug
        membersCanPublish)
      fun _ rows seen => seen = rows := by
  apply authorized_recorded
  refine Triple.bind triple_teamMembershipForUpdate ?_
  rintro ⟨team, actorRole, current⟩
  refine Triple.lift_bind fun _ _ => ?_
  dsimp only
  split
  · refine Triple.bind (Q := fun _ => OnlySettings team membersCanPublish)
      ?_ fun _ => ?_
    · refine Triple.update ?_ ?_
      · rintro row rows seen _ ⟨hsame, _, _⟩ hrow
        subst hsame
        refine ⟨(Narrowed.start rfl).update (k := .team team) rfl _, ?_, ?_,
          ⟨_, Function.update_self _ _ _, rfl⟩⟩
        · intro user
          exact Function.update_of_ne (by simp) _ _
        · rw [hrow]
          rfl
      · rintro ⟨rows, seen, _, ⟨_, ⟨settings, hfound, _⟩, _⟩, hnone⟩
        rw [hfound] at hnone
        cases hnone
    · split
      · refine Triple.rows_bind fun view _ => ?_
        refine Triple.bind (Triple.pre (Triple.eachDone
          (R := fun done rows seen =>
            OnlySettings team membersCanPublish rows seen ∧
              forall user, user ∈ done -> Cleared seen team user) ?_ [])
          fun rows seen _ hpre =>
            ⟨hpre, fun user hnone => absurd hnone List.not_mem_nil⟩)
          fun _ => ?_
        · intro user done _
          refine (triple_clearMember ?_ fun _ _ hpre => hpre.1.1).post ?_
          · rintro resource rows seen ⟨honly, hdone⟩
            refine ⟨honly.clear resource user, ?_⟩
            intro other hother
            exact cleared_clear (hdone other hother) resource user
          · rintro _ rows seen _ ⟨⟨honly, hdone⟩, hcleared⟩
            refine ⟨honly, ?_⟩
            intro other hother
            rcases List.mem_append.mp hother with hold | hnew
            · exact hdone other hold
            · rw [List.mem_singleton.mp hnew]
              exact hcleared
        · refine Triple.bind Triple.rely fun _ => ?_
          refine Triple.pure _ ?_
          rintro rows seen hinvariant ⟨⟨honly, hdone⟩, hnotes⟩
          refine OnlySettings.authorized hinvariant honly ?_
          intro _ user hmember
          exact hdone user (hnotes _ List.mem_cons_self user hmember)
      · rename_i hmay
        refine Triple.pure _ fun rows seen hinvariant hpre => ?_
        refine OnlySettings.authorized hinvariant hpre ?_
        intro hnot
        exact absurd hnot hmay
  · refine Triple.pure _ ?_
    rintro rows seen hinvariant ⟨hsame, _⟩
    rw [hsame]
    exact hinvariant

end Transaction
end Denju
