import Denju.Registry.ContentScripts
import Denju.Registry.TeamTriples

/-!
# Assertions about the statements of content

What the statements that several endpoints share leave of an assertion that
does not speak about the rows that they write.
-/

namespace Denju

open Lib Contract

namespace Transaction

variable {contract : Contract TableRow Note} {P : Assertion TableRow}
  {keys : TableKey -> Prop} {authority : UserAuthority}
  {resourceId namespaceId userId : Uuid} {revision : RevisionId}
  {blob : BlobId}

/-!
## Authority
-/

theorem triple_shareRow {k : TableKey} :
    contract.Triple P
      (Script.shareRow k : Transaction (Option (TableRow k))) fun _ => P :=
  Triple.shareRow (fun _ _ _ _ hpre _ => hpre) fun _ _ _ hpre => hpre

theorem triple_authorizeNamespacePublish {owner : Text} :
    contract.Triple P (authorizeNamespacePublish authority owner)
      fun _ => P := by
  refine Triple.rows_bind fun view _ => ?_
  refine Triple.lift_bind fun found _ => ?_
  refine Triple.bind triple_shareRow fun row => ?_
  refine Triple.lift_bind fun space _ => ?_
  cases space.kind with
  | user =>
      refine Triple.lift_bind fun _ _ => ?_
      exact Triple.pure _ fun _ _ _ hpre => hpre
  | team =>
      refine Triple.lift_bind fun role _ => ?_
      refine Triple.lift_bind fun team _ => ?_
      refine Triple.lift_bind fun _ _ => ?_
      exact Triple.pure _ fun _ _ _ hpre => hpre

theorem triple_authorizeResourcePublish :
    contract.Triple P (authorizeResourcePublish authority resourceId)
      fun _ => P := by
  refine Triple.rows_bind fun view _ => ?_
  refine Triple.lift_bind fun row _ => ?_
  refine Triple.lift_bind fun owner _ => ?_
  exact triple_authorizeNamespacePublish

/-- The locked skill belongs to the namespace. -/
theorem triple_lockCurrentWorkspace {missing unavailable : String} :
    contract.Triple P
      (lockCurrentWorkspace namespaceId resourceId userId missing unavailable)
      fun found rows seen => P rows seen ∧
        seen (.resource resourceId) = some found.1 ∧
          found.1.ownerNamespaceId = namespaceId := by
  refine Triple.bind
    (Q := fun row rows seen => P rows seen ∧
      forall found, row = some found ->
        seen (.resource resourceId) = some found) ?_ fun row => ?_
  · refine Triple.lockRow ?_ ?_
    · intro row rows seen _ hpre hrow
      refine ⟨hpre, ?_⟩
      rintro found ⟨⟩
      exact hrow
    · intro rows seen _ hpre
      exact ⟨hpre, nofun⟩
  · refine Triple.lift_bind fun resource hresource => ?_
    have hfound : row = some resource :=
      (Option.filter_eq_some_iff.mp (okOr_eq_ok.mp hresource)).1
    refine Triple.bind triple_lock fun workspace => ?_
    refine Triple.lift_bind fun workspace _ => ?_
    refine Triple.lift_bind fun _ howner => ?_
    refine Triple.pure _ fun rows seen _ hpre => ?_
    exact ⟨hpre.1, hpre.2 resource hfound,
      by simpa using ensure_eq_ok.mp howner⟩

/-!
## Statements that an assertion does not speak about
-/

theorem triple_insert_indifferent {k : TableKey} {row : TableRow k}
    (hP : Indifferent keys P) (hk : keys k) :
    contract.Triple P (Script.insertRow k row : Transaction Bool)
      fun _ => P :=
  Triple.insertRow
    (fun rows seen _ hpre _ => hP k hk rows seen (some row) hpre)
    fun _ _ _ hpre => hpre

theorem triple_upsert_indifferent {k : TableKey}
    {set : Option (TableRow k) -> TableRow k}
    (hP : Indifferent keys P) (hk : keys k) :
    contract.Triple P (Script.upsertRow k set : Transaction Bool)
      fun _ => P :=
  Triple.upsertRow fun _ rows seen _ hpre _ => hP k hk rows seen _ hpre

theorem triple_insertNew_indifferent {k : TableKey} {row : TableRow k}
    {key : String} (hP : Indifferent keys P) (hk : keys k) :
    contract.Triple P (insertNew k row key) fun _ => P :=
  triple_insertNew fun rows seen _ hpre _ =>
    hP k hk rows seen (some row) hpre

/-- A foreign key that is checked only for a new row. -/
theorem triple_references_if {k : TableKey} {key : String}
    {inserted : Bool} :
    contract.Triple P
      (if inserted then references k key else Pure.pure ()) fun _ => P := by
  split
  · exact (triple_references k key).post fun _ _ _ _ hpost => hpost.1
  · exact Triple.pure () fun _ _ _ hpre => hpre

theorem triple_insertRevisionBlob (hP : Indifferent keys P)
    (hk : keys (.revisionBlob revision blob)) :
    contract.Triple P (insertRevisionBlob revision blob) fun _ => P :=
  Triple.bind (triple_insert_indifferent hP hk) fun _ => triple_references_if

theorem triple_insertNewRevisionBlob (hP : Indifferent keys P)
    (hk : keys (.revisionBlob revision blob)) :
    contract.Triple P (insertNewRevisionBlob revision blob) fun _ => P :=
  Triple.bind (triple_insertNew_indifferent hP hk) fun _ =>
    (triple_references _ _).post fun _ _ _ _ hpost => hpost.1

theorem triple_insertNewSnapshot {snapshot : StoredSnapshot}
    (hP : Indifferent keys P) (hk : keys (.snapshot resourceId revision)) :
    contract.Triple P (insertNewSnapshot resourceId revision snapshot)
      fun _ => P :=
  Triple.bind (triple_insertNew_indifferent hP hk) fun _ =>
    (triple_references _ _).post fun _ _ _ _ hpost => hpost.1

theorem triple_bumpReference {space : Uuid} (hP : Indifferent keys P)
    (hresource : keys (.resourceBlob resourceId blob))
    (hspace : keys (.namespaceBlob space blob)) :
    contract.Triple P (bumpReference resourceId space blob) fun _ => P := by
  refine Triple.bind (triple_update_indifferent hP hresource) fun _ => ?_
  refine Triple.bind (triple_update_indifferent hP hspace) fun _ => ?_
  exact Triple.pure () fun _ _ _ hpre => hpre

theorem triple_cancelBlobGc {session : Session} (hP : Indifferent keys P)
    (hk : keys (.blobGc blob)) :
    contract.Triple P (cancelBlobGc session blob) fun _ => P := by
  cases session with
  | actor user =>
      refine Triple.bind (triple_update_indifferent hP hk) fun _ => ?_
      exact Triple.pure () fun _ _ _ hpre => hpre
  | worker => exact Triple.fail _

theorem triple_addReference {space : Uuid} (hP : Indifferent keys P)
    (hresource : keys (.resourceBlob resourceId blob))
    (hspace : keys (.namespaceBlob space blob)) :
    contract.Triple P (addReference resourceId space blob) fun _ => P := by
  have hsecond : contract.Triple P (addNamespaceReference space blob)
      fun _ => P := by
    refine Triple.bind (triple_upsert_indifferent hP hspace)
      fun inserted => ?_
    split
    · refine Triple.bind (triple_references _ _) fun _ => ?_
      exact (triple_references _ _).mono (fun _ _ _ hpre => hpre.1)
        fun _ _ _ _ hpost => hpost.1
    · exact Triple.pure () fun _ _ _ hpre => hpre
  refine Triple.bind (triple_upsert_indifferent hP hresource)
    fun inserted => ?_
  dsimp only
  split
  · refine Triple.bind (triple_references _ _) fun _ => ?_
    refine Triple.bind (triple_references _ _) fun _ => ?_
    exact hsecond.pre fun _ _ _ hpre => hpre.1.1
  · exact hsecond

/-!
## Quota
-/

theorem triple_additionalUsage {space : Uuid} {blobs : Blobs}
    {additional : Nat} :
    contract.Triple P (additionalUsage space blobs additional)
      fun _ => P := by
  induction blobs generalizing additional with
  | nil => exact Triple.pure _ fun _ _ _ hpre => hpre
  | cons blob rest ih =>
      refine Triple.rows_bind fun view _ => ?_
      split
      · exact ih
      · refine Triple.lift_bind fun _ _ => ?_
        exact ih

/-- A transaction relies on the quota that it has checked. -/
theorem triple_enforceNamespaceQuota {limits : Limits} {space : Uuid}
    {blobs : Blobs} :
    contract.Triple P (enforceNamespaceQuota limits space blobs)
      fun _ rows seen => P rows seen ∧
        contract.holds (.fits space blobs limits.namespaceStorageBytes)
          rows := by
  refine Triple.rows_bind fun view _ => ?_
  refine Triple.lift_bind fun _ _ => ?_
  refine Triple.bind triple_additionalUsage fun additional => ?_
  refine Triple.lift_bind fun _ _ => ?_
  refine Triple.lift_bind fun _ _ => ?_
  refine Triple.rely.post fun _ _ _ _ hpost => ?_
  exact ⟨hpost.1, hpost.2 _ List.mem_cons_self⟩

/-!
## Proposals
-/

/-- The target of a proposal is locked. -/
theorem triple_lockProposalRows {proposalId : Uuid} :
    contract.Triple P (lockProposalRows proposalId)
      fun found rows seen => P rows seen ∧
        seen (.resource found.1.targetResourceId) = some found.2.2.1 := by
  refine triple_lockRow_bind fun proposal => ?_
  refine triple_lockRow_bind fun source => ?_
  refine triple_lockRow_bind fun target => ?_
  refine triple_lockRow_bind fun workspace => ?_
  refine triple_lockRow_bind fun fork => ?_
  refine Triple.pure _ fun rows seen _ hpre => ?_
  exact ⟨hpre.1.1.1.1.1, hpre.1.1.2⟩

end Transaction
end Denju
