import Denju.Registry.TeamScripts
import Denju.Lib.TransactionLogic

/-!
# Assertions about the statements of teams

One specification for each group of statements that the endpoints share.  They
hold whatever a commit has to keep, of assertions that do not speak about the
rows that the statements write.
-/

namespace Denju

open Lib Contract

namespace Transaction

variable {contract : Contract TableRow Note} {P : Assertion TableRow}
  {userId team user : Uuid} {operationId : OperationId}
  {requestHash : RequestHash} {kind : TeamOperationKind}

/-- The assertion does not depend on what the transaction writes under these
keys. -/
def Indifferent (keys : TableKey -> Prop) (P : Assertion TableRow) : Prop :=
  forall k, keys k -> forall rows seen row, P rows seen ->
    P rows (Function.update seen k row)

theorem Indifferent.and {keys : TableKey -> Prop} {P Q : Assertion TableRow}
    (hP : Indifferent keys P) (hQ : Indifferent keys Q) :
    Indifferent keys fun rows seen => P rows seen ∧ Q rows seen :=
  fun k hk rows seen row h => ⟨hP k hk rows seen row h.1, hQ k hk rows seen row h.2⟩

theorem Indifferent.sub {keys others : TableKey -> Prop}
    {P : Assertion TableRow} (hP : Indifferent keys P)
    (hsub : forall k, others k -> keys k) : Indifferent others P :=
  fun k hk => hP k (hsub k hk)

/-- A fact about a row under another key. -/
theorem indifferent_row {keys : TableKey -> Prop} {k : TableKey}
    (hk : ¬keys k) (fact : Option (TableRow k) -> Prop) :
    Indifferent keys fun _ seen => fact (seen k) := by
  intro j hj rows seen row h
  have hne : k ≠ j := fun heq => hk (heq ▸ hj)
  rw [Function.update_of_ne hne]
  exact h

theorem indifferent_rows {keys : TableKey -> Prop}
    (fact : Rows TableRow -> Prop) :
    Indifferent keys fun rows _ => fact rows :=
  fun _ _ _ _ _ h => h

theorem triple_references (k : TableKey) (key : String) :
    contract.Triple P (references k key) fun _ rows seen =>
      P rows seen ∧ (seen k).isSome := by
  refine Triple.bind
    (Q := fun row rows seen => P rows seen ∧
      (row.isSome -> (seen k).isSome)) ?_ fun row => ?_
  · refine Triple.shareRow ?_ ?_
    · intro row rows seen _ hpre hrow
      exact ⟨hpre, fun _ => by rw [hrow]; rfl⟩
    · intro rows seen _ hpre
      exact ⟨hpre, fun h => by cases h⟩
  · refine Triple.lift ?_
    intro _ hok rows seen _ hpre
    exact ⟨hpre.1, hpre.2 (ensure_eq_ok.mp hok)⟩

theorem triple_insertNew {k : TableKey} {row : TableRow k} {key : String}
    {Q : Unit -> Assertion TableRow}
    (h : forall rows seen, contract.invariant rows -> P rows seen ->
      seen k = none -> Q () rows (Function.update seen k (some row))) :
    contract.Triple P (insertNew k row key) Q := by
  refine Triple.bind
    (Q := fun inserted rows seen => inserted = true -> Q () rows seen) ?_
    fun inserted => ?_
  · refine Triple.insertRow ?_ ?_
    · intro rows seen hinvariant hpre hnone _
      exact h rows seen hinvariant hpre hnone
    · intro rows seen _ _ hfalse
      cases hfalse
  · refine Triple.lift ?_
    intro _ hok rows seen _ hpre
    exact hpre (ensure_eq_ok.mp hok)

theorem triple_replayTeamOperation :
    contract.Triple P
      (replayTeamOperation userId operationId requestHash kind)
      fun _ => P := by
  refine Triple.rows_bind fun view _ => ?_
  split
  · exact Triple.pure _ fun _ _ _ hpre => hpre
  · refine Triple.lift_bind fun _ _ => ?_
    exact Triple.pure _ fun _ _ _ hpre => hpre

/-- The keys of recorded operations. -/
def OperationKey : TableKey -> Prop
  | .operation _ _ => True
  | _ => False

theorem triple_recordTeamOperation {outcome : TeamOutcome}
    (hP : Indifferent OperationKey P) :
    contract.Triple P
      (recordTeamOperation userId operationId requestHash kind outcome)
      fun _ => P :=
  triple_insertNew fun rows seen _ hpre _ =>
    hP (.operation userId operationId) trivial rows seen _ hpre

/-- The endpoint keeps what its own statements keep. -/
theorem triple_recorded {body : Transaction TeamOutcome}
    {Q : TeamOutcome -> Assertion TableRow}
    (hbody : contract.Triple (fun rows seen => seen = rows) body Q)
    (hQ : forall outcome, Indifferent OperationKey (Q outcome))
    (hkept : forall outcome rows seen, contract.invariant rows ->
      Q outcome rows seen -> contract.invariant seen) :
    contract.Triple (fun rows seen => seen = rows)
      (recorded userId operationId requestHash kind body)
      fun _ rows seen => seen = rows := by
  refine Triple.transaction
    (Q := fun outcome rows seen => seen = rows ∨ Q outcome rows seen) ?_ ?_
  · refine Triple.bind triple_replayTeamOperation fun replay => ?_
    cases replay with
    | some outcome =>
        exact Triple.pure outcome fun _ _ _ hpre => .inl hpre
    | none =>
        refine Triple.bind hbody fun outcome => ?_
        refine Triple.bind (triple_recordTeamOperation (hQ outcome))
          fun _ => ?_
        exact Triple.pure outcome fun _ _ _ hpre => .inr hpre
  · rintro outcome rows seen hinvariant (rfl | hpost)
    · exact hinvariant
    · exact hkept outcome rows seen hinvariant hpost

/-- A lock changes nothing that the transaction sees. -/
theorem triple_lock {k : TableKey} :
    contract.Triple P
      (Script.lockRow k : Transaction (Option (TableRow k))) fun _ => P :=
  Triple.lockRow (fun _ _ _ _ hpre _ => hpre) fun _ _ _ hpre => hpre

/-- A locked row, if there is one. -/
theorem triple_lockRow_bind {β : Type} {k : TableKey} {error : ApiError}
    {f : TableRow k -> Transaction β} {R : β -> Assertion TableRow}
    (h : forall row, contract.Triple
      (fun rows seen => P rows seen ∧ seen k = some row) (f row) R) :
    contract.Triple P
      ((Script.lockRow k : Transaction (Option (TableRow k))) >>= fun row =>
        (liftM (okOr row error) : Transaction (TableRow k)) >>= f) R := by
  refine Triple.bind
    (Q := fun row rows seen => P rows seen ∧
      forall found, row = some found -> seen k = some found) ?_ fun row => ?_
  · refine Triple.lockRow ?_ ?_
    · intro row rows seen _ hpre hrow
      refine ⟨hpre, ?_⟩
      rintro found ⟨⟩
      exact hrow
    · intro rows seen _ hpre
      refine ⟨hpre, ?_⟩
      rintro found ⟨⟩
  · refine Triple.lift_bind fun found hfound => ?_
    refine (h found).pre fun rows seen _ hpre => ?_
    exact ⟨hpre.1, hpre.2 found (okOr_eq_ok.mp hfound)⟩

theorem triple_teamMembershipForUpdate {slug : Text} :
    contract.Triple P (teamMembershipForUpdate userId slug)
      fun found rows seen => P rows seen ∧
        (exists team : Team, seen (.team found.1) = some team ∧
          team.membersCanPublish = found.2.2) ∧
        seen (.membership found.1 userId) = some found.2.1 := by
  refine Triple.rows_bind fun view _ => ?_
  refine Triple.lift_bind fun row _ => ?_
  refine triple_lockRow_bind fun team => ?_
  refine triple_lockRow_bind fun role => ?_
  refine Triple.pure _ fun rows seen _ hpre => ?_
  exact ⟨hpre.1.1, ⟨team, hpre.1.2, rfl⟩, hpre.2⟩

theorem triple_userBySlug {slug : Text} :
    contract.Triple P (userBySlug slug) fun _ => P := by
  refine Triple.rows_bind fun view _ => ?_
  exact Triple.lift fun _ _ _ _ _ hpre => hpre

theorem triple_lockedMember {missing : String} :
    contract.Triple P (lockedMember team user missing)
      fun role rows seen => P rows seen ∧
        seen (.membership team user) = some role := by
  refine Triple.bind
    (Q := fun row rows seen => P rows seen ∧
      forall found, row = some found ->
        seen (.membership team user) = some found) ?_ fun row => ?_
  · refine Triple.lockRow ?_ ?_
    · intro row rows seen _ hpre hrow
      refine ⟨hpre, ?_⟩
      rintro found ⟨⟩
      exact hrow
    · intro rows seen _ hpre
      refine ⟨hpre, ?_⟩
      rintro found ⟨⟩
  · refine Triple.lift ?_
    intro role hrole rows seen _ hpre
    exact ⟨hpre.1, hpre.2 role (okOr_eq_ok.mp hrole)⟩

/-- A statement that writes under keys of which the assertion does not
speak. -/
theorem triple_update_indifferent {keys : TableKey -> Prop} {k : TableKey}
    {set : TableRow k -> Option (TableRow k)} (hP : Indifferent keys P)
    (hk : keys k) :
    contract.Triple P (Script.update k set Script.done : Transaction Bool)
      fun _ => P :=
  Triple.update
    (fun _ rows seen _ hpre _ => hP k hk rows seen _ hpre)
    fun _ _ _ _ hpre => hpre

/-- The keys of workspaces. -/
def WorkspaceKey : TableKey -> Prop
  | .workspace _ _ => True
  | _ => False

/-- The workspaces that the user had on the skills of the team are deleted. -/
theorem triple_removeTeamWorkspacesForUser {actor : Uuid}
    (hP : forall resource rows seen, P rows seen ->
      P rows (Function.update seen (.workspace resource user) none)) :
    contract.Triple P (removeTeamWorkspacesForUser actor team user)
      fun _ rows seen => P rows seen ∧
        exists deleted, contract.holds (.cleared team user deleted) rows ∧
          forall resource, resource ∈ deleted ->
            seen (.workspace resource user) = none := by
  refine Triple.rows_bind fun view _ => ?_
  refine Triple.lift_bind fun _ _ => ?_
  refine Triple.rows_bind fun view _ => ?_
  refine Triple.bind
    (Q := fun deleted rows seen => P rows seen ∧
      forall resource, resource ∈ deleted ->
        seen (.workspace resource user) = none) ?_ fun deleted => ?_
  · refine Triple.pre (Triple.filterEach
      (R := fun deleted rows seen => P rows seen ∧
        forall resource, resource ∈ deleted ->
          seen (.workspace resource user) = none) ?_ []) ?_
    · intro resource found _
      refine Triple.update ?_ fun _ _ _ _ hpre => hpre
      intro row rows seen _ hpre _
      refine ⟨hP resource rows seen hpre.1, ?_⟩
      intro other hother
      by_cases hsame : other = resource
      · subst hsame
        exact Function.update_self _ _ _
      · rw [Function.update_of_ne (by simpa using hsame)]
        rcases List.mem_append.mp hother with hold | hnew
        · exact hpre.2 other hold
        · exact absurd (List.mem_singleton.mp hnew) hsame
    · intro rows seen _ hpre
      exact ⟨hpre, nofun⟩
  · refine Triple.rely.post fun _ rows seen _ hpost => ?_
    exact ⟨hpost.1.1, deleted, hpost.2 _ List.mem_cons_self, hpost.1.2⟩

theorem triple_removeTeamWorkspaces_indifferent {actor : Uuid}
    (hP : Indifferent WorkspaceKey P) :
    contract.Triple P (removeTeamWorkspacesForUser actor team user)
      fun _ => P :=
  (triple_removeTeamWorkspacesForUser fun resource rows seen hpre =>
    hP (.workspace resource user) trivial rows seen none hpre).post
      fun _ _ _ _ hpost => hpost.1

end Transaction
end Denju
