import Denju.Registry.TeamTriples

/-!
# The owner of a team

Every team has exactly one owner.  Joining, changing a role, removing a member
and leaving never touch an owner, and an acceptance of an ownership transfer
moves the role from one member to another.  An acceptance relies on its nominee
still being a member, and the deletion of an account on the user owning none of
the teams that it leaves; neither of them locks what it has checked.
-/

namespace Denju

open Lib Contract

/-- Every team has one owner, and memberships are of teams. -/
structure OneOwner (rows : Rows TableRow) : Prop where
  owned : forall team, (rows (.team team)).isSome ->
    exists user, rows (.membership team user) = some .owner
  unique : forall team user other,
    rows (.membership team user) = some .owner ->
      rows (.membership team other) = some .owner -> user = other
  ofTeam : forall team user, (rows (.membership team user)).isSome ->
    (rows (.team team)).isSome

def ownerContract : Contract TableRow Note where
  invariant := OneOwner
  holds
    | .member team user, rows => (rows (.membership team user)).isSome
    | .ownsNone user teams, rows => forall team, team ∈ teams ->
        rows (.membership team user) ≠ some .owner
    | _, _ => True

def ownerCheck (note : Note) (rows : Rows TableRow) : Bool :=
  match note with
  | .member team user => (rows (.membership team user)).isSome
  | .ownsNone user teams =>
      teams.all fun team =>
        decide (rows (.membership team user) ≠ some .owner)
  | _ => true

theorem ownerContract_holds_of_check {note : Note} {rows : Rows TableRow}
    (h : ownerCheck note rows = true) : ownerContract.holds note rows := by
  cases note with
  | member team user => exact h
  | ownsNone user teams =>
      intro team hteam
      exact of_decide_eq_true (List.all_eq_true.mp h team hteam)
  | _ => trivial

/-- The keys on which the owners depend. -/
def OwnerKey : TableKey -> Prop
  | .team _ => True
  | .membership _ _ => True
  | _ => False

def OtherKey (k : TableKey) : Prop :=
  ¬OwnerKey k

namespace OneOwner

variable {rows : Rows TableRow} {team user : Uuid}

theorem update_team (h : OneOwner rows) {row : Team}
    (hteam : (rows (.team team)).isSome) :
    OneOwner (Function.update rows (.team team) (some row)) := by
  have hmembers : forall found user,
      Function.update rows (.team team) (some row) (.membership found user) =
        rows (.membership found user) :=
    fun found user => Function.update_of_ne (by simp) _ _
  have hteams : forall found,
      (Function.update rows (.team team) (some row) (.team found)).isSome =
        (rows (.team found)).isSome := by
    intro found
    by_cases hsame : found = team
    · subst hsame
      rw [Function.update_self, hteam]
      rfl
    · rw [Function.update_of_ne (by simpa using hsame)]
  constructor
  · intro found hfound
    rw [hteams] at hfound
    rcases h.owned found hfound with ⟨owner, howner⟩
    exact ⟨owner, by rw [hmembers]; exact howner⟩
  · intro found first second hfirst hsecond
    rw [hmembers] at hfirst hsecond
    exact h.unique found first second hfirst hsecond
  · intro found member hmember
    rw [hmembers] at hmember
    rw [hteams]
    exact h.ofTeam found member hmember

/-- The owners depend on few rows. -/
theorem congr (h : OneOwner rows) {seen : Rows TableRow}
    (hsame : forall k, OwnerKey k -> seen k = rows k) : OneOwner seen := by
  have hteams : forall found, seen (.team found) = rows (.team found) :=
    fun found => hsame (.team found) trivial
  have hmembers : forall found user,
      seen (.membership found user) = rows (.membership found user) :=
    fun found user => hsame (.membership found user) trivial
  constructor
  · intro found hfound
    rw [hteams] at hfound
    rcases h.owned found hfound with ⟨owner, howner⟩
    exact ⟨owner, by rw [hmembers]; exact howner⟩
  · intro found first second hfirst hsecond
    rw [hmembers] at hfirst hsecond
    exact h.unique found first second hfirst hsecond
  · intro found member hmember
    rw [hmembers] at hmember
    rw [hteams]
    exact h.ofTeam found member hmember

/-- A membership that is no ownership may change, but not into one. -/
theorem update_membership (h : OneOwner rows) {row : Option TeamRole}
    (hold : rows (.membership team user) ≠ some .owner)
    (hnew : row ≠ some .owner)
    (hteam : row.isSome -> (rows (.team team)).isSome) :
    OneOwner (Function.update rows (.membership team user) row) := by
  have hteams : forall found,
      Function.update rows (.membership team user) row (.team found) =
        rows (.team found) :=
    fun found => Function.update_of_ne (by simp) _ _
  have howners : forall found member,
      Function.update rows (.membership team user) row
          (.membership found member) = some .owner <->
        rows (.membership found member) = some .owner := by
    intro found member
    by_cases hsame : found = team ∧ member = user
    · rcases hsame with ⟨rfl, rfl⟩
      rw [Function.update_self]
      exact iff_of_false hnew hold
    · rw [Function.update_of_ne (by simpa using hsame)]
  constructor
  · intro found hfound
    rw [hteams] at hfound
    rcases h.owned found hfound with ⟨owner, howner⟩
    exact ⟨owner, (howners found owner).mpr howner⟩
  · intro found first second hfirst hsecond
    exact h.unique found first second ((howners _ _).mp hfirst)
      ((howners _ _).mp hsecond)
  · intro found member hmember
    rw [hteams]
    by_cases hsame : found = team ∧ member = user
    · rcases hsame with ⟨rfl, rfl⟩
      rw [Function.update_self] at hmember
      exact hteam hmember
    · rw [Function.update_of_ne (by simpa using hsame)] at hmember
      exact h.ofTeam found member hmember

/-- A new team starts with its owner. -/
theorem create (h : OneOwner rows) {row : Team}
    (hnew : rows (.team team) = none) :
    OneOwner (Function.update
      (Function.update rows (.team team) (some row))
      (.membership team user) (some .owner)) := by
  have hnone : forall member, rows (.membership team member) = none := by
    intro member
    by_contra hsome
    have hteam := h.ofTeam team member (Option.isSome_iff_ne_none.mpr hsome)
    rw [hnew] at hteam
    cases hteam
  have hmember : forall found member,
      Function.update (Function.update rows (.team team) (some row))
          (.membership team user) (some .owner) (.membership found member) =
        if found = team ∧ member = user then some .owner
        else rows (.membership found member) := by
    intro found member
    split
    · rename_i hsame
      rcases hsame with ⟨rfl, rfl⟩
      rw [Function.update_self]
    · rename_i hsame
      rw [Function.update_of_ne (by simpa using hsame),
        Function.update_of_ne (by simp)]
  have hteams : forall found,
      Function.update (Function.update rows (.team team) (some row))
          (.membership team user) (some .owner) (.team found) =
        if found = team then some row else rows (.team found) := by
    intro found
    rw [Function.update_of_ne (by simp)]
    split
    · rename_i hsame
      subst hsame
      rw [Function.update_self]
    · rename_i hsame
      rw [Function.update_of_ne (by simpa using hsame)]
  constructor
  · intro found hfound
    rw [hteams] at hfound
    by_cases hsame : found = team
    · exact ⟨user, by simp [hmember, hsame]⟩
    · rw [if_neg hsame] at hfound
      rcases h.owned found hfound with ⟨owner, howner⟩
      refine ⟨owner, ?_⟩
      rw [hmember, if_neg (by simp [hsame]), howner]
  · intro found first second hfirst hsecond
    rw [hmember] at hfirst hsecond
    by_cases hsame : found = team
    · subst hsame
      simp only [true_and, hnone] at hfirst hsecond
      have hone : first = user := by
        by_contra hne
        simp [hne] at hfirst
      have htwo : second = user := by
        by_contra hne
        simp [hne] at hsecond
      rw [hone, htwo]
    · simp only [hsame, false_and, if_false] at hfirst hsecond
      exact h.unique found first second hfirst hsecond
  · intro found member hfound
    rw [hmember] at hfound
    rw [hteams]
    by_cases hsame : found = team
    · simp [hsame]
    · simp only [hsame, false_and, if_false] at hfound ⊢
      exact h.ofTeam found member hfound

/-- The ownership moves to another member. -/
theorem move (h : OneOwner rows) {giver taker : Uuid} (hne : giver ≠ taker)
    (howner : rows (.membership team giver) = some .owner)
    (hmember : (rows (.membership team taker)).isSome) :
    OneOwner (Function.update
      (Function.update rows (.membership team giver) (some .maintainer))
      (.membership team taker) (some .owner)) := by
  have hafter : forall found member,
      Function.update
          (Function.update rows (.membership team giver) (some .maintainer))
          (.membership team taker) (some .owner) (.membership found member) =
        if found = team ∧ member = taker then some .owner
        else if found = team ∧ member = giver then some .maintainer
        else rows (.membership found member) := by
    intro found member
    split
    · rename_i hsame
      rcases hsame with ⟨rfl, rfl⟩
      rw [Function.update_self]
    · rename_i hsame
      rw [Function.update_of_ne (by simpa using hsame)]
      split
      · rename_i hfrom
        rcases hfrom with ⟨rfl, rfl⟩
        rw [Function.update_self]
      · rename_i hfrom
        rw [Function.update_of_ne (by simpa using hfrom)]
  have hteams : forall found,
      Function.update
          (Function.update rows (.membership team giver) (some .maintainer))
          (.membership team taker) (some .owner) (.team found) =
        rows (.team found) := by
    intro found
    rw [Function.update_of_ne (by simp), Function.update_of_ne (by simp)]
  have hteam : (rows (.team team)).isSome := h.ofTeam team taker hmember
  constructor
  · intro found hfound
    rw [hteams] at hfound
    by_cases hsame : found = team
    · exact ⟨taker, by simp [hafter, hsame]⟩
    · rcases h.owned found hfound with ⟨owner, hfoundOwner⟩
      exact ⟨owner, by
        rw [hafter, if_neg (by simp [hsame]), if_neg (by simp [hsame])]
        exact hfoundOwner⟩
  · intro found first second hfirst hsecond
    rw [hafter] at hfirst hsecond
    by_cases hsame : found = team
    · subst hsame
      have honly : forall member,
          (if found = found ∧ member = taker then some TeamRole.owner
            else if found = found ∧ member = giver then
              some TeamRole.maintainer
            else rows (.membership found member)) = some .owner ->
          member = taker := by
        intro member hrole
        by_contra hother
        simp only [hother, and_false, if_false, true_and] at hrole
        split at hrole
        · cases hrole
        · rename_i hnot
          exact hnot (h.unique found giver member howner hrole).symm
      rw [honly first hfirst, honly second hsecond]
    · simp only [hsame, false_and, if_false] at hfirst hsecond
      exact h.unique found first second hfirst hsecond
  · intro found member hfound
    rw [hteams]
    by_cases hsame : found = team
    · rw [hsame]
      exact hteam
    · rw [hafter] at hfound
      simp only [hsame, false_and, if_false] at hfound
      exact h.ofTeam found member hfound

end OneOwner

/-!
## Endpoints
-/

/-- The transaction would leave one owner. -/
def OwnerKept : Assertion TableRow :=
  fun _ seen => OneOwner seen

/-- The transaction has changed no team and no membership. -/
def OwnersUntouched : Assertion TableRow :=
  fun rows seen => forall k, OwnerKey k -> seen k = rows k

namespace Transaction

theorem update_otherKey {k j : TableKey} (hk : OtherKey k) (hj : OwnerKey j)
    (seen : Rows TableRow) (row : Option (TableRow k)) :
    Function.update seen k row j = seen j := by
  apply Function.update_of_ne
  rintro rfl
  exact hk hj

theorem indifferent_kept : Indifferent OtherKey OwnerKept :=
  fun _ hk _ seen row h => h.congr fun _ hj => update_otherKey hk hj seen row

theorem indifferent_untouched : Indifferent OtherKey OwnersUntouched :=
  fun _ hk _ seen row h j hj =>
    (update_otherKey hk hj seen row).trans (h j hj)

theorem Indifferent.operation {P : Assertion TableRow}
    (h : Indifferent OtherKey P) : Indifferent OperationKey P := by
  apply h.sub
  intro k hk
  cases k with
  | operation user operation => exact fun howner => howner
  | _ => cases hk

theorem Indifferent.workspace {P : Assertion TableRow}
    (h : Indifferent OtherKey P) : Indifferent WorkspaceKey P := by
  apply h.sub
  intro k hk
  cases k with
  | workspace resource user => exact fun howner => howner
  | _ => cases hk

variable {userId : Uuid} {operationId : OperationId}
  {requestHash : RequestHash} {kind : TeamOperationKind} {slug : Text}

/-- An endpoint whose own statements leave one owner. -/
theorem kept_recorded {body : Transaction TeamOutcome}
    (hbody : ownerContract.Triple (fun rows seen => seen = rows) body
      fun _ => OwnerKept) :
    ownerContract.Triple (fun rows seen => seen = rows)
      (recorded userId operationId requestHash kind body)
      fun _ rows seen => seen = rows :=
  triple_recorded hbody (fun _ => indifferent_kept.operation)
    fun _ _ _ _ hpost => hpost

theorem kept_start {α : Type} {script : Transaction α}
    {Q : α -> Assertion TableRow}
    (h : ownerContract.Triple OwnerKept script Q) :
    ownerContract.Triple (fun rows seen => seen = rows) script Q :=
  h.pre fun rows seen hinvariant hsame => by
    rw [hsame]
    exact hinvariant

theorem kept_updateOther {k : TableKey} {set : TableRow k -> Option (TableRow k)}
    (hk : OtherKey k) :
    ownerContract.Triple OwnerKept
      (Script.update k set Script.done : Transaction Bool) fun _ => OwnerKept :=
  triple_update_indifferent indifferent_kept hk

theorem kept_insertOther {k : TableKey} {row : TableRow k} {key : String}
    (hk : OtherKey k) :
    ownerContract.Triple OwnerKept (insertNew k row key) fun _ => OwnerKept :=
  triple_insertNew fun rows seen _ hpre _ =>
    indifferent_kept k hk rows seen (some row) hpre

theorem kept_joinTeam {codeHash : Digest} {now : Nat} :
    ownerContract.Triple (fun rows seen => seen = rows)
      (joinTeam userId operationId requestHash codeHash now)
      fun _ rows seen => seen = rows := by
  apply kept_recorded
  apply kept_start
  refine Triple.rows_bind fun bound _ => ?_
  refine Triple.lift_bind fun _ _ => ?_
  refine Triple.rows_bind fun view _ => ?_
  refine Triple.lift_bind fun id _ => ?_
  refine triple_lockRow_bind fun invite => ?_
  refine Triple.pre ?_ fun rows seen _ hpre => hpre.1
  refine Triple.lift_bind fun space _ => ?_
  refine Triple.lift_bind fun team _ => ?_
  refine Triple.lift_bind fun _ _ => ?_
  refine Triple.lift_bind fun _ _ => ?_
  refine Triple.lift_bind fun _ _ => ?_
  refine Triple.rows_bind fun view _ => ?_
  refine Triple.lift_bind fun _ _ => ?_
  refine Triple.bind
    (Q := fun _ _ seen => exists base, OneOwner base ∧
      base (.membership invite.teamNamespaceId userId) = none ∧
      seen = Function.update base (.membership invite.teamNamespaceId userId)
        (some invite.role)) ?_ fun _ => ?_
  · refine triple_insertNew fun rows seen _ hpre hnone => ?_
    exact ⟨seen, hpre, hnone, rfl⟩
  refine Triple.bind (triple_references _ _) fun _ => ?_
  refine Triple.pre (P := OwnerKept) ?_ ?_
  · refine Triple.bind (triple_references _ _) fun _ => ?_
    refine Triple.pre ?_ fun rows seen _ hpre => hpre.1
    refine Triple.bind (kept_updateOther (fun h => h)) fun _ => ?_
    exact Triple.pure _ fun _ _ _ hpre => hpre
  · rintro rows seen _ ⟨⟨base, hone, hnone, rfl⟩, hteam⟩
    refine hone.update_membership ?_ ?_ ?_
    · rw [hnone]
      simp
    · intro hsame
      exact invite.notOwner (Option.some.inj hsame)
    · intro _
      rw [Function.update_of_ne (by simp)] at hteam
      exact hteam

theorem kept_createTeam {namespaceId : Uuid} :
    ownerContract.Triple (fun rows seen => seen = rows)
      (createTeam userId operationId requestHash slug namespaceId)
      fun _ rows seen => seen = rows := by
  apply kept_recorded
  apply kept_start
  refine Triple.rows_bind fun view _ => ?_
  refine Triple.lift_bind fun _ _ => ?_
  refine Triple.bind (kept_insertOther (fun h => h)) fun _ => ?_
  refine Triple.bind
    (Q := fun _ _ seen => exists base, OneOwner base ∧
      base (.team namespaceId) = none ∧
      seen = Function.update base (.team namespaceId)
        (some ⟨namespaceId, false⟩)) ?_ fun _ => ?_
  · refine triple_insertNew fun rows seen _ hpre hnone => ?_
    exact ⟨seen, hpre, hnone, rfl⟩
  refine Triple.bind (triple_references _ _) fun _ => ?_
  refine Triple.bind (Q := fun _ => OwnerKept) ?_ fun _ => ?_
  · refine triple_insertNew ?_
    rintro rows seen _ ⟨⟨base, hone, hnone, rfl⟩, _⟩ _
    exact hone.create hnone
  refine Triple.bind (triple_references _ _) fun _ => ?_
  refine Triple.bind (triple_references _ _) fun _ => ?_
  exact Triple.pure _ fun _ _ _ hpre => hpre.1.1

/-- The role of a member who is not the owner changes, or ends. -/
theorem kept_updateMember {team user : Uuid} {role : TeamRole}
    {set : TeamRole -> Option TeamRole} (hrole : role ≠ .owner)
    (hset : forall old, set old ≠ some .owner) :
    ownerContract.Triple
      (fun rows seen => OwnerKept rows seen ∧
        seen (.membership team user) = some role)
      (Script.update (.membership team user) set Script.done :
        Transaction Bool) fun _ => OwnerKept := by
  refine Triple.update ?_ fun _ _ _ _ hpre => hpre.1
  rintro row rows seen _ ⟨hone, hfound⟩ hrow
  refine OneOwner.update_membership hone ?_ (hset row) ?_
  · rw [hfound]
    intro hsame
    exact hrole (Option.some.inj hsame)
  · intro _
    apply OneOwner.ofTeam hone team user
    rw [hrow]
    rfl

theorem kept_removeTeamWorkspaces {actor team user : Uuid} :
    ownerContract.Triple OwnerKept (removeTeamWorkspacesForUser actor team user)
      fun _ => OwnerKept :=
  triple_removeTeamWorkspaces_indifferent indifferent_kept.workspace

/-- The rows of members stay as they are while workspaces are removed. -/
theorem kept_removeWorkspacesOf {actor team user : Uuid} {role : TeamRole} :
    ownerContract.Triple
      (fun rows seen => OwnerKept rows seen ∧
        seen (.membership team user) = some role)
      (removeTeamWorkspacesForUser actor team user)
      fun _ rows seen => OwnerKept rows seen ∧
        seen (.membership team user) = some role :=
  triple_removeTeamWorkspaces_indifferent
    (indifferent_kept.workspace.and
      (indifferent_row (k := .membership team user) id fun row =>
        row = some role))

theorem kept_changeTeamMemberRole {member : Text} {role : TeamRole} :
    ownerContract.Triple (fun rows seen => seen = rows)
      (changeTeamMemberRole userId operationId requestHash slug member role)
      fun _ rows seen => seen = rows := by
  refine Triple.lift_bind fun _ hrole => ?_
  have hnew : role ≠ .owner := by simpa using ensure_eq_ok.mp hrole
  apply kept_recorded
  apply kept_start
  refine Triple.bind triple_teamMembershipForUpdate ?_
  rintro ⟨team, actorRole, membersCanPublish⟩
  refine Triple.pre (P := OwnerKept) ?_ fun rows seen _ hpre => hpre.1
  refine Triple.lift_bind fun _ _ => ?_
  refine Triple.bind triple_userBySlug fun target => ?_
  refine Triple.bind triple_lockedMember fun currentRole => ?_
  refine Triple.lift_bind fun _ hcurrent => ?_
  have hold : currentRole ≠ .owner := by simpa using ensure_eq_ok.mp hcurrent
  dsimp only
  split
  · refine Triple.bind (kept_updateMember hold ?_) fun _ => ?_
    · intro _ hsame
      exact hnew (Option.some.inj hsame)
    · split
      · refine Triple.bind kept_removeTeamWorkspaces fun _ => ?_
        exact Triple.pure _ fun _ _ _ hpre => hpre
      · exact Triple.pure _ fun _ _ _ hpre => hpre
  · exact Triple.pure _ fun _ _ _ hpre => hpre.1

theorem kept_removeTeamMember {member : Text} :
    ownerContract.Triple (fun rows seen => seen = rows)
      (removeTeamMember userId operationId requestHash slug member)
      fun _ rows seen => seen = rows := by
  apply kept_recorded
  apply kept_start
  refine Triple.bind triple_teamMembershipForUpdate ?_
  rintro ⟨team, actorRole, membersCanPublish⟩
  refine Triple.pre (P := OwnerKept) ?_ fun rows seen _ hpre => hpre.1
  refine Triple.lift_bind fun _ _ => ?_
  refine Triple.bind triple_userBySlug fun target => ?_
  refine Triple.bind triple_lockedMember fun targetRole => ?_
  refine Triple.lift_bind fun _ hrole => ?_
  have hold : targetRole ≠ .owner := by simpa using ensure_eq_ok.mp hrole
  refine Triple.bind kept_removeWorkspacesOf fun _ => ?_
  refine Triple.bind (kept_updateMember hold fun _ => nofun) fun _ => ?_
  exact Triple.pure _ fun _ _ _ hpre => hpre

theorem kept_leaveTeam :
    ownerContract.Triple (fun rows seen => seen = rows)
      (leaveTeam userId operationId requestHash slug)
      fun _ rows seen => seen = rows := by
  apply kept_recorded
  apply kept_start
  refine Triple.bind triple_teamMembershipForUpdate ?_
  rintro ⟨team, role, membersCanPublish⟩
  refine Triple.pre (P := fun rows seen => OwnerKept rows seen ∧
    seen (.membership team userId) = some role) ?_ fun rows seen _ hpre =>
      ⟨hpre.1, hpre.2.2⟩
  refine Triple.lift_bind fun _ hrole => ?_
  have hold : role ≠ .owner := by simpa using ensure_eq_ok.mp hrole
  refine Triple.bind kept_removeWorkspacesOf fun _ => ?_
  refine Triple.bind (kept_updateMember hold fun _ => nofun) fun _ => ?_
  exact Triple.pure _ fun _ _ _ hpre => hpre

theorem kept_updateTeamSettings {membersCanPublish : Bool} :
    ownerContract.Triple (fun rows seen => seen = rows)
      (updateTeamSettings userId operationId requestHash slug
        membersCanPublish)
      fun _ rows seen => seen = rows := by
  apply kept_recorded
  apply kept_start
  refine Triple.bind triple_teamMembershipForUpdate ?_
  rintro ⟨team, actorRole, current⟩
  refine Triple.pre (P := OwnerKept) ?_ fun rows seen _ hpre => hpre.1
  refine Triple.lift_bind fun _ _ => ?_
  dsimp only
  split
  · refine Triple.bind (Q := fun _ => OwnerKept) ?_ fun _ => ?_
    · refine Triple.update ?_ fun _ _ _ _ hpre => hpre
      intro row rows seen _ hone hrow
      apply OneOwner.update_team hone
      rw [hrow]
      rfl
    · split
      · refine Triple.rows_bind fun view _ => ?_
        refine Triple.bind
          (Triple.each fun _ _ => kept_removeTeamWorkspaces) fun _ => ?_
        refine Triple.bind Triple.rely fun _ => ?_
        exact Triple.pure _ fun _ _ _ hpre => hpre.1
      · exact Triple.pure _ fun _ _ _ hpre => hpre
  · exact Triple.pure _ fun _ _ _ hpre => hpre

theorem kept_createTeamOwnerTransfer {member : Text} {codeHash : Digest}
    {transferId : Uuid} :
    ownerContract.Triple (fun rows seen => seen = rows)
      (createTeamOwnerTransfer userId operationId requestHash slug member
        codeHash transferId)
      fun _ rows seen => seen = rows := by
  apply kept_recorded
  apply kept_start
  refine Triple.bind triple_teamMembershipForUpdate ?_
  rintro ⟨team, role, membersCanPublish⟩
  refine Triple.pre (P := OwnerKept) ?_ fun rows seen _ hpre => hpre.1
  refine Triple.lift_bind fun _ _ => ?_
  refine Triple.bind triple_userBySlug fun target => ?_
  refine Triple.bind triple_lockedMember fun targetRole => ?_
  refine Triple.pre (P := OwnerKept) ?_ fun rows seen _ hpre => hpre.1
  refine Triple.lift_bind fun _ _ => ?_
  refine Triple.rows_bind fun view _ => ?_
  refine Triple.bind (Q := fun _ => OwnerKept) (Triple.each fun id _ => ?_)
    fun _ => ?_
  · refine Triple.bind (kept_updateOther (fun h => h)) fun _ => ?_
    exact Triple.pure () fun _ _ _ hpre => hpre
  · split
    · refine Triple.bind (kept_insertOther (fun h => h)) fun _ => ?_
      exact Triple.pure _ fun _ _ _ hpre => hpre
    · exact Triple.fail _

theorem triple_lockedOwner {P : Assertion TableRow} {team : Uuid} :
    ownerContract.Triple P (lockedOwner team) fun owner rows seen =>
      P rows seen ∧ seen (.membership team owner) = some .owner := by
  refine Triple.rows_bind fun view _ => ?_
  refine Triple.lift_bind fun owner _ => ?_
  refine Triple.bind
    (Q := fun role rows seen => P rows seen ∧
      (role = some .owner ->
        seen (.membership team owner) = some .owner)) ?_ fun role => ?_
  · refine Triple.lockRow ?_ ?_
    · intro row rows seen _ hpre hrow
      exact ⟨hpre, fun hrole => hrow.trans hrole⟩
    · intro rows seen _ hpre
      exact ⟨hpre, nofun⟩
  · refine Triple.lift_bind fun _ hrole => ?_
    refine Triple.pure owner fun rows seen _ hpre => ?_
    exact ⟨hpre.1, hpre.2 (by simpa using ensure_eq_ok.mp hrole)⟩

/-- The ownership moves, as long as the nominee is still a member. -/
theorem kept_acceptTeamOwnerTransfer {codeHash : Digest} :
    ownerContract.Triple (fun rows seen => seen = rows)
      (acceptTeamOwnerTransfer userId operationId requestHash codeHash)
      fun _ rows seen => seen = rows := by
  apply kept_recorded
  refine Triple.pre (P := OwnersUntouched) ?_ fun rows seen _ hsame k _ => by
    rw [hsame]
  refine Triple.rows_bind fun view _ => ?_
  refine Triple.lift_bind fun id _ => ?_
  refine triple_lockRow_bind fun row => ?_
  refine Triple.pre ?_ fun rows seen _ hpre => hpre.1
  refine Triple.lift_bind fun space _ => ?_
  refine Triple.lift_bind fun _ _ => ?_
  refine Triple.lift_bind fun _ _ => ?_
  refine Triple.bind triple_lockedOwner fun currentOwner => ?_
  refine Triple.lift_bind fun _ hcurrent => ?_
  have hgiver : currentOwner = row.fromUserId := by
    simpa using ensure_eq_ok.mp hcurrent
  subst hgiver
  refine Triple.rows_bind fun view _ => ?_
  refine Triple.lift_bind fun _ _ => ?_
  refine Triple.bind
    (Q := fun _ rows seen => exists base,
      OwnersUntouched rows base ∧
      base (.membership row.teamNamespaceId row.fromUserId) = some .owner ∧
      seen = Function.update base
        (.membership row.teamNamespaceId row.fromUserId)
        (some .maintainer)) ?_ fun _ => ?_
  · refine Triple.update ?_ ?_
    · intro found rows seen _ hpre _
      exact ⟨seen, hpre.1, hpre.2, rfl⟩
    · rintro ⟨rows, seen, _, ⟨_, howner⟩, hnone⟩
      rw [howner] at hnone
      cases hnone
  refine Triple.bind Triple.rely fun _ => ?_
  refine Triple.bind (Q := fun _ => OwnerKept) ?_ fun _ => ?_
  · have hmember : forall {rows base : Rows TableRow},
        OwnersUntouched rows base ->
        (forall note, note ∈
            [Note.member row.teamNamespaceId row.toUserId] ->
          ownerContract.holds note rows) ->
        (base (.membership row.teamNamespaceId row.toUserId)).isSome := by
      intro rows base huntouched hnotes
      rw [huntouched (.membership _ _) trivial]
      exact hnotes _ List.mem_cons_self
    refine Triple.update ?_ ?_
    · rintro found rows seen hinvariant
        ⟨⟨base, huntouched, howner, rfl⟩, hnotes⟩ _
      exact (OneOwner.congr hinvariant huntouched).move row.distinct howner
        (hmember huntouched hnotes)
    · rintro ⟨rows, seen, _, ⟨⟨base, huntouched, howner, rfl⟩, hnotes⟩, hnone⟩
      have hfound := hmember huntouched hnotes
      rw [Function.update_of_ne (by simp [row.distinct.symm])] at hnone
      rw [hnone] at hfound
      cases hfound
  refine Triple.bind (kept_updateOther (fun h => h)) fun _ => ?_
  exact Triple.pure _ fun _ _ _ hpre => hpre

theorem triple_lockedOwnership {P : Assertion TableRow} {teams : List Uuid} :
    ownerContract.Triple P (lockedOwnership userId teams) fun _ => P := by
  induction teams with
  | nil => exact Triple.pure _ fun _ _ _ hpre => hpre
  | cons team rest ih =>
      refine Triple.bind triple_lock fun role => ?_
      split
      · exact Triple.pure _ fun _ _ _ hpre => hpre
      · exact ih

/-- An account that owns no team leaves its teams. -/
theorem kept_deleteMemberships {teams : List Uuid} :
    ownerContract.Triple
      (fun rows seen => OwnerKept rows seen ∧
        forall team, team ∈ teams ->
          seen (.membership team userId) ≠ some .owner)
      (Script.each
        (fun team => do
          let _ <- Script.deleteRow (.membership team userId)) teams :
        Transaction Unit)
      fun _ rows seen => OwnerKept rows seen ∧
        forall team, team ∈ teams ->
          seen (.membership team userId) ≠ some .owner := by
  refine Triple.each fun team hteam => ?_
  refine Triple.bind (Triple.update ?_ fun _ _ _ _ hpre => hpre)
    fun _ => Triple.pure () fun _ _ _ hpre => hpre
  rintro role rows seen _ ⟨hone, hnone⟩ _
  constructor
  · exact OneOwner.update_membership hone (hnone team hteam) nofun nofun
  · intro other hother
    by_cases hsame : other = team
    · subst hsame
      rw [Function.update_self]
      exact nofun
    · rw [Function.update_of_ne (by simpa using hsame)]
      exact hnone other hother

/-- An account is deleted, as long as it owns none of the teams that it
leaves. -/
theorem kept_deleteAccount :
    ownerContract.Triple (fun rows seen => seen = rows)
      (deleteAccount userId) fun _ rows seen => seen = rows := by
  refine Triple.transaction (Q := fun _ => OwnerKept) ?_
    fun _ _ _ _ hpost => hpost
  refine Triple.pre (P := OwnersUntouched) ?_ fun rows seen _ hsame k _ => by
    rw [hsame]
  refine Triple.bind triple_lock fun account => ?_
  refine Triple.lift_bind fun found _ => ?_
  refine Triple.lift_bind fun namespaceId _ => ?_
  refine triple_lockRow_bind fun space => ?_
  refine Triple.pre ?_ fun rows seen _ hpre => hpre.1
  refine Triple.rows_bind fun view _ => ?_
  refine Triple.bind triple_lockedOwnership fun owned => ?_
  cases owned with
  | some team => exact Triple.fail _
  | none =>
      refine Triple.rows_bind fun view _ => ?_
      refine Triple.bind (Q := fun _ => OwnersUntouched)
        (Triple.filterEach (R := fun _ => OwnersUntouched) ?_ [])
        fun joined => ?_
      · intro team found _
        refine Triple.bind triple_lock fun role => ?_
        refine Triple.pure _ fun rows seen _ hpre => ?_
        split
        · exact hpre
        · exact hpre
      refine Triple.bind
        (Triple.each fun _ _ => triple_removeTeamWorkspaces_indifferent
          indifferent_untouched.workspace) fun _ => ?_
      refine Triple.bind
        (Q := fun view rows seen => OwnerKept rows seen ∧
          forall team, team ∈ view.teamsWhere userId (fun _ => true) ->
            seen (.membership team userId) ≠ some .owner)
        (Triple.select fun view _ => Triple.pure view ?_) fun view => ?_
      · rintro rows seen hinvariant ⟨huntouched, hnotes⟩
        refine ⟨OneOwner.congr hinvariant huntouched, ?_⟩
        intro team hteam
        rw [huntouched (.membership team userId) trivial]
        exact hnotes _ List.mem_cons_self team hteam
      refine Triple.bind kept_deleteMemberships fun _ => ?_
      refine Triple.pre ?_ fun rows seen _ hpre => hpre.1
      refine Triple.bind (kept_updateOther (fun h => h)) fun _ => ?_
      refine Triple.bind (kept_updateOther (fun h => h)) fun _ => ?_
      exact Triple.pure _ fun _ _ _ hpre => hpre

end Transaction
end Denju
