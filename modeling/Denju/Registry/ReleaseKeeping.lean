import Denju.Registry.ReleaseFeed

/-!
# The operations keep the order of releases

A pack that takes a member follows it from now on, so no operation makes a pack
await what is visible already.  Only catching up and the worker apply events.
-/

namespace Denju

open Lib

namespace Db

variable {db db' : Db} {pack next : PackRow} {packId : Uuid}

/-!
## Changing the members
-/

/-- A change of the members under which packs await no more than before. -/
theorem members_keepsOrder {packMembers : List PackMemberRow}
    (hheld : forall row, row ∈ packMembers -> row ∈ db.packMembers ∨
      (db.findResource row.packResourceId).isSome)
    (hfollows : forall packId event, event.id ≤ db.authorityEventSequence ->
      ({ db with packMembers } : Db).packFollows packId event = true ->
        db.packFollows packId event = true) :
    KeepsOrder db { db with packMembers } := by
  intro hdb
  have heases : Feed.Eases db.feed ({ db with packMembers } : Db).feed := by
    refine ⟨fun _ h => h, ?_⟩
    intro packId event hevent hawaits
    rcases awaits_iff.mp hawaits with ⟨hlive, hmember, hnew⟩
    exact awaits_iff.mpr
      ⟨hlive, hfollows packId event (hdb.known event hevent) hmember, hnew⟩
  refine ⟨⟨hdb.keyed, hdb.known, hdb.sourced, ?_, hdb.versions,
    hdb.increasing, ?_⟩, heases, fun _ => .inl, Nat.le_refl _, rfl⟩
  · intro row hrow
    rcases hheld row hrow with hold | hfound
    · exact hdb.held row hold
    · exact hfound
  · refine hdb.caught.reveal heases (fun _ _ hpast => hpast) ?_
    intro event hevent hunseen
    exact absurd hevent hunseen

/-- A pack follows a new member after everything that is visible. -/
theorem upsertPackMember_keepsOrder {row : PackMemberRow}
    (hfound : (db.findResource row.packResourceId).isSome)
    (hafter : row.followAfterEventId = db.authorityEventSequence) :
    KeepsOrder db (Registry.upsertPackMember db row) := by
  have hnever : forall {event : PackReleaseEvent} {member : PackMemberRow},
      event.id ≤ db.authorityEventSequence ->
      member.followAfterEventId = row.followAfterEventId ->
      (member.pinnedReleaseVersion.isNone &&
        decide (member.followAfterEventId < event.id)) = true -> False := by
    intro event member hknown hsame hfollows
    simp only [Bool.and_eq_true, decide_eq_true_eq, hsame, hafter] at hfollows
    exact Nat.not_lt_of_le hknown hfollows.2
  unfold Registry.upsertPackMember
  split
  · refine members_keepsOrder ?_ ?_
    · intro member hmember
      rcases mem_updateWhere.mp hmember with ⟨old, hold, rfl⟩
      split
      · rename_i hsame
        simp only [decide_eq_true_eq] at hsame
        right
        show (db.findResource old.packResourceId).isSome
        rw [hsame.1]
        exact hfound
      · exact .inl hold
    · intro packId event hknown hfollows
      unfold packFollows findPackMember at hfollows ⊢
      dsimp only at hfollows
      rw [find?_updateWhere (by intro _ _; rfl)] at hfollows
      cases hmember : db.packMembers.find? (fun row =>
          row.packResourceId = packId ∧
            row.skillResourceId = event.skillResourceId) with
      | none =>
          rw [hmember] at hfollows
          exact hfollows
      | some member =>
          rw [hmember] at hfollows
          simp only [Option.map_some, Option.any_some] at hfollows ⊢
          split at hfollows
          · exact (hnever hknown rfl hfollows).elim
          · exact hfollows
  · refine members_keepsOrder ?_ ?_
    · intro member hmember
      rcases List.mem_append.mp hmember with hold | hlast
      · exact .inl hold
      · rw [List.mem_singleton.mp hlast]
        exact .inr hfound
    · intro packId event hknown hfollows
      unfold packFollows findPackMember at hfollows ⊢
      dsimp only at hfollows
      rw [List.find?_append] at hfollows
      cases hmember : db.packMembers.find? (fun row =>
          row.packResourceId = packId ∧
            row.skillResourceId = event.skillResourceId) with
      | some member =>
          rw [hmember] at hfollows
          exact hfollows
      | none =>
          rw [hmember, Option.none_or] at hfollows
          rcases (Option.any_eq_true_iff_get _ _).mp hfollows with
            ⟨hsome, hlast⟩
          rcases Option.isSome_iff_exists.mp hsome with ⟨member, hfoundMember⟩
          have hrow := List.mem_of_find?_eq_some hfoundMember
          simp only [hfoundMember, Option.get_some] at hlast
          rw [List.mem_singleton.mp hrow] at hlast
          exact (hnever hknown rfl hlast).elim

theorem removePackMember_keepsOrder {p : PackMemberRow -> Bool}
    (hp : forall row other : PackMemberRow,
      row.packResourceId = other.packResourceId ->
        row.skillResourceId = other.skillResourceId -> p row = p other) :
    KeepsOrder db
      { db with packMembers := deleteWhere p db.packMembers } := by
  refine members_keepsOrder ?_ ?_
  · intro row hrow
    exact .inl (mem_deleteWhere.mp hrow).1
  · intro packId event _ hfollows
    unfold packFollows findPackMember at hfollows ⊢
    dsimp only at hfollows
    rcases (Option.any_eq_true_iff_get _ _).mp hfollows with ⟨hsome, hlast⟩
    rcases Option.isSome_iff_exists.mp hsome with ⟨member, hmember⟩
    simp only [hmember, Option.get_some] at hlast
    have hkept := List.find?_some hmember
    have hmem := (mem_deleteWhere.mp (List.mem_of_find?_eq_some hmember)).2
    have hsame : db.packMembers.find? (fun row =>
        row.packResourceId = packId ∧
          row.skillResourceId = event.skillResourceId) = some member := by
      unfold deleteWhere at hmember
      rw [List.find?_filter] at hmember
      rw [← hmember]
      congr 1
      funext row
      by_cases hrow : row.packResourceId = packId ∧
          row.skillResourceId = event.skillResourceId
      · simp only [decide_eq_true_eq] at hkept
        have hpsame := hp row member (hrow.1.trans hkept.1.symm)
          (hrow.2.trans hkept.2.symm)
        simp [hrow, hpsame, hmem]
      · simp [hrow]
    rw [hsame]
    exact hlast

theorem loadOwnedPackForUpdate_locks {user namespaceId : Uuid}
    (h : db.loadOwnedPackForUpdate user packId namespaceId = .ok pack) :
    db.AtVersion pack ∧ (db.findResource pack.id).isSome := by
  rcases bind_eq_ok.mp h with ⟨locked, hlocked, h⟩
  rcases bind_eq_ok.mp h with ⟨_, _, h⟩
  cases h
  have hlocked := okOr_eq_ok.mp hlocked
  rcases lockPack_eq_some hlocked with ⟨row, hfound, _⟩
  refine ⟨lockPack_atVersion hlocked, ?_⟩
  rw [hfound.id, hfound.found]
  rfl

theorem recordPackOperation_keepsOrder {row : OperationRow PackOutcome}
    (h : db.recordPackOperation row = .ok db') : KeepsOrder db db' := by
  rcases recordPackOperation_eq_ok h with ⟨operations, rfl⟩
  apply Quiet.keepsOrder
  exact .ofSameResources ⟨rfl, rfl, rfl, rfl, rfl, Nat.le_refl _⟩ rfl

theorem wake_keepsOrder {id : Uuid} {generation : Nat} :
    KeepsOrder db (db.enqueueResourceWake id generation) :=
  (Quiet.refl db).wake.keepsOrder

end Db

namespace Registry

open Db

variable {self : Registry} {db db' : Db} {pack next : PackRow}

theorem wakePack_keepsOrder {changed : Bool} :
    KeepsOrder db (wakePack changed pack db) := by
  unfold wakePack
  split
  · exact wake_keepsOrder
  · exact .refl _

theorem onCurrentPack_keepsOrder {α : Type} {user : Uuid}
    {change : PackRow -> Db -> Except ApiError (α × Db)}
    {answer : Except ApiError α}
    (hchange : forall outcome, change pack db = .ok (outcome, db') ->
      KeepsOrder db db')
    (h : onCurrentPack user pack change db = .ok (answer, db')) :
    KeepsOrder db db' := by
  rcases bind_eq_ok.mp h with ⟨⟨advanced, current, caught⟩, hcaught, h⟩
  dsimp only at h
  split at h
  · cases h
    exact (lockAndCatchUpPack_keepsOrder hcaught).trans wake_keepsOrder
  · have hsame := (lockAndCatchUpPack_eq_ok hcaught).2.2 rfl
    cases hsame
    rcases bind_eq_ok.mp h with ⟨⟨outcome, changed⟩, hchanged, h⟩
    cases h
    exact hchange outcome hchanged

/-- Editing only touches the members. -/
structure Edits (db : Db) (edit : PackEdit) : Prop where
  tables : exists packMembers, edit.db = { db with packMembers }
  keepsOrder : KeepsOrder db edit.db

theorem editMember_edits {kind : PackMutationKind}
    {authority : UserAuthority} {target : NamespacePublishAuthority}
    {edit after : PackEdit} {member : PackMemberTarget}
    (hfound : (db.findResource pack.id).isSome) (hedit : Edits db edit)
    (h : editMember kind authority target pack edit member = .ok after) :
    Edits db after := by
  rcases hedit with ⟨⟨packMembers, hdb⟩, hkept⟩
  cases kind with
  | add =>
      rcases bind_eq_ok.mp h with ⟨resolved, _, h⟩
      dsimp only at h
      split at h
      · cases h
        exact ⟨⟨packMembers, hdb⟩, hkept⟩
      · cases h
        constructor
        · unfold upsertPackMember
          rw [hdb]
          split
          · exact ⟨_, rfl⟩
          · exact ⟨_, rfl⟩
        · refine hkept.trans (upsertPackMember_keepsOrder ?_ rfl)
          rw [hdb]
          exact hfound
  | remove =>
      cases h
      unfold removeMember
      split
      · constructor
        · exact ⟨_, by rw [hdb]⟩
        · refine hkept.trans (removePackMember_keepsOrder ?_)
          intro row other hpack hskill
          rw [hpack, hskill]
      · exact ⟨⟨packMembers, hdb⟩, hkept⟩

theorem changeMembers_keepsOrder {kind : PackMutationKind}
    {authority : UserAuthority} {target : NamespacePublishAuthority}
    {request : PackMutationRequest} {outcome : PackMutationResponse}
    (hat : db.AtVersion pack) (hfound : (db.findResource pack.id).isSome)
    (h : changeMembers kind authority target request pack db =
      .ok (outcome, db')) : KeepsOrder db db' := by
  rcases bind_eq_ok.mp h with ⟨_, _, h⟩
  rcases bind_eq_ok.mp h with ⟨edit, hedit, h⟩
  rcases bind_eq_ok.mp h with ⟨⟨after, stored⟩, hstored, h⟩
  rcases bind_eq_ok.mp h with ⟨recorded, hrecorded, h⟩
  cases h
  have hedited : Edits db edit :=
    foldlM_invariant (P := Edits db)
      (fun _ _ _ hbefore hstep => editMember_edits hfound hbefore hstep)
      ⟨⟨db.packMembers, rfl⟩, .refl db⟩ hedit
  have hversion : KeepsOrder edit.db stored := by
    unfold storeEdit at hstored
    split at hstored
    · rcases bind_eq_ok.mp hstored with ⟨members, _, hstored⟩
      refine (insertPackRevision_keepsOrder (hat.keep ?_) ?_ hstored).1
      · rcases hedited.tables with ⟨_, hdb⟩
        rw [hdb]
      · intro past hpast
        cases hpast
    · cases hstored
      exact .refl _
  exact hedited.keepsOrder.trans (hversion.trans
    ((recordPackOperation_keepsOrder hrecorded).trans wakePack_keepsOrder))

theorem mutatePack_keepsOrder {kind : PackMutationKind} {userId : Uuid}
    {request : PackMutationRequest}
    {answer : Except ApiError PackMutationResponse}
    (h : self.mutatePack kind userId request db = .ok (answer, db')) :
    KeepsOrder db db' := by
  rcases bind_eq_ok.mp h with ⟨authority, _, h⟩
  rcases bind_eq_ok.mp h with ⟨_, _, h⟩
  rcases bind_eq_ok.mp h with ⟨_, _, h⟩
  rcases bind_eq_ok.mp h with ⟨_, _, h⟩
  rcases bind_eq_ok.mp h with ⟨replay, _, h⟩
  split at h
  · cases h
    exact .refl _
  · rcases bind_eq_ok.mp h with ⟨target, _, h⟩
    rcases bind_eq_ok.mp h with ⟨pack, hpack, h⟩
    rcases loadOwnedPackForUpdate_locks hpack with ⟨hat, hfound⟩
    exact onCurrentPack_keepsOrder
      (fun _ hchanged => changeMembers_keepsOrder hat hfound hchanged) h

theorem setPublished_keepsOrder {visibilityChanged resolutionChanged : Bool}
    (h : setPublished db pack visibilityChanged resolutionChanged =
      .ok (next, db')) : KeepsOrder db db' := by
  have hrow : forall {f : ResourceRow -> ResourceRow},
      (forall row, (f row).id = row.id) ->
      (forall row, (f row).deleted = row.deleted) ->
      KeepsOrder db { db with
        resources := updateWhere (fun row => row.id = pack.id) f
          db.resources } := by
    intro f hid hdeleted
    apply Quiet.keepsOrder
    refine .ofRewrite ⟨rfl, rfl, rfl, rfl, rfl, Nat.le_refl _⟩ rfl hid ?_
    intro row hlive
    rw [← hdeleted row]
    exact hlive
  unfold setPublished at h
  split at h
  · rcases bind_eq_ok.mp h with ⟨generation, _, h⟩
    cases h
    exact hrow (fun _ => rfl) fun _ => rfl
  · split at h
    · cases h
      exact hrow (fun _ => rfl) fun _ => rfl
    · cases h
      exact .refl _

theorem releasePack_keepsOrder {authority : UserAuthority}
    {target : NamespacePublishAuthority} {request : PackPublishRequest}
    {outcome : PackMutationResponse} (hat : db.AtVersion pack)
    (h : releasePack authority target request pack db =
      .ok (outcome, db')) : KeepsOrder db db' := by
  rcases bind_eq_ok.mp h with ⟨_, _, h⟩
  rcases bind_eq_ok.mp h with ⟨resolved, _, h⟩
  have hfinish : forall {current : PackRow} {stored : Db}
      {visibilityChanged resolutionChanged : Bool},
      KeepsOrder db stored ->
      (setPublished stored current visibilityChanged resolutionChanged >>=
        fun published => do
          let recorded <- published.2.recordPackOperation
            { userId := authority.userId
              operationId := request.operationId
              requestHash := request.requestHash
              target := published.1.id
              outcome := .publish
                { pack := published.2.packSummary published.1
                  changed := visibilityChanged || resolutionChanged } }
          return (PackMutationResponse.mk
              (published.2.packSummary published.1)
              (visibilityChanged || resolutionChanged),
            wakePack (visibilityChanged || resolutionChanged) published.1
              recorded)) = .ok (outcome, db') ->
      KeepsOrder db db' := by
    intro current stored visibilityChanged resolutionChanged hversion h
    rcases bind_eq_ok.mp h with ⟨⟨last, published⟩, hpublished, h⟩
    rcases bind_eq_ok.mp h with ⟨recorded, hrecorded, h⟩
    cases h
    exact hversion.trans ((setPublished_keepsOrder hpublished).trans
      ((recordPackOperation_keepsOrder hrecorded).trans wakePack_keepsOrder))
  dsimp only at h
  split at h
  · rcases bind_eq_ok.mp h with ⟨⟨after, stored⟩, hstored, h⟩
    refine hfinish (insertPackRevision_keepsOrder hat ?_ hstored).1 h
    intro past hpast
    cases hpast
  · exact hfinish (.refl _) h

theorem publishPack_keepsOrder {userId : Uuid} {request : PackPublishRequest}
    {answer : Except ApiError PackMutationResponse}
    (h : self.publishPack userId request db = .ok (answer, db')) :
    KeepsOrder db db' := by
  rcases bind_eq_ok.mp h with ⟨authority, _, h⟩
  rcases bind_eq_ok.mp h with ⟨_, _, h⟩
  rcases bind_eq_ok.mp h with ⟨replay, _, h⟩
  split at h
  · cases h
    exact .refl _
  · rcases bind_eq_ok.mp h with ⟨target, _, h⟩
    rcases bind_eq_ok.mp h with ⟨pack, hpack, h⟩
    have hat := (loadOwnedPackForUpdate_locks hpack).1
    exact onCurrentPack_keepsOrder
      (fun _ hchanged => releasePack_keepsOrder hat hchanged) h

/-!
## The life of a pack
-/

theorem renamePack_keepsOrder {userId : Uuid} {request : PackRenameRequest}
    {answer : Except ApiError PackLifecycleResponse}
    (h : self.renamePack userId request db = .ok (answer, db')) :
    KeepsOrder db db' := by
  rcases bind_eq_ok.mp h with ⟨authority, _, h⟩
  rcases bind_eq_ok.mp h with ⟨_, _, h⟩
  rcases bind_eq_ok.mp h with ⟨replay, _, h⟩
  split at h
  · cases h
    exact .refl _
  · rcases bind_eq_ok.mp h with ⟨target, _, h⟩
    rcases bind_eq_ok.mp h with ⟨pack, hpack, h⟩
    rcases loadOwnedPackForUpdate_eq_ok hpack with ⟨row, hfound, howner⟩
    refine onCurrentPack_keepsOrder (fun _ hmoved => ?_) h
    have hrenamed := movePack_eq_ok hfound howner hmoved
    rcases hrenamed.tables with ⟨_, _, _, _, rfl⟩
    apply Quiet.keepsOrder
    apply Quiet.wake
    exact .ofRewrite ⟨rfl, rfl, rfl, rfl, rfl, Nat.le_refl _⟩ rfl
      (fun _ => rfl) fun _ hlive => hlive

theorem unpublishPack_keepsOrder {userId : Uuid}
    {request : ResourceLifecycleRequest}
    {answer : Except ApiError PackLifecycleResponse}
    (h : self.unpublishPack userId request db = .ok (answer, db')) :
    KeepsOrder db db' := by
  rcases bind_eq_ok.mp h with ⟨authority, _, h⟩
  rcases bind_eq_ok.mp h with ⟨_, _, h⟩
  rcases bind_eq_ok.mp h with ⟨replay, _, h⟩
  split at h
  · cases h
    exact .refl _
  · rcases bind_eq_ok.mp h with ⟨target, _, h⟩
    rcases bind_eq_ok.mp h with ⟨pack, hpack, h⟩
    refine onCurrentPack_keepsOrder (fun _ hhidden => ?_) h
    rcases bind_eq_ok.mp hhidden with ⟨_, _, hhidden⟩
    rcases bind_eq_ok.mp hhidden with ⟨_, _, hhidden⟩
    rcases bind_eq_ok.mp hhidden with ⟨generation, _, hhidden⟩
    rcases bind_eq_ok.mp hhidden with ⟨recorded, hrecorded, hhidden⟩
    rcases recordPackOperation_eq_ok hrecorded with ⟨operations, rfl⟩
    cases hhidden
    apply Quiet.keepsOrder
    apply Quiet.wake
    exact .ofRewrite ⟨rfl, rfl, rfl, rfl, rfl, Nat.le_refl _⟩ rfl
      (fun _ => rfl) fun _ hlive => hlive

theorem deletePack_keepsOrder {userId : Uuid}
    {request : ResourceLifecycleRequest}
    {answer : Except ApiError PackLifecycleResponse}
    (h : self.deletePack userId request db = .ok (answer, db')) :
    KeepsOrder db db' := by
  rcases bind_eq_ok.mp h with ⟨authority, _, h⟩
  rcases bind_eq_ok.mp h with ⟨_, _, h⟩
  rcases bind_eq_ok.mp h with ⟨replay, _, h⟩
  split at h
  · cases h
    exact .refl _
  · rcases bind_eq_ok.mp h with ⟨target, _, h⟩
    rcases bind_eq_ok.mp h with ⟨_, _, h⟩
    rcases bind_eq_ok.mp h with ⟨pack, hpack, h⟩
    refine onCurrentPack_keepsOrder (fun _ hdeleted => ?_) h
    rcases tombstonePack_eq_ok hdeleted with
      ⟨_, _, _, _, _, _, _, _, _, _, _, rfl⟩
    apply Quiet.keepsOrder
    apply Quiet.wake
    refine .ofRewrite ⟨rfl, rfl, rfl, rfl, rfl, Nat.le_refl _⟩ rfl
      (fun _ => rfl) ?_
    intro row hlive
    cases hlive

theorem transferPack_keepsOrder {userId : Uuid}
    {request : ResourceTransferRequest} {outcome : ResourceTransferResponse}
    (h : self.transferPack userId request db = .ok (outcome, db')) :
    KeepsOrder db db' := by
  rcases transferPack_eq_ok h with rfl | ⟨_, _, _, _, _, hmoved⟩
  · exact .refl _
  · rcases hmoved.tables with ⟨_, _, _, _, _, rfl⟩
    apply Quiet.keepsOrder
    apply Quiet.wake
    exact .ofRewrite ⟨rfl, rfl, rfl, rfl, rfl, Nat.le_refl _⟩ rfl
      (fun _ => rfl) fun _ hlive => hlive

/-- The first version of a pack applies no event. -/
theorem firstVersion_keepsOrder {packId : Uuid} :
    KeepsOrder db { db with
      packStates := db.packStates ++ [⟨packId, .one⟩]
      packRevisions := db.packRevisions ++ [⟨packId, .one, none⟩] } := by
  have happlied : forall other past, Db.packHasEvent { db with
      packStates := db.packStates ++ [⟨packId, .one⟩]
      packRevisions := db.packRevisions ++ [⟨packId, .one, none⟩] }
        other past = db.packHasEvent other past := by
    intro other past
    unfold packHasEvent
    simp
  intro hdb
  have heases : Feed.Eases db.feed (Db.feed { db with
      packStates := db.packStates ++ [⟨packId, .one⟩]
      packRevisions := db.packRevisions ++ [⟨packId, .one, none⟩] }) := by
    refine ⟨fun _ h => h, ?_⟩
    intro other event _ hawaits
    rcases awaits_iff.mp hawaits with ⟨hlive, hfollows, hnew⟩
    rw [happlied] at hnew
    exact awaits_iff.mpr ⟨hlive, hfollows, hnew⟩
  refine ⟨⟨hdb.keyed, hdb.known, ?_, hdb.held, ?_, ?_, ?_⟩, heases,
    fun _ => .inl, Nat.le_refl _, rfl⟩
  · intro other past hpast
    rw [happlied] at hpast
    exact hdb.sourced other past hpast
  · intro row hrow
    unfold packState
    dsimp only
    rw [List.find?_append]
    rcases List.mem_append.mp hrow with hold | hlast
    · rcases hdb.versions row hold with ⟨state, hstate, hle⟩
      unfold packState at hstate
      rw [hstate]
      exact ⟨state, rfl, hle⟩
    · rw [List.mem_singleton.mp hlast]
      cases hstate : db.packStates.find? (fun row =>
          row.resourceId = packId) with
      | some state => exact ⟨state, rfl, state.currentVersion.positive⟩
      | none => exact ⟨⟨packId, .one⟩, by simp, Nat.le_refl _⟩
  · intro earlier later past following hearlier hlater hpack hlt hpast
      hfollowing
    rcases List.mem_append.mp hearlier with hearlierOld | hearlierNew
    · rcases List.mem_append.mp hlater with hlaterOld | hlaterNew
      · exact hdb.increasing earlier later past following hearlierOld
          hlaterOld hpack hlt hpast hfollowing
      · rw [List.mem_singleton.mp hlaterNew] at hfollowing
        cases hfollowing
    · rw [List.mem_singleton.mp hearlierNew] at hpast
      cases hpast
  · refine hdb.caught.reveal heases ?_ ?_
    · intro other past hpast
      have hold : Db.packHasEvent _ other past = true := hpast
      rw [happlied] at hold
      exact hold
    · intro event hevent hunseen
      exact absurd hevent hunseen

theorem createPack_keepsOrder {newResourceId userId : Uuid}
    {request : PackCreateRequest} {outcome : PackSummary}
    (h : self.createPack newResourceId userId request db =
      .ok (outcome, db')) : KeepsOrder db db' := by
  rcases createPack_eq_ok h with rfl | ⟨_, _, _, _, _, _, hcreated⟩
  · exact .refl _
  · rcases hcreated.tables with ⟨operations, row, _, _, _, _, rfl⟩
    have hinserted : KeepsOrder db { db with
        resources := db.resources ++ [row]
        packOperations := operations } := by
      apply Quiet.keepsOrder
      exact .ofInsert ⟨rfl, rfl, rfl, rfl, rfl, Nat.le_refl _⟩ rfl
    exact hinserted.trans firstVersion_keepsOrder

/-!
## Calls on skills
-/

theorem ensured_keepsFeed (db : Db) (resourceId user : Uuid) :
    KeepsFeed db (db.ensurePrivateWorkspaceForUser resourceId user) := by
  unfold Db.ensurePrivateWorkspaceForUser
  repeat' split
  all_goals exact ⟨rfl, rfl, rfl, rfl, rfl, Nat.le_refl _⟩

/-- A call that wakes subscribers unless a team owns the skill. -/
theorem wakeUnless_keepsFeed {isTeam : Bool} {id : Uuid} {generation : Nat} :
    KeepsFeed db
      (if isTeam then db else db.enqueueResourceWake id generation) := by
  split
  · exact .refl _
  · exact KeepsFeed.wake (.refl _)

theorem moveWorkspace_keepsFeed {newConflictId : Uuid}
    {plan : PendingCommit self.ext} {forkSync : Option ValidatedForkSync}
    {isTeam : Bool} {resource : ResourceRow} {workspace : WorkspaceRow}
    {effect : CommitEffect}
    (hnone : workspace.revisionId ≠ plan.operation.expectedHeadRevisionId ->
      db.activeConflict plan.operation.resourceId plan.authority.userId =
        none)
    (h : moveWorkspace newConflictId plan forkSync isTeam resource workspace
      db = .ok effect) : KeepsFeed db effect.db := by
  unfold moveWorkspace at h
  split at h
  · rcases advanceWorkspace_eq_ok h with
      ⟨generation, _, _, _, resourceGeneration, forks, htables⟩
    rw [htables]
    cases isTeam with
    | false => exact ⟨rfl, rfl, rfl, rfl, rfl, Nat.le_refl _⟩
    | true => exact ⟨rfl, rfl, rfl, rfl, rfl, Nat.le_refl _⟩
  · rename_i hstale
    rcases (divergeWorkspace_eq_ok h (hnone hstale)).tables with
      ⟨row, htables, _⟩
    rw [htables]
    exact ⟨rfl, rfl, rfl, rfl, rfl, Nat.le_refl _⟩

theorem writePreparedRevision_keepsFeed {newConflictId : Uuid}
    {plan : PendingCommit self.ext} {locked : RevisionOperationRow}
    {isTeam : Bool} {resource : ResourceRow} {workspace : WorkspaceRow}
    {outcome : PrivateRevisionCommitResponse}
    (h : writePreparedRevision newConflictId plan locked isTeam resource
      workspace db = .ok (outcome, db')) : KeepsFeed db db' := by
  rcases bind_eq_ok.mp h with ⟨_, _, h⟩
  rcases bind_eq_ok.mp h with ⟨_, hhead, h⟩
  rcases bind_eq_ok.mp h with ⟨stored, hstored, h⟩
  rcases bind_eq_ok.mp h with ⟨effect, heffect, h⟩
  cases h
  rcases storeCommit_eq_ok hstored with
    ⟨_, _, _, _, _, _, _, _, rfl, _⟩
  have hnone : workspace.revisionId ≠ plan.operation.expectedHeadRevisionId ->
      db.activeConflict plan.operation.resourceId plan.authority.userId =
        none := by
    intro hstale
    cases Db.checkCommitHead_eq_ok hhead with
    | advance hmatches _ _ _ => exact absurd hmatches hstale
    | merge _ hmatches _ _ _ _ _ _ => exact absurd hmatches hstale
    | diverge _ hnone _ _ => exact hnone
  have hmoved := moveWorkspace_keepsFeed (by exact hnone) heffect
  refine KeepsFeed.trans ?_ wakeUnless_keepsFeed
  exact ⟨hmoved.members, hmoved.revisions, hmoved.states, hmoved.completions,
    hmoved.events, hmoved.sequence⟩

theorem writePrivateRevision_keepsFeed {newConflictId : Uuid}
    {plan : PendingCommit self.ext} {outcome : PrivateRevisionCommitResponse}
    (h : writePrivateRevision newConflictId plan db = .ok (outcome, db')) :
    KeepsFeed db db' := by
  rcases bind_eq_ok.mp h with ⟨target, _, h⟩
  rcases bind_eq_ok.mp h with ⟨_, _, h⟩
  rcases bind_eq_ok.mp h with ⟨⟨resource, workspace⟩, _, h⟩
  rcases bind_eq_ok.mp h with ⟨_, _, h⟩
  rcases bind_eq_ok.mp h with ⟨locked, _, h⟩
  rcases bind_eq_ok.mp h with ⟨_, _, h⟩
  split at h
  · exact writePreparedRevision_keepsFeed h
  · rcases bind_eq_ok.mp h with ⟨stored, _, h⟩
    cases h
    exact .refl _

theorem writePrivateSkillImport_keepsFeed {plan : PendingImport self.ext}
    {outcome : PrivateSkillImportResponse}
    (h : writePrivateSkillImport plan db = .ok (outcome, db')) :
    KeepsFeed db db' := by
  rcases bind_eq_ok.mp h with ⟨target, _, h⟩
  rcases bind_eq_ok.mp h with ⟨_, _, h⟩
  rcases bind_eq_ok.mp h with ⟨locked, _, h⟩
  rcases bind_eq_ok.mp h with ⟨_, _, h⟩
  split at h
  · rcases bind_eq_ok.mp h with ⟨_, _, h⟩
    cases h
    exact .refl _
  · rcases bind_eq_ok.mp h with ⟨provenance, _, h⟩
    rcases bind_eq_ok.mp h with ⟨_, _, h⟩
    rcases bind_eq_ok.mp h with ⟨stored, hstored, h⟩
    rcases bind_eq_ok.mp h with ⟨created, hcreated, h⟩
    rcases storeImport_eq_ok hstored with ⟨_, _, _, _, _, rfl⟩
    rcases createImportedSkill_eq_ok hcreated with
      ⟨_, _, _, _, _, rfl, _⟩
    cases h
    exact ⟨rfl, rfl, rfl, rfl, rfl, Nat.le_refl _⟩

theorem moveToAccepted_keepsFeed {authority : UserAuthority}
    {request : ProposalAcceptRequest} {isTeam : Bool} {view : ProposalView}
    {workspace : WorkspaceRow} {outcome : SkillProposal}
    (h : moveToAccepted self authority request isTeam view workspace db =
      .ok (outcome, db')) : KeepsFeed db db' := by
  rcases bind_eq_ok.mp h with ⟨attached, hattached, h⟩
  rcases bind_eq_ok.mp h with ⟨source, _, h⟩
  rcases bind_eq_ok.mp h with ⟨stored, _, h⟩
  rcases bind_eq_ok.mp h with ⟨generation, _, h⟩
  rcases bind_eq_ok.mp h with ⟨resourceGeneration, _, h⟩
  rcases bind_eq_ok.mp h with ⟨proposalGeneration, _, h⟩
  rcases bind_eq_ok.mp h with ⟨closed, _, h⟩
  rcases bind_eq_ok.mp h with ⟨shown, _, h⟩
  rcases bind_eq_ok.mp h with ⟨recorded, hrecorded, h⟩
  rcases bind_eq_ok.mp hrecorded with ⟨operations, _, hrecorded⟩
  rcases attachProposalRevision_frame hattached with ⟨_, _, _, _, rfl⟩
  cases hrecorded
  cases h
  refine KeepsFeed.trans ?_ wakeUnless_keepsFeed
  cases isTeam with
  | false => exact ⟨rfl, rfl, rfl, rfl, rfl, Nat.le_refl _⟩
  | true => exact ⟨rfl, rfl, rfl, rfl, rfl, Nat.le_refl _⟩

theorem acceptProposal_keepsFeed {userId : Uuid}
    {request : ProposalAcceptRequest} {outcome : SkillProposal}
    (h : self.acceptProposal userId request db = .ok (outcome, db')) :
    KeepsFeed db db' := by
  rcases bind_eq_ok.mp h with ⟨authority, _, h⟩
  rcases bind_eq_ok.mp h with ⟨_, _, h⟩
  rcases bind_eq_ok.mp h with ⟨replay, _, h⟩
  split at h
  · cases h
    exact .refl _
  · rcases bind_eq_ok.mp h with ⟨view, _, h⟩
    rcases bind_eq_ok.mp h with ⟨target, _, h⟩
    rcases bind_eq_ok.mp h with ⟨_, _, h⟩
    rcases bind_eq_ok.mp h with ⟨workspace, _, h⟩
    refine KeepsFeed.trans ?_ (moveToAccepted_keepsFeed h)
    split
    · exact ensured_keepsFeed _ _ _
    · exact .refl _

theorem moveToRestored_keepsFeed {plan : PendingRestore}
    {target : NamespacePublishAuthority} {resource : ResourceRow}
    {workspace : WorkspaceRow} {outcome : PrivateRevisionResponse}
    (h : self.moveToRestored plan target resource workspace db =
      .ok (outcome, db')) : KeepsFeed db db' := by
  rcases bind_eq_ok.mp h with ⟨revision, _, h⟩
  rcases bind_eq_ok.mp h with ⟨generation, _, h⟩
  rcases bind_eq_ok.mp h with ⟨resourceGeneration, _, h⟩
  rcases bind_eq_ok.mp h with ⟨stored, hstored, h⟩
  rcases bind_eq_ok.mp h with ⟨recorded, hrecorded, h⟩
  rcases bind_eq_ok.mp hrecorded with ⟨operations, _, hrecorded⟩
  rcases storeRestored_frame hstored with ⟨_, _, _, _, _, rfl⟩
  cases hrecorded
  cases h
  refine KeepsFeed.trans ?_ wakeUnless_keepsFeed
  cases target.isTeam with
  | false => exact ⟨rfl, rfl, rfl, rfl, rfl, Nat.le_refl _⟩
  | true => exact ⟨rfl, rfl, rfl, rfl, rfl, Nat.le_refl _⟩

theorem writeRestore_keepsFeed {plan : PendingRestore}
    {outcome : PrivateRevisionResponse}
    (h : self.writeRestore plan db = .ok (outcome, db')) :
    KeepsFeed db db' := by
  rcases bind_eq_ok.mp h with ⟨target, _, h⟩
  rcases bind_eq_ok.mp h with ⟨⟨resource, workspace⟩, _, h⟩
  rcases bind_eq_ok.mp h with ⟨_, _, h⟩
  rcases bind_eq_ok.mp h with ⟨_, _, h⟩
  rcases bind_eq_ok.mp h with ⟨_, _, h⟩
  rcases bind_eq_ok.mp h with ⟨_, _, h⟩
  refine KeepsFeed.trans ?_ (moveToRestored_keepsFeed h)
  split
  · exact ensured_keepsFeed _ _ _
  · exact .refl _

end Registry
end Denju
