import Denju.Registry.Release
import Denju.Registry.Service
import Denju.Registry.SaveRuns

/-!
# Ancestry under row policies

A user reads an edge of the revision graph only if the user may read the
revision at its start.  The walks of publishing and of a fork sync run over the
edges that their user may read, and stop where an edge is hidden.
-/

namespace Denju

open Lib

namespace Db

/-!
## The nearest common ancestor
-/

section MergeBase

variable {edges : List (RevisionId × RevisionId)}
  {left right base : RevisionId}

theorem nearer_iff {a b : Nat × Nat × RevisionId} :
    nearer a b = true <->
      a.1 < b.1 ∨ (a.1 = b.1 ∧ (a.2.1 < b.2.1 ∨
        (a.2.1 = b.2.1 ∧ a.2.2.key ≤ b.2.2.key))) := by
  simp [nearer]

theorem nearer_total (a b : Nat × Nat × RevisionId) :
    nearer a b = true ∨ nearer b a = true := by
  rw [nearer_iff, nearer_iff]
  rcases le_total a.2.2.key b.2.2.key with hkey | hkey
  · rcases Nat.lt_trichotomy a.1 b.1 with h | h | h
    · exact .inl (.inl h)
    · rcases Nat.lt_trichotomy a.2.1 b.2.1 with h' | h' | h'
      · exact .inl (.inr ⟨h, .inl h'⟩)
      · exact .inl (.inr ⟨h, .inr ⟨h', hkey⟩⟩)
      · exact .inr (.inr ⟨h.symm, .inl h'⟩)
    · exact .inr (.inl h)
  · rcases Nat.lt_trichotomy a.1 b.1 with h | h | h
    · exact .inl (.inl h)
    · rcases Nat.lt_trichotomy a.2.1 b.2.1 with h' | h' | h'
      · exact .inl (.inr ⟨h, .inl h'⟩)
      · exact .inr (.inr ⟨h.symm, .inr ⟨h'.symm, hkey⟩⟩)
      · exact .inr (.inr ⟨h.symm, .inl h'⟩)
    · exact .inr (.inl h)

theorem nearer_trans (a b c : Nat × Nat × RevisionId)
    (hab : nearer a b = true) (hbc : nearer b c = true) :
    nearer a c = true := by
  rw [nearer_iff] at hab hbc ⊢
  rcases hab with hab | ⟨hab, hab'⟩
  · rcases hbc with hbc | ⟨hbc, _⟩
    · exact .inl (by omega)
    · exact .inl (by omega)
  · rcases hbc with hbc | ⟨hbc, hbc'⟩
    · exact .inl (by omega)
    · refine .inr ⟨by omega, ?_⟩
      rcases hab' with hab' | ⟨hab', hkey⟩
      · rcases hbc' with hbc' | ⟨hbc', _⟩
        · exact .inl (by omega)
        · exact .inl (by omega)
      · rcases hbc' with hbc' | ⟨hbc', hkey'⟩
        · exact .inl (by omega)
        · exact .inr ⟨by omega, le_trans hkey hkey'⟩

theorem nearer_antisymm {a b : Nat × Nat × RevisionId}
    (hab : nearer a b = true) (hba : nearer b a = true) :
    a.2.2 = b.2.2 := by
  rw [nearer_iff] at hab hba
  have hkeys : a.2.2.key ≤ b.2.2.key ∧ b.2.2.key ≤ a.2.2.key := by
    rcases hab with hab | ⟨hab, hab | ⟨hab', hkey⟩⟩
    · omega
    · omega
    · rcases hba with hba | ⟨hba, hba | ⟨hba', hkey'⟩⟩
      · omega
      · omega
      · exact ⟨hkey, hkey'⟩
  exact RevisionId.key_injective (le_antisymm hkeys.1 hkeys.2)

/-- A common ancestor at the given distances, both within the limit. -/
structure CommonAt (edges : List (RevisionId × RevisionId))
    (left right : RevisionId) (i j : Nat) (base : RevisionId) : Prop where
  left : i ≤ 4096 ∧ Distance edges left i base
  right : j ≤ 4096 ∧ Distance edges right j base

theorem mem_commonAncestors {entry : Nat × Nat × RevisionId} :
    entry ∈ commonAncestors edges left right <->
      exists i j base, CommonAt edges left right i j base ∧
        entry = (max i j, i + j, base) := by
  unfold commonAncestors
  rw [List.mem_filterMap]
  constructor
  · rintro ⟨⟨base, i⟩, hleft, hentry⟩
    rcases Option.map_eq_some_iff.mp hentry with ⟨j, hright, hsame⟩
    exact ⟨i, j, base, ⟨mem_ancestryDepths.mp hleft,
      lookup_ancestryDepths.mp hright⟩, hsame.symm⟩
  · rintro ⟨i, j, base, hcommon, rfl⟩
    refine ⟨(base, i), mem_ancestryDepths.mpr hcommon.left, ?_⟩
    rw [lookup_ancestryDepths.mpr hcommon.right]
    rfl

/-- The merge base is a common ancestor, and no other one is nearer. -/
theorem mergeBaseOver_eq_ok :
    mergeBaseOver edges left right = .ok base <->
      exists i j, CommonAt edges left right i j base ∧
        forall i' j' other, CommonAt edges left right i' j' other ->
          nearer (max i j, i + j, base) (max i' j', i' + j', other) =
            true := by
  have hnearest : forall entries, nearest entries = some base <->
      exists entry, entry ∈ entries ∧ entry.2.2 = base ∧
        forall other, other ∈ entries -> nearer entry other = true := by
    intro entries
    cases entries with
    | nil => simp [nearest]
    | cons first rest =>
        have hleast := foldl_least nearer_total nearer_trans first rest
        simp only [nearest, Option.some.injEq]
        constructor
        · intro hbase
          exact ⟨_, hleast.1, hbase, hleast.2⟩
        · rintro ⟨entry, hentry, rfl, hbest⟩
          exact nearer_antisymm (hleast.2 entry hentry) (hbest _ hleast.1)
  unfold mergeBaseOver
  rw [okOr_eq_ok, hnearest]
  constructor
  · rintro ⟨entry, hentry, hbase, hbest⟩
    rcases mem_commonAncestors.mp hentry with ⟨i, j, found, hcommon, rfl⟩
    cases hbase
    refine ⟨i, j, hcommon, ?_⟩
    intro i' j' other hother
    exact hbest _ (mem_commonAncestors.mpr ⟨i', j', other, hother, rfl⟩)
  · rintro ⟨i, j, hcommon, hbest⟩
    refine ⟨_, mem_commonAncestors.mpr ⟨i, j, base, hcommon, rfl⟩, rfl, ?_⟩
    intro entry hentry
    rcases mem_commonAncestors.mp hentry with ⟨i', j', other, hother, rfl⟩
    exact hbest i' j' other hother

end MergeBase

/-!
## What a user sees of a path
-/

section Readers

variable {db : Db} {user : Uuid} {a start : RevisionId} {n : Nat}

/-- A path to an ancestor on which the user may read every revision but the
last one. -/
def ReadPath (db : Db) (user : Uuid) (start a : RevisionId) : Prop :=
  Relation.ReflTransGen
    (fun child parent => (child, parent) ∈ db.edges ∧
      db.canReadRevision user child = true)
    start a

theorem mem_readableEdges {edge : RevisionId × RevisionId} :
    edge ∈ db.readableEdges user <->
      edge ∈ db.edges ∧ db.canReadRevision user edge.1 = true := by
  unfold readableEdges
  rw [List.mem_filter]

theorem readableEdges_subset :
    forall edge, edge ∈ db.readableEdges user -> edge ∈ db.edges :=
  fun _ hedge => (mem_readableEdges.mp hedge).1

theorem ancestor_readable_iff :
    Ancestor (db.readableEdges user) a start <->
      db.ReadPath user start a := by
  unfold Ancestor ReadPath
  simp only [mem_readableEdges]

theorem revisionIsAncestor_eq_true :
    db.revisionIsAncestor user a start = true <->
      db.ReadPath user start a := by
  unfold revisionIsAncestor
  rw [decide_eq_true_eq, mem_ancestry, ancestor_readable_iff]

/-- A common ancestor that a user sees is one, and not farther away. -/
theorem CommonAt.of_readable {left right base : RevisionId} {i j : Nat}
    (h : CommonAt (db.readableEdges user) left right i j base) :
    exists i' j', i' ≤ i ∧ j' ≤ j ∧
      CommonAt db.edges left right i' j' base := by
  rcases (h.left.2.steps.mono readableEdges_subset).exists_distance with
    ⟨i', hi', hleft⟩
  rcases (h.right.2.steps.mono readableEdges_subset).exists_distance with
    ⟨j', hj', hright⟩
  exact ⟨i', j', hi', hj', ⟨le_trans hi' h.left.1, hleft⟩,
    ⟨le_trans hj' h.right.1, hright⟩⟩

theorem nearer_of_le {i i' j j' : Nat} (hi : i' ≤ i) (hj : j' ≤ j)
    (base : RevisionId) :
    nearer (max i' j', i' + j', base) (max i j, i + j, base) = true := by
  rw [nearer_iff]
  dsimp only
  rcases Nat.lt_or_ge (max i' j') (max i j) with hlt | hge
  · exact .inl hlt
  · have hmax : max i' j' = max i j := by omega
    refine .inr ⟨hmax, ?_⟩
    rcases Nat.lt_or_ge (i' + j') (i + j) with hlt | hge
    · exact .inl hlt
    · exact .inr ⟨by omega, le_refl _⟩

/-- The user reads shortest paths from both revisions to the base. -/
def ReadsBase (db : Db) (user : Uuid) (left right base : RevisionId) : Prop :=
  (forall n, Lib.Distance db.edges left n base ->
      Steps (db.readableEdges user) left n base) ∧
    forall n, Lib.Distance db.edges right n base ->
      Steps (db.readableEdges user) right n base

theorem mergeBase_of_reads {left right base : RevisionId}
    (hbase : mergeBaseOver db.edges left right = .ok base)
    (hreads : db.ReadsBase user left right base) :
    db.mergeBase user left right = .ok base := by
  rcases mergeBaseOver_eq_ok.mp hbase with ⟨i, j, hcommon, hbest⟩
  refine mergeBaseOver_eq_ok.mpr ⟨i, j, ⟨⟨hcommon.left.1, ?_⟩,
    ⟨hcommon.right.1, ?_⟩⟩, ?_⟩
  · exact ⟨hreads.1 i hcommon.left.2, fun m hm =>
      hcommon.left.2.least m (hm.mono readableEdges_subset)⟩
  · exact ⟨hreads.2 j hcommon.right.2, fun m hm =>
      hcommon.right.2.least m (hm.mono readableEdges_subset)⟩
  · intro i' j' other hother
    rcases hother.of_readable with ⟨i'', j'', hi, hj, hwhole⟩
    exact nearer_trans _ _ _ (hbest i'' j'' other hwhole)
      (nearer_of_le hi hj other)

/-- Without a merge base there is none that a user sees. -/
theorem mergeBase_eq_error {left right : RevisionId}
    (hnone : forall base, mergeBaseOver db.edges left right ≠ .ok base) :
    db.mergeBase user left right = mergeBaseOver db.edges left right := by
  have hempty : commonAncestors db.edges left right = [] := by
    cases hentries : commonAncestors db.edges left right with
    | nil => rfl
    | cons first rest =>
        refine absurd ?_ (hnone (rest.foldl (fun best other =>
          if nearer best other then best else other) first).2.2)
        unfold mergeBaseOver
        rw [hentries]
        rfl
  have hunseen : commonAncestors (db.readableEdges user) left right = [] := by
    refine List.eq_nil_iff_forall_not_mem.mpr ?_
    intro entry hentry
    rcases mem_commonAncestors.mp hentry with ⟨i, j, base, hcommon, _⟩
    rcases hcommon.of_readable with ⟨i', j', _, _, hwhole⟩
    have hmem := mem_commonAncestors.mpr ⟨i', j', base, hwhole, rfl⟩
    rw [hempty] at hmem
    cases hmem
  unfold mergeBase mergeBaseOver
  rw [hempty, hunseen]

theorem validateForkSyncOver_eq_ok {edges : List (RevisionId × RevisionId)}
    {namespaceId forkId : Uuid} {sync : ValidatedForkSync} :
    validateForkSyncOver edges db user namespaceId forkId sync = .ok () <->
      (exists fork, db.fork forkId = some fork ∧
        fork.syncBaseRevisionId = sync.expectedBase ∧
        db.userCanForkRevision user namespaceId fork.upstreamResourceId
          sync.upstreamRevision = true) ∧
        Ancestor edges sync.expectedBase sync.upstreamRevision := by
  unfold validateForkSyncOver
  simp only [bind_eq_ok, okOr_eq_ok, ensure_eq_ok, beq_iff_eq,
    decide_eq_true_eq, mem_ancestry]
  constructor
  · rintro ⟨fork, hfork, _, hbase, _, hread, hancestor⟩
    exact ⟨⟨fork, hfork, hbase, hread⟩, hancestor⟩
  · rintro ⟨⟨fork, hfork, hbase, hread⟩, hancestor⟩
    exact ⟨fork, hfork, (), hbase, (), hread, hancestor⟩

end Readers

/-!
## When the answers agree
-/

/-- The checks of a fork sync before its walk. -/
def MaySync (db : Db) (user namespaceId forkId : Uuid)
    (sync : ValidatedForkSync) : Prop :=
  exists fork, db.fork forkId = some fork ∧
    fork.syncBaseRevisionId = sync.expectedBase ∧
      db.userCanForkRevision user namespaceId fork.upstreamResourceId
        sync.upstreamRevision = true

end Db

/-!
## A fork behind an unpublished save

A user publishes a skill, saves twice, and publishes again.  Another user, who
has forked the first release, cannot read the save between the releases, and
cannot sync the fork to the second one.
-/

namespace Sample

def bob : User where
  id := uuid 20
  namespaceId := uuid 21
  authorPrincipalId := principalId 22

def twoUsers : Directory where
  namespaces := [⟨uuid 2, "amy".toList, .user⟩, ⟨uuid 21, "bob".toList, .user⟩]
  users := [amy, bob]
  teams := []
  memberships := []
  authorLinks :=
    [⟨amy.authorPrincipalId, amy.id⟩, ⟨bob.authorPrincipalId, bob.id⟩]
  namespaceKey := by decide
  slugUnique := by decide
  userKey := by decide
  userNamespaceUnique := by decide
  teamKey := directory.teamKey
  membershipKey := directory.membershipKey
  authorKey := by decide
  usersLinked := by decide
  usersPersonal := by decide
  teamsTeam := by decide

def savedAgain : RevisionId :=
  ⟨digestOfNat
    0x0449e451b169aee7bd19c2443553ba8578d52d767dd140c632d86ffab925a52e⟩

def forkedHead : RevisionId :=
  ⟨digestOfNat
    0x62633fc3058d7d932b03cff42aa43de17234bf9856f94ab370250d2472b9f23a⟩

def forkHashes : List (Uuid × RequestHash) :=
  [ (uuid 11, digestOfNat
      0x9615f1b1cf92f99e7f6178e704914c2316d40045d09c5f5e7a270e5217d7c754),
    (uuid 12, digestOfNat
      0xc6aa3adc35c882da1846f4bb872f86eb522c1a34f04a86661f80090d70115f74),
    (uuid 13, digestOfNat
      0x88687f0d48d410b9ae3bc5002854c2f4a74a4df43f69ed4a914f4ed7cb2a9cb0),
    (uuid 14, digestOfNat
      0xb838846d5c69f04e18f82597e614e3e4556f6d2ef3201fb4fc2e615c9f9dc4e7) ]

def forkHashOf (operation : UInt8) : RequestHash :=
  (forkHashes.lookup (uuid operation)).getD (Vector.replicate 32 0)

def forking : Registry :=
  registryOf
    ([ (revisionTranscript [savedFirst] 12, savedAgain.bytes),
       (revisionTranscriptBy 22 [imported] 14, forkedHead.bytes) ] ++
      saveDigests)
    (forkHashes ++ saveHashes)

def publishRequest (operation : UInt8) (generation : UInt64) :
    PublishSkillRequest where
  operationId := operationId operation
  resourceId := uuid 4
  expectedGeneration := generation
  isPublic := true
  message := none
  tags := []
  requestHash := forkHashOf operation

def forkRequest : PrivateSkillImportRequest :=
  { importRequest with
    operationId := operationId 14
    owner := "bob".toList
    fork := some
      { upstreamResourceId := uuid 4
        upstreamRevisionId := imported
        replaceSubscription := false
        promotionHeadRevisionId := none
        historicalSkillName := none }
    requestHash := forkHashOf 14 }

def forkCalls : List ServiceCall :=
  [ .prepareImport (uuid 4) (fun _ => uuid 9) amy.id importRequest,
    .commitImport store amy.id (commitOf 5), .write 0 (uuid 8),
    .publish (uuid 8) amy.id (publishRequest 11 1),
    .prepare (fun _ => uuid 9) amy.id (saveRequest 6 1 imported [imported]),
    .commit store amy.id (commitOf 6), .write 0 (uuid 8),
    .prepare (fun _ => uuid 9) amy.id
      { saveRequest 12 2 savedFirst [savedFirst] with
        requestHash := forkHashOf 12 },
    .commit store amy.id ⟨operationId 12, forkHashOf 12⟩, .write 0 (uuid 8),
    .publish (uuid 8) amy.id (publishRequest 13 3),
    .prepareImport (uuid 23) (fun _ => uuid 9) bob.id forkRequest,
    .commitImport store bob.id ⟨operationId 14, forkHashOf 14⟩,
    .write 0 (uuid 8) ]

def forked : Service forking :=
  (Service.empty forking twoUsers).play forkCalls

/-- From the forked release to the second one. -/
def forkSync : ValidatedForkSync where
  expectedBase := imported
  upstreamRevision := savedAgain

end Sample

end Denju
