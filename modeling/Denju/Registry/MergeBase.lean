import Denju.Registry.AncestryAccess

/-!
# Merge bases

The merge base of two revisions is the common ancestor that comes first by the
greater of both shortest distances, their sum, and the identifier.  A shortest
distance may run along a side branch, so a common ancestor can come before one
of its own descendants that is common as well.
-/

namespace Denju

open Lib

namespace Db

section Lowest

variable {edges seen : List (RevisionId × RevisionId)}
  {left right base : RevisionId}

def CommonAncestor (edges : List (RevisionId × RevisionId))
    (left right revision : RevisionId) : Prop :=
  Ancestor edges revision left ∧ Ancestor edges revision right

/-- A common ancestor of which no other one is a descendant. -/
structure LowestCommon (edges : List (RevisionId × RevisionId))
    (left right base : RevisionId) : Prop where
  common : CommonAncestor edges left right base
  lowest : forall other, CommonAncestor edges left right other ->
    Ancestor edges base other -> other = base

/-- Every history is shorter than the walks of the queries, so that there is no
cycle either. -/
def Shallow (edges : List (RevisionId × RevisionId)) : Prop :=
  forall start n revision, Steps edges start n revision -> n < 4096

/-- Another common ancestor comes strictly before the revision. -/
def Preceded (edges : List (RevisionId × RevisionId))
    (left right revision : RevisionId) : Prop :=
  exists i j i' j' other, CommonAt edges left right i j revision ∧
    CommonAt edges left right i' j' other ∧
      nearer (max i j, i + j, revision) (max i' j', i' + j', other) = false

/-- Whatever has a common descendant that is not itself is preceded, in the part
of the graph that is seen. -/
def DescendantsFirst (edges seen : List (RevisionId × RevisionId))
    (left right : RevisionId) : Prop :=
  forall revision, CommonAncestor seen left right revision ->
    forall other, CommonAncestor edges left right other ->
      Ancestor edges revision other -> other ≠ revision ->
        Preceded seen left right revision

theorem Shallow.mono (hseen : forall edge, edge ∈ seen -> edge ∈ edges)
    (h : Shallow edges) : Shallow seen :=
  fun start n revision hsteps => h start n revision (hsteps.mono hseen)

theorem CommonAncestor.commonAt (hshallow : Shallow edges)
    (h : CommonAncestor edges left right base) :
    exists i j, CommonAt edges left right i j base := by
  rcases h.1.exists_steps with ⟨n, hn⟩
  rcases h.2.exists_steps with ⟨m, hm⟩
  rcases hn.exists_distance with ⟨i, _, hi⟩
  rcases hm.exists_distance with ⟨j, _, hj⟩
  exact ⟨i, j, ⟨Nat.le_of_lt (hshallow _ _ _ hi.steps), hi⟩,
    ⟨Nat.le_of_lt (hshallow _ _ _ hj.steps), hj⟩⟩

theorem CommonAt.ancestor {i j : Nat}
    (h : CommonAt edges left right i j base) :
    CommonAncestor edges left right base :=
  ⟨h.left.2.steps.ancestor, h.right.2.steps.ancestor⟩

/-- Where there is a common ancestor, there is a merge base. -/
theorem exists_mergeBaseOver {i j : Nat}
    (h : CommonAt edges left right i j base) :
    exists found, mergeBaseOver edges left right = .ok found := by
  have hmem := mem_commonAncestors.mpr ⟨i, j, base, h, rfl⟩
  unfold mergeBaseOver
  cases hentries : commonAncestors edges left right with
  | nil =>
      rw [hentries] at hmem
      cases hmem
  | cons first rest => exact ⟨_, rfl⟩

/-- The merge base in a part of the graph is a lowest common ancestor of the
whole graph exactly where descendants come first. -/
theorem lowestCommon_iff (hseen : forall edge, edge ∈ seen -> edge ∈ edges)
    (hshallow : Shallow edges)
    (hbase : mergeBaseOver seen left right = .ok base) :
    LowestCommon edges left right base <->
      DescendantsFirst edges seen left right := by
  rcases mergeBaseOver_eq_ok.mp hbase with ⟨i, j, hcommon, hbest⟩
  have hmono : forall revision, CommonAncestor seen left right revision ->
      CommonAncestor edges left right revision :=
    fun revision h => ⟨h.1.mono hseen, h.2.mono hseen⟩
  constructor
  · intro hlowest revision hrevision other hother hancestor hne
    rcases hrevision.commonAt (hshallow.mono hseen) with ⟨i', j', hat⟩
    refine ⟨i', j', i, j, base, hat, hcommon, ?_⟩
    rw [Bool.eq_false_iff]
    intro hnearer
    have hsame : base = revision :=
      nearer_antisymm (hbest i' j' revision hat) hnearer
    rw [← hsame] at hancestor hne
    exact hne (hlowest.lowest other hother hancestor)
  · intro hfirst
    constructor
    · exact hmono base hcommon.ancestor
    · intro other hother hancestor
      by_contra hne
      rcases hfirst base hcommon.ancestor other hother hancestor hne with
        ⟨i', j', k, l, nearest, hat, hnearest, hbefore⟩
      rw [hat.left.2.unique hcommon.left.2,
        hat.right.2.unique hcommon.right.2,
        hbest k l nearest hnearest] at hbefore
      cases hbefore

/-- Where all walks to a revision are of one length, descendants come first. -/
theorem descendantsFirst_of_level (hshallow : Shallow edges)
    (hleft : forall n m revision, Steps edges left n revision ->
      Steps edges left m revision -> n = m)
    (hright : forall n m revision, Steps edges right n revision ->
      Steps edges right m revision -> n = m) :
    DescendantsFirst edges edges left right := by
  intro revision hrevision other hother hancestor hne
  rcases hrevision.commonAt hshallow with ⟨i, j, hat⟩
  rcases hother.commonAt hshallow with ⟨i', j', hat'⟩
  refine ⟨i, j, i', j', other, hat, hat', ?_⟩
  have hfarther : forall {start : RevisionId} {n m : Nat},
      (forall n m found, Steps edges start n found ->
        Steps edges start m found -> n = m) ->
      Steps edges start n other -> Steps edges start m revision -> n < m := by
    intro start n m hlevel hn hm
    have hwalk : forall found, Ancestor edges found other ->
        exists k, Steps edges start (n + k) found ∧
          (found ≠ other -> 0 < k) := by
      intro found hfound
      induction hfound with
      | refl => exact ⟨0, hn, fun hdiffer => absurd rfl hdiffer⟩
      | tail _ hedge ih =>
          rcases ih with ⟨k, hsteps, _⟩
          exact ⟨k + 1, hsteps.succ hedge, fun _ => Nat.succ_pos k⟩
    rcases hwalk revision hancestor with ⟨k, hsteps, hpos⟩
    have hlength := hlevel _ _ _ hsteps hm
    have hstrict := hpos (Ne.symm hne)
    omega
  have hi := hfarther hleft hat'.left.2.steps hat.left.2.steps
  have hj := hfarther hright hat'.right.2.steps hat.right.2.steps
  rw [Bool.eq_false_iff]
  intro hnearer
  rw [nearer_iff] at hnearer
  dsimp only at hnearer
  omega

end Lowest

/-!
## The base of a conflict
-/

end Db

/-!
## A side branch to an old revision

Both revisions go back to one revision in three steps, and by a merged side
branch to its parent in two.
-/

namespace Sample

def revision (n : Nat) : RevisionId :=
  ⟨digestOfNat n⟩

def branchedEdges : List (RevisionId × RevisionId) :=
  [(1, 3), (1, 7), (3, 4), (4, 9), (7, 10), (9, 10), (2, 5), (2, 8), (5, 6),
    (6, 9), (8, 10)].map fun edge : Nat × Nat =>
      (revision edge.1, revision edge.2)

/-- How far the revision is from the first one. -/
def branchedRank (id : RevisionId) : Nat :=
  if id = revision 1 ∨ id = revision 2 then 4
  else if id = revision 3 ∨ id = revision 5 then 3
  else if id = revision 4 ∨ id = revision 6 then 2
  else if id = revision 7 ∨ id = revision 8 ∨ id = revision 9 then 1
  else 0

theorem branchedEdges_shallow : Db.Shallow branchedEdges := by
  have hrank : forall edge, edge ∈ branchedEdges ->
      branchedRank edge.2 < branchedRank edge.1 := by decide +kernel
  intro start n found hsteps
  have hbound : n + branchedRank found ≤ branchedRank start := by
    induction hsteps with
    | zero => rw [Nat.zero_add]
    | succ _ hedge ih =>
        have hstep := hrank _ hedge
        dsimp only at hstep
        omega
  have htop : branchedRank start ≤ 4 := by
    unfold branchedRank
    split_ifs
    · exact Nat.le_refl _
    · omega
    · omega
    · omega
    · omega
  omega

end Sample

end Denju
