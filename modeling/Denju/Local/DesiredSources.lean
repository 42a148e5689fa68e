import Denju.Lib.Sorting
import Mathlib.Data.Finset.Card
import Mathlib.Data.Prod.Lex

/-!
# Desired sources

A skill may be desired for several reasons at once.  Only the strongest kind of
reason decides.  Where its sources name different revisions nothing is selected;
otherwise the other sources are kept, so that they decide when the strongest
ones are gone.
-/

namespace Denju

open Lib

inductive DesiredSourceKind where
  | personalPack
  | directSubscription
  | ownedWorkspace
  | teamAssignment
deriving DecidableEq, Repr

/-- The order in which the kinds are declared. -/
def DesiredSourceKind.rank : DesiredSourceKind -> Nat
  | .personalPack => 0
  | .directSubscription => 1
  | .ownedWorkspace => 2
  | .teamAssignment => 3

structure DesiredSource where
  resourceId : Text
  revisionId : Text
  sourceId : Text
  sourceLabel : Text
  kind : DesiredSourceKind
deriving DecidableEq

inductive ResolvedDesiredState where
  | absent
  | selected (source : DesiredSource) (suppressedSources : List DesiredSource)
  | conflict (sources : List DesiredSource)
      (lastValidRevisionId : Option Text)
deriving DecidableEq

/-- The strongest sources come first, then the order is that of the text. -/
def DesiredSource.priorityKey (source : DesiredSource) :
    Lex (OrderDual Nat × Lex (Bytes × Bytes)) :=
  toLex (OrderDual.toDual source.kind.rank,
    toLex (utf8 source.sourceId, utf8 source.revisionId))

def DesiredSource.sourceKey (source : DesiredSource) : Bytes :=
  utf8 source.sourceId

/-- How many elements of a partitioned list come before the first that fails. -/
def partitionPoint {α : Type} (p : α -> Bool) (xs : List α) : Nat :=
  (xs.takeWhile p).length

def resolveDesiredSources (sources : List DesiredSource)
    (lastValidRevisionId : Option Text) : ResolvedDesiredState :=
  match sortByKey DesiredSource.priorityKey sources with
  | [] => .absent
  | first :: rest =>
      let split := partitionPoint (fun source => source.kind = first.kind)
        (first :: rest)
      let active := (first :: rest).take split
      let suppressed := (first :: rest).drop split
      let revisions := (active.map DesiredSource.revisionId).dedup
      if 1 < revisions.length then
        .conflict (sortByKey DesiredSource.sourceKey active) lastValidRevisionId
      else
        .selected first (active.tail ++ suppressed)

/-!
## The strongest sources
-/

/-- A source of the highest kind. -/
def Strongest (sources : List DesiredSource) (source : DesiredSource) : Prop :=
  source ∈ sources ∧
    forall other, other ∈ sources -> other.kind.rank ≤ source.kind.rank

theorem DesiredSourceKind.rank_injective {a b : DesiredSourceKind}
    (h : a.rank = b.rank) : a = b := by
  cases a with
  | personalPack =>
      cases b with
      | personalPack => rfl
      | directSubscription => cases h
      | ownedWorkspace => cases h
      | teamAssignment => cases h
  | directSubscription =>
      cases b with
      | personalPack => cases h
      | directSubscription => rfl
      | ownedWorkspace => cases h
      | teamAssignment => cases h
  | ownedWorkspace =>
      cases b with
      | personalPack => cases h
      | directSubscription => cases h
      | ownedWorkspace => rfl
      | teamAssignment => cases h
  | teamAssignment =>
      cases b with
      | personalPack => cases h
      | directSubscription => cases h
      | ownedWorkspace => cases h
      | teamAssignment => rfl

/-- Two of the strongest sources are of one kind. -/
theorem Strongest.kind_eq {sources : List DesiredSource}
    {a b : DesiredSource} (ha : Strongest sources a) (hb : Strongest sources b) :
    a.kind = b.kind :=
  DesiredSourceKind.rank_injective
    (Nat.le_antisymm (hb.2 a ha.1) (ha.2 b hb.1))

theorem Strongest.of_kind {sources : List DesiredSource}
    {a b : DesiredSource} (ha : Strongest sources a) (hb : b ∈ sources)
    (hkind : b.kind = a.kind) : Strongest sources b := by
  constructor
  · exact hb
  · rw [hkind]
    exact ha.2

/-- The order of priority never gets stronger again. -/
theorem rank_le_of_priorityKey {a b : DesiredSource}
    (h : keyLe DesiredSource.priorityKey a b) : b.kind.rank ≤ a.kind.rank := by
  rcases Prod.Lex.le_iff.mp h with hless | ⟨hsame, _⟩
  · exact Nat.le_of_lt hless
  · exact Nat.le_of_eq (OrderDual.toDual.injective hsame).symm

theorem sortByKey_priorityKey_perm {sources sources' : List DesiredSource}
    (hids : (sources.map DesiredSource.sourceId).Nodup)
    (hperm : sources'.Perm sources) :
    sortByKey DesiredSource.priorityKey sources' =
      sortByKey DesiredSource.priorityKey sources := by
  apply sortByKey_eq_of_perm _ hperm
  intro a b ha hb hkey
  have hids' : (sources'.map DesiredSource.sourceId).Nodup :=
    (hperm.map _).nodup_iff.mpr hids
  apply List.inj_on_of_nodup_map hids' ha hb
  have hparts := congrArg (fun key => (ofLex (ofLex key).2).1) hkey
  exact utf8_injective hparts

/-!
## How a list of sources is resolved
-/

section Resolve

variable {sources : List DesiredSource} {last : Option Text}

/-- The sorted list splits into the strongest sources and the others. -/
structure Split (sources : List DesiredSource) (first : DesiredSource)
    (active suppressed : List DesiredSource) : Prop where
  strongest : Strongest sources first
  perm : (first :: active ++ suppressed).Perm sources
  active : forall source, source ∈ first :: active -> source.kind = first.kind
  suppressed : forall source, source ∈ suppressed -> source.kind ≠ first.kind

theorem resolveDesiredSources_nil :
    resolveDesiredSources [] last = .absent :=
  rfl

theorem resolveDesiredSources_split (last : Option Text)
    (hne : sources ≠ []) :
    exists first active suppressed,
      Split sources first active suppressed ∧
        resolveDesiredSources sources last =
          if 1 < ((first :: active).map
              DesiredSource.revisionId).dedup.length then
            .conflict (sortByKey DesiredSource.sourceKey (first :: active)) last
          else
            .selected first (active ++ suppressed) := by
  have hperm := sortByKey_perm DesiredSource.priorityKey sources
  have hsorted := sortByKey_pairwise DesiredSource.priorityKey sources
  unfold resolveDesiredSources
  cases hlist : sortByKey DesiredSource.priorityKey sources with
  | nil =>
      rw [hlist] at hperm
      exact absurd hperm.symm.eq_nil hne
  | cons first rest =>
      rw [hlist] at hperm hsorted
      rcases List.pairwise_cons.mp hsorted with ⟨hfirst, _⟩
      let p := fun source : DesiredSource => decide (source.kind = first.kind)
      have hactive : (first :: rest).takeWhile p = first :: rest.takeWhile p :=
        List.takeWhile_cons_of_pos (by simp [p])
      have hsuppressed : (first :: rest).dropWhile p = rest.dropWhile p :=
        List.dropWhile_cons_of_pos (by simp [p])
      have hsplit : (first :: rest).takeWhile p ++ (first :: rest).dropWhile p =
          first :: rest := List.takeWhile_append_dropWhile
      have htake : (first :: rest).take (partitionPoint p (first :: rest)) =
          first :: rest.takeWhile p := by
        rw [← hactive]
        exact (congrArg (List.take _) hsplit.symm).trans List.take_left
      have hdrop : (first :: rest).drop (partitionPoint p (first :: rest)) =
          rest.dropWhile p := by
        rw [← hsuppressed]
        exact (congrArg (List.drop _) hsplit.symm).trans List.drop_left
      have hranks : (first :: rest).Pairwise fun a b =>
          b.kind.rank ≤ a.kind.rank :=
        hsorted.imp rank_le_of_priorityKey
      have hhighest : forall source, source ∈ first :: rest ->
          source.kind.rank ≤ first.kind.rank := by
        intro source hsource
        rcases List.mem_cons.mp hsource with rfl | hrest
        · exact Nat.le_refl _
        · exact (List.pairwise_cons.mp hranks).1 source hrest
      refine ⟨first, rest.takeWhile p, rest.dropWhile p, ⟨?_, ?_, ?_, ?_⟩, ?_⟩
      · constructor
        · exact hperm.mem_iff.mp List.mem_cons_self
        · intro source hsource
          exact hhighest source (hperm.mem_iff.mpr hsource)
      · rw [hactive, hsuppressed] at hsplit
        rw [hsplit]
        exact hperm
      · intro source hsource
        rcases List.mem_cons.mp hsource with rfl | hrest
        · rfl
        · have hholds : p source = true := List.mem_takeWhile_imp hrest
          exact of_decide_eq_true hholds
      · intro source hsource
        rw [← hsuppressed] at hsource
        apply of_decide_eq_false
        apply eq_false_of_mem_dropWhile _ hsource
        apply hranks.imp_of_mem
        intro a b ha _ hle hb
        have hsame : b.kind = first.kind := of_decide_eq_true hb
        rw [hsame] at hle
        apply decide_eq_true
        exact DesiredSourceKind.rank_injective
          (Nat.le_antisymm (hhighest a ha) hle)
      · show (if 1 < (((first :: rest).take
            (partitionPoint p (first :: rest))).map _).dedup.length then _
          else _) = _
        rw [htake, hdrop]
        rfl

variable {first : DesiredSource} {active suppressed : List DesiredSource}

theorem Split.mem_iff (h : Split sources first active suppressed)
    {source : DesiredSource} :
    source ∈ first :: active <-> Strongest sources source := by
  constructor
  · intro hsource
    apply h.strongest.of_kind _ (h.active source hsource)
    exact h.perm.mem_iff.mp (List.mem_append_left _ hsource)
  · intro hsource
    rcases List.mem_append.mp (h.perm.mem_iff.mpr hsource.1) with
      hactive | hsuppressed
    · exact hactive
    · exact absurd (hsource.kind_eq h.strongest)
        (h.suppressed source hsuppressed)

theorem Split.disagree_iff (h : Split sources first active suppressed) :
    1 < ((first :: active).map DesiredSource.revisionId).dedup.length <->
      exists a b, Strongest sources a ∧ Strongest sources b ∧
        a.revisionId ≠ b.revisionId := by
  rw [← List.card_toFinset, Finset.one_lt_card]
  constructor
  · rintro ⟨x, hx, y, hy, hne⟩
    rcases List.mem_map.mp (List.mem_toFinset.mp hx) with ⟨a, ha, rfl⟩
    rcases List.mem_map.mp (List.mem_toFinset.mp hy) with ⟨b, hb, rfl⟩
    exact ⟨a, b, h.mem_iff.mp ha, h.mem_iff.mp hb, hne⟩
  · rintro ⟨a, b, ha, hb, hne⟩
    refine ⟨a.revisionId, ?_, b.revisionId, ?_, hne⟩
    · exact List.mem_toFinset.mpr (List.mem_map_of_mem (h.mem_iff.mpr ha))
    · exact List.mem_toFinset.mpr (List.mem_map_of_mem (h.mem_iff.mpr hb))

theorem resolveDesiredSources_perm {sources' : List DesiredSource}
    (hids : (sources.map DesiredSource.sourceId).Nodup)
    (hperm : sources'.Perm sources) :
    resolveDesiredSources sources' last = resolveDesiredSources sources last := by
  unfold resolveDesiredSources
  rw [sortByKey_priorityKey_perm hids hperm]

/-- Nothing is selected only where there are no sources. -/
theorem resolveDesiredSources_eq_absent :
    resolveDesiredSources sources last = .absent <-> sources = [] := by
  constructor
  · intro h
    by_contra hne
    rcases resolveDesiredSources_split last hne with
      ⟨first, active, suppressed, _, hresolve⟩
    rw [hresolve] at h
    split at h
    · cases h
    · cases h
  · rintro rfl
    rfl

theorem resolveDesiredSources_eq_conflict {listed : List DesiredSource}
    {kept : Option Text}
    (h : resolveDesiredSources sources last = .conflict listed kept) :
    kept = last ∧ listed.Pairwise (keyLe DesiredSource.sourceKey) ∧
      (forall source, source ∈ listed <-> Strongest sources source) ∧
        ((sources.map DesiredSource.sourceId).Nodup ->
          (listed.map DesiredSource.sourceId).Nodup) ∧
          exists a b, Strongest sources a ∧ Strongest sources b ∧
            a.revisionId ≠ b.revisionId := by
  have hne : sources ≠ [] := by
    rintro rfl
    cases h
  rcases resolveDesiredSources_split last hne with
    ⟨first, active, suppressed, hsplit, hresolve⟩
  rw [hresolve] at h
  split at h
  · rename_i hdisagree
    cases h
    refine ⟨rfl, sortByKey_pairwise _ _, ?_, ?_, hsplit.disagree_iff.mp hdisagree⟩
    · intro source
      rw [mem_sortByKey]
      exact hsplit.mem_iff
    · intro hids
      apply ((sortByKey_perm _ _).map _).nodup_iff.mpr
      have hall := (hsplit.perm.map DesiredSource.sourceId).nodup_iff.mpr hids
      rw [List.map_append] at hall
      exact hall.of_append_left
  · cases h

theorem resolveDesiredSources_eq_selected {source : DesiredSource}
    {suppressedSources : List DesiredSource}
    (h : resolveDesiredSources sources last =
      .selected source suppressedSources) :
    Strongest sources source ∧ (source :: suppressedSources).Perm sources ∧
      ¬exists a b, Strongest sources a ∧ Strongest sources b ∧
        a.revisionId ≠ b.revisionId := by
  have hne : sources ≠ [] := by
    rintro rfl
    cases h
  rcases resolveDesiredSources_split last hne with
    ⟨first, active, suppressed, hsplit, hresolve⟩
  rw [hresolve] at h
  split at h
  · cases h
  · rename_i hagree
    cases h
    refine ⟨hsplit.strongest, ?_, ?_⟩
    · rw [← List.cons_append]
      exact hsplit.perm
    · rw [← hsplit.disagree_iff]
      exact hagree

end Resolve

/-- The resolution does not depend on the order of the sources.  It is a
conflict of the strongest sources where they disagree; elsewhere one of them is
selected, all the others are kept, and without the strongest ones the kept ones
are resolved as they would be alone. -/
theorem resolveDesiredSources_sound {sources : List DesiredSource}
    (hids : (sources.map DesiredSource.sourceId).Nodup)
    (last : Option Text) :
    (forall sources', sources'.Perm sources ->
        resolveDesiredSources sources' last =
          resolveDesiredSources sources last) ∧
      (resolveDesiredSources sources last = .absent <-> sources = []) ∧
      ((exists listed kept,
          resolveDesiredSources sources last = .conflict listed kept) <->
        exists a b, Strongest sources a ∧ Strongest sources b ∧
          a.revisionId ≠ b.revisionId) ∧
      (forall listed kept,
        resolveDesiredSources sources last = .conflict listed kept ->
          kept = last ∧ (listed.map DesiredSource.sourceId).Nodup ∧
            forall source, source ∈ listed <-> Strongest sources source) ∧
      forall source suppressedSources,
        resolveDesiredSources sources last =
            .selected source suppressedSources ->
          Strongest sources source ∧
            (source :: suppressedSources).Perm sources ∧
              resolveDesiredSources
                  (sources.filter fun other => other.kind ≠ source.kind) last =
                resolveDesiredSources
                  (suppressedSources.filter fun other =>
                    other.kind ≠ source.kind) last := by
  refine ⟨fun sources' hperm => resolveDesiredSources_perm hids hperm,
    resolveDesiredSources_eq_absent, ?_, ?_, ?_⟩
  · constructor
    · rintro ⟨listed, kept, hconflict⟩
      exact (resolveDesiredSources_eq_conflict hconflict).2.2.2.2
    · intro hdisagree
      cases hresolve : resolveDesiredSources sources last with
      | absent =>
          rcases hdisagree with ⟨a, _, ha, _, _⟩
          rw [resolveDesiredSources_eq_absent.mp hresolve] at ha
          exact absurd ha.1 List.not_mem_nil
      | selected source suppressedSources =>
          exact absurd hdisagree
            (resolveDesiredSources_eq_selected hresolve).2.2
      | conflict listed kept => exact ⟨listed, kept, rfl⟩
  · intro listed kept hconflict
    have hparts := resolveDesiredSources_eq_conflict hconflict
    exact ⟨hparts.1, hparts.2.2.2.1 hids, hparts.2.2.1⟩
  · intro source suppressedSources hselected
    have hparts := resolveDesiredSources_eq_selected hselected
    refine ⟨hparts.1, hparts.2.1, ?_⟩
    have hrest := hparts.2.1.filter fun other => other.kind ≠ source.kind
    rw [List.filter_cons_of_neg (by simp)] at hrest
    apply (resolveDesiredSources_perm _ hrest).symm
    exact hids.sublist (List.filter_sublist.map _)

namespace Sample

def desiredSource (kind : DesiredSourceKind) (sourceId revision : String) :
    DesiredSource where
  resourceId := "skill-1".toList
  revisionId := revision.toList
  sourceId := sourceId.toList
  sourceLabel := sourceId.toList
  kind := kind

def disagreeing : List DesiredSource :=
  [ desiredSource .personalPack "pack" "rev-a",
    desiredSource .teamAssignment "team:beta" "rev-b",
    desiredSource .teamAssignment "team:alpha" "rev-a" ]

end Sample

/-- Two assignments of a team disagree, and a pack has to wait. -/
theorem resolveDesiredSources_sound_teams :
    exists listed,
      resolveDesiredSources Sample.disagreeing (some "last-good".toList) =
          .conflict listed (some "last-good".toList) ∧
        (forall source, source ∈ listed <->
          Strongest Sample.disagreeing source) := by
  have hids : (Sample.disagreeing.map DesiredSource.sourceId).Nodup := by
    decide +kernel
  have hsound := resolveDesiredSources_sound hids (some "last-good".toList)
  have hdisagree : exists a b, Strongest Sample.disagreeing a ∧
      Strongest Sample.disagreeing b ∧ a.revisionId ≠ b.revisionId :=
    ⟨Sample.desiredSource .teamAssignment "team:alpha" "rev-a",
      Sample.desiredSource .teamAssignment "team:beta" "rev-b",
      ⟨by decide +kernel, by decide +kernel⟩,
      ⟨by decide +kernel, by decide +kernel⟩, by decide +kernel⟩
  rcases hsound.2.2.1.mpr hdisagree with ⟨listed, kept, hconflict⟩
  have hlisted := hsound.2.2.2.1 listed kept hconflict
  rw [hlisted.1] at hconflict
  exact ⟨listed, hconflict, hlisted.2.2⟩

end Denju
