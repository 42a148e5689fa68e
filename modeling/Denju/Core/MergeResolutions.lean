import Denju.Core.MergeTree

/-!
# Resolved conflicts

A merge may be given the paths whose conflicts the user has resolved.  Those
conflicts disappear, the paths keep the entries of the first head, and every
other path comes out as in a merge of that path alone.
-/

namespace Denju

open Lib

def conflictsOf : SkillMergeResult -> List MergeConflict
  | .clean _ => []
  | .conflicted conflicts => conflicts

/-- The part of a tree at one path. -/
def only (path : Text) (entries : List OwnedSkillEntry) :
    List OwnedSkillEntry :=
  entries.filter fun entry => entry.path = path

def badOutcome
    (outcome : Text -> Except MergeConflictKind (Option OwnedSkillEntry))
    (path : Text) : Option MergeConflict :=
  match outcome path with
  | .ok _ => none
  | .error kind => some { path, kind }

/-- What becomes of one path when conflicts are resolved. -/
def resolvedAt (ext : Externals) (base headA headB : List OwnedSkillEntry)
    (resolved : List Text) (path : Text) :
    Except MergeConflictKind (Option OwnedSkillEntry) :=
  mergePath ext resolved path (byPath base path) (byPath headA path)
    (byPath headB path)

/-!
## The loop over the paths
-/

theorem foldl_collectPath_eq
    (outcome : Text -> Except MergeConflictKind (Option OwnedSkillEntry))
    (paths : List Text)
    (collected : List OwnedSkillEntry × List MergeConflict) :
    paths.foldl (collectPath outcome) collected =
      (collected.1 ++ paths.filterMap (goodOutcome outcome),
        collected.2 ++ paths.filterMap (badOutcome outcome)) := by
  induction paths generalizing collected with
  | nil => simp
  | cons path rest ih =>
      rw [List.foldl_cons, ih]
      unfold collectPath
      cases hpath : outcome path with
      | error kind =>
          rw [List.filterMap_cons_none (by rw [goodOutcome, hpath]),
            List.filterMap_cons_some (by rw [badOutcome, hpath])]
          simp
      | ok entry =>
          rw [@List.filterMap_cons_none _ _ (badOutcome outcome) _ _
            (by rw [badOutcome, hpath])]
          cases entry with
          | none =>
              rw [List.filterMap_cons_none (by rw [goodOutcome, hpath])]
          | some found =>
              rw [List.filterMap_cons_some (by rw [goodOutcome, hpath])]
              simp

section Resolved

variable {ext : Externals} {base headA headB entries : List OwnedSkillEntry}
  {resolved : List Text} {path : Text}

theorem mergeWithResolutions_eq (ext : Externals)
    (base headA headB : List OwnedSkillEntry) (resolved : List Text) :
    mergeSkillEntriesWithResolutions ext base headA headB resolved =
      let outcome := resolvedAt ext base headA headB resolved
      let conflicts :=
        (mergedPaths base headA headB).filterMap (badOutcome outcome)
      if conflicts.isEmpty then
        .clean (sortByKey SkillEntry.key
          ((mergedPaths base headA headB).filterMap (goodOutcome outcome)))
      else
        .conflicted conflicts := by
  unfold mergeSkillEntriesWithResolutions
  dsimp only
  rw [foldl_collectPath_eq]
  rfl

theorem conflictsOf_merge (ext : Externals)
    (base headA headB : List OwnedSkillEntry) (resolved : List Text) :
    conflictsOf
        (mergeSkillEntriesWithResolutions ext base headA headB resolved) =
      (mergedPaths base headA headB).filterMap
        (badOutcome (resolvedAt ext base headA headB resolved)) := by
  rw [mergeWithResolutions_eq]
  dsimp only
  split
  · rename_i hempty
    rw [List.isEmpty_iff.mp hempty]
    rfl
  · rfl

/-- Only a conflict is resolved. -/
theorem resolvedAt_eq :
    resolvedAt ext base headA headB resolved path =
      match outcomeAt ext base headA headB path with
      | .ok entry => .ok entry
      | .error kind =>
          if path ∈ resolved then .ok (byPath headA path) else .error kind := by
  unfold resolvedAt outcomeAt mergePath
  split
  · rfl
  · split
    · rfl
    · split
      · rfl
      · cases mergeChangedPath ext (byPath base path) (byPath headA path)
            (byPath headB path) with
        | ok entry => rfl
        | error kind =>
            dsimp only
            rw [if_neg List.not_mem_nil]

theorem resolvedAt_path {entry : OwnedSkillEntry}
    (h : resolvedAt ext base headA headB resolved path = .ok (some entry)) :
    entry.path = path := by
  rw [resolvedAt_eq] at h
  cases houtcome : outcomeAt ext base headA headB path with
  | ok found =>
      rw [houtcome] at h
      cases h
      exact outcomeAt_path houtcome
  | error kind =>
      rw [houtcome] at h
      dsimp only at h
      split at h
      · exact (path_of_byPath (Except.ok.inj h)).2
      · cases h

theorem badOutcome_resolvedAt :
    badOutcome (resolvedAt ext base headA headB resolved) path =
      (badOutcome (outcomeAt ext base headA headB) path).filter
        fun conflict => conflict.path ∉ resolved := by
  unfold badOutcome
  rw [resolvedAt_eq]
  cases outcomeAt ext base headA headB path with
  | ok entry => rfl
  | error kind =>
      by_cases hresolved : path ∈ resolved
      · simp [hresolved, Option.filter]
      · simp [hresolved, Option.filter]

/-- The conflicts of a merge are those of the plain one that are not
resolved. -/
theorem conflictsOf_resolved :
    conflictsOf
        (mergeSkillEntriesWithResolutions ext base headA headB resolved) =
      (conflictsOf (mergeSkillEntries ext base headA headB)).filter
        fun conflict => conflict.path ∉ resolved := by
  unfold mergeSkillEntries
  rw [conflictsOf_merge, conflictsOf_merge, List.filter_filterMap]
  apply List.filterMap_congr
  intro path _
  exact badOutcome_resolvedAt

theorem mem_conflictsOf {conflict : MergeConflict} :
    conflict ∈ conflictsOf (mergeSkillEntries ext base headA headB) <->
      outcomeAt ext base headA headB conflict.path = .error conflict.kind := by
  unfold mergeSkillEntries
  rw [conflictsOf_merge, List.mem_filterMap]
  constructor
  · intro h
    rcases h with ⟨path, _, hbad⟩
    unfold badOutcome at hbad
    split at hbad
    · cases hbad
    · rename_i kind houtcome
      cases hbad
      exact houtcome
  · intro h
    refine ⟨conflict.path, ?_, ?_⟩
    · by_contra habsent
      rw [outcomeAt_absent habsent] at h
      cases h
    · unfold badOutcome
      have hsame : resolvedAt ext base headA headB [] conflict.path =
          .error conflict.kind := h
      rw [hsame]

/-!
## One path of a clean result
-/

theorem nodup_mergedPaths (base headA headB : List OwnedSkillEntry) :
    (mergedPaths base headA headB).Nodup :=
  (sortByKey_perm utf8 _).nodup_iff.mpr (List.nodup_dedup _)

theorem resolvedAt_absent (h : path ∉ mergedPaths base headA headB) :
    resolvedAt ext base headA headB resolved path = .ok none := by
  rw [resolvedAt_eq, outcomeAt_absent h]

theorem goodOutcome_path {found : OwnedSkillEntry}
    (h : goodOutcome (resolvedAt ext base headA headB resolved) path =
      some found) : found.path = path := by
  unfold goodOutcome at h
  split at h
  · rename_i entry hentry
    rw [h] at hentry
    exact resolvedAt_path hentry
  · cases h

/-- The loop leaves at a path what becomes of the path. -/
theorem only_goodOutcomes (path : Text) :
    only path ((mergedPaths base headA headB).filterMap
        (goodOutcome (resolvedAt ext base headA headB resolved))) =
      (goodOutcome (resolvedAt ext base headA headB resolved) path).toList := by
  have hsame : forall other found,
      goodOutcome (resolvedAt ext base headA headB resolved) other =
        some found -> (found.path = path <-> other = path) := by
    intro other found hfound
    rw [goodOutcome_path hfound]
  unfold only
  by_cases hlisted : path ∈ mergedPaths base headA headB
  · rcases List.append_of_mem hlisted with ⟨front, back, hsplit⟩
    have hnodup := nodup_mergedPaths base headA headB
    rw [hsplit] at hnodup ⊢
    have hfront : path ∉ front := fun hmem =>
      (List.nodup_append'.mp hnodup).2.2 hmem List.mem_cons_self
    have hback : path ∉ back :=
      (List.nodup_cons.mp (List.nodup_append'.mp hnodup).2.1).1
    have hnone : forall others : List Text, path ∉ others ->
        (others.filterMap (goodOutcome
          (resolvedAt ext base headA headB resolved))).filter
            (fun entry => entry.path = path) = [] := by
      intro others hothers
      apply List.filter_eq_nil_iff.mpr
      intro found hfound
      rcases List.mem_filterMap.mp hfound with ⟨other, hother, hgood⟩
      rw [decide_eq_true_eq, hsame other found hgood]
      intro heq
      rw [heq] at hother
      exact hothers hother
    rw [List.filterMap_append, List.filter_append, hnone front hfront,
      List.nil_append]
    cases hgood : goodOutcome (resolvedAt ext base headA headB resolved)
        path with
    | none =>
        rw [List.filterMap_cons_none hgood, hnone back hback]
        rfl
    | some found =>
        rw [List.filterMap_cons_some hgood, List.filter_cons_of_pos
          (by rw [goodOutcome_path hgood]; exact decide_eq_true rfl),
          hnone back hback]
        rfl
  · have hnone : goodOutcome (resolvedAt ext base headA headB resolved)
        path = none := by
      unfold goodOutcome
      rw [resolvedAt_absent hlisted]
    rw [hnone]
    apply List.filter_eq_nil_iff.mpr
    intro found hfound
    rcases List.mem_filterMap.mp hfound with ⟨other, hother, hgood⟩
    rw [decide_eq_true_eq, hsame other found hgood]
    intro heq
    rw [heq] at hother
    exact hlisted hother

/-- What a clean result has at a path. -/
theorem only_of_clean
    (hclean : mergeSkillEntriesWithResolutions ext base headA headB resolved =
      .clean entries) (path : Text) :
    exists entry, resolvedAt ext base headA headB resolved path = .ok entry ∧
      only path entries = entry.toList := by
  rw [mergeWithResolutions_eq] at hclean
  dsimp only at hclean
  split at hclean
  · rename_i hempty
    cases hclean
    have hok : exists entry,
        resolvedAt ext base headA headB resolved path = .ok entry := by
      by_cases hlisted : path ∈ mergedPaths base headA headB
      · have hgood := List.filterMap_eq_nil_iff.mp (List.isEmpty_iff.mp hempty)
          path hlisted
        unfold badOutcome at hgood
        split at hgood
        · rename_i entry hentry
          exact ⟨entry, hentry⟩
        · cases hgood
      · exact ⟨none, resolvedAt_absent hlisted⟩
    rcases hok with ⟨entry, hentry⟩
    refine ⟨entry, hentry, ?_⟩
    have hgood : goodOutcome (resolvedAt ext base headA headB resolved) path =
        entry := by
      unfold goodOutcome
      rw [hentry]
    have hperm := (sortByKey_perm SkillEntry.key
      ((mergedPaths base headA headB).filterMap
        (goodOutcome (resolvedAt ext base headA headB resolved)))).filter
          fun entry => decide (entry.path = path)
    have honly := @only_goodOutcomes ext base headA headB resolved path
    unfold only at honly ⊢
    rw [honly, hgood] at hperm
    cases entry with
    | none => exact hperm.eq_nil
    | some found => exact hperm.eq_singleton
  · cases hclean

theorem byPath_only (tree : List OwnedSkillEntry) (path : Text) :
    byPath (only path tree) path = byPath tree path := by
  unfold byPath only
  rw [← List.filter_reverse, List.find?_filter]
  congr 1
  funext entry
  simp

theorem mergedPaths_only (path : Text) :
    mergedPaths (only path base) (only path headA) (only path headB) = [] ∨
      mergedPaths (only path base) (only path headA) (only path headB) =
        [path] := by
  have hsame : forall other, other ∈ mergedPaths (only path base)
      (only path headA) (only path headB) -> other = path := by
    intro other hother
    rcases mem_mergedPaths.mp hother with ⟨entry, hentry, rfl⟩
    unfold only at hentry
    rw [← List.filter_append, ← List.filter_append] at hentry
    exact of_decide_eq_true (List.mem_filter.mp hentry).2
  have hnodup := nodup_mergedPaths (only path base) (only path headA)
    (only path headB)
  cases hpaths : mergedPaths (only path base) (only path headA)
      (only path headB) with
  | nil => exact .inl rfl
  | cons first rest =>
      right
      rw [hpaths] at hsame hnodup
      cases rest with
      | nil => rw [hsame first List.mem_cons_self]
      | cons second more =>
          have hfirst := hsame first List.mem_cons_self
          have hsecond := hsame second (List.mem_cons_of_mem _
            List.mem_cons_self)
          rw [hfirst, hsecond] at hnodup
          exact absurd List.mem_cons_self (List.nodup_cons.mp hnodup).1

/-- A merge of one path alone. -/
theorem mergeSkillEntries_only (path : Text) :
    mergeSkillEntries ext (only path base) (only path headA)
        (only path headB) =
      match outcomeAt ext base headA headB path with
      | .ok entry => .clean entry.toList
      | .error kind => .conflicted [{ path, kind }] := by
  have houtcome : outcomeAt ext base headA headB path =
      outcomeAt ext (only path base) (only path headA) (only path headB)
        path := by
    unfold outcomeAt
    rw [byPath_only, byPath_only, byPath_only]
  have hplain : resolvedAt ext (only path base) (only path headA)
      (only path headB) [] path =
        outcomeAt ext (only path base) (only path headA) (only path headB)
          path := rfl
  unfold mergeSkillEntries
  rw [mergeWithResolutions_eq, houtcome]
  dsimp only
  cases @mergedPaths_only base headA headB path with
  | inl hnone =>
      rw [hnone, outcomeAt_absent (by rw [hnone]; exact List.not_mem_nil)]
      rfl
  | inr hone =>
      rw [hone]
      cases hat : outcomeAt ext (only path base) (only path headA)
          (only path headB) path with
      | ok entry =>
          rw [List.filterMap_cons_none (by unfold badOutcome; rw [hplain, hat])]
          cases entry with
          | none =>
              rw [List.filterMap_cons_none
                (by unfold goodOutcome; rw [hplain, hat])]
              rfl
          | some found =>
              rw [List.filterMap_cons_some
                (by unfold goodOutcome; rw [hplain, hat])]
              rfl
      | error kind =>
          rw [List.filterMap_cons_some
            (by unfold badOutcome; rw [hplain, hat])]
          rfl

theorem byPath_of_only {entry : Option OwnedSkillEntry}
    (h : only path entries = entry.toList) : byPath entries path = entry := by
  rw [← byPath_only, h]
  cases entry with
  | none => rfl
  | some found =>
      have hmem : found ∈ only path entries := by
        rw [h]
        exact List.mem_singleton_self found
      have hpath := (List.mem_filter.mp hmem).2
      unfold byPath
      simp [of_decide_eq_true hpath]

/-- The entries of a clean result have ascending paths. -/
theorem ascending_of_clean
    (hclean : mergeSkillEntriesWithResolutions ext base headA headB resolved =
      .clean entries) :
    (entries.map fun entry => utf8 entry.path).Pairwise (· < ·) := by
  have hnodup : (entries.map SkillEntry.path).Nodup := by
    rw [List.nodup_iff_count_le_one]
    intro path
    rcases only_of_clean hclean path with ⟨entry, _, honly⟩
    have hcount : (entries.map SkillEntry.path).count path =
        (only path entries).length := by
      unfold only List.count
      rw [List.countP_map, List.countP_eq_length_filter]
      congr 1
      apply List.filter_congr
      intro entry _
      exact beq_eq_decide _ _
    rw [hcount, honly]
    cases entry with
    | none => exact Nat.zero_le _
    | some found => exact Nat.le_refl _
  have hsorted : entries.Pairwise (keyLe SkillEntry.key) := by
    rw [mergeWithResolutions_eq] at hclean
    dsimp only at hclean
    split at hclean
    · cases hclean
      exact sortByKey_pairwise _ _
    · cases hclean
  rw [List.pairwise_map]
  apply (hsorted.and (List.pairwise_map.mp hnodup)).imp
  intro a b hab
  apply lt_of_le_of_ne hab.1
  intro hsame
  exact hab.2 (utf8_injective hsame)

/-- A merge with resolved paths reports the conflicts of the plain merge that
are not resolved.  A clean one has ascending paths, its resolved conflicts have
the entries of the first head, and at every other path it is the merge of that
path alone, with the change of a side where the other one keeps the base. -/
theorem mergeSkillEntriesWithResolutions_resolves (ext : Externals)
    (base headA headB : List OwnedSkillEntry) (resolved : List Text) :
    conflictsOf
        (mergeSkillEntriesWithResolutions ext base headA headB resolved) =
      (conflictsOf (mergeSkillEntries ext base headA headB)).filter
        (fun conflict => conflict.path ∉ resolved) ∧
    forall entries,
      mergeSkillEntriesWithResolutions ext base headA headB resolved =
        .clean entries ->
      (entries.map fun entry => utf8 entry.path).Pairwise (· < ·) ∧
      (forall conflict,
        conflict ∈ conflictsOf (mergeSkillEntries ext base headA headB) ->
          only conflict.path entries =
            (byPath headA conflict.path).toList) ∧
      forall path,
        (forall conflict,
          conflict ∈ conflictsOf (mergeSkillEntries ext base headA headB) ->
            conflict.path ≠ path) ->
        mergeSkillEntries ext (only path base) (only path headA)
            (only path headB) = .clean (only path entries) ∧
          (byPath headA path = byPath base path ->
            byPath entries path = byPath headB path) ∧
          (byPath headB path = byPath base path ->
            byPath entries path = byPath headA path) := by
  refine ⟨conflictsOf_resolved, fun entries hclean => ?_⟩
  refine ⟨ascending_of_clean hclean, ?_, ?_⟩
  · intro conflict hconflict
    rcases only_of_clean hclean conflict.path with ⟨entry, hentry, honly⟩
    rw [resolvedAt_eq, mem_conflictsOf.mp hconflict] at hentry
    dsimp only at hentry
    split at hentry
    · cases hentry
      exact honly
    · cases hentry
  · intro path hfree
    rcases only_of_clean hclean path with ⟨entry, hentry, honly⟩
    have houtcome : outcomeAt ext base headA headB path = .ok entry := by
      rw [resolvedAt_eq] at hentry
      cases hat : outcomeAt ext base headA headB path with
      | ok found =>
          rw [hat] at hentry
          exact hentry
      | error kind =>
          exact absurd rfl (hfree ⟨path, kind⟩ (mem_conflictsOf.mpr hat))
    refine ⟨?_, ?_, ?_⟩
    · rw [mergeSkillEntries_only, houtcome, honly]
    · intro hkept
      rw [byPath_of_only honly]
      unfold outcomeAt mergePath at houtcome
      rw [hkept] at houtcome
      split at houtcome
      · rename_i hsame
        cases houtcome
        exact hsame
      · rw [if_pos rfl] at houtcome
        exact (Except.ok.inj houtcome).symm
    · intro hkept
      rw [byPath_of_only honly]
      unfold outcomeAt mergePath at houtcome
      rw [hkept] at houtcome
      split at houtcome
      · exact (Except.ok.inj houtcome).symm
      · rw [if_pos rfl] at houtcome
        exact (Except.ok.inj houtcome).symm

end Resolved

end Denju
