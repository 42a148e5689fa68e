import Mathlib.Logic.Relation
import Mathlib.Data.Nat.Find
import Mathlib.Data.List.Nodup
import Mathlib.Data.List.Perm.Subperm

/-!
# Ancestry

A history is a list of edges from a node to a parent.  An ancestor of a node is
reached from it along such edges, in any number of steps.  Adding edges keeps
every ancestor.
-/

namespace Lib

variable {ν : Type}

/-- The first node is reached from the second along edges to parents. -/
def Ancestor (edges : List (ν × ν)) (ancestor descendant : ν) : Prop :=
  Relation.ReflTransGen (fun child parent => (child, parent) ∈ edges)
    descendant ancestor

variable {edges edges' : List (ν × ν)} {a b c : ν}

namespace Ancestor

theorem refl (a : ν) : Ancestor edges a a :=
  Relation.ReflTransGen.refl

theorem parent (h : (a, b) ∈ edges) : Ancestor edges b a :=
  Relation.ReflTransGen.single h

theorem trans (hab : Ancestor edges a b) (hbc : Ancestor edges b c) :
    Ancestor edges a c :=
  Relation.ReflTransGen.trans hbc hab

theorem mono (hsub : forall edge, edge ∈ edges -> edge ∈ edges')
    (h : Ancestor edges a b) : Ancestor edges' a b :=
  Relation.ReflTransGen.mono (fun child parent => hsub (child, parent)) _ _ h

end Ancestor

/-- One round of the search: the nodes seen and their parents. -/
def addParents [DecidableEq ν] (edges : List (ν × ν)) (seen : List ν) :
    List ν :=
  edges.foldl
    (fun seen edge =>
      if edge.1 ∈ seen ∧ edge.2 ∉ seen then seen ++ [edge.2] else seen)
    seen

/-- The start and all its ancestors: no search needs more rounds than edges. -/
def ancestry [DecidableEq ν] (edges : List (ν × ν)) (start : ν) : List ν :=
  (List.range (edges.length + 1)).foldl (fun seen _ => addParents edges seen)
    [start]

/-- One round of the search by depth: the parents that are not seen yet. -/
def addDeeper [DecidableEq ν] (edges : List (ν × ν)) (seen : List (ν × Nat))
    (depth : Nat) : List (ν × Nat) :=
  edges.foldl
    (fun found edge =>
      if (edge.1, depth) ∈ seen ∧ edge.2 ∉ found.map Prod.fst then
        found ++ [(edge.2, depth + 1)]
      else found)
    seen

/-- The ancestors within a number of steps, each with its least depth. -/
def ancestryDepths [DecidableEq ν] (edges : List (ν × ν)) (limit : Nat)
    (start : ν) : List (ν × Nat) :=
  (List.range (min limit edges.length)).foldl (addDeeper edges) [(start, 0)]

/-!
## Distances

A node is found in the round of its distance.  A distance is at most the number
of edges, since the nodes on a shortest path are different.
-/

/-- A path of the given number of steps from a node to an ancestor. -/
inductive Steps (edges : List (ν × ν)) (start : ν) : Nat -> ν -> Prop where
  | zero : Steps edges start 0 start
  | succ {n : Nat} {a b : ν} :
      Steps edges start n a -> (a, b) ∈ edges -> Steps edges start (n + 1) b

/-- The least number of steps to an ancestor. -/
structure Distance (edges : List (ν × ν)) (start : ν) (n : Nat) (a : ν) :
    Prop where
  steps : Steps edges start n a
  least : forall m, Steps edges start m a -> n ≤ m

section Distances

variable {start : ν} {n m : Nat}

theorem Steps.ancestor (h : Steps edges start n a) :
    Ancestor edges a start := by
  induction h with
  | zero => exact .refl start
  | succ _ hedge ih => exact (Ancestor.parent hedge).trans ih

theorem Steps.mono (hsub : forall edge, edge ∈ edges -> edge ∈ edges')
    (h : Steps edges start n a) : Steps edges' start n a := by
  induction h with
  | zero => exact .zero
  | succ _ hedge ih => exact .succ ih (hsub _ hedge)

theorem Ancestor.exists_steps (h : Ancestor edges a start) :
    exists n, Steps edges start n a := by
  induction h with
  | refl => exact ⟨0, .zero⟩
  | tail _ hedge ih =>
      rcases ih with ⟨n, hsteps⟩
      exact ⟨n + 1, .succ hsteps hedge⟩

theorem Steps.exists_distance (h : Steps edges start n a) :
    exists m, m ≤ n ∧ Distance edges start m a := by
  classical
  have hexists : exists n, Steps edges start n a := ⟨n, h⟩
  refine ⟨Nat.find hexists, Nat.find_min' hexists h, Nat.find_spec hexists, ?_⟩
  intro m hm
  exact Nat.find_min' hexists hm

theorem Distance.unique (h : Distance edges start n a)
    (h' : Distance edges start m a) : n = m :=
  Nat.le_antisymm (h.least m h'.steps) (h'.least n h.steps)

theorem Distance.pred (h : Distance edges start (n + 1) b) :
    exists a, Distance edges start n a ∧ (a, b) ∈ edges := by
  cases h.steps with
  | succ hsteps hedge =>
      rename_i a
      refine ⟨a, ⟨hsteps, ?_⟩, hedge⟩
      intro m hm
      exact Nat.le_of_succ_le_succ (h.least (m + 1) (.succ hm hedge))

/-- The nodes behind the start on a shortest path, which are all different. -/
theorem Distance.exists_nodes (h : Distance edges start n a) :
    exists nodes : List ν, nodes.length = n ∧ nodes.Nodup ∧
      forall node, node ∈ nodes ->
        node ∈ edges.map Prod.snd ∧
          exists m, m ≤ n ∧ Distance edges start m node := by
  induction n generalizing a with
  | zero => exact ⟨[], rfl, List.nodup_nil, by simp⟩
  | succ n ih =>
      rcases h.pred with ⟨b, hb, hedge⟩
      rcases ih hb with ⟨nodes, hlength, hnodup, hnodes⟩
      refine ⟨a :: nodes, by simp [hlength], ?_, ?_⟩
      · refine List.nodup_cons.mpr ⟨?_, hnodup⟩
        intro hmem
        rcases (hnodes a hmem).2 with ⟨m, hle, hm⟩
        have hsame := h.unique hm
        omega
      · intro node hnode
        rcases List.mem_cons.mp hnode with rfl | hold
        · exact ⟨List.mem_map.mpr ⟨_, hedge, rfl⟩, n + 1, Nat.le_refl _, h⟩
        · rcases (hnodes node hold).2 with ⟨m, hle, hm⟩
          exact ⟨(hnodes node hold).1, m, by omega, hm⟩

theorem Distance.le_length (h : Distance edges start n a) :
    n ≤ edges.length := by
  rcases h.exists_nodes with ⟨nodes, hlength, hnodup, hnodes⟩
  have hsub : List.Subperm nodes (edges.map Prod.snd) :=
    hnodup.subperm fun node hnode => (hnodes node hnode).1
  have hle := hsub.length_le
  rw [hlength, List.length_map] at hle
  exact hle

end Distances

/-!
## The searches find the ancestors
-/

section Searches

variable [DecidableEq ν] {start : ν} {n m : Nat}

theorem foldl_range_succ {σ : Type} (f : σ -> Nat -> σ) (s : σ) (n : Nat) :
    (List.range (n + 1)).foldl f s = f ((List.range n).foldl f s) n := by
  rw [List.range_succ, List.foldl_append]
  rfl

/-- A round keeps what is seen. -/
theorem subset_addParents (seen : List ν) :
    forall node, node ∈ seen -> node ∈ addParents edges seen := by
  unfold addParents
  induction edges generalizing seen with
  | nil =>
      intro node hnode
      exact hnode
  | cons edge rest ih =>
      intro node hnode
      rw [List.foldl_cons]
      refine ih _ node ?_
      split
      · exact List.mem_append_left _ hnode
      · exact hnode

/-- A round adds the parents of what is seen. -/
theorem parent_mem_addParents {seen : List ν} (ha : a ∈ seen)
    (hedge : (a, b) ∈ edges) : b ∈ addParents edges seen := by
  unfold addParents
  induction edges generalizing seen with
  | nil => cases hedge
  | cons edge rest ih =>
      rw [List.foldl_cons]
      rcases List.mem_cons.mp hedge with rfl | hrest
      · refine @subset_addParents _ rest _ _ b ?_
        split
        · exact List.mem_append_right _ (List.mem_singleton.mpr rfl)
        · rename_i hseen
          simpa [ha] using hseen
      · refine ih ?_ hrest
        split
        · exact List.mem_append_left _ ha
        · exact ha

/-- A round adds ancestors only. -/
theorem addParents_sound {seen : List ν}
    (h : forall node, node ∈ seen -> Ancestor edges node start) :
    forall node, node ∈ addParents edges seen -> Ancestor edges node start := by
  have hfold : forall (rest : List (ν × ν)) (seen : List ν),
      (forall edge, edge ∈ rest -> edge ∈ edges) ->
      (forall node, node ∈ seen -> Ancestor edges node start) ->
      forall node, node ∈ rest.foldl
        (fun seen edge =>
          if edge.1 ∈ seen ∧ edge.2 ∉ seen then seen ++ [edge.2] else seen)
        seen -> Ancestor edges node start := by
    intro rest
    induction rest with
    | nil =>
        intro seen _ hseen
        exact hseen
    | cons edge rest ih =>
        intro seen hsub hseen
        refine ih _ (fun e he => hsub e (List.mem_cons_of_mem _ he)) ?_
        intro node hnode
        dsimp only at hnode
        split at hnode
        · rename_i hnew
          rcases List.mem_append.mp hnode with hold | hlast
          · exact hseen node hold
          · rw [List.mem_singleton.mp hlast]
            have hparent : Ancestor edges edge.2 edge.1 :=
              Ancestor.parent (hsub edge List.mem_cons_self)
            exact hparent.trans (hseen edge.1 hnew.1)
        · exact hseen node hnode
  exact hfold edges seen (fun _ hedge => hedge) h

theorem mem_rounds_of_steps (h : Steps edges start n a) (hle : n ≤ m) :
    a ∈ (List.range m).foldl (fun seen _ => addParents edges seen)
      [start] := by
  induction m generalizing n a with
  | zero =>
      have hzero : n = 0 := Nat.le_zero.mp hle
      rw [hzero] at h
      cases h
      exact List.mem_singleton.mpr rfl
  | succ m ih =>
      rw [foldl_range_succ]
      cases h with
      | zero => exact subset_addParents _ _ (ih .zero (Nat.zero_le m))
      | succ hsteps hedge =>
          exact parent_mem_addParents (ih hsteps (by omega)) hedge

/-- The search finds exactly the ancestors. -/
theorem mem_ancestry : a ∈ ancestry edges start <-> Ancestor edges a start := by
  constructor
  · intro h
    have hsound : forall m node, node ∈ (List.range m).foldl
        (fun seen _ => addParents edges seen) [start] ->
          Ancestor edges node start := by
      intro m
      induction m with
      | zero =>
          intro node hnode
          rw [List.mem_singleton.mp hnode]
          exact .refl start
      | succ m ih =>
          rw [foldl_range_succ]
          exact addParents_sound ih
    exact hsound _ a h
  · intro h
    rcases h.exists_steps with ⟨n, hsteps⟩
    rcases hsteps.exists_distance with ⟨m, _, hm⟩
    exact mem_rounds_of_steps hm.steps (Nat.le_succ_of_le hm.le_length)

/-- One round by depth adds the unseen parents of the last round. -/
theorem mem_foldDeeper {seen found : List (ν × Nat)} {k : Nat} :
    (b, k) ∈ edges.foldl
        (fun found edge =>
          if (edge.1, n) ∈ seen ∧ edge.2 ∉ found.map Prod.fst then
            found ++ [(edge.2, n + 1)]
          else found)
        found <->
      (b, k) ∈ found ∨
        (k = n + 1 ∧ b ∉ found.map Prod.fst ∧
          exists a, (a, n) ∈ seen ∧ (a, b) ∈ edges) := by
  induction edges generalizing found with
  | nil => simp
  | cons edge rest ih =>
      rw [List.foldl_cons, ih]
      rcases edge with ⟨x, y⟩
      dsimp only
      by_cases hx : (x, n) ∈ seen ∧ y ∉ found.map Prod.fst
      · rw [if_pos hx]
        simp only [List.mem_append, Prod.mk.injEq, List.map_append,
          List.map_cons, List.map_nil, not_or, List.mem_cons,
          List.not_mem_nil, or_false]
        by_cases hy : b = y
        · subst hy
          have hfresh : (b, k) ∉ found := fun hmem =>
            hx.2 (List.mem_map.mpr ⟨_, hmem, rfl⟩)
          constructor
          · rintro ((hmem | ⟨_, hk⟩) | ⟨_, ⟨_, hne⟩, _⟩)
            · exact absurd hmem hfresh
            · exact .inr ⟨hk, hx.2, x, hx.1, .inl ⟨rfl, rfl⟩⟩
            · exact absurd rfl hne
          · rintro (hmem | ⟨hk, _, _⟩)
            · exact absurd hmem hfresh
            · exact .inl (.inr ⟨rfl, hk⟩)
        · simp [hy]
      · rw [if_neg hx]
        constructor
        · rintro (hmem | ⟨hk, hfresh, a, ha, hedge⟩)
          · exact .inl hmem
          · exact .inr ⟨hk, hfresh, a, ha, List.mem_cons_of_mem _ hedge⟩
        · rintro (hmem | ⟨hk, hfresh, a, ha, hedge⟩)
          · exact .inl hmem
          · rcases List.mem_cons.mp hedge with hfirst | hrest
            · rcases Prod.mk.inj hfirst with ⟨rfl, rfl⟩
              exact absurd ⟨ha, hfresh⟩ hx
            · exact .inr ⟨hk, hfresh, a, ha, hrest⟩

/-- The search by depth after some rounds: all nodes within that distance. -/
theorem mem_depthRounds :
    (a, n) ∈ (List.range m).foldl (addDeeper edges) [(start, 0)] <->
      n ≤ m ∧ Distance edges start n a := by
  induction m generalizing a n with
  | zero =>
      simp only [List.range_zero, List.foldl_nil, List.mem_singleton,
        Prod.mk.injEq]
      constructor
      · rintro ⟨rfl, rfl⟩
        exact ⟨Nat.le_refl 0, .zero, fun m _ => Nat.zero_le m⟩
      · rintro ⟨hle, hdistance⟩
        have hzero := Nat.le_zero.mp hle
        rw [hzero] at hdistance
        cases hdistance.steps
        exact ⟨rfl, hzero⟩
  | succ m ih =>
      rw [foldl_range_succ]
      unfold addDeeper
      rw [mem_foldDeeper]
      constructor
      · rintro (hold | ⟨rfl, hfresh, b, hb, hedge⟩)
        · have hseen := ih.mp hold
          exact ⟨Nat.le_succ_of_le hseen.1, hseen.2⟩
        · refine ⟨Nat.le_refl _, .succ (ih.mp hb).2.steps hedge, ?_⟩
          intro k hk
          rcases hk.exists_distance with ⟨j, hjk, hj⟩
          by_contra hlt
          have hjm : j ≤ m := by omega
          exact hfresh (List.mem_map.mpr ⟨(a, j), ih.mpr ⟨hjm, hj⟩, rfl⟩)
      · rintro ⟨hle, hdistance⟩
        by_cases hm : n ≤ m
        · exact .inl (ih.mpr ⟨hm, hdistance⟩)
        · have hlast : n = m + 1 := by omega
          subst hlast
          rcases hdistance.pred with ⟨b, hb, hedge⟩
          refine .inr ⟨rfl, ?_, b, ih.mpr ⟨Nat.le_refl m, hb⟩, hedge⟩
          intro hmem
          rcases List.mem_map.mp hmem with ⟨⟨c, j⟩, hc, rfl⟩
          have hj := ih.mp hc
          have hsame := hdistance.unique hj.2
          omega

/-- The search by depth finds the nodes within the limit, at their distance. -/
theorem mem_ancestryDepths {limit : Nat} :
    (a, n) ∈ ancestryDepths edges limit start <->
      n ≤ limit ∧ Distance edges start n a := by
  unfold ancestryDepths
  rw [mem_depthRounds]
  constructor
  · rintro ⟨hle, hdistance⟩
    exact ⟨by omega, hdistance⟩
  · rintro ⟨hle, hdistance⟩
    have hlength := hdistance.le_length
    exact ⟨by omega, hdistance⟩

theorem lookup_ancestryDepths {limit : Nat} :
    (ancestryDepths edges limit start).lookup a = some n <->
      n ≤ limit ∧ Distance edges start n a := by
  rw [← mem_ancestryDepths]
  constructor
  · intro hlookup
    rcases List.lookup_eq_some_iff.mp hlookup with ⟨before, after, hsplit, _⟩
    rw [hsplit]
    exact List.mem_append_right _ List.mem_cons_self
  · intro hmem
    cases hlookup : (ancestryDepths edges limit start).lookup a with
    | none =>
        have habsent := List.lookup_eq_none_iff.mp hlookup (a, n) hmem
        simp at habsent
    | some k =>
        rcases List.lookup_eq_some_iff.mp hlookup with
          ⟨before, after, hsplit, _⟩
        have hk : (a, k) ∈ ancestryDepths edges limit start := by
          rw [hsplit]
          exact List.mem_append_right _ List.mem_cons_self
        rw [(mem_ancestryDepths.mp hk).2.unique (mem_ancestryDepths.mp hmem).2]

end Searches

end Lib
