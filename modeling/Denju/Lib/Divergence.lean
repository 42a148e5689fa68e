import Denju.Lib.Ancestry

/-!
# Diverging branches

A branch has a head, the nodes that were saved on it, and at most one open
conflict between two nodes.  A save moves the head forward, diverges from it
and opens a conflict, or merges the two sides of the open conflict.  No save is
lost: a saved node is behind the head, or is a side of the open conflict.
-/

namespace Lib

variable {ν : Type}

structure Conflict (ν : Type) where
  base : ν
  left : ν
  right : ν

def Conflict.Side (conflict : Conflict ν) (node : ν) : Prop :=
  node = conflict.left ∨ node = conflict.right

structure Branch (ν : Type) where
  head : ν
  saved : ν -> Prop
  conflict : Option (Conflict ν)

namespace Branch

/-- A branch with its first node. -/
def start (node : ν) : Branch ν where
  head := node
  saved := fun other => other = node
  conflict := none

/-- What a save does to a branch over the edges of the history. -/
inductive Move (edges : List (ν × ν)) (branch : Branch ν) :
    Branch ν -> Prop where
  | advance (node : ν) : branch.conflict = none ->
      (node, branch.head) ∈ edges ->
        Move edges branch
          { head := node
            saved := fun other => branch.saved other ∨ other = node
            conflict := none }
  | merge (node : ν) (conflict : Conflict ν) :
      branch.conflict = some conflict ->
      (node, conflict.left) ∈ edges -> (node, conflict.right) ∈ edges ->
        Move edges branch
          { head := node
            saved := fun other => branch.saved other ∨ other = node
            conflict := none }
  | diverge (node : ν) (conflict : Conflict ν) : branch.conflict = none ->
      branch.saved conflict.base -> (node, conflict.base) ∈ edges ->
      (conflict.left = node ∧ conflict.right = branch.head ∨
        conflict.left = branch.head ∧ conflict.right = node) ->
        Move edges branch
          { head := branch.head
            saved := fun other => branch.saved other ∨ other = node
            conflict := some conflict }

/-- The head is saved, the head and the base fit the open conflict, and no
saved node is lost. -/
structure Sound (edges : List (ν × ν)) (branch : Branch ν) : Prop where
  headSaved : branch.saved branch.head
  headSide : forall conflict, branch.conflict = some conflict ->
    conflict.Side branch.head
  baseBehind : forall conflict, branch.conflict = some conflict ->
    Ancestor edges conflict.base conflict.left ∧
      Ancestor edges conflict.base conflict.right
  kept : forall node, branch.saved node ->
    Ancestor edges node branch.head ∨
      exists conflict, branch.conflict = some conflict ∧ conflict.Side node

variable {edges edges' : List (ν × ν)} {branch branch' : Branch ν}

theorem start_sound (node : ν) : (start node).Sound edges where
  headSaved := rfl
  headSide := by simp [start]
  baseBehind := by simp [start]
  kept := by
    rintro other rfl
    exact .inl (Ancestor.refl _)

theorem Sound.mono (hsub : forall edge, edge ∈ edges -> edge ∈ edges')
    (h : branch.Sound edges) : branch.Sound edges' where
  headSaved := h.headSaved
  headSide := h.headSide
  baseBehind := by
    intro conflict hconflict
    have hbase := h.baseBehind conflict hconflict
    exact ⟨hbase.1.mono hsub, hbase.2.mono hsub⟩
  kept := by
    intro node hnode
    rcases h.kept node hnode with hbehind | hside
    · exact .inl (hbehind.mono hsub)
    · exact .inr hside

/-- A new head that is a child of the old one, and of both sides of an open
conflict, leaves every saved node behind it. -/
theorem Sound.move_head (h : branch.Sound edges) {node : ν}
    (hhead : (node, branch.head) ∈ edges)
    (hsides : forall conflict, branch.conflict = some conflict ->
      forall side, conflict.Side side -> (node, side) ∈ edges) :
    Sound edges
      { head := node
        saved := fun other => branch.saved other ∨ other = node
        conflict := none } where
  headSaved := .inr rfl
  headSide := by simp
  baseBehind := by simp
  kept := by
    rintro other (hother | rfl)
    · rcases h.kept other hother with hbehind | ⟨conflict, hconflict, hside⟩
      · exact .inl (hbehind.trans (Ancestor.parent hhead))
      · exact .inl
          (Ancestor.parent (hsides conflict hconflict other hside))
    · exact .inl (Ancestor.refl _)

theorem Move.sound (h : branch.Sound edges)
    (hmove : Move edges branch branch') : branch'.Sound edges := by
  cases hmove with
  | advance node hnone hhead =>
      exact h.move_head hhead (by simp [hnone])
  | merge node conflict hconflict hleft hright =>
      have hside : forall side, conflict.Side side -> (node, side) ∈ edges := by
        rintro side (rfl | rfl)
        · exact hleft
        · exact hright
      refine h.move_head (hside _ (h.headSide conflict hconflict)) ?_
      intro other hother
      rw [hconflict] at hother
      cases hother
      exact hside
  | diverge node conflict hnone hbase hedge hsides =>
      have hbehind : Ancestor edges conflict.base branch.head := by
        rcases h.kept conflict.base hbase with hbehind | ⟨other, hother, _⟩
        · exact hbehind
        · rw [hnone] at hother
          cases hother
      constructor
      · exact .inl h.headSaved
      · intro other hother
        cases hother
        rcases hsides with ⟨_, hright⟩ | ⟨hleft, _⟩
        · exact .inr hright.symm
        · exact .inl hleft.symm
      · intro other hother
        cases hother
        rcases hsides with ⟨hleft, hright⟩ | ⟨hleft, hright⟩
        · rw [hleft, hright]
          exact ⟨Ancestor.parent hedge, hbehind⟩
        · rw [hleft, hright]
          exact ⟨hbehind, Ancestor.parent hedge⟩
      · rintro other (hother | rfl)
        · rcases h.kept other hother with hold | ⟨old, hold, _⟩
          · exact .inl hold
          · rw [hnone] at hold
            cases hold
        · refine .inr ⟨conflict, rfl, ?_⟩
          rcases hsides with ⟨hleft, _⟩ | ⟨_, hright⟩
          · exact .inl hleft.symm
          · exact .inr hright.symm

end Branch
end Lib
