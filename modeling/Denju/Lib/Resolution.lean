import Mathlib.Data.List.Basic
import Mathlib.Logic.Relation

/-!
# Path resolution

Resolution of a path over a tree of directories, files and symbolic links, one
component at a time, as a POSIX file system does it: `..` goes to the physical
parent, and a symbolic link is replaced by its target.  The root is the empty
list of names.
-/

namespace Lib
namespace Resolution

open Relation

variable {ν : Type}

/-- One component of a path that is still to be resolved. -/
inductive Component (ν : Type) where
  | current : Component ν
  | parent : Component ν
  | name : ν -> Component ν
deriving DecidableEq, Repr

/-- What a tree holds at a location. -/
inductive Node (ν : Type) where
  | file : Node ν
  | directory : Node ν
  | link : List (Component ν) -> Node ν
deriving DecidableEq, Repr

/-- A resolution in progress: where it stands and what is left. -/
structure State (ν : Type) where
  cwd : List ν
  todo : List (Component ν)

/--
One step of a resolution.  A file, a missing name, or `..` at the root has no
step: the first two end the resolution, the last one leaves the tree.
-/
inductive Step (lookup : List ν -> Option (Node ν)) :
    State ν -> State ν -> Prop where
  | current {cwd : List ν} {rest : List (Component ν)} :
      Step lookup ⟨cwd, .current :: rest⟩ ⟨cwd, rest⟩
  | parent {cwd : List ν} {rest : List (Component ν)} (hcwd : cwd ≠ []) :
      Step lookup ⟨cwd, .parent :: rest⟩ ⟨cwd.dropLast, rest⟩
  | directory {cwd : List ν} {n : ν} {rest : List (Component ν)}
      (hnode : lookup (cwd ++ [n]) = some .directory) :
      Step lookup ⟨cwd, .name n :: rest⟩ ⟨cwd ++ [n], rest⟩
  | link {cwd : List ν} {n : ν} {target rest : List (Component ν)}
      (hnode : lookup (cwd ++ [n]) = some (.link target)) :
      Step lookup ⟨cwd, .name n :: rest⟩ ⟨cwd, target ++ rest⟩

/-- Any number of resolution steps. -/
def Runs (lookup : List ν -> Option (Node ν)) : State ν -> State ν -> Prop :=
  ReflTransGen (Step lookup)

/-- The path leads, link by link, to the given directory. -/
def Lands
    (lookup : List ν -> Option (Node ν))
    (cwd : List ν)
    (path : List (Component ν))
    (location : List ν) : Prop :=
  Runs lookup ⟨cwd, path⟩ ⟨location, []⟩

/-- The resolution reaches a `..` at the root. -/
def Escapes
    (lookup : List ν -> Option (Node ν))
    (cwd : List ν)
    (path : List (Component ν)) : Prop :=
  exists rest, Runs lookup ⟨cwd, path⟩ ⟨[], .parent :: rest⟩

/-- The resolution follows at least one symbolic link. -/
def RunsThroughLink
    (lookup : List ν -> Option (Node ν))
    (cwd : List ν)
    (path : List (Component ν)) : Prop :=
  exists dir n target rest,
    Runs lookup ⟨cwd, path⟩ ⟨dir, .name n :: rest⟩ ∧
      lookup (dir ++ [n]) = some (.link target)

/-!
## Steps under a longer path

Components to the right of the ones being resolved do not matter.
-/

variable {lookup : List ν -> Option (Node ν)}

theorem step_append {s t : State ν} (hstep : Step lookup s t)
    (rest : List (Component ν)) :
    Step lookup ⟨s.cwd, s.todo ++ rest⟩ ⟨t.cwd, t.todo ++ rest⟩ := by
  cases hstep with
  | current => exact Step.current
  | parent hcwd => exact Step.parent hcwd
  | directory hnode => exact Step.directory hnode
  | link hnode =>
      simp only [List.cons_append, List.append_assoc]
      exact Step.link hnode

theorem runs_append {s t : State ν} (hruns : Runs lookup s t)
    (rest : List (Component ν)) :
    Runs lookup ⟨s.cwd, s.todo ++ rest⟩ ⟨t.cwd, t.todo ++ rest⟩ := by
  induction hruns with
  | refl => exact ReflTransGen.refl
  | tail _ hstep ih => exact ReflTransGen.tail ih (step_append hstep rest)

theorem escapes_of_lands {cwd : List ν} {before after : List (Component ν)}
    (hlands : Lands lookup cwd before []) :
    Escapes lookup cwd (before ++ .parent :: after) := by
  have hruns := runs_append hlands (.parent :: after)
  exact ⟨after, by simpa using hruns⟩

/-!
## Where an escape comes from

However long the chain of links, the `..` that leaves the root is written in
the path itself or in the target of one of the links, and the components before
it in that same text lead to the root.
-/

/-- A `..` of the path whose preceding components lead to the root. -/
def ParentAtRoot
    (lookup : List ν -> Option (Node ν))
    (cwd : List ν)
    (path : List (Component ν)) : Prop :=
  exists before after,
    path = before ++ .parent :: after ∧ Lands lookup cwd before []

theorem parentAtRoot_cons
    {s t : State ν} {c : Component ν}
    (hstep : Step lookup ⟨s.cwd, [c]⟩ ⟨t.cwd, []⟩)
    {rest : List (Component ν)}
    (h : ParentAtRoot lookup t.cwd rest) :
    ParentAtRoot lookup s.cwd (c :: rest) := by
  rcases h with ⟨before, after, hrest, hlands⟩
  refine ⟨c :: before, after, by simp [hrest], ?_⟩
  exact ReflTransGen.head (step_append hstep before) hlands

theorem parentAtRoot_link
    {cwd : List ν} {n : ν} {target rest : List (Component ν)}
    (hnode : lookup (cwd ++ [n]) = some (.link target))
    (h : ParentAtRoot lookup cwd (target ++ rest)) :
    ParentAtRoot lookup cwd target ∨
      ParentAtRoot lookup cwd (.name n :: rest) := by
  rcases h with ⟨before, after, hsplit, hlands⟩
  rcases List.append_eq_append_iff.mp hsplit with
    ⟨middle, hbefore, hrest⟩ | ⟨middle, htarget, hafter⟩
  · right
    refine ⟨.name n :: middle, after, by simp [hrest], ?_⟩
    rw [hbefore] at hlands
    exact ReflTransGen.head (Step.link hnode) hlands
  · cases middle with
    | nil =>
        right
        refine ⟨[.name n], after, by simpa using hafter.symm, ?_⟩
        have hbefore : target = before := by simpa using htarget
        rw [← hbefore] at hlands
        refine ReflTransGen.head (Step.link hnode) ?_
        rw [List.append_nil]
        exact hlands
    | cons c more =>
        left
        have hc : c = .parent := by
          simpa using (congrArg List.head? hafter).symm
        exact ⟨before, more, by rw [htarget, hc], hlands⟩

theorem escapes_cases
    {cwd : List ν} {path : List (Component ν)}
    (hescape : Escapes lookup cwd path) :
    ParentAtRoot lookup cwd path ∨
      exists dir n target,
        lookup (dir ++ [n]) = some (.link target) ∧
          ParentAtRoot lookup dir target := by
  rcases hescape with ⟨rest, hruns⟩
  suffices hall : forall s : State ν,
      Runs lookup s ⟨[], .parent :: rest⟩ ->
        ParentAtRoot lookup s.cwd s.todo ∨
          exists dir n target,
            lookup (dir ++ [n]) = some (.link target) ∧
              ParentAtRoot lookup dir target by
    exact hall ⟨cwd, path⟩ hruns
  intro s hs
  induction hs using ReflTransGen.head_induction_on with
  | refl =>
      left
      exact ⟨[], rest, rfl, ReflTransGen.refl⟩
  | head hstep _ ih =>
      rcases ih with hpath | hlink
      · cases hstep with
        | current =>
            left
            exact parentAtRoot_cons (s := ⟨_, []⟩) (t := ⟨_, []⟩)
              Step.current hpath
        | parent hcwd =>
            left
            exact parentAtRoot_cons (s := ⟨_, []⟩) (t := ⟨_, []⟩)
              (Step.parent hcwd) hpath
        | directory hnode =>
            left
            exact parentAtRoot_cons (s := ⟨_, []⟩) (t := ⟨_, []⟩)
              (Step.directory hnode) hpath
        | link hnode =>
            rcases parentAtRoot_link hnode hpath with htarget | hpath
            · right
              exact ⟨_, _, _, hnode, htarget⟩
            · left
              exact hpath
      · right
        exact hlink

/-!
## Lexical depth

Without links on the way, the depth of the current directory is the number of
names minus the number of `..` components.
-/

/-- The depth after the components, `none` once a `..` is met at depth zero. -/
def lexicalDepth : Nat -> List (Component ν) -> Option Nat
  | depth, [] => some depth
  | depth, .current :: rest => lexicalDepth depth rest
  | 0, .parent :: _ => none
  | depth + 1, .parent :: rest => lexicalDepth depth rest
  | depth, .name _ :: rest => lexicalDepth (depth + 1) rest

theorem lexicalDepth_append_parent
    {depth d : Nat} {before after : List (Component ν)}
    (hbefore : lexicalDepth depth before = some 0)
    (h : lexicalDepth depth (before ++ .parent :: after) = some d) :
    False := by
  induction before generalizing depth with
  | nil =>
      have hdepth : depth = 0 := by
        simpa [lexicalDepth] using hbefore
      simp [hdepth, lexicalDepth] at h
  | cons c rest ih =>
      cases c with
      | current =>
          simp only [List.cons_append, lexicalDepth] at hbefore h
          exact ih hbefore h
      | name n =>
          simp only [List.cons_append, lexicalDepth] at hbefore h
          exact ih hbefore h
      | parent =>
          cases depth with
          | zero => simp [lexicalDepth] at hbefore
          | succ depth =>
              simp only [List.cons_append, lexicalDepth] at hbefore h
              exact ih hbefore h

theorem lands_lexicalDepth
    {cwd location : List ν} {path : List (Component ν)}
    (hlands : Lands lookup cwd path location) :
    RunsThroughLink lookup cwd path ∨
      lexicalDepth cwd.length path = some location.length := by
  suffices hall : forall s : State ν,
      Runs lookup s ⟨location, []⟩ ->
        RunsThroughLink lookup s.cwd s.todo ∨
          lexicalDepth s.cwd.length s.todo = some location.length by
    exact hall ⟨cwd, path⟩ hlands
  intro s hs
  induction hs using ReflTransGen.head_induction_on with
  | refl =>
      right
      rfl
  | head hstep _ ih =>
      rcases ih with ⟨dir, n, target, rest, hruns, hnode⟩ | hdepth
      · left
        exact ⟨dir, n, target, rest, ReflTransGen.head hstep hruns, hnode⟩
      · cases hstep with
        | current =>
            right
            simpa [lexicalDepth] using hdepth
        | @parent dir rest hcwd =>
            right
            cases hlength : dir.length with
            | zero =>
                exact absurd (List.length_eq_zero_iff.mp hlength) hcwd
            | succ k =>
                have hdrop : dir.dropLast.length = k := by
                  simp [hlength]
                rw [hdrop] at hdepth
                simpa [lexicalDepth] using hdepth
        | directory hnode =>
            right
            simpa [lexicalDepth] using hdepth
        | link hnode =>
            left
            exact ⟨_, _, _, _, ReflTransGen.refl, hnode⟩

end Resolution
end Lib
