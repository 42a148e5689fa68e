import Mathlib.Data.Option.Basic
import Mathlib.Logic.Basic

/-!
# Three-way merge of trees

A tree gives a node to some of its paths.  It is well formed when everything
above a path is a directory and no two paths fold to the same key.  A merge that
decides path by path keeps every path sound on its own; whether the merged tree
is well formed depends on how the decisions meet.
-/

namespace Lib

variable {π κ γ : Type}

inductive Node (γ : Type) where
  | directory
  | leaf (content : γ)
deriving DecidableEq

/-- How the paths of a tree are related. -/
structure PathShape (π κ : Type) where
  above : π -> π -> Prop
  fold : π -> κ

variable (shape : PathShape π κ)

structure WellFormed (tree : π -> Option (Node γ)) : Prop where
  parents : forall upper path, shape.above upper path ->
    (tree path).isSome = true -> tree upper = some .directory
  apart : forall path other, (tree path).isSome = true ->
    (tree other).isSome = true -> shape.fold path = shape.fold other ->
      path = other

/-- What becomes of one path, given the base and both heads: the side that
changed it, or new content where both changed content. -/
inductive Outcome :
    Option (Node γ) -> Option (Node γ) -> Option (Node γ) ->
      Option (Node γ) -> Prop where
  | same (base head : Option (Node γ)) : Outcome base head head head
  | left (base head : Option (Node γ)) : Outcome base base head head
  | right (base head : Option (Node γ)) : Outcome base head base head
  | content (base a b merged : γ) :
      Outcome (some (.leaf base)) (some (.leaf a)) (some (.leaf b))
        (some (.leaf merged))

/-- The head adds the path, and the other one does not. -/
structure AddsAlone (base head other : π -> Option (Node γ)) (path : π) :
    Prop where
  added : (head path).isSome = true
  new : base path = none
  alone : other path = none

/-- The heads add paths that fold to the same key. -/
def Twins (base a b : π -> Option (Node γ)) : Prop :=
  exists path other, AddsAlone base a b path ∧ AddsAlone base b a other ∧
    shape.fold path = shape.fold other

/-- The head adds a path below a directory of the base that the other one
removes or replaces. -/
def Orphans (base head other : π -> Option (Node γ)) : Prop :=
  exists path upper, (head path).isSome = true ∧ base path = none ∧
    shape.above upper path ∧ base upper = some .directory ∧
      other upper ≠ some .directory

namespace Outcome

variable {base a b merged : Option (Node γ)}

theorem swap (h : Outcome base a b merged) : Outcome base b a merged := by
  cases h with
  | same => exact .same _ _
  | left => exact .right _ _
  | right => exact .left _ _
  | content => exact .content _ _ _ _

theorem isSome_cases (h : Outcome base a b merged)
    (hsome : merged.isSome = true) : a.isSome = true ∨ b.isSome = true := by
  cases h with
  | same => exact Or.inl hsome
  | left => exact Or.inr hsome
  | right => exact Or.inl hsome
  | content => exact Or.inl rfl

/-- A path of one head only is in the merged tree when it is not in the base. -/
theorem isSome_iff_of_alone (h : Outcome base a none merged)
    (ha : a.isSome = true) : merged.isSome = true <-> base = none := by
  cases h with
  | same => cases ha
  | left =>
      constructor
      · intro hnone
        cases hnone
      · intro hbase
        rw [hbase] at ha
        cases ha
  | right => exact Iff.intro (fun _ => rfl) fun _ => ha

theorem directory_iff (h : Outcome base (some .directory) b merged) :
    merged = some .directory <->
      (base = some .directory -> b = some .directory) := by
  cases h with
  | same => exact Iff.intro (fun _ _ => rfl) fun _ => rfl
  | left => exact Iff.intro (fun heq _ => heq) fun hkeep => hkeep rfl
  | right => exact Iff.intro (fun _ heq => heq) fun _ => rfl

end Outcome

variable {base a b merged : π -> Option (Node γ)}

/-- A path below something that is no directory of the other head is not in the
other head. -/
theorem absent_of_above (hb : WellFormed shape b) {upper path : π}
    (habove : shape.above upper path)
    (hother : b upper ≠ some .directory) : b path = none := by
  cases hvalue : b path with
  | none => rfl
  | some node =>
      have hsome : (b path).isSome = true := by
        rw [hvalue]
        rfl
      exact absurd (hb.parents upper path habove hsome) hother

section Merge

variable (ha : WellFormed shape a) (hb : WellFormed shape b)
  (hmerge : forall path, Outcome (base path) (a path) (b path) (merged path))

include hmerge

theorem addsAlone_iff {path : π} (hpath : (a path).isSome = true)
    (hother : b path = none) :
    AddsAlone base a b path <-> (merged path).isSome = true := by
  have hat := hmerge path
  rw [hother] at hat
  rw [hat.isSome_iff_of_alone hpath]
  constructor
  · intro h
    exact h.new
  · intro hnew
    exact ⟨hpath, hnew, hother⟩

include ha hb

/-- A path that the head brings into the merged tree has its parents there. -/
theorem parents_of_merge (horphans : ¬Orphans shape base a b) {upper path : π}
    (habove : shape.above upper path) (hpath : (a path).isSome = true)
    (hmerged : (merged path).isSome = true) :
    merged upper = some .directory := by
  have hupper := hmerge upper
  rw [ha.parents upper path habove hpath] at hupper
  apply hupper.directory_iff.mpr
  intro hbase
  by_contra hother
  have habsent := absent_of_above shape hb habove hother
  have hadds := (addsAlone_iff hmerge hpath habsent).mpr hmerged
  exact horphans ⟨path, upper, hpath, hadds.new, habove, hbase, hother⟩

theorem not_orphans_of_merge (h : WellFormed shape merged) :
    ¬Orphans shape base a b := by
  rintro ⟨path, upper, hpath, hnew, habove, hbase, hother⟩
  have habsent := absent_of_above shape hb habove hother
  have hmerged := (addsAlone_iff hmerge hpath habsent).mp
    ⟨hpath, hnew, habsent⟩
  have hupper := hmerge upper
  rw [ha.parents upper path habove hpath] at hupper
  exact hother (hupper.directory_iff.mp (h.parents upper path habove hmerged)
    hbase)

/-- Two paths of the merged tree with one key come from different heads. -/
theorem twins_of_merge {path other : π} (hpath : (a path).isSome = true)
    (hmerged : (merged path).isSome = true)
    (hmerged' : (merged other).isSome = true)
    (hfold : shape.fold path = shape.fold other) (hne : path ≠ other) :
    Twins shape base a b := by
  have hnone : a other = none := by
    by_contra hsome
    exact hne (ha.apart path other hpath (Option.isSome_iff_ne_none.mpr hsome)
      hfold)
  have hother : (b other).isSome = true := by
    rcases (hmerge other).isSome_cases hmerged' with hleft | hright
    · rw [hnone] at hleft
      cases hleft
    · exact hright
  have habsent : b path = none := by
    by_contra hsome
    exact hne (hb.apart path other (Option.isSome_iff_ne_none.mpr hsome) hother
      hfold)
  have hswapped : forall path,
      Outcome (base path) (b path) (a path) (merged path) :=
    fun path => (hmerge path).swap
  exact ⟨path, other, (addsAlone_iff hmerge hpath habsent).mpr hmerged,
    (addsAlone_iff hswapped hother hnone).mpr hmerged', hfold⟩

/-- The merge of two well-formed heads is well formed exactly when the heads
add no two paths with one key and nothing below a directory that the other one
gave up. -/
theorem wellFormed_merge_iff :
    WellFormed shape merged <->
      ¬Twins shape base a b ∧ ¬Orphans shape base a b ∧
        ¬Orphans shape base b a := by
  have hswapped : forall path,
      Outcome (base path) (b path) (a path) (merged path) :=
    fun path => (hmerge path).swap
  constructor
  · intro h
    refine ⟨?_, not_orphans_of_merge shape ha hb hmerge h,
      not_orphans_of_merge shape hb ha hswapped h⟩
    rintro ⟨path, other, hpath, hother, hfold⟩
    have hmerged := (addsAlone_iff hmerge hpath.added hpath.alone).mp hpath
    have hmerged' := (addsAlone_iff hswapped hother.added hother.alone).mp
      hother
    have hsame := h.apart path other hmerged hmerged' hfold
    have hadded := hpath.added
    rw [hsame, hother.alone] at hadded
    cases hadded
  · rintro ⟨htwins, hleft, hright⟩
    constructor
    · intro upper path habove hmerged
      rcases (hmerge path).isSome_cases hmerged with hpath | hpath
      · exact parents_of_merge shape ha hb hmerge hleft habove hpath hmerged
      · exact parents_of_merge shape hb ha hswapped hright habove hpath hmerged
    · intro path other hmerged hmerged' hfold
      by_contra hne
      apply htwins
      rcases (hmerge path).isSome_cases hmerged with hpath | hpath
      · exact twins_of_merge shape ha hb hmerge hpath hmerged hmerged' hfold hne
      · rcases twins_of_merge shape hb ha hswapped hpath hmerged hmerged' hfold
          hne with ⟨first, second, hfirst, hsecond, hsame⟩
        exact ⟨second, first, hsecond, hfirst, hsame.symm⟩

end Merge

end Lib
