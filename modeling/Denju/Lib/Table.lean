import Mathlib.Data.List.Basic
import Mathlib.Data.List.Nodup

/-!
# Tables

A table is the list of its rows, in the order of insertion.  Rows are selected
by a condition, rewritten where a condition holds, and deleted where one holds.
A selection whose condition the rewriting does not disturb finds the rewritten
form of the row that it found before.
-/

namespace Lib

variable {α : Type}

/-- Rewrite every row that satisfies the condition. -/
def updateWhere (p : α -> Bool) (f : α -> α) (rows : List α) : List α :=
  rows.map fun row => if p row then f row else row

/-- Drop every row that satisfies the condition. -/
def deleteWhere (p : α -> Bool) (rows : List α) : List α :=
  rows.filter fun row => !p row

variable {p q : α -> Bool} {f : α -> α} {rows : List α} {row : α}

theorem mem_updateWhere :
    row ∈ updateWhere p f rows <->
      exists old, old ∈ rows ∧ (if p old then f old else old) = row := by
  unfold updateWhere
  exact List.mem_map

@[simp] theorem mem_deleteWhere :
    row ∈ deleteWhere p rows <-> row ∈ rows ∧ p row = false := by
  simp [deleteWhere]

/-- Rows that keep the keys of others keep them distinct. -/
theorem nodup_map_filterMap {β κ : Type} {key : α -> κ} {f : α -> Option β}
    {key' : β -> κ} (hkeys : (rows.map key).Nodup)
    (hsame : forall row, row ∈ rows ->
      forall other, f row = some other -> key' other = key row) :
    ((rows.filterMap f).map key').Nodup := by
  induction rows with
  | nil => exact List.nodup_nil
  | cons row rows ih =>
      rcases List.nodup_cons.mp hkeys with ⟨hfresh, hrest⟩
      have htail := ih hrest fun other hother =>
        hsame other (List.mem_cons_of_mem row hother)
      cases hrow : f row with
      | none =>
          rw [List.filterMap_cons_none hrow]
          exact htail
      | some other =>
          rw [List.filterMap_cons_some hrow, List.map_cons]
          apply List.nodup_cons.mpr
          constructor
          · rw [hsame row List.mem_cons_self other hrow]
            intro hmem
            rcases List.mem_map.mp hmem with ⟨found, hfound, hkey⟩
            rcases List.mem_filterMap.mp hfound with ⟨old, hold, hsome⟩
            apply hfresh
            rw [<- hkey, hsame old (List.mem_cons_of_mem row hold) found hsome]
            exact List.mem_map_of_mem hold
          · exact htail

/-- A deletion changes nothing exactly when no row is for it. -/
theorem deleteWhere_eq_self_iff :
    deleteWhere p rows = rows <-> forall row, row ∈ rows -> p row = false := by
  unfold deleteWhere
  rw [List.filter_eq_self]
  simp

/-- A row policy drops the rows it refuses from a deletion, without an error. -/
def deleteVisible (policy p : α -> Bool) (rows : List α) : List α :=
  deleteWhere (fun row => policy row && p row) rows

/-- What is left of a deletion under a policy is what the policy protects. -/
theorem mem_deleteVisible {policy : α -> Bool} :
    row ∈ deleteVisible policy p rows <->
      row ∈ rows ∧ (p row = true -> policy row = false) := by
  unfold deleteVisible
  rw [mem_deleteWhere]
  cases p row with
  | true => simp
  | false => simp

/-- A deletion under a policy is complete exactly when the policy admits every
row that the deletion is for. -/
theorem deleteVisible_clears_iff {policy : α -> Bool} :
    (forall row, row ∈ deleteVisible policy p rows -> p row = false) <->
      forall row, row ∈ rows -> p row = true -> policy row = true := by
  constructor
  · intro h row hrow hp
    by_contra hpolicy
    rw [Bool.not_eq_true] at hpolicy
    have hclear := h row (mem_deleteVisible.mpr ⟨hrow, fun _ => hpolicy⟩)
    rw [hp] at hclear
    cases hclear
  · intro h row hrow
    rcases mem_deleteVisible.mp hrow with ⟨hmem, hprotected⟩
    by_contra hp
    rw [Bool.not_eq_false] at hp
    have hrefused := hprotected hp
    rw [h row hmem hp] at hrefused
    cases hrefused

theorem deleteVisible_eq_deleteWhere {policy : α -> Bool}
    (h : forall row, row ∈ rows -> p row = true -> policy row = true) :
    deleteVisible policy p rows = deleteWhere p rows := by
  unfold deleteVisible deleteWhere
  apply List.filter_congr
  intro row hrow
  cases hp : p row with
  | true => simp [hp, h row hrow hp]
  | false => simp [hp]

theorem deleteVisible_eq_self {policy : α -> Bool}
    (h : forall row, row ∈ rows -> p row = true -> policy row = false) :
    deleteVisible policy p rows = rows := by
  unfold deleteVisible
  rw [deleteWhere_eq_self_iff]
  intro row hrow
  cases hp : p row with
  | true => rw [h row hrow hp, Bool.false_and]
  | false => rw [Bool.and_false]


theorem find?_updateWhere
    (hkeep : forall row, p row = true -> q (f row) = q row) :
    (updateWhere p f rows).find? q =
      (rows.find? q).map fun row => if p row then f row else row := by
  have hq : (q ∘ fun row => if p row then f row else row) = q := by
    funext row
    by_cases hp : p row = true
    · simp [hp, hkeep row hp]
    · simp [hp]
  unfold updateWhere
  rw [List.find?_map, hq]

theorem find?_updateWhere_of_disjoint
    (hkeep : forall row, p row = true -> q (f row) = q row)
    (hdisjoint : forall row, q row = true -> p row = false) :
    (updateWhere p f rows).find? q = rows.find? q := by
  rw [find?_updateWhere hkeep]
  cases hfind : rows.find? q with
  | none => rfl
  | some row =>
      have hq : q row = true := List.find?_some hfind
      simp [hdisjoint row hq]

theorem any_updateWhere
    (hkeep : forall row, p row = true -> q (f row) = q row) :
    (updateWhere p f rows).any q = rows.any q := by
  unfold updateWhere
  rw [List.any_map]
  congr 1
  funext row
  by_cases hp : p row = true
  · simp [hp, hkeep row hp]
  · simp [hp]

/-- A key finds its row. -/
theorem find?_key_eq_some {κ : Type} [DecidableEq κ] {key : α -> κ}
    (hkeys : (rows.map key).Nodup) (hmem : row ∈ rows) :
    rows.find? (fun other => key other = key row) = some row := by
  cases hfind : rows.find? (fun other => key other = key row) with
  | none =>
      have habsent := List.find?_eq_none.mp hfind row hmem
      simp at habsent
  | some other =>
      have hother : key other = key row := by
        simpa using List.find?_some hfind
      rw [List.inj_on_of_nodup_map hkeys (List.mem_of_find?_eq_some hfind)
        hmem hother]

/-- A row is still found after a change that keeps what it is found by. -/
theorem isSome_find?_updateWhere
    (hkeep : forall row, p row = true -> q (f row) = q row) :
    ((updateWhere p f rows).find? q).isSome = (rows.find? q).isSome := by
  rw [find?_updateWhere hkeep, Option.isSome_map]

theorem isSome_find?_append {more : List α}
    (h : (rows.find? q).isSome = true) :
    ((rows ++ more).find? q).isSome = true := by
  rw [List.find?_append, Option.isSome_or, h, Bool.true_or]

theorem find?_concat {other : α} (hother : q other = false) :
    (rows ++ [other]).find? q = rows.find? q := by
  simp [hother]

theorem exists_mem_concat {P : α -> Prop}
    (h : exists old, old ∈ rows ∧ P old) :
    exists old, old ∈ rows ++ [row] ∧ P old := by
  rcases h with ⟨old, hold, hP⟩
  exact ⟨old, List.mem_append_left _ hold, hP⟩

/-!
## Keys
-/

section Keys

variable {κ : Type} {key : α -> κ}

theorem nodup_concat (h : (rows.map key).Nodup)
    (hfresh : key row ∉ rows.map key) :
    ((rows ++ [row]).map key).Nodup := by
  rw [List.map_append, List.map_singleton]
  apply List.Nodup.append h (List.nodup_singleton _)
  rw [List.disjoint_singleton]
  exact hfresh

theorem nodup_updateWhere (h : (rows.map key).Nodup)
    (hkey : forall row, key (f row) = key row) :
    ((updateWhere p f rows).map key).Nodup := by
  have hsame : (updateWhere p f rows).map key = rows.map key := by
    unfold updateWhere
    rw [List.map_map]
    apply List.map_congr_left
    intro row _
    rw [Function.comp_apply]
    split
    · exact hkey row
    · rfl
  rw [hsame]
  exact h

theorem nodup_deleteWhere (h : (rows.map key).Nodup) :
    ((deleteWhere p rows).map key).Nodup :=
  h.sublist (List.filter_sublist.map _)

end Keys

end Lib
