import Mathlib.Algebra.GroupWithZero.Nat
import Mathlib.Data.List.Basic
import Mathlib.Data.List.Nodup

/-!
# Reference counts

A table of counts has at most one row for a key, and a row holds a positive
count.  A key without a row counts zero.  A reference is added by inserting a
row or raising its count, and dropped by lowering the count or deleting the row
that would reach zero.
-/

namespace Lib

variable {κ : Type} [DecidableEq κ]

abbrev CountTable (κ : Type) := List (κ × Nat)

namespace CountTable

def get? (table : CountTable κ) (key : κ) : Option Nat :=
  (table.find? fun row => row.1 = key).map Prod.snd

def count (table : CountTable κ) (key : κ) : Nat :=
  (table.get? key).getD 0

/-- Rewrite the count of an existing row; without one nothing changes. -/
def adjust (table : CountTable κ) (key : κ) (f : Nat -> Nat) : CountTable κ :=
  table.map fun row => if row.1 = key then (row.1, f row.2) else row

/-- Raise the count of an existing row. -/
def bump (table : CountTable κ) (key : κ) (amount : Nat) : CountTable κ :=
  table.adjust key (· + amount)

/-- Raise the count, or insert a row. -/
def add (table : CountTable κ) (key : κ) (amount : Nat) : CountTable κ :=
  match table.get? key with
  | some _ => table.bump key amount
  | none => table ++ [(key, amount)]

/-- Lower the count, or delete the row that has no more than the amount. -/
def drop (table : CountTable κ) (key : κ) (amount : Nat) : CountTable κ :=
  if table.count key ≤ amount then
    table.filter fun row => row.1 ≠ key
  else
    table.adjust key (· - amount)

/-- One row for a key, and every row positive. -/
structure Exact {κ : Type} (table : CountTable κ) : Prop where
  unique : (table.map Prod.fst).Nodup
  positive : forall row, row ∈ table -> 0 < row.2

theorem Exact.nil {κ : Type} : Exact ([] : CountTable κ) where
  unique := List.nodup_nil
  positive := by simp

variable {table : CountTable κ} {key other : κ} {amount : Nat}

theorem get?_nil : get? ([] : CountTable κ) key = none :=
  rfl

theorem get?_cons {row : κ × Nat} :
    get? (row :: table) key =
      if row.1 = key then some row.2 else get? table key := by
  unfold get?
  by_cases hrow : row.1 = key
  · simp [hrow]
  · simp [hrow]

theorem get?_eq_none : get? table key = none <-> key ∉ table.map Prod.fst := by
  induction table with
  | nil => simp [get?_nil]
  | cons row rest ih =>
      rw [get?_cons]
      by_cases hrow : row.1 = key
      · simp [hrow]
      · simp [hrow, ih, Ne.symm hrow]

theorem mem_of_get?_eq_some {n : Nat} (h : get? table key = some n) :
    (key, n) ∈ table := by
  induction table with
  | nil => simp [get?_nil] at h
  | cons row rest ih =>
      rw [get?_cons] at h
      split at h
      · rename_i hrow
        simp only [Option.some.injEq] at h
        simp [← h, ← hrow]
      · exact List.mem_cons_of_mem _ (ih h)

theorem Exact.get?_eq_some (hexact : Exact table) {n : Nat} :
    get? table key = some n <-> count table key = n ∧ 0 < n := by
  unfold count
  cases hget : get? table key with
  | none =>
      simp only [Option.getD_none, reduceCtorEq, false_iff, not_and]
      omega
  | some m =>
      have hpositive := hexact.positive _ (mem_of_get?_eq_some hget)
      simp only [Option.some.injEq, Option.getD_some]
      constructor
      · rintro rfl
        exact ⟨rfl, hpositive⟩
      · intro h
        exact h.1

/-- A row is present exactly when the key counts something. -/
theorem Exact.get?_isSome (hexact : Exact table) :
    (get? table key).isSome <-> 0 < count table key := by
  rw [Option.isSome_iff_exists]
  constructor
  · rintro ⟨n, hn⟩
    have h := hexact.get?_eq_some.mp hn
    omega
  · intro h
    exact ⟨count table key, hexact.get?_eq_some.mpr ⟨rfl, h⟩⟩

/-!
## Rewriting the rows of one key
-/

theorem get?_adjust {f : Nat -> Nat} :
    get? (adjust table key f) other =
      if other = key then (get? table key).map f else get? table other := by
  unfold adjust
  induction table with
  | nil => simp [get?_nil]
  | cons row rest ih =>
      rw [List.map_cons, get?_cons, get?_cons, get?_cons, ih]
      by_cases hkey : row.1 = key
      · by_cases hother : other = key
        · simp [hkey, hother]
        · simp [hkey, hother, Ne.symm hother]
      · by_cases hother : other = key
        · simp [hkey, hother]
        · simp [hkey, hother]

theorem map_fst_adjust {f : Nat -> Nat} :
    (adjust table key f).map Prod.fst = table.map Prod.fst := by
  unfold adjust
  rw [List.map_map]
  apply List.map_congr_left
  intro row _
  by_cases hrow : row.1 = key
  · simp [hrow]
  · simp [hrow]

theorem Exact.adjust (hexact : Exact table) {f : Nat -> Nat}
    (hpositive : forall n, (key, n) ∈ table -> 0 < f n) :
    Exact (CountTable.adjust table key f) where
  unique := by
    rw [map_fst_adjust]
    exact hexact.unique
  positive := by
    intro row hrow
    rcases List.mem_map.mp hrow with ⟨old, hold, rfl⟩
    by_cases hkey : old.1 = key
    · subst hkey
      simpa using hpositive old.2 hold
    · simpa [hkey] using hexact.positive old hold

/-!
## Adding and dropping references
-/

theorem get?_bump :
    get? (bump table key amount) other =
      if other = key then (get? table key).map (· + amount)
      else get? table other :=
  get?_adjust

theorem count_bump (hpresent : (get? table key).isSome) :
    count (bump table key amount) other =
      count table other + if other = key then amount else 0 := by
  unfold count
  rw [get?_bump]
  by_cases hother : other = key
  · rcases Option.isSome_iff_exists.mp hpresent with ⟨n, hn⟩
    simp [hother, hn]
  · simp [hother]

theorem Exact.bump (hexact : Exact table) :
    Exact (CountTable.bump table key amount) := by
  apply hexact.adjust
  intro n hn
  have h : 0 < n := hexact.positive (key, n) hn
  omega

theorem get?_append_singleton (habsent : get? table key = none) :
    get? (table ++ [(key, amount)]) other =
      if other = key then some amount else get? table other := by
  induction table with
  | nil =>
      rw [List.nil_append, get?_cons]
      by_cases hother : other = key
      · simp [hother]
      · simp [hother, Ne.symm hother]
  | cons row rest ih =>
      rw [get?_cons] at habsent
      split at habsent
      · cases habsent
      · rename_i hrow
        rw [List.cons_append, get?_cons, get?_cons, ih habsent]
        by_cases hother : other = key
        · simp [hother, hrow]
        · simp [hother]

theorem count_add :
    count (add table key amount) other =
      count table other + if other = key then amount else 0 := by
  unfold add
  cases hget : get? table key with
  | some n => exact count_bump (by simp [hget])
  | none =>
      unfold count
      rw [get?_append_singleton hget]
      by_cases hother : other = key
      · simp [hother, hget]
      · simp [hother]

theorem Exact.add (hexact : Exact table) (hamount : 0 < amount) :
    Exact (CountTable.add table key amount) := by
  unfold CountTable.add
  cases hget : get? table key with
  | some n => exact hexact.bump
  | none =>
      constructor
      · rw [List.map_append, List.nodup_append]
        refine ⟨hexact.unique, by simp, ?_⟩
        rintro a ha b hb rfl
        simp only [List.map_cons, List.map_nil, List.mem_singleton] at hb
        exact get?_eq_none.mp hget (hb ▸ ha)
      · intro row hrow
        rcases List.mem_append.mp hrow with hrow | hrow
        · exact hexact.positive row hrow
        · simp only [List.mem_singleton] at hrow
          simpa [hrow] using hamount

theorem get?_filter_ne :
    get? (table.filter fun row => row.1 ≠ key) other =
      if other = key then none else get? table other := by
  induction table with
  | nil => simp [get?_nil]
  | cons row rest ih =>
      by_cases hkey : row.1 = key
      · rw [List.filter_cons_of_neg (by simp [hkey]), ih, get?_cons]
        by_cases hother : other = key
        · simp [hother]
        · simp [hother, hkey, Ne.symm hother]
      · rw [List.filter_cons_of_pos (by simp [hkey]), get?_cons, ih, get?_cons]
        by_cases hother : other = key
        · simp [hother, hkey]
        · simp [hother]

theorem count_drop :
    count (drop table key amount) other =
      count table other - if other = key then amount else 0 := by
  unfold drop
  by_cases hother : other = key
  · subst hother
    split
    · rename_i hle
      have hcount : count (table.filter fun row => row.1 ≠ other) other = 0 := by
        unfold count
        rw [get?_filter_ne]
        simp
      rw [hcount]
      simp only [if_true]
      omega
    · unfold count
      rw [get?_adjust (f := (· - amount))]
      cases get? table other with
      | none => simp
      | some n => simp
  · split
    · unfold count
      rw [get?_filter_ne]
      simp [hother]
    · unfold count
      rw [get?_adjust (f := (· - amount))]
      simp [hother]

theorem Exact.drop (hexact : Exact table) :
    Exact (CountTable.drop table key amount) := by
  unfold CountTable.drop
  split
  · constructor
    · exact hexact.unique.sublist (List.filter_sublist.map Prod.fst)
    · intro row hrow
      exact hexact.positive row (List.mem_of_mem_filter hrow)
  · rename_i hlt
    apply hexact.adjust
    intro n hn
    have hcount : count table key = n := by
      unfold count
      cases hget : get? table key with
      | none =>
          have habsent := get?_eq_none.mp hget
          exact absurd (List.mem_map.mpr ⟨(key, n), hn, rfl⟩) habsent
      | some m =>
          have hmem := mem_of_get?_eq_some hget
          have heq := List.inj_on_of_nodup_map hexact.unique hmem hn rfl
          simpa using congrArg Prod.snd heq
    omega

/-!
## Adding and dropping whole tables

The rows of one table are added to another, or dropped from it, each under the
key that belongs to its own.
-/

variable {β : Type} {refs : CountTable β} {keyOf : β -> κ}

def addAll (table : CountTable κ) (refs : CountTable β)
    (keyOf : β -> κ) : CountTable κ :=
  refs.foldl (fun table row => table.add (keyOf row.1) row.2) table

def dropAll (table : CountTable κ) (refs : CountTable β)
    (keyOf : β -> κ) : CountTable κ :=
  refs.foldl (fun table row => table.drop (keyOf row.1) row.2) table

/-- Raise the counts of the rows that exist. -/
def bumpAll (table : CountTable κ) (refs : CountTable β)
    (keyOf : β -> κ) : CountTable κ :=
  refs.foldl (fun table row => table.bump (keyOf row.1) row.2) table

theorem isSome_of_count_pos (h : 0 < count table key) :
    (get? table key).isSome := by
  unfold count at h
  cases hget : get? table key with
  | none =>
      rw [hget] at h
      cases h
  | some n => rfl

theorem isSome_add :
    (get? (add table key amount) other).isSome <->
      (get? table other).isSome ∨ other = key := by
  unfold add
  by_cases hother : other = key
  · subst hother
    cases hget : get? table other with
    | none => simp [get?_append_singleton hget]
    | some n => simp [get?_bump, hget]
  · cases hget : get? table key with
    | none => simp [get?_append_singleton hget, hother]
    | some n => simp [get?_bump, hother]

theorem isSome_addAll :
    (get? (table.addAll refs keyOf) other).isSome <->
      (get? table other).isSome ∨
        exists row, row ∈ refs ∧ other = keyOf row.1 := by
  induction refs generalizing table with
  | nil => simp [addAll]
  | cons row rest ih =>
      have hrest := @ih (table.add (keyOf row.1) row.2)
      rw [isSome_add] at hrest
      refine hrest.trans ?_
      simp only [List.mem_cons]
      constructor
      · rintro ((hold | hkey) | ⟨other, hmem, hkey⟩)
        · exact .inl hold
        · exact .inr ⟨row, .inl rfl, hkey⟩
        · exact .inr ⟨other, .inr hmem, hkey⟩
      · rintro (hold | ⟨other, rfl | hmem, hkey⟩)
        · exact .inl (.inl hold)
        · exact .inl (.inr hkey)
        · exact .inr ⟨other, hmem, hkey⟩

theorem isSome_bumpAll :
    (get? (table.bumpAll refs keyOf) other).isSome =
      (get? table other).isSome := by
  induction refs generalizing table with
  | nil => rfl
  | cons row rest ih =>
      have hrest := @ih (table.bump (keyOf row.1) row.2)
      refine hrest.trans ?_
      rw [get?_bump]
      by_cases hother : other = keyOf row.1
      · simp [hother]
      · simp [hother]

theorem isSome_of_isSome_drop
    (h : (get? (drop table key amount) other).isSome) :
    (get? table other).isSome := by
  unfold drop at h
  split at h
  · rw [get?_filter_ne] at h
    split at h
    · cases h
    · exact h
  · rw [get?_adjust] at h
    split at h
    · rename_i hother
      rw [hother]
      simpa using h
    · exact h

theorem isSome_of_isSome_dropAll
    (h : (get? (table.dropAll refs keyOf) other).isSome) :
    (get? table other).isSome := by
  induction refs generalizing table with
  | nil => exact h
  | cons row rest ih => exact isSome_of_isSome_drop (ih h)

theorem get?_drop_other (hother : other ≠ key) :
    get? (drop table key amount) other = get? table other := by
  unfold drop
  split
  · rw [get?_filter_ne, if_neg hother]
  · rw [get?_adjust, if_neg hother]

theorem get?_dropAll_other (hother : forall b, other ≠ keyOf b) :
    get? (table.dropAll refs keyOf) other = get? table other := by
  induction refs generalizing table with
  | nil => rfl
  | cons row rest ih =>
      exact (@ih (table.drop (keyOf row.1) row.2)).trans
        (get?_drop_other (hother row.1))

theorem count_addAll_other (hother : forall b, other ≠ keyOf b) :
    count (table.addAll refs keyOf) other = count table other := by
  induction refs generalizing table with
  | nil => rfl
  | cons row rest ih =>
      have hrest := @ih (table.add (keyOf row.1) row.2)
      rw [count_add, if_neg (hother row.1)] at hrest
      exact hrest

theorem count_dropAll_other (hother : forall b, other ≠ keyOf b) :
    count (table.dropAll refs keyOf) other = count table other := by
  unfold count
  rw [get?_dropAll_other hother]

theorem Exact.addAll (hexact : Exact table)
    (hpositive : forall row, row ∈ refs -> 0 < row.2) :
    Exact (CountTable.addAll table refs keyOf) := by
  induction refs generalizing table with
  | nil => exact hexact
  | cons row rest ih =>
      exact ih (hexact.add (hpositive row (by simp)))
        fun other hother => hpositive other (by simp [hother])

theorem Exact.bumpAll (hexact : Exact table) :
    Exact (CountTable.bumpAll table refs keyOf) := by
  induction refs generalizing table with
  | nil => exact hexact
  | cons row rest ih => exact ih hexact.bump

theorem Exact.dropAll (hexact : Exact table) :
    Exact (CountTable.dropAll table refs keyOf) := by
  induction refs generalizing table with
  | nil => exact hexact
  | cons row rest ih => exact ih hexact.drop

variable [DecidableEq β]

theorem count_cons_of_ne {row : β × Nat} {b : β} (h : row.1 ≠ b) :
    count (row :: refs) b = count refs b := by
  unfold count
  rw [get?_cons, if_neg h]

theorem count_cons_self {row : β × Nat} :
    count (row :: refs) row.1 = row.2 := by
  unfold count
  rw [get?_cons, if_pos rfl]
  rfl

theorem count_eq_zero {b : β} (h : b ∉ refs.map Prod.fst) :
    count refs b = 0 := by
  unfold count
  rw [get?_eq_none.mpr h]
  rfl

theorem count_addAll (hunique : (refs.map Prod.fst).Nodup)
    (hkey : Function.Injective keyOf) (b : β) :
    count (table.addAll refs keyOf) (keyOf b) =
      count table (keyOf b) + count refs b := by
  induction refs generalizing table with
  | nil => rfl
  | cons row rest ih =>
      rw [List.map_cons, List.nodup_cons] at hunique
      have hrest := @ih (table.add (keyOf row.1) row.2) hunique.2
      rw [count_add] at hrest
      unfold addAll at hrest ⊢
      rw [List.foldl_cons, hrest]
      by_cases hrow : row.1 = b
      · subst hrow
        rw [count_cons_self, count_eq_zero hunique.1]
        simp
      · rw [count_cons_of_ne hrow]
        simp [hkey.ne (Ne.symm hrow)]

theorem count_dropAll (hunique : (refs.map Prod.fst).Nodup)
    (hkey : Function.Injective keyOf) (b : β) :
    count (table.dropAll refs keyOf) (keyOf b) =
      count table (keyOf b) - count refs b := by
  induction refs generalizing table with
  | nil => rfl
  | cons row rest ih =>
      rw [List.map_cons, List.nodup_cons] at hunique
      have hrest := @ih (table.drop (keyOf row.1) row.2) hunique.2
      rw [count_drop] at hrest
      unfold dropAll at hrest ⊢
      rw [List.foldl_cons, hrest]
      by_cases hrow : row.1 = b
      · subst hrow
        rw [count_cons_self, count_eq_zero hunique.1]
        simp
      · rw [count_cons_of_ne hrow]
        simp [hkey.ne (Ne.symm hrow)]

end CountTable
end Lib
