import Denju.Lib.RefCount

/-!
# What dropping references frees

Dropping references frees the keys whose counts they use up.  A key has a
weight, and what is freed weighs the same whether the references are dropped at
once or in turns.
-/

namespace Lib

namespace CountTable

variable {κ β : Type} [DecidableEq κ] [DecidableEq β]

/-- A count after some of its references are dropped. -/
def remaining (count : Option Nat) (amount : Nat) : Option Nat :=
  if amount = 0 then count
  else count.bind fun n => if n ≤ amount then none else some (n - amount)

/-- The weight of a key that dropping some references frees. -/
def freedAt (count : Option Nat) (weight amount : Nat) : Nat :=
  match count with
  | none => 0
  | some n => if 0 < amount ∧ n ≤ amount then weight else 0

def freed (table : CountTable κ) (keyOf : β -> κ) (weight : β -> Nat)
    (refs : CountTable β) : Nat :=
  (refs.map fun entry =>
    freedAt (table.get? (keyOf entry.1)) (weight entry.1) entry.2).sum

theorem freedAt_zero (count : Option Nat) (weight : Nat) :
    freedAt count weight 0 = 0 := by
  cases count with
  | none => rfl
  | some n => simp [freedAt]

/-- A key is freed at most once: by the first references, or by the second
ones after them. -/
theorem freedAt_add (count : Option Nat) (weight first second : Nat) :
    freedAt count weight (first + second) =
      freedAt count weight first +
        freedAt (remaining count first) weight second := by
  cases count with
  | none => simp [freedAt, remaining]
  | some n =>
      by_cases hfirst : first = 0
      · simp [freedAt, remaining, hfirst]
      · by_cases hused : n ≤ first
        · have htotal : n ≤ first + second := by omega
          have hpositive : 0 < first := by omega
          simp [freedAt, remaining, hfirst, hused, htotal, hpositive]
        · by_cases hsecond : second = 0
          · simp [freedAt, remaining, hfirst, hused, hsecond]
          · have hsplit : n ≤ first + second <-> n - first ≤ second := by
              omega
            have hpositive : 0 < second := by omega
            have htotal : 0 < first + second := by omega
            have hkept : ¬ (0 < first ∧ n ≤ first) := fun h => hused h.2
            simp only [freedAt, remaining, if_neg hfirst, Option.bind_some,
              if_neg hused, if_neg hkept, htotal, hpositive, hsplit, true_and,
              Nat.zero_add]

variable {table : CountTable κ} {refs : CountTable β} {keyOf : β -> κ}
  {weight : β -> Nat}

theorem get?_drop (key : κ) (amount : Nat) (hamount : 0 < amount) :
    get? (drop table key amount) key = remaining (get? table key) amount := by
  have hne : amount ≠ 0 := by omega
  unfold drop remaining count
  rw [if_neg hne]
  cases hget : get? table key with
  | none =>
      rw [if_pos (by simp), get?_filter_ne, if_pos rfl]
      rfl
  | some n =>
      dsimp only [Option.getD_some, Option.bind_some]
      split
      · rw [get?_filter_ne, if_pos rfl]
      · rw [get?_adjust, if_pos rfl, hget]
        rfl

theorem Exact.get?_of_mem (hrefs : Exact refs) {b : β} {n : Nat}
    (h : (b, n) ∈ refs) : get? refs b = some n := by
  cases hget : get? refs b with
  | none => exact absurd (List.mem_map_of_mem h) (get?_eq_none.mp hget)
  | some m =>
      have hsame := List.inj_on_of_nodup_map hrefs.unique
        (mem_of_get?_eq_some hget) h rfl
      rw [(Prod.mk.inj hsame).2]

/-- The order of the rows does not matter. -/
theorem Exact.count_of_perm {other : CountTable β} (hrefs : Exact refs)
    (hperm : refs.Perm other) (b : β) : count refs b = count other b := by
  cases hget : get? other b with
  | none =>
      have habsent : b ∉ refs.map Prod.fst := by
        rw [(hperm.map Prod.fst).mem_iff]
        exact get?_eq_none.mp hget
      unfold count
      rw [hget, get?_eq_none.mpr habsent]
  | some n =>
      have hmem := hperm.mem_iff.mpr (mem_of_get?_eq_some hget)
      unfold count
      rw [hget, hrefs.get?_of_mem hmem]

/-- Every key keeps what its own references leave of its count. -/
theorem get?_dropAll (hrefs : Exact refs)
    (hinjective : Function.Injective keyOf) (b : β) :
    get? (table.dropAll refs keyOf) (keyOf b) =
      remaining (get? table (keyOf b)) (count refs b) := by
  induction refs generalizing table with
  | nil => rfl
  | cons entry rest ih =>
      have hkeys := List.nodup_cons.mp hrefs.unique
      have hpositive := hrefs.positive entry List.mem_cons_self
      have hrest : Exact rest :=
        ⟨hkeys.2, fun row hrow =>
          hrefs.positive row (List.mem_cons_of_mem _ hrow)⟩
      have hstep := @ih (table.drop (keyOf entry.1) entry.2) hrest
      change get? ((table.drop (keyOf entry.1) entry.2).dropAll rest keyOf)
        (keyOf b) = _
      rw [hstep]
      by_cases hentry : entry.1 = b
      · subst hentry
        rw [count_cons_self, count_eq_zero hkeys.1]
        exact (if_pos rfl).trans (get?_drop _ _ hpositive)
      · have hother : keyOf b ≠ keyOf entry.1 :=
          fun h => hentry (hinjective h).symm
        rw [count_cons_of_ne hentry, get?_drop_other hother]

/-!
## Sums over the keys
-/

/-- What is freed, summed over any keys that contain the dropped ones. -/
theorem freed_eq_sum (hrefs : Exact refs) (keys : List β)
    (hnodup : keys.Nodup)
    (hkeys : forall entry, entry ∈ refs -> entry.1 ∈ keys) :
    freed table keyOf weight refs =
      (keys.map fun b => freedAt (table.get? (keyOf b)) (weight b)
        (count refs b)).sum := by
  induction refs generalizing keys with
  | nil =>
      have hzero : keys.map (fun b => freedAt (table.get? (keyOf b))
          (weight b) (count ([] : CountTable β) b)) =
            keys.map fun _ => 0 :=
        List.map_congr_left fun b _ => freedAt_zero _ _
      rw [hzero]
      simp [freed]
  | cons entry rest ih =>
      have hunique := List.nodup_cons.mp hrefs.unique
      have hrest : Exact rest :=
        ⟨hunique.2, fun row hrow =>
          hrefs.positive row (List.mem_cons_of_mem _ hrow)⟩
      have hmem : entry.1 ∈ keys := hkeys entry List.mem_cons_self
      have hothers : forall row, row ∈ rest -> row.1 ∈ keys.erase entry.1 := by
        intro row hrow
        refine hnodup.mem_erase_iff.mpr
          ⟨?_, hkeys row (List.mem_cons_of_mem _ hrow)⟩
        intro hsame
        exact hunique.1 (hsame ▸ List.mem_map_of_mem hrow)
      have hsum := ih hrest _ (hnodup.erase entry.1) hothers
      have hsplit := ((List.perm_cons_erase hmem).map fun b =>
        freedAt (table.get? (keyOf b)) (weight b)
          (count (entry :: rest) b)).sum_nat
      have hsame : (keys.erase entry.1).map (fun b =>
            freedAt (table.get? (keyOf b)) (weight b)
              (count (entry :: rest) b)) =
          (keys.erase entry.1).map fun b =>
            freedAt (table.get? (keyOf b)) (weight b) (count rest b) := by
        apply List.map_congr_left
        intro b hb
        rw [count_cons_of_ne (hnodup.mem_erase_iff.mp hb).1.symm]
      unfold freed at hsum ⊢
      rw [List.map_cons, List.sum_cons, hsum, hsplit, List.map_cons,
        List.sum_cons, hsame, count_cons_self]

/-- The keys of references that others count at least as often. -/
theorem Exact.mem_keys_of_le {part : CountTable β} (hpart : Exact part)
    (hle : forall b, count part b ≤ count refs b) {entry : β × Nat}
    (h : entry ∈ part) : entry.1 ∈ refs.map Prod.fst := by
  by_contra habsent
  have hzero := count_eq_zero habsent
  have hcount : count part entry.1 = entry.2 := by
    unfold count
    rw [hpart.get?_of_mem h]
    rfl
  have hpositive := hpart.positive entry h
  have hbound := hle entry.1
  omega

/-- Only the counts of the references matter, and the weights of the keys with
a row. -/
theorem freed_congr {other : CountTable β} {weight' : β -> Nat}
    (hrefs : Exact refs) (hother : Exact other)
    (hcount : forall b, count refs b = count other b)
    (hweight : forall b, (table.get? (keyOf b)).isSome ->
      weight b = weight' b) :
    freed table keyOf weight refs = freed table keyOf weight' other := by
  rw [freed_eq_sum hrefs _ hrefs.unique
      fun entry hentry => List.mem_map_of_mem hentry,
    freed_eq_sum hother _ hrefs.unique
      fun entry hentry => hother.mem_keys_of_le
        (fun b => Nat.le_of_eq (hcount b).symm) hentry]
  congr 1
  apply List.map_congr_left
  intro b _
  rw [hcount]
  cases hget : table.get? (keyOf b) with
  | none => rfl
  | some n => rw [hweight b (by simp [hget])]

theorem sum_map_add {α : Type} (f g : α -> Nat) (xs : List α) :
    (xs.map fun x => f x + g x).sum = (xs.map f).sum + (xs.map g).sum := by
  induction xs with
  | nil => rfl
  | cons x rest ih =>
      rw [List.map_cons, List.sum_cons, ih, List.map_cons, List.sum_cons,
        List.map_cons, List.sum_cons]
      omega

/-- Dropping references in two turns frees what dropping them at once does. -/
theorem freed_add (table : CountTable κ) (weight : β -> Nat)
    {first second : CountTable β} (hrefs : Exact refs)
    (hfirst : Exact first) (hsecond : Exact second)
    (hcount : forall b, count refs b = count first b + count second b)
    (hinjective : Function.Injective keyOf) :
    freed table keyOf weight refs =
      freed table keyOf weight first +
        freed (table.dropAll first keyOf) keyOf weight second := by
  have hless : forall b, count first b ≤ count refs b := by
    intro b
    have hb := hcount b
    omega
  have hless' : forall b, count second b ≤ count refs b := by
    intro b
    have hb := hcount b
    omega
  rw [freed_eq_sum hrefs _ hrefs.unique
      fun entry hentry => List.mem_map_of_mem hentry,
    freed_eq_sum hfirst _ hrefs.unique
      fun entry hentry => hfirst.mem_keys_of_le hless hentry,
    freed_eq_sum hsecond _ hrefs.unique
      fun entry hentry => hsecond.mem_keys_of_le hless' hentry,
    ← sum_map_add]
  congr 1
  apply List.map_congr_left
  intro b _
  rw [hcount, freedAt_add, get?_dropAll hfirst hinjective]

end CountTable

end Lib
