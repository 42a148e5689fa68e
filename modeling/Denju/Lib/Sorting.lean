import Denju.Lib.Text
import Mathlib.Data.List.Sort
import Mathlib.Data.List.Lex
import Mathlib.Order.Basic

/-!
# Sorting by a key

A stable sort by a key into a linear order.  Two lists with the same elements
sort to the same list as soon as the key separates the elements, which is how
every canonical order of this development is fixed.
-/

namespace Lib

/-- Bytes are ordered by their numeric value. -/
instance instLinearOrderUInt8 : LinearOrder UInt8 where
  le_refl _ := UInt8.le_refl _
  le_trans _ _ _ := UInt8.le_trans
  le_antisymm _ _ := UInt8.le_antisymm
  le_total := UInt8.le_total
  lt_iff_le_not_ge a b := by
    rw [UInt8.lt_iff_toNat_lt, UInt8.le_iff_toNat_le, UInt8.le_iff_toNat_le]
    omega
  toDecidableLE := inferInstance
  toDecidableEq := inferInstance
  toDecidableLT := inferInstance

variable {α κ : Type} [LinearOrder κ]

/-- The order on elements that a key induces. -/
def keyLe (key : α -> κ) (a b : α) : Prop :=
  key a ≤ key b

instance (key : α -> κ) : DecidableRel (keyLe key) :=
  fun a b => inferInstanceAs (Decidable (key a ≤ key b))

instance (key : α -> κ) : Std.Total (keyLe key) :=
  ⟨fun a b => le_total (key a) (key b)⟩

instance (key : α -> κ) : IsTrans α (keyLe key) :=
  ⟨fun _ _ _ hab hbc => le_trans hab hbc⟩

/-- Stable sort by a key. -/
def sortByKey (key : α -> κ) (xs : List α) : List α :=
  xs.insertionSort (keyLe key)

theorem sortByKey_perm (key : α -> κ) (xs : List α) :
    (sortByKey key xs).Perm xs :=
  List.perm_insertionSort (keyLe key) xs

@[simp] theorem mem_sortByKey {key : α -> κ} {xs : List α} {x : α} :
    x ∈ sortByKey key xs <-> x ∈ xs :=
  (sortByKey_perm key xs).mem_iff

theorem sortByKey_pairwise (key : α -> κ) (xs : List α) :
    (sortByKey key xs).Pairwise (keyLe key) :=
  List.pairwise_insertionSort (keyLe key) xs

/-- A key that separates the elements fixes the sorted list. -/
theorem sortByKey_eq_of_perm {key : α -> κ} {xs ys : List α}
    (hinj : forall a b, a ∈ xs -> b ∈ xs -> key a = key b -> a = b)
    (hperm : xs.Perm ys) :
    sortByKey key xs = sortByKey key ys := by
  refine List.Perm.eq_of_pairwise ?_ (sortByKey_pairwise key xs)
    (sortByKey_pairwise key ys) ?_
  · intro a b ha hb hab hba
    have hax : a ∈ xs := mem_sortByKey.mp ha
    have hbx : b ∈ xs := hperm.mem_iff.mpr (mem_sortByKey.mp hb)
    exact hinj a b hax hbx (le_antisymm hab hba)
  · exact ((sortByKey_perm key xs).trans hperm).trans
      (sortByKey_perm key ys).symm

theorem sortByKey_eq_self {key : α -> κ} {xs : List α}
    (hsorted : xs.Pairwise (keyLe key)) :
    sortByKey key xs = xs :=
  hsorted.insertionSort_eq

theorem sortByKey_map {β : Type} (key : β -> κ) (f : α -> β) (xs : List α) :
    sortByKey key (xs.map f) = (sortByKey (fun x => key (f x)) xs).map f := by
  apply Eq.symm
  apply List.map_insertionSort (r := keyLe fun x => key (f x))
    (s := keyLe key)
  intro a _ b _
  exact Iff.rfl

/-- Where a property once lost stays lost, nothing behind the first failure has
it. -/
theorem eq_false_of_mem_dropWhile {p : α -> Bool} {xs : List α}
    (h : xs.Pairwise fun a b => p b = true -> p a = true) {x : α}
    (hx : x ∈ xs.dropWhile p) : p x = false := by
  induction xs with
  | nil => cases hx
  | cons y ys ih =>
      rcases List.pairwise_cons.mp h with ⟨hfirst, hrest⟩
      rw [List.dropWhile_cons] at hx
      split at hx
      · exact ih hrest hx
      · rename_i hfails
        rw [Bool.not_eq_true] at hfails
        rcases List.mem_cons.mp hx with rfl | hmem
        · exact hfails
        · by_contra hholds
          rw [Bool.not_eq_false] at hholds
          rw [hfirst x hmem hholds] at hfails
          cases hfails

/-- A fold that keeps the smaller element ends with a least one. -/
theorem foldl_least {le : α -> α -> Bool}
    (htotal : forall a b, le a b = true ∨ le b a = true)
    (htrans : forall a b c, le a b = true -> le b c = true -> le a c = true)
    (first : α) (rest : List α) :
    rest.foldl (fun best other => if le best other then best else other)
        first ∈ first :: rest ∧
      forall other, other ∈ first :: rest ->
        le (rest.foldl
          (fun best other => if le best other then best else other) first)
          other = true := by
  induction rest generalizing first with
  | nil =>
      refine ⟨List.mem_singleton.mpr rfl, ?_⟩
      intro other hother
      rw [List.mem_singleton.mp hother]
      exact (htotal first first).elim id id
  | cons next rest ih =>
      rw [List.foldl_cons]
      by_cases hle : le first next = true
      · rw [if_pos hle]
        rcases ih first with ⟨hmem, hleast⟩
        constructor
        · rcases List.mem_cons.mp hmem with hfirst | hrest
          · rw [hfirst]
            exact List.mem_cons_self
          · exact List.mem_cons_of_mem _ (List.mem_cons_of_mem _ hrest)
        · intro other hother
          rcases List.mem_cons.mp hother with rfl | hother
          · exact hleast _ List.mem_cons_self
          · rcases List.mem_cons.mp hother with rfl | hrest
            · exact htrans _ _ _ (hleast _ List.mem_cons_self) hle
            · exact hleast _ (List.mem_cons_of_mem _ hrest)
      · rw [if_neg hle]
        rcases ih next with ⟨hmem, hleast⟩
        constructor
        · exact List.mem_cons_of_mem _ hmem
        · intro other hother
          rcases List.mem_cons.mp hother with rfl | hother
          · exact htrans _ _ _ (hleast _ List.mem_cons_self)
              ((htotal _ _).resolve_left hle)
          · exact hleast _ hother

/-!
## Groups
-/

/-- Distinct labels that cover the elements group each of them once. -/
theorem flatMap_filter_perm {α κ : Type} [DecidableEq κ] {f : α -> κ}
    {labels : List κ} {xs : List α} (hlabels : labels.Nodup)
    (hcover : forall x, x ∈ xs -> f x ∈ labels) :
    (labels.flatMap fun label => xs.filter fun x => f x = label).Perm xs := by
  induction labels generalizing xs with
  | nil =>
      have hnil : xs = [] := by
        apply List.eq_nil_iff_forall_not_mem.mpr
        exact fun x hx => absurd (hcover x hx) List.not_mem_nil
      rw [hnil]
      exact List.Perm.refl _
  | cons label rest ih =>
      rcases List.nodup_cons.mp hlabels with ⟨hlabel, hrest⟩
      have hothers : (rest.flatMap fun other => xs.filter fun x => f x = other) =
          rest.flatMap fun other =>
            (xs.filter fun x => !decide (f x = label)).filter fun x =>
              f x = other := by
        apply List.flatMap_congr
        intro other hother
        rw [List.filter_filter]
        apply List.filter_congr
        intro x _
        by_cases hx : f x = other
        · have hne : f x ≠ label := by
            rw [hx]
            rintro rfl
            exact hlabel hother
          simp [hx, hx ▸ hne]
        · simp [hx]
      rw [List.flatMap_cons, hothers]
      have hgrouped := @ih (xs.filter fun x => !decide (f x = label)) hrest
        (by
          intro x hx
          rcases List.mem_filter.mp hx with ⟨hmem, hne⟩
          rcases List.mem_cons.mp (hcover x hmem) with heq | hin
          · simp [heq] at hne
          · exact hin)
      exact (hgrouped.append_left _).trans (List.filter_append_perm _ xs)

/-!
## Neighbours
-/

/-- The pairs of elements that follow each other. -/
def neighbours (xs : List α) : List (α × α) :=
  xs.zip xs.tail

theorem neighbours_cons_cons (x y : α) (xs : List α) :
    neighbours (x :: y :: xs) = (x, y) :: neighbours (y :: xs) :=
  rfl

theorem mem_neighbours_append (front : List α) (a b : α) (back : List α) :
    (a, b) ∈ neighbours (front ++ a :: b :: back) := by
  induction front with
  | nil =>
      rw [List.nil_append, neighbours_cons_cons]
      exact List.mem_cons_self
  | cons x rest ih =>
      cases rest with
      | nil => exact List.mem_cons_of_mem _ ih
      | cons y rest => exact List.mem_cons_of_mem _ ih

theorem exists_append_of_mem_neighbours {xs : List α} {a b : α}
    (h : (a, b) ∈ neighbours xs) :
    exists front back, xs = front ++ a :: b :: back := by
  induction xs with
  | nil => cases h
  | cons x rest ih =>
      cases rest with
      | nil => cases h
      | cons y rest =>
          rw [neighbours_cons_cons] at h
          rcases List.mem_cons.mp h with heq | hmem
          · cases heq
            exact ⟨[], rest, rfl⟩
          · rcases ih hmem with ⟨front, back, heq⟩
            exact ⟨x :: front, back, congrArg (List.cons x) heq⟩

theorem neighbours_map {β : Type} (f : α -> β) (xs : List α) :
    neighbours (xs.map f) = (neighbours xs).map (Prod.map f f) := by
  unfold neighbours
  rw [← List.map_tail, List.zip_map]

/-- Some element is followed by one of its own label. -/
def Repeats {ν : Type} (label : α -> ν) (xs : List α) : Prop :=
  exists pair, pair ∈ neighbours xs ∧ label pair.1 = label pair.2

theorem repeats_map {β ν : Type} {label : β -> ν} {f : α -> β} {xs : List α} :
    Repeats label (xs.map f) <-> Repeats (fun x => label (f x)) xs := by
  unfold Repeats
  rw [neighbours_map]
  constructor
  · rintro ⟨pair, hpair, hsame⟩
    rcases List.mem_map.mp hpair with ⟨source, hsource, rfl⟩
    exact ⟨source, hsource, hsame⟩
  · rintro ⟨source, hsource, hsame⟩
    exact ⟨_, List.mem_map_of_mem hsource, hsame⟩

section Neighbours

variable {key : α -> κ} {xs : List α} {a b c : α}

/-- Between neighbours of a sorted list there is no further key. -/
theorem not_between_of_neighbours (hsorted : xs.Pairwise (keyLe key))
    (h : (a, b) ∈ neighbours xs) (hc : c ∈ xs) :
    ¬ (key a < key c ∧ key c < key b) := by
  rcases exists_append_of_mem_neighbours h with ⟨front, back, heq⟩
  rw [heq] at hsorted hc
  rcases List.pairwise_append.mp hsorted with ⟨_, hback, hfront⟩
  rcases List.pairwise_cons.mp hback with ⟨_, hback⟩
  rcases List.pairwise_cons.mp hback with ⟨hlater, _⟩
  rintro ⟨hac, hcb⟩
  rcases List.mem_append.mp hc with hmem | hmem
  · exact absurd (hfront c hmem a List.mem_cons_self) (not_le_of_gt hac)
  · rcases List.mem_cons.mp hmem with heq | hmem
    · rw [heq] at hac
      exact absurd hac (lt_irrefl _)
    · rcases List.mem_cons.mp hmem with heq | hmem
      · rw [heq] at hcb
        exact absurd hcb (lt_irrefl _)
      · exact absurd (hlater c hmem) (not_le_of_gt hcb)

/-- Two elements of one label come to stand beside an element of that label, as
soon as no element of another label has a key between theirs. -/
theorem repeats_of_sublist {ν : Type} {label : α -> ν}
    (hlabel : forall x y, key x = key y -> label x = label y)
    (hsorted : xs.Pairwise (keyLe key)) (hsub : [a, b].Sublist xs)
    (hsame : label a = label b)
    (hfree : forall c, c ∈ xs -> label c ≠ label a ->
      ¬ (key a < key c ∧ key c < key b)) :
    Repeats label xs := by
  rcases List.cons_sublist_iff.mp hsub with ⟨front, back, heq, ha, hb⟩
  rcases List.append_of_mem ha with ⟨front₁, front₂, hfront⟩
  have hb : b ∈ front₂ ++ back :=
    List.mem_append_right _ (List.singleton_sublist.mp hb)
  have hxs : xs = front₁ ++ a :: (front₂ ++ back) := by
    rw [heq, hfront, List.append_assoc, List.cons_append]
  cases hrest : front₂ ++ back with
  | nil =>
      rw [hrest] at hb
      cases hb
  | cons next rest =>
      rw [hrest] at hb hxs
      have hpair : (a, next) ∈ neighbours xs := by
        rw [hxs]
        exact mem_neighbours_append _ _ _ _
      by_cases hnext : label a = label next
      · exact ⟨(a, next), hpair, hnext⟩
      · rw [hxs] at hsorted
        rcases List.pairwise_append.mp hsorted with ⟨_, hback, _⟩
        rcases List.pairwise_cons.mp hback with ⟨hlater, hback⟩
        rcases List.pairwise_cons.mp hback with ⟨hbehind, _⟩
        have hmem : next ∈ xs := by
          rw [hxs]
          simp
        have hne : b ≠ next := by
          rintro rfl
          exact hnext hsame
        have hbefore : key next ≤ key b :=
          hbehind b ((List.mem_cons.mp hb).resolve_left hne)
        have hleft : key a < key next :=
          lt_of_le_of_ne (hlater next List.mem_cons_self)
            fun heq => hnext (hlabel a next heq)
        have hright : key next < key b := by
          apply lt_of_le_of_ne hbefore
          intro heq
          exact hnext (hsame.trans (hlabel b next heq.symm))
        exact absurd ⟨hleft, hright⟩ (hfree next hmem (Ne.symm hnext))

end Neighbours

end Lib
