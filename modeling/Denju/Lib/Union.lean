import Denju.Lib.Sorting
import Mathlib.Data.List.Nodup
import Mathlib.Data.List.Perm.Basic

/-!
# Union of two change sets

One list of changes absorbs another one element by element: a change that is
already there is skipped, and one that clashes with what is there aborts the
whole union.  The accumulator makes the two sides look different; when neither
side clashes with itself, the result does not depend on which side comes first.
-/

namespace Lib

variable {α : Type} [DecidableEq α]

/-- Add the changes of the second list to the first, unless one clashes. -/
def absorb (clash : α -> α -> Bool) : List α -> List α -> Option (List α)
  | changes, [] => some changes
  | changes, candidate :: rest =>
      if candidate ∈ changes then
        absorb clash changes rest
      else if changes.any fun existing => clash existing candidate then
        none
      else
        absorb clash (changes ++ [candidate]) rest

/-- Distinct changes of the list do not clash. -/
def Compatible (clash : α -> α -> Bool) (changes : List α) : Prop :=
  forall a, a ∈ changes -> forall b, b ∈ changes -> clash a b = true -> a = b

/-- Every candidate that clashes is one of the changes already. -/
def Absorbs (clash : α -> α -> Bool) (changes candidates : List α) : Prop :=
  forall a, a ∈ changes -> forall b, b ∈ candidates ->
    clash a b = true -> b ∈ changes

variable {clash : α -> α -> Bool}

theorem absorb_eq {changes candidates : List α}
    (hnodup : candidates.Nodup) (hcompatible : Compatible clash candidates) :
    (Absorbs clash changes candidates ->
      absorb clash changes candidates =
        some (changes ++ candidates.filter fun c => c ∉ changes)) ∧
      (¬ Absorbs clash changes candidates ->
        absorb clash changes candidates = none) := by
  induction candidates generalizing changes with
  | nil =>
      refine ⟨fun _ => by simp [absorb], fun hnot => ?_⟩
      exact absurd (fun a _ b hb => by cases hb) hnot
  | cons c rest ih =>
      simp only [List.nodup_cons] at hnodup
      have hrest : Compatible clash rest := fun a ha b hb =>
        hcompatible a (List.mem_cons_of_mem c ha) b (List.mem_cons_of_mem c hb)
      by_cases hmem : c ∈ changes
      · have hiff : Absorbs clash changes (c :: rest) <->
            Absorbs clash changes rest := by
          constructor
          · intro h a ha b hb
            exact h a ha b (List.mem_cons_of_mem c hb)
          · intro h a ha b hb hclash
            rcases List.mem_cons.mp hb with rfl | hb
            · exact hmem
            · exact h a ha b hb hclash
        simp only [absorb, if_pos hmem, hiff]
        simpa [hmem] using @ih changes hnodup.2 hrest
      · simp only [absorb, if_neg hmem]
        split
        · rename_i hany
          rcases List.any_eq_true.mp hany with ⟨a, ha, hclash⟩
          refine ⟨fun h => ?_, fun _ => rfl⟩
          exact absurd (h a ha c List.mem_cons_self hclash) hmem
        · rename_i hany
          have hfree : forall a, a ∈ changes -> clash a c = true -> False := by
            intro a ha hclash
            exact hany (List.any_eq_true.mpr ⟨a, ha, hclash⟩)
          have hother : forall b, b ∈ rest -> b ≠ c := by
            intro b hb heq
            exact hnodup.1 (heq ▸ hb)
          have hiff : Absorbs clash (changes ++ [c]) rest <->
              Absorbs clash changes (c :: rest) := by
            constructor
            · intro h a ha b hb hclash
              rcases List.mem_cons.mp hb with rfl | hb
              · exact absurd hclash fun hclash => hfree a ha hclash
              · have hb' := h a (List.mem_append_left _ ha) b hb hclash
                rcases List.mem_append.mp hb' with hb' | hb'
                · exact hb'
                · exact absurd (List.mem_singleton.mp hb') (hother b hb)
            · intro h a ha b hb hclash
              rcases List.mem_append.mp ha with ha | ha
              · exact List.mem_append_left _
                  (h a ha b (List.mem_cons_of_mem c hb) hclash)
              · have hac := List.mem_singleton.mp ha
                rw [hac] at hclash
                have hcb := hcompatible c List.mem_cons_self b
                  (List.mem_cons_of_mem c hb) hclash
                simp [← hcb]
          have hfilter : (rest.filter fun b => b ∉ changes ++ [c]) =
              rest.filter fun b => b ∉ changes := by
            apply List.filter_congr
            intro b hb
            simp [hother b hb]
          rcases @ih (changes ++ [c]) hnodup.2 hrest with
            ⟨hsome, hnone⟩
          rw [hiff, hfilter] at hsome
          rw [hiff] at hnone
          refine ⟨fun h => ?_, hnone⟩
          rw [hsome h]
          simp [hmem]

omit [DecidableEq α] in
theorem absorbs_symm {a b : List α}
    (hsymm : forall x y, clash x y = clash y x)
    (ha : Compatible clash a)
    (h : Absorbs clash a b) : Absorbs clash b a := by
  intro y hy x hx hclash
  have hxy : clash x y = true := by rw [hsymm]; exact hclash
  have hmem := h x hx y hy hxy
  rw [ha x hx y hmem hxy]
  exact hy

/-- The union does not depend on the side that comes first. -/
theorem absorb_comm {a b : List α} {κ : Type} [LinearOrder κ] {key : α -> κ}
    (hkey : Function.Injective key)
    (hsymm : forall x y, clash x y = clash y x)
    (hnodupA : a.Nodup) (hnodupB : b.Nodup)
    (ha : Compatible clash a) (hb : Compatible clash b) :
    (absorb clash a b).map (sortByKey key) =
      (absorb clash b a).map (sortByKey key) := by
  by_cases habsorbs : Absorbs clash a b
  · rw [(absorb_eq hnodupB hb).1 habsorbs,
      (absorb_eq hnodupA ha).1 (absorbs_symm hsymm ha habsorbs)]
    simp only [Option.map_some, Option.some.injEq]
    apply sortByKey_eq_of_perm
    · intro x y _ _ hxy
      exact hkey hxy
    · rw [List.perm_ext_iff_of_nodup]
      · intro x
        simp only [List.mem_append, List.mem_filter, decide_eq_true_eq]
        tauto
      · refine List.nodup_append'.mpr ⟨hnodupA, hnodupB.filter _, ?_⟩
        intro x hx hxb
        simp only [List.mem_filter, decide_eq_true_eq] at hxb
        exact hxb.2 hx
      · refine List.nodup_append'.mpr ⟨hnodupB, hnodupA.filter _, ?_⟩
        intro x hx hxa
        simp only [List.mem_filter, decide_eq_true_eq] at hxa
        exact hxa.2 hx
  · have hnot : ¬ Absorbs clash b a :=
      fun h => habsorbs (absorbs_symm hsymm hb h)
    rw [(absorb_eq hnodupB hb).2 habsorbs, (absorb_eq hnodupA ha).2 hnot]

/-!
## The side that changed

A side that equals the base yields to the other one.
-/

theorem threeWay_comm {β : Type} (f : α -> β) (base a b : α) {x y : β}
    (hxy : x = y) :
    (if a = b then f a
      else if a = base then f b else if b = base then f a else x) =
      if b = a then f b
        else if b = base then f a else if a = base then f b else y := by
  by_cases hab : a = b
  · rw [if_pos hab, if_pos hab.symm, hab]
  · rw [if_neg hab, if_neg (Ne.symm hab)]
    by_cases ha : a = base
    · have hb : b ≠ base := fun hb => hab (ha.trans hb.symm)
      rw [if_pos ha, if_neg hb, if_pos ha]
    · rw [if_neg ha, if_neg ha, hxy]

end Lib
