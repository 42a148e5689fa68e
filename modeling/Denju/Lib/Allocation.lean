import Mathlib.Data.List.Basic
import Mathlib.Data.List.Nodup

/-!
# Allocating distinct names

Items receive names one after the other.  Some names are settled beforehand and
count as used from the start; every other name is picked outside of the names
that are used by then.  A settled name may rest on a claim, which is admitted
unless another item was first.
-/

namespace Lib

variable {α κ ν : Type}

/-!
## Names in turn
-/

def allocate (pick : α -> List ν -> Option ν) :
    List α -> List ν -> Option (List (α × ν))
  | [], _ => some []
  | item :: rest, used =>
      match pick item used with
      | none => none
      | some name =>
          (allocate pick rest (name :: used)).map ((item, name) :: ·)

/-- Settled names are kept, and the other ones are unused. -/
structure Picks (pick : α -> List ν -> Option ν) (settled : α -> Option ν) :
    Prop where
  keep : forall item used name, settled item = some name ->
    pick item used = some name
  fresh : forall item used name, settled item = none ->
    pick item used = some name -> name ∉ used

theorem allocate_cons {pick : α -> List ν -> Option ν} {item : α}
    {rest : List α} {used : List ν} {result : List (α × ν)} :
    allocate pick (item :: rest) used = some result <->
      exists name others, pick item used = some name ∧
        allocate pick rest (name :: used) = some others ∧
          result = (item, name) :: others := by
  rw [allocate]
  cases pick item used with
  | none => simp
  | some name => simp [eq_comm (a := some result), eq_comm (a := result)]

theorem allocate_items {pick : α -> List ν -> Option ν} {items : List α}
    {used : List ν} {result : List (α × ν)}
    (h : allocate pick items used = some result) :
    result.map Prod.fst = items := by
  induction items generalizing used result with
  | nil =>
      cases h
      rfl
  | cons item rest ih =>
      rcases allocate_cons.mp h with ⟨name, others, _, hothers, rfl⟩
      rw [List.map_cons, ih hothers]

/-- A name that is given was picked with everything used before still used. -/
theorem allocate_picked {pick : α -> List ν -> Option ν} {items : List α}
    {used : List ν} {result : List (α × ν)}
    (h : allocate pick items used = some result) {item : α} {name : ν}
    (hmem : (item, name) ∈ result) :
    exists later, used ⊆ later ∧ pick item later = some name := by
  induction items generalizing used result with
  | nil =>
      cases h
      cases hmem
  | cons first rest ih =>
      rcases allocate_cons.mp h with ⟨chosen, others, hpick, hothers, rfl⟩
      cases hmem with
      | head => exact ⟨used, List.Subset.refl used, hpick⟩
      | tail _ hmem =>
          rcases ih hothers hmem with ⟨later, hsubset, hlater⟩
          exact ⟨later, List.Subset.trans (List.subset_cons_self chosen used) hsubset,
            hlater⟩

theorem Picks.cases {pick : α -> List ν -> Option ν} {settled : α -> Option ν}
    (hpicks : Picks pick settled) {items : List α} {used : List ν}
    {result : List (α × ν)} (h : allocate pick items used = some result)
    {item : α} {name : ν} (hmem : (item, name) ∈ result) :
    settled item = some name ∨ (settled item = none ∧ name ∉ used) := by
  rcases allocate_picked h hmem with ⟨later, hsubset, hpick⟩
  cases hsettled : settled item with
  | none =>
      right
      constructor
      · rfl
      · intro hused
        exact hpicks.fresh item later name hsettled hpick (hsubset hused)
  | some kept =>
      left
      rw [hpicks.keep item later kept hsettled] at hpick
      exact hpick

/-- Distinct settled names, all used from the start, give distinct names. -/
theorem Picks.nodup {pick : α -> List ν -> Option ν} {settled : α -> Option ν}
    (hpicks : Picks pick settled) {items : List α} {used : List ν}
    {result : List (α × ν)}
    (hused : forall item name, item ∈ items -> settled item = some name ->
      name ∈ used)
    (hdistinct : items.Pairwise fun a b =>
      forall name, settled a = some name -> settled b ≠ some name)
    (h : allocate pick items used = some result) :
    (result.map Prod.snd).Nodup := by
  induction items generalizing used result with
  | nil =>
      cases h
      exact List.nodup_nil
  | cons item rest ih =>
      rcases allocate_cons.mp h with ⟨name, others, hpick, hothers, rfl⟩
      rcases List.pairwise_cons.mp hdistinct with ⟨hfirst, hrest⟩
      have husedRest : forall other kept, other ∈ rest ->
          settled other = some kept -> kept ∈ used :=
        fun other kept hother =>
          hused other kept (List.mem_cons_of_mem item hother)
      rw [List.map_cons, List.nodup_cons]
      constructor
      · intro hmem
        rcases List.mem_map.mp hmem with ⟨⟨other, same⟩, hpair, rfl⟩
        have hother : other ∈ rest := by
          rw [← allocate_items hothers]
          exact List.mem_map_of_mem (f := Prod.fst) hpair
        rcases hpicks.cases hothers hpair with hkept | ⟨_, hfresh⟩
        · cases hsettled : settled item with
          | none =>
              exact hpicks.fresh item used _ hsettled hpick
                (husedRest other _ hother hkept)
          | some kept =>
              rw [hpicks.keep item used kept hsettled] at hpick
              cases hpick
              exact hfirst other hother _ hsettled hkept
        · exact hfresh List.mem_cons_self
      · apply ih _ hrest hothers
        intro other kept hother hsettled
        exact List.mem_cons_of_mem name (husedRest other kept hother hsettled)

/-- Every item gets a name when names are left below a bound that the names in
use cannot reach. -/
theorem exists_allocate {pick : α -> List ν -> Option ν} {bound : Nat}
    {items : List α}
    (hpick : forall item used, item ∈ items -> used.length < bound ->
      exists name, pick item used = some name)
    {used : List ν} (hbound : used.length + items.length ≤ bound) :
    exists result, allocate pick items used = some result := by
  induction items generalizing used with
  | nil => exact ⟨[], rfl⟩
  | cons item rest ih =>
      rw [List.length_cons] at hbound
      rcases hpick item used List.mem_cons_self (by omega) with ⟨name, hname⟩
      have hrest : forall other used, other ∈ rest -> used.length < bound ->
          exists name, pick other used = some name :=
        fun other used hother => hpick other used
          (List.mem_cons_of_mem item hother)
      have hlength : (name :: used).length + rest.length ≤ bound := by
        rw [List.length_cons]
        omega
      rcases ih hrest hlength with ⟨others, hothers⟩
      exact ⟨_, allocate_cons.mpr ⟨name, others, hname, hothers, rfl⟩⟩

/-- Items whose names do not depend on the names in use. -/
theorem allocate_of_settled {pick : α -> List ν -> Option ν}
    {result : List (α × ν)} (used : List ν)
    (h : forall entry, entry ∈ result -> forall later,
      pick entry.1 later = some entry.2) :
    allocate pick (result.map Prod.fst) used = some result := by
  induction result generalizing used with
  | nil => rfl
  | cons entry rest ih =>
      rw [List.map_cons, allocate_cons]
      refine ⟨entry.2, rest, h entry List.mem_cons_self used, ?_, rfl⟩
      exact ih _ fun other hother => h other (List.mem_cons_of_mem entry hother)

/-!
## Claims
-/

section Claims

variable [DecidableEq ν]

/-- The names in use and the admitted claims behind all items, a later claim in
front of an earlier one. -/
def admitClaims (key : α -> κ) (claim : α -> Option ν) :
    List α -> List ν × List (κ × ν) -> List ν × List (κ × ν)
  | [], state => state
  | item :: rest, state =>
      match claim item with
      | none => admitClaims key claim rest state
      | some name =>
          if name ∈ state.1 then
            admitClaims key claim rest state
          else
            admitClaims key claim rest
              (name :: state.1, (key item, name) :: state.2)

/-- What the admitted claims are, over the names used before. -/
structure Admitted (key : α -> κ) (claim : α -> Option ν) (items : List α)
    (used : List ν) (added : List (κ × ν)) : Prop where
  distinct : (added.map Prod.snd).Nodup
  free : forall entry, entry ∈ added -> entry.2 ∉ used
  claimed : forall entry, entry ∈ added -> exists item, item ∈ items ∧
    key item = entry.1 ∧ claim item = some entry.2
  length : added.length ≤ items.length

variable {key : α -> κ} {claim : α -> Option ν}

theorem Admitted.skip {items : List α} {used : List ν}
    {added : List (κ × ν)} (h : Admitted key claim items used added)
    (item : α) : Admitted key claim (item :: items) used added := by
  refine ⟨h.distinct, h.free, ?_, ?_⟩
  · intro entry hentry
    rcases h.claimed entry hentry with ⟨found, hfound, hclaim⟩
    exact ⟨found, List.mem_cons_of_mem item hfound, hclaim⟩
  · have hlength := h.length
    rw [List.length_cons]
    omega

theorem exists_admitted (items : List α) (used : List ν)
    (known : List (κ × ν)) :
    exists added, admitClaims key claim items (used, known) =
        (added.map Prod.snd ++ used, added ++ known) ∧
      Admitted key claim items used added := by
  induction items generalizing used known with
  | nil =>
      refine ⟨[], rfl, List.nodup_nil, ?_, ?_, Nat.le_refl _⟩
      · intro entry hentry
        cases hentry
      · intro entry hentry
        cases hentry
  | cons item rest ih =>
      unfold admitClaims
      split
      · rcases ih used known with ⟨added, heq, hadmitted⟩
        exact ⟨added, heq, hadmitted.skip item⟩
      · rename_i name hclaim
        split
        · rcases ih used known with ⟨added, heq, hadmitted⟩
          exact ⟨added, heq, hadmitted.skip item⟩
        · rename_i hfree
          rcases ih (name :: used) ((key item, name) :: known) with
            ⟨added, heq, hadmitted⟩
          have hskip := hadmitted.skip item
          refine ⟨added ++ [(key item, name)], ?_, ?_, ?_, ?_, ?_⟩
          · rw [heq]
            simp
          · rw [List.map_append, List.nodup_append]
            refine ⟨hadmitted.distinct, by simp, ?_⟩
            intro a ha b hb hsame
            rcases List.mem_map.mp ha with ⟨entry, hentry, rfl⟩
            have hname : b = name := by simpa using hb
            apply hadmitted.free entry hentry
            rw [hsame, hname]
            exact List.mem_cons_self
          · intro entry hentry
            rcases List.mem_append.mp hentry with hold | hnew
            · intro hused
              exact hadmitted.free entry hold (List.mem_cons_of_mem name hused)
            · rw [List.mem_singleton.mp hnew]
              exact hfree
          · intro entry hentry
            rcases List.mem_append.mp hentry with hold | hnew
            · exact hskip.claimed entry hold
            · rw [List.mem_singleton.mp hnew]
              exact ⟨item, List.mem_cons_self, rfl, hclaim⟩
          · have hlength := hadmitted.length
            simp only [List.length_append, List.length_cons, List.length_nil]
            omega

/-- A claim to an unused name is admitted when no other key claims the name. -/
theorem mem_admitClaims {items : List α} {used : List ν}
    {known : List (κ × ν)} {item : α} {name : ν} (hmem : item ∈ items)
    (hclaim : claim item = some name) (hfree : name ∉ used)
    (hsole : forall other, other ∈ items -> claim other = some name ->
      key other = key item) :
    (key item, name) ∈ (admitClaims key claim items (used, known)).2 := by
  have hkept : forall (rest : List α) (state : List ν × List (κ × ν)) entry,
      entry ∈ state.2 -> entry ∈ (admitClaims key claim rest state).2 := by
    intro rest state entry hentry
    rcases @exists_admitted _ _ _ _ key claim rest state.1 state.2 with
      ⟨added, heq, _⟩
    rw [heq]
    exact List.mem_append_right _ hentry
  induction items generalizing used known with
  | nil => cases hmem
  | cons first rest ih =>
      have hsoleRest : forall other, other ∈ rest ->
          claim other = some name -> key other = key item :=
        fun other hother => hsole other (List.mem_cons_of_mem first hother)
      by_cases hfirst : claim first = some name
      · have hkey := hsole first List.mem_cons_self hfirst
        unfold admitClaims
        rw [hfirst]
        dsimp only
        rw [if_neg hfree, ← hkey]
        exact hkept rest _ _ List.mem_cons_self
      · have hrest : item ∈ rest := by
          rcases List.mem_cons.mp hmem with rfl | hrest
          · exact absurd hclaim hfirst
          · exact hrest
        unfold admitClaims
        split
        · exact ih hrest hfree hsoleRest
        · rename_i other hother
          split
          · exact ih hrest hfree hsoleRest
          · apply ih hrest _ hsoleRest
            intro hused
            rcases List.mem_cons.mp hused with rfl | hused
            · exact hfirst hother
            · exact hfree hused

end Claims
end Lib
