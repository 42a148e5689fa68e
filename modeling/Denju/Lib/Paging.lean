import Denju.Lib.Sorting
import Mathlib.Data.Prod.Lex

/-!
# Paging by keys

A list is delivered in pages.  A page holds the first rows, in the order of
their keys, behind the last row of the page before, and it names its own last
row as long as it leaves something over.  A reader who follows these names
receives the sorted list, once, and stops.
-/

namespace Lib

variable {α β γ ε κ : Type} [LinearOrder κ]

/-!
## Pages
-/

/-- The rows behind a row, in order. -/
def rowsBehind (key : α -> κ) (xs : List α) (last : Option α) : List α :=
  sortByKey key
    (xs.filter fun x => last.all fun row => decide (key row < key x))

/-- The last of the first rows, unless they are all there is. -/
def lastOfPage (limit : Nat) (rows : List α) : Option α :=
  if limit < rows.length then (rows.take limit).getLast? else none

/-- One row more than a page holds shows whether there are others. -/
theorem lastOfPage_take (limit : Nat) (rows : List α) :
    lastOfPage limit (rows.take (limit + 1)) = lastOfPage limit rows := by
  have hlength : limit < (rows.take (limit + 1)).length <->
      limit < rows.length := by
    rw [List.length_take]
    omega
  have htake : (rows.take (limit + 1)).take limit = rows.take limit := by
    rw [List.take_take, Nat.min_eq_left (Nat.le_succ limit)]
  unfold lastOfPage
  rw [htake]
  simp only [hlength]

/-- Read pages until one names no other. -/
def follow (page : Option γ -> Except ε (List β × Option γ)) :
    Nat -> Option γ -> Option (Except ε (List β))
  | 0, _ => none
  | fuel + 1, cursor =>
      match page cursor with
      | .error error => some (.error error)
      | .ok (items, none) => some (.ok items)
      | .ok (items, some next) =>
          (follow page fuel (some next)).map fun rest =>
            rest.map fun others => items ++ others

/-!
## Positions in the sorted list
-/

theorem sortByKey_filter (key : α -> κ) (p : α -> Bool) {xs : List α}
    (hkeys : (xs.map key).Nodup) :
    sortByKey key (xs.filter p) = (sortByKey key xs).filter p := by
  have hsame : sortByKey key (xs.filter p) =
      sortByKey key ((sortByKey key xs).filter p) := by
    apply sortByKey_eq_of_perm
    · intro a b ha hb hab
      exact List.inj_on_of_nodup_map hkeys (List.mem_of_mem_filter ha)
        (List.mem_of_mem_filter hb) hab
    · exact ((sortByKey_perm key xs).filter p).symm
  rw [hsame]
  apply sortByKey_eq_self
  exact (sortByKey_pairwise key xs).filter p

/-- Distinct keys are sorted strictly. -/
theorem sortByKey_strict {key : α -> κ} {xs : List α}
    (hkeys : (xs.map key).Nodup) :
    (sortByKey key xs).Pairwise fun a b => key a < key b := by
  have hdistinct : (sortByKey key xs).Pairwise fun a b => key a ≠ key b := by
    have hnodup := ((sortByKey_perm key xs).map key).nodup_iff.mpr hkeys
    exact List.pairwise_map.mp hnodup
  apply (List.Pairwise.and (sortByKey_pairwise key xs) hdistinct).imp
  intro a b hab
  exact lt_of_le_of_ne hab.1 hab.2

/-- Behind the last of some first rows are the other ones. -/
theorem filter_behind {key : α -> κ} {front rest : List α} {last : α}
    (hsorted : (front ++ rest).Pairwise fun a b => key a < key b)
    (hlast : last ∈ front.getLast?) :
    (front ++ rest).filter (fun x => decide (key last < key x)) = rest := by
  have hmem : last ∈ front := List.mem_of_getLast? hlast
  rcases List.pairwise_append.mp hsorted with ⟨hfront, _, hcross⟩
  rw [List.filter_append]
  have hnone : front.filter (fun x => decide (key last < key x)) = [] := by
    rw [List.filter_eq_nil_iff]
    intro x hx hless
    rw [decide_eq_true_eq] at hless
    rcases List.getLast?_eq_some_iff.mp hlast with ⟨init, rfl⟩
    rcases List.mem_append.mp hx with hinit | hself
    · have hbefore := (List.pairwise_append.mp hfront).2.2 x hinit last
        (List.mem_singleton.mpr rfl)
      exact lt_asymm hless hbefore
    · rw [List.mem_singleton.mp hself] at hless
      exact lt_irrefl _ hless
  have hall : rest.filter (fun x => decide (key last < key x)) = rest := by
    rw [List.filter_eq_self]
    intro x hx
    rw [decide_eq_true_eq]
    exact hcross last hmem x hx
  rw [hnone, hall, List.nil_append]

/-- What is behind the last row that has been delivered. -/
theorem rowsBehind_getLast? {key : α -> κ} {xs front rest : List α}
    (hkeys : (xs.map key).Nodup)
    (hsplit : sortByKey key xs = front ++ rest) :
    rowsBehind key xs front.getLast? = rest := by
  unfold rowsBehind
  rw [sortByKey_filter key _ hkeys, hsplit]
  cases hlast : front.getLast? with
  | none =>
      rw [List.getLast?_eq_none_iff.mp hlast]
      simp
  | some last =>
      have hsorted := sortByKey_strict hkeys
      rw [hsplit] at hsorted
      exact filter_behind hsorted hlast

/-!
## Reading all pages
-/

section

variable {key : α -> κ} {xs : List α} {limit : Nat} {encode : α -> γ}
  {item : α -> β} {page : Option γ -> Except ε (List β × Option γ)}

/-- A page shows the first rows behind the row that it was asked for. -/
def Paged (key : α -> κ) (xs : List α) (limit : Nat) (encode : α -> γ)
    (item : α -> β) (page : Option γ -> Except ε (List β × Option γ)) :
    Prop :=
  forall last : Option α, (forall row, row ∈ last -> row ∈ xs) ->
    page (last.map encode) =
      .ok (((rowsBehind key xs last).take limit).map item,
        (lastOfPage limit (rowsBehind key xs last)).map encode)

theorem follow_of_paged (hlimit : 0 < limit) (hkeys : (xs.map key).Nodup)
    (hpaged : Paged key xs limit encode item page) :
    forall (fuel : Nat) (front rest : List α),
      sortByKey key xs = front ++ rest -> rest.length < fuel ->
        follow page fuel (front.getLast?.map encode) =
          some (.ok (rest.map item)) := by
  intro fuel
  induction fuel with
  | zero =>
      intro front rest _ hlength
      cases hlength
  | succ fuel ih =>
      intro front rest hsplit hlength
      have hlast : forall row, row ∈ front.getLast? -> row ∈ xs := by
        intro row hrow
        apply (sortByKey_perm key xs).mem_iff.mp
        rw [hsplit]
        exact List.mem_append_left _ (List.mem_of_getLast? hrow)
      have hpage := hpaged front.getLast? hlast
      rw [rowsBehind_getLast? hkeys hsplit] at hpage
      unfold follow
      by_cases hmore : limit < rest.length
      · have hfull : lastOfPage limit rest = (rest.take limit).getLast? :=
          if_pos hmore
        have hne : rest.take limit ≠ [] := by
          intro hnil
          have hzero := congrArg List.length hnil
          rw [List.length_take, List.length_nil] at hzero
          omega
        have hnext : (front ++ rest.take limit).getLast? =
            (rest.take limit).getLast? :=
          List.getLast?_append_of_ne_nil front hne
        obtain ⟨last, hfound⟩ : exists last,
            (rest.take limit).getLast? = some last :=
          ⟨_, List.getLast?_eq_some_getLast hne⟩
        have hfollow := ih (front ++ rest.take limit) (rest.drop limit) (by
          rw [hsplit, List.append_assoc, List.take_append_drop]) (by
          rw [List.length_drop]
          omega)
        rw [hnext, hfound, Option.map_some] at hfollow
        rw [hpage, hfull, hfound, Option.map_some]
        dsimp only
        rw [hfollow]
        show some (Except.ok ((rest.take limit).map item ++
          (rest.drop limit).map item)) = some (Except.ok (rest.map item))
        rw [<- List.map_append, List.take_append_drop]
      · have hend : lastOfPage limit rest = none := if_neg hmore
        have hall : rest.take limit = rest :=
          List.take_of_length_le (Nat.le_of_not_lt hmore)
        rw [hpage, hend, hall]
        rfl

/-- All pages together are the sorted list. -/
theorem follow_eq_sortByKey (hlimit : 0 < limit)
    (hkeys : (xs.map key).Nodup)
    (hpaged : Paged key xs limit encode item page) :
    follow page (xs.length + 1) none =
      some (.ok ((sortByKey key xs).map item)) := by
  have hlength : (sortByKey key xs).length < xs.length + 1 := by
    rw [(sortByKey_perm key xs).length_eq]
    exact Nat.lt_succ_self _
  exact follow_of_paged hlimit hkeys hpaged (xs.length + 1) []
    (sortByKey key xs) rfl hlength

end
end Lib
