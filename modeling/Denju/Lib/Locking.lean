import Denju.Lib.Runs
import Mathlib.Data.List.Lemmas
import Mathlib.Logic.Relation
import Mathlib.Order.Basic

/-!
# Locks that wait

A transaction takes the locks of its script one after the other, and keeps them
until it ends.  A lock is granted when no other transaction holds a conflicting
one; otherwise the transaction waits.  Transactions that wait for each other in
a circle never go on.
-/

namespace Lib

/-- A transaction with the call it serves, the locks it holds and those it has
still to take. -/
structure Locking (γ ρ : Type) where
  call : γ
  held : List ρ
  rest : List ρ

/-- A transaction starts, asks for its next lock, or ends, perhaps early. -/
inductive LockEvent (γ : Type) where
  | start (call : γ)
  | lock (index : Nat)
  | finish (index : Nat)

/-- The transactions in the order of their start. -/
abbrev LockTable (γ ρ : Type) := List (Locking γ ρ)

namespace LockTable

variable {γ ρ : Type} (conflicts : ρ -> ρ -> Bool) (script : γ -> List ρ)

/-- No other transaction holds a conflicting lock. -/
def grants (table : LockTable γ ρ) (index : Nat) (request : ρ) : Bool :=
  table.zipIdx.all fun other =>
    decide (other.2 = index) ||
      other.1.held.all fun lock => !conflicts request lock

/-- A request that is not granted changes nothing. -/
def lock (table : LockTable γ ρ) (index : Nat) : LockTable γ ρ :=
  match table[index]? with
  | none => table
  | some tx =>
      match tx.rest with
      | [] => table
      | request :: rest =>
          if table.grants conflicts index request then
            table.set index { tx with held := tx.held ++ [request], rest }
          else table

def next (table : LockTable γ ρ) : LockEvent γ -> LockTable γ ρ
  | .start call => table ++ [⟨call, [], script call⟩]
  | .lock index => table.lock conflicts index
  | .finish index =>
      match table[index]? with
      | none => table
      | some tx => table.set index { tx with held := [], rest := [] }

/-!
## Waiting
-/

/-- The first transaction wants a lock that conflicts with one of the second. -/
def WaitsFor (table : LockTable γ ρ) (i j : Nat) : Prop :=
  i ≠ j ∧ exists tx other request rest lock,
    table[i]? = some tx ∧ tx.rest = request :: rest ∧
      table[j]? = some other ∧ lock ∈ other.held ∧
        conflicts request lock = true

/-- Some transactions wait for each other in a circle. -/
def Deadlocked (table : LockTable γ ρ) : Prop :=
  exists i, Relation.TransGen (table.WaitsFor conflicts) i i

variable {conflicts script} {table table' : LockTable γ ρ}

/-- The transaction asks for the request next. -/
def Requests (table : LockTable γ ρ) (i : Nat) (request : ρ) : Prop :=
  exists tx rest, table[i]? = some tx ∧ tx.rest = request :: rest

theorem Requests.unique {i : Nat} {a b : ρ} (ha : table.Requests i a)
    (hb : table.Requests i b) : a = b := by
  rcases ha with ⟨tx, rest, htx, hrest⟩
  rcases hb with ⟨other, tail, hother, htail⟩
  rw [htx] at hother
  cases hother
  rw [hrest] at htail
  exact (List.cons.inj htail).1

theorem WaitsFor.requests {i j : Nat} (h : table.WaitsFor conflicts i j) :
    exists request, table.Requests i request := by
  rcases h with ⟨_, tx, _, request, rest, _, htx, hrest, _⟩
  exact ⟨request, tx, rest, htx, hrest⟩

/-- If whoever is waited for waits at a higher rank, nobody waits in a circle. -/
theorem not_deadlocked_of_rank {κ : Type} [Preorder κ] (rank : ρ -> κ)
    (hrank : forall i j k a b, table.WaitsFor conflicts i j ->
      table.WaitsFor conflicts j k -> table.Requests i a ->
        table.Requests j b -> rank a < rank b) :
    ¬table.Deadlocked conflicts := by
  have hpath : forall i j, Relation.TransGen (table.WaitsFor conflicts) i j ->
      forall k a b, table.WaitsFor conflicts j k -> table.Requests i a ->
        table.Requests j b -> rank a < rank b := by
    intro i j hpath
    induction hpath with
    | single hwait =>
        intro k a b hnext ha hb
        exact hrank _ _ k a b hwait hnext ha hb
    | tail _ hwait ih =>
        intro k a b hnext ha hb
        rcases hwait.requests with ⟨middle, hmiddle⟩
        exact lt_trans (ih _ a middle hwait ha hmiddle)
          (hrank _ _ k middle b hwait hnext hmiddle hb)
  rintro ⟨i, hcycle⟩
  rcases Relation.TransGen.head'_iff.mp hcycle with ⟨j, hwait, _⟩
  rcases hwait.requests with ⟨request, hrequest⟩
  exact lt_irrefl _ (hpath i i hcycle j request request hwait hrequest
    hrequest)

/-!
## What holds in every run
-/

/-- A transaction is somewhere in its script, or has ended. -/
def Scripted (script : γ -> List ρ) (tx : Locking γ ρ) : Prop :=
  tx.held ++ tx.rest = script tx.call ∨ (tx.held = [] ∧ tx.rest = [])

/-- No two transactions hold conflicting locks. -/
structure Consistent (conflicts : ρ -> ρ -> Bool) (script : γ -> List ρ)
    (table : LockTable γ ρ) : Prop where
  scripted : forall tx, tx ∈ table -> Scripted script tx
  compatible : forall (i j : Nat) (tx other : Locking γ ρ) (a b : ρ), i ≠ j ->
    table[i]? = some tx -> table[j]? = some other -> a ∈ tx.held ->
      b ∈ other.held -> conflicts a b = false

theorem consistent_nil : Consistent conflicts script ([] : LockTable γ ρ) where
  scripted := fun _ h => by cases h
  compatible := fun _ _ _ _ _ _ _ h => by simp at h

theorem grants_iff {i : Nat} {request : ρ} :
    table.grants conflicts i request = true <->
      forall (j : Nat) (other : Locking γ ρ) (lock : ρ),
        table[j]? = some other -> j ≠ i -> lock ∈ other.held ->
          conflicts request lock = false := by
  unfold grants
  rw [List.all_eq_true]
  constructor
  · intro h j other lock hother hj hlock
    have hall := h (other, j) (List.mem_zipIdx_iff_getElem?.mpr hother)
    simp only [Bool.or_eq_true, decide_eq_true_eq, List.all_eq_true,
      Bool.not_eq_true'] at hall
    exact (hall.resolve_left hj) lock hlock
  · rintro h ⟨other, j⟩ hmem
    have hother := List.mem_zipIdx_iff_getElem?.mp hmem
    simp only [Bool.or_eq_true, decide_eq_true_eq, List.all_eq_true,
      Bool.not_eq_true']
    by_cases hj : j = i
    · exact .inl hj
    · exact .inr fun lock hlock => h j other lock hother hj hlock

/-- What a request does: nothing, or it moves the lock to those held. -/
theorem lock_cases (table : LockTable γ ρ) (i : Nat) :
    table.lock conflicts i = table ∨
      exists tx request rest, table[i]? = some tx ∧
        tx.rest = request :: rest ∧
          table.grants conflicts i request = true ∧
            table.lock conflicts i =
              table.set i { tx with held := tx.held ++ [request], rest } := by
  unfold lock
  split
  · exact .inl rfl
  · rename_i tx htx
    split
    · exact .inl rfl
    · rename_i request rest hrest
      split
      · rename_i hgrants
        exact .inr ⟨tx, request, rest, htx, hrest, hgrants, rfl⟩
      · exact .inl rfl

/-- The transactions after a step: those before, one that has taken a lock, one
that has started, or one that has ended. -/
theorem getElem?_next {event : LockEvent γ} {i : Nat} {tx : Locking γ ρ}
    (h : (table.next conflicts script event)[i]? = some tx) :
    table[i]? = some tx ∨
      (exists call, event = .start call ∧ tx = ⟨call, [], script call⟩ ∧
        i = table.length) ∨
      (exists old request rest, event = .lock i ∧ table[i]? = some old ∧
        old.rest = request :: rest ∧
          table.grants conflicts i request = true ∧
            tx = { old with held := old.held ++ [request], rest }) ∨
      exists old, event = .finish i ∧ table[i]? = some old ∧
        tx = { old with held := [], rest := [] } := by
  cases event with
  | start call =>
      change (table ++ [_])[i]? = some tx at h
      rw [List.getElem?_append] at h
      split at h
      · exact .inl h
      · rename_i hlength
        rw [List.getElem?_singleton] at h
        split at h
        · rename_i hzero
          cases h
          exact .inr (.inl ⟨call, rfl, rfl, by omega⟩)
        · cases h
  | lock j =>
      change (table.lock conflicts j)[i]? = some tx at h
      rcases lock_cases table j with hsame | ⟨old, request, rest, hold, hrest,
        hgrants, hset⟩
      · rw [hsame] at h
        exact .inl h
      · rw [hset, List.getElem?_set] at h
        split at h
        · rename_i hj
          subst hj
          split at h
          · cases h
            exact .inr (.inr (.inl ⟨old, request, rest, rfl, hold, hrest,
              hgrants, rfl⟩))
          · cases h
        · exact .inl h
  | finish j =>
      unfold next at h
      dsimp only at h
      split at h
      · exact .inl h
      · rename_i old hold
        rw [List.getElem?_set] at h
        split at h
        · rename_i hj
          subst hj
          split at h
          · cases h
            exact .inr (.inr (.inr ⟨old, rfl, hold, rfl⟩))
          · cases h
        · exact .inl h

/-- A lock that is held after a step was held before, or has been granted. -/
theorem mem_held_next {event : LockEvent γ} {i : Nat} {tx : Locking γ ρ}
    {lock : ρ} (h : (table.next conflicts script event)[i]? = some tx)
    (hlock : lock ∈ tx.held) :
    (exists old, table[i]? = some old ∧ lock ∈ old.held) ∨
      (event = .lock i ∧ table.Requests i lock ∧
        table.grants conflicts i lock = true) := by
  rcases getElem?_next h with hold | ⟨call, _, rfl, _⟩ |
    ⟨old, request, rest, hevent, hold, hrest, hgrants, rfl⟩ |
    ⟨old, _, _, rfl⟩
  · exact .inl ⟨tx, hold, hlock⟩
  · cases hlock
  · rcases List.mem_append.mp hlock with hbefore | hnew
    · exact .inl ⟨old, hold, hbefore⟩
    · rw [List.mem_singleton.mp hnew]
      exact .inr ⟨hevent, ⟨old, rest, hold, hrest⟩, hgrants⟩
  · cases hlock

/-- A transaction that holds one lock and needs another has done so before, or
it has just taken the first one. -/
theorem between_next {event : LockEvent γ} {i : Nat} {tx : Locking γ ρ}
    {a b : ρ} (h : (table.next conflicts script event)[i]? = some tx)
    (ha : a ∈ tx.held) (hb : b ∈ tx.rest) :
    exists old, table[i]? = some old ∧ old.call = tx.call ∧
      ((a ∈ old.held ∧ b ∈ old.rest) ∨
        (event = .lock i ∧ old.rest.head? = some a)) := by
  rcases getElem?_next h with hold | ⟨call, _, rfl, _⟩ |
    ⟨old, request, rest, hevent, hold, hrest, _, rfl⟩ | ⟨old, _, _, rfl⟩
  · exact ⟨tx, hold, rfl, .inl ⟨ha, hb⟩⟩
  · cases ha
  · refine ⟨old, hold, rfl, ?_⟩
    rcases List.mem_append.mp ha with hbefore | hnew
    · refine .inl ⟨hbefore, ?_⟩
      rw [hrest]
      exact List.mem_cons_of_mem _ hb
    · refine .inr ⟨hevent, ?_⟩
      rw [hrest, List.mem_singleton.mp hnew]
      rfl
  · cases ha

/-- The calls under way are the old ones and the one that starts. -/
theorem call_next {event : LockEvent γ} {tx : Locking γ ρ}
    (h : tx ∈ table.next conflicts script event) :
    (exists old, old ∈ table ∧ old.call = tx.call) ∨
      event = .start tx.call := by
  rcases List.getElem?_of_mem h with ⟨i, hi⟩
  rcases getElem?_next hi with hold | ⟨call, hevent, rfl, _⟩ |
    ⟨old, _, _, _, hold, _, _, rfl⟩ | ⟨old, _, hold, rfl⟩
  · exact .inl ⟨tx, List.mem_of_getElem? hold, rfl⟩
  · exact .inr hevent
  · exact .inl ⟨old, List.mem_of_getElem? hold, rfl⟩
  · exact .inl ⟨old, List.mem_of_getElem? hold, rfl⟩

theorem Consistent.next (hsymm : forall a b, conflicts a b = conflicts b a)
    (h : table.Consistent conflicts script) (event : LockEvent γ) :
    (table.next conflicts script event).Consistent conflicts script where
  scripted := by
    intro tx htx
    rcases List.getElem?_of_mem htx with ⟨i, hi⟩
    rcases getElem?_next hi with hold | ⟨call, _, rfl, _⟩ |
      ⟨old, request, rest, _, hold, hrest, _, rfl⟩ | ⟨old, _, _, rfl⟩
    · exact h.scripted tx (List.mem_of_getElem? hold)
    · exact .inl rfl
    · rcases h.scripted old (List.mem_of_getElem? hold) with hscript | hended
      · left
        rw [hrest] at hscript
        simpa using hscript
      · rw [hrest] at hended
        cases hended.2
    · exact .inr ⟨rfl, rfl⟩
  compatible := by
    intro i j tx other a b hij hi hj ha hb
    rcases mem_held_next hi ha with ⟨old, hold, haOld⟩ | ⟨hevent, _, hgrants⟩
    · rcases mem_held_next hj hb with ⟨oldOther, holdOther, hbOld⟩ |
        ⟨hevent, _, hgrants⟩
      · exact h.compatible i j old oldOther a b hij hold holdOther haOld hbOld
      · rw [hsymm]
        exact grants_iff.mp hgrants i old a hold hij haOld
    · rcases mem_held_next hj hb with ⟨oldOther, holdOther, hbOld⟩ |
        ⟨hother, _⟩
      · exact grants_iff.mp hgrants j oldOther b holdOther (Ne.symm hij) hbOld
      · rw [hevent] at hother
        cases hother
        exact absurd rfl hij

end LockTable
end Lib
