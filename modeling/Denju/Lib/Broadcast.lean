import Mathlib.Data.List.Basic

/-!
# Broadcast channels

Every receiver of a channel goes through the values sent since it came, at its
own pace.  The channel keeps a bounded number of values: a receiver that is
further behind is told that it lags, and goes on with the oldest value kept.
-/

namespace Lib

/-- The values sent so far, how many of them are kept, and whether there will
be no more. -/
structure Broadcast (α : Type) where
  capacity : Nat
  sent : List α
  closed : Bool
deriving DecidableEq

/-- What a receiver finds. -/
inductive Received (α : Type) where
  | value (x : α)
  | lagged
  | empty
  | closed
deriving DecidableEq

namespace Broadcast

variable {α : Type}

def send (channel : Broadcast α) (x : α) : Broadcast α :=
  { channel with sent := channel.sent ++ [x] }

/-- Receive at a position, and the position after it. -/
def receive (channel : Broadcast α) (position : Nat) : Received α × Nat :=
  if position + channel.capacity < channel.sent.length then
    (.lagged, channel.sent.length - channel.capacity)
  else
    match channel.sent[position]? with
    | some x => (.value x, position + 1)
    | none => (if channel.closed then .closed else .empty, position)

variable {channel : Broadcast α} {position next : Nat} {x : α}

theorem receive_value (h : channel.receive position = (.value x, next)) :
    channel.sent[position]? = some x ∧ next = position + 1 := by
  unfold receive at h
  split at h
  · cases h
  · split at h
    · rename_i found hfound
      cases h
      exact ⟨hfound, rfl⟩
    · split at h
      · cases h
      · cases h

theorem receive_lagged (h : channel.receive position = (.lagged, next)) :
    position < next ∧ next ≤ channel.sent.length := by
  unfold receive at h
  split at h
  · rename_i hbehind
    cases h
    exact ⟨Nat.lt_sub_of_add_lt hbehind, Nat.sub_le _ _⟩
  · split at h
    · cases h
    · split at h
      · cases h
      · cases h

/-- Where nothing is received the receiver has come to the end. -/
theorem receive_none (hbound : position ≤ channel.sent.length)
    (h : channel.receive position = (.empty, next) ∨
      channel.receive position = (.closed, next)) :
    position = channel.sent.length ∧ next = position := by
  unfold receive at h
  split at h
  · rcases h with h | h
    · cases h
    · cases h
  · split at h
    · rcases h with h | h
      · cases h
      · cases h
    · rename_i hnone
      have hend := List.getElem?_eq_none_iff.mp hnone
      refine ⟨Nat.le_antisymm hbound hend, ?_⟩
      rcases h with h | h
      · exact (congrArg Prod.snd h).symm
      · exact (congrArg Prod.snd h).symm

theorem receive_bounds (hbound : position ≤ channel.sent.length) :
    position ≤ (channel.receive position).2 ∧
      (channel.receive position).2 ≤ channel.sent.length := by
  cases h : channel.receive position with
  | mk received next =>
      cases received with
      | value x =>
          rcases receive_value h with ⟨hfound, hnext⟩
          rw [hnext]
          exact ⟨Nat.le_succ _, (List.getElem?_eq_some_iff.mp hfound).1⟩
      | lagged =>
          rcases receive_lagged h with ⟨hlt, hle⟩
          exact ⟨Nat.le_of_lt hlt, hle⟩
      | empty =>
          rw [(receive_none hbound (.inl h)).2]
          exact ⟨Nat.le_refl _, hbound⟩
      | closed =>
          rw [(receive_none hbound (.inr h)).2]
          exact ⟨Nat.le_refl _, hbound⟩

end Broadcast
end Lib
