import Mathlib.Data.List.Basic

/-!
# Receipts

A service keeps a receipt of every request that it has answered, under a key
that the caller chooses.  A call that finds a receipt under its key changes
nothing: it repeats the answer of its own request, and refuses another one.  As
long as receipts are kept, a request then takes effect at most once, however
often it is repeated and whatever happens in between.
-/

namespace Lib

variable {σ κ ρ α ε δ : Type}

/-- A call, the key of its receipt, and which receipts are those of its own
request.  Every run of a call draws its own random values.  It is refused, or it
is answered; the answer of a call that is not refused may still be an error. -/
structure ReceiptCall (σ κ ρ α ε δ : Type) where
  key : κ
  fits : ρ -> Prop
  run : δ -> σ -> Except ε (Except ε α × σ)

/-- A call that leaves a receipt of its answer, and that repeats the answer
where it finds the receipt again.  The checks before the receipt is looked for
depend only on what the two states agree on. -/
structure Receipted (receiptAt : σ -> κ -> Option (ρ × α)) (agree : σ -> σ -> Prop)
    (call : ReceiptCall σ κ ρ α ε δ) : Prop where
  records : forall {d : δ} {s s' : σ} {a : α},
    call.run d s = .ok (.ok a, s') -> exists receipt,
      call.fits receipt ∧ receiptAt s' call.key = some (receipt, a)
  settled : forall {d : δ} {s s' : σ} {receipt : ρ} {a : α}
    {answer : Except ε α}, receiptAt s call.key = some (receipt, a) ->
      call.run d s = .ok (answer, s') ->
        call.fits receipt ∧ answer = .ok a ∧ s' = s
  replays : forall {d d' : δ} {s s' t : σ} {receipt : ρ} {a : α},
    call.run d s = .ok (.ok a, s') -> agree s t ->
      receiptAt t call.key = some (receipt, a) -> call.fits receipt ->
        call.run d' t = .ok (.ok a, t)

/-- The receipt under a key in one state is still there in the other. -/
def KeepsReceipt (receiptAt : σ -> κ -> Option (ρ × α)) (key : κ) (s t : σ) :
    Prop :=
  forall found, receiptAt s key = some found -> receiptAt t key = some found

variable {receiptAt : σ -> κ -> Option (ρ × α)} {agree : σ -> σ -> Prop}
  {call other : ReceiptCall σ κ ρ α ε δ} {d d' : δ} {s s' t t' : σ} {a : α}

theorem KeepsReceipt.refl (receiptAt : σ -> κ -> Option (ρ × α)) (key : κ)
    (s : σ) : KeepsReceipt receiptAt key s s :=
  fun _ h => h

theorem KeepsReceipt.trans {key : κ} {u : σ} (h : KeepsReceipt receiptAt key s t)
    (h' : KeepsReceipt receiptAt key t u) : KeepsReceipt receiptAt key s u :=
  fun found hfound => h' found (h found hfound)

namespace Receipted

/-- A request that was answered is answered the same again. -/
theorem repeats (h : Receipted receiptAt agree call)
    (hanswer : call.run d s = .ok (.ok a, s')) (hagree : agree s t)
    (hkept : KeepsReceipt receiptAt call.key s' t) : call.run d' t = .ok (.ok a, t) := by
  rcases h.records hanswer with ⟨receipt, hfits, hrecorded⟩
  exact h.replays hanswer hagree (hkept _ hrecorded) hfits

/-- A request that was answered takes effect no second time, whatever the two
states agree on. -/
theorem settles (h : Receipted receiptAt agree call)
    (hanswer : call.run d s = .ok (.ok a, s'))
    (hkept : KeepsReceipt receiptAt call.key s' t) {answer : Except ε α}
    (hagain : call.run d' t = .ok (answer, t')) : answer = .ok a ∧ t' = t := by
  rcases h.records hanswer with ⟨receipt, _, hrecorded⟩
  exact (h.settled (hkept _ hrecorded) hagain).2

/-- Another request under the key of one that was answered is refused. -/
theorem refuses (h : Receipted receiptAt agree call)
    (hother : Receipted receiptAt agree other) (hkey : other.key = call.key)
    (hmisfit : forall receipt, call.fits receipt -> ¬other.fits receipt)
    (hanswer : call.run d s = .ok (.ok a, s'))
    (hkept : KeepsReceipt receiptAt call.key s' t) :
    exists error, other.run d' t = .error error := by
  rcases h.records hanswer with ⟨receipt, hfits, hrecorded⟩
  have hfound := hkept _ hrecorded
  rw [← hkey] at hfound
  cases hrun : other.run d' t with
  | error error => exact ⟨error, rfl⟩
  | ok result =>
      have hsettled := hother.settled hfound hrun
      exact absurd hsettled.1 (hmisfit receipt hfits)

end Receipted
end Lib
