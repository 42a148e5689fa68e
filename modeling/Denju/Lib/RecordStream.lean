import Mathlib.Data.List.Basic

/-!
# Records from a stream

A stream of records comes in chunks, and the chunks end anywhere.  A reader
cuts off the records that are complete, handles each until one has an answer,
and keeps the rest for the next chunk.
-/

namespace Lib

variable {β γ : Type}

/-- A complete record is cut off, and stays the first one whatever comes. -/
structure CutsRecords (cut : List β -> Option (List β × List β)) : Prop where
  shorter : forall xs record rest, cut xs = some (record, rest) ->
    rest.length < xs.length
  stable : forall xs record rest, cut xs = some (record, rest) ->
    forall more, cut (xs ++ more) = some (record, rest ++ more)

section

variable (cut : List β -> Option (List β × List β))
  (handle : List β -> Option γ)

/-- The first answer to a record, or what is left of the buffer. -/
def handleRecords : Nat -> List β -> γ ⊕ List β
  | 0, buffer => .inr buffer
  | turns + 1, buffer =>
      match cut buffer with
      | none => .inr buffer
      | some (record, rest) =>
          match handle record with
          | some answer => .inl answer
          | none => handleRecords turns rest

/-- Each turn takes something from the buffer. -/
def takeRecords (buffer : List β) : γ ⊕ List β :=
  handleRecords cut handle buffer.length buffer

def readChunks : List β -> List (List β) -> γ ⊕ List β
  | buffer, [] => .inr buffer
  | buffer, chunk :: rest =>
      match takeRecords cut handle (buffer ++ chunk) with
      | .inl answer => .inl answer
      | .inr left => readChunks left rest

end

variable {cut : List β -> Option (List β × List β)}
  {handle : List β -> Option γ}

theorem handleRecords_turns (hcuts : CutsRecords cut) {turns : Nat}
    {buffer : List β} (hturns : buffer.length ≤ turns) :
    handleRecords cut handle turns buffer = takeRecords cut handle buffer := by
  induction turns using Nat.strongRecOn generalizing buffer with
  | ind turns ih =>
      cases hlength : buffer.length with
      | zero =>
          have hnone : cut buffer = none := by
            cases hcut : cut buffer with
            | none => rfl
            | some found =>
                have hshorter := hcuts.shorter buffer found.1 found.2 hcut
                rw [hlength] at hshorter
                exact absurd hshorter (Nat.not_lt_zero _)
          unfold takeRecords
          rw [hlength]
          cases turns with
          | zero => rfl
          | succ turns =>
              simp only [handleRecords]
              rw [hnone]
      | succ length =>
          unfold takeRecords
          rw [hlength] at hturns ⊢
          cases turns with
          | zero => exact absurd hturns (Nat.not_succ_le_zero _)
          | succ turns =>
              have hle := Nat.le_of_succ_le_succ hturns
              simp only [handleRecords]
              cases hcut : cut buffer with
              | none => rfl
              | some found =>
                  have hshorter := hcuts.shorter buffer found.1 found.2 hcut
                  rw [hlength] at hshorter
                  have hrest := Nat.le_of_lt_succ hshorter
                  cases hhandle : handle found.1 with
                  | some answer => simp only [hhandle]
                  | none =>
                      simp only [hhandle]
                      rw [ih turns (Nat.lt_succ_self _)
                          (Nat.le_trans hrest hle),
                        ih length (Nat.lt_succ_of_le hle) hrest]

theorem takeRecords_none {buffer : List β} (hcut : cut buffer = none) :
    takeRecords cut handle buffer = .inr buffer := by
  unfold takeRecords
  cases buffer with
  | nil => rfl
  | cons x xs =>
      simp only [List.length_cons, handleRecords]
      rw [hcut]

theorem takeRecords_answer (hcuts : CutsRecords cut)
    {buffer record rest : List β} {answer : γ}
    (hcut : cut buffer = some (record, rest))
    (hhandle : handle record = some answer) :
    takeRecords cut handle buffer = .inl answer := by
  have hshorter := hcuts.shorter buffer record rest hcut
  unfold takeRecords
  cases hlength : buffer.length with
  | zero =>
      rw [hlength] at hshorter
      exact absurd hshorter (Nat.not_lt_zero _)
  | succ length =>
      simp only [handleRecords]
      rw [hcut]
      simp only [hhandle]

theorem takeRecords_skip (hcuts : CutsRecords cut)
    {buffer record rest : List β} (hcut : cut buffer = some (record, rest))
    (hhandle : handle record = none) :
    takeRecords cut handle buffer = takeRecords cut handle rest := by
  have hshorter := hcuts.shorter buffer record rest hcut
  cases hlength : buffer.length with
  | zero =>
      rw [hlength] at hshorter
      exact absurd hshorter (Nat.not_lt_zero _)
  | succ length =>
      rw [hlength] at hshorter
      rw [← handleRecords_turns hcuts (Nat.le_of_lt_succ hshorter)]
      unfold takeRecords
      rw [hlength]
      simp only [handleRecords]
      rw [hcut]
      simp only [hhandle]

/-- Records that are taken before more comes are taken all the same. -/
theorem takeRecords_append (hcuts : CutsRecords cut) (buffer more : List β) :
    takeRecords cut handle (buffer ++ more) =
      (takeRecords cut handle buffer).elim .inl
        fun left => takeRecords cut handle (left ++ more) := by
  induction hlength : buffer.length using Nat.strongRecOn
    generalizing buffer with
  | ind length ih =>
      cases hcut : cut buffer with
      | none =>
          rw [takeRecords_none hcut]
          rfl
      | some found =>
          have hmore := hcuts.stable buffer found.1 found.2 hcut more
          cases hhandle : handle found.1 with
          | some answer =>
              rw [takeRecords_answer hcuts hcut hhandle,
                takeRecords_answer hcuts hmore hhandle]
              rfl
          | none =>
              have hshorter := hcuts.shorter buffer found.1 found.2 hcut
              rw [hlength] at hshorter
              rw [takeRecords_skip hcuts hcut hhandle,
                takeRecords_skip hcuts hmore hhandle]
              exact ih found.2.length hshorter found.2 rfl

/-- Nothing can be cut off what is left. -/
theorem cut_left (hcuts : CutsRecords cut) {buffer left : List β}
    (h : takeRecords cut handle buffer = .inr left) : cut left = none := by
  induction hlength : buffer.length using Nat.strongRecOn
    generalizing buffer with
  | ind length ih =>
      cases hcut : cut buffer with
      | none =>
          rw [takeRecords_none hcut] at h
          rw [← Sum.inr.inj h]
          exact hcut
      | some found =>
          cases hhandle : handle found.1 with
          | some answer =>
              rw [takeRecords_answer hcuts hcut hhandle] at h
              cases h
          | none =>
              have hshorter := hcuts.shorter buffer found.1 found.2 hcut
              rw [hlength] at hshorter
              rw [takeRecords_skip hcuts hcut hhandle] at h
              exact ih found.2.length hshorter h rfl

theorem readChunks_from (hcuts : CutsRecords cut) {buffer : List β}
    (hbuffer : cut buffer = none) (chunks : List (List β)) :
    readChunks cut handle buffer chunks =
      takeRecords cut handle (buffer ++ chunks.flatten) := by
  induction chunks generalizing buffer with
  | nil =>
      rw [List.flatten_nil, List.append_nil, takeRecords_none hbuffer]
      rfl
  | cons chunk rest ih =>
      rw [List.flatten_cons, ← List.append_assoc, takeRecords_append hcuts]
      simp only [readChunks]
      cases htaken : takeRecords cut handle (buffer ++ chunk) with
      | inl answer => rfl
      | inr left => exact ih (cut_left hcuts htaken)

/-- Where the chunks end makes no difference. -/
theorem readChunks_flatten (hcuts : CutsRecords cut)
    (chunks : List (List β)) :
    readChunks cut handle [] chunks =
      takeRecords cut handle chunks.flatten := by
  have hempty : cut [] = none := by
    cases hcut : cut [] with
    | none => rfl
    | some found =>
        exact absurd (hcuts.shorter [] found.1 found.2 hcut)
          (Nat.not_lt_zero _)
  exact readChunks_from hcuts hempty chunks

end Lib
