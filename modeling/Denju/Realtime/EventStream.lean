import Denju.Lib.RecordStream
import Denju.Realtime.Wakes
import Denju.Registry.Audience

/-!
# The stream of hints

A client waits for a hint.  What it receives are bytes in chunks, in which an
empty line ends a record, and it goes past the records that carry no data.
-/

namespace Denju

open Lib

/-!
## Records
-/

/-- Where the pattern first begins. -/
def windowPosition (pattern : Bytes) : Bytes -> Option Nat
  | [] => none
  | byte :: rest =>
      if pattern.isPrefixOf (byte :: rest) then some 0
      else (windowPosition pattern rest).map fun position => position + 1

def crlfDelimiter : Bytes :=
  [13, 10, 13, 10]

def lfDelimiter : Bytes :=
  [10, 10]

/-- Where the first record ends, and the length of what ends it. -/
def findSseRecordEnd (bytes : Bytes) : Option (Nat × Nat) :=
  match windowPosition crlfDelimiter bytes,
      windowPosition lfDelimiter bytes with
  | some crlf, some lf => if crlf ≤ lf then some (crlf, 4) else some (lf, 2)
  | some crlf, none => some (crlf, 4)
  | none, some lf => some (lf, 2)
  | none, none => none

def cutSseRecord (bytes : Bytes) : Option (Bytes × Bytes) :=
  (findSseRecordEnd bytes).map fun (position, length) =>
    (bytes.take position, bytes.drop (position + length))

/-!
## Hints
-/

inductive ClientError where
  | http (message : Text)
  | unavailable (message : Text)
  | invalidEventStream (message : Text)
deriving DecidableEq

/-- What the standard library says about bytes that are no text, and what the
JSON library reads. -/
structure EventReader where
  utf8Error : Bytes -> Text
  fromStr : Text -> Except Text SyncHint

/-- A line without what ends it. -/
def withoutLineEnd (line : Text) : Text :=
  if line.getLast? = some '\n' then
    if line.dropLast.getLast? = some '\r' then line.dropLast.dropLast
    else line.dropLast
  else line

def stripDataPrefix (line : Text) : Option Text :=
  if "data:".toList.isPrefixOf line then
    some (line.drop "data:".toList.length)
  else none

def recordData (text : Text) : Text :=
  join '\n' ((((splitInclusive '\n' text).map withoutLineEnd).filterMap
    stripDataPrefix).map fun data => data.dropWhile isWhitespace)

namespace EventReader

variable (reader : EventReader)

/-- The answer to a record, if it has data or is no text. -/
def readRecord (record : Bytes) : Option (Except ClientError SyncHint) :=
  match fromUtf8 record with
  | none => some (.error (.invalidEventStream (reader.utf8Error record)))
  | some text =>
      if recordData text = [] then none
      else
        match reader.fromStr (recordData text) with
        | .ok hint => some (.ok hint)
        | .error message => some (.error (.invalidEventStream message))

/-- Wait for a hint, in a stream that ends or fails after these chunks. -/
def waitForSyncHint (chunks : List Bytes) (failure : Option Text) :
    Except ClientError SyncHint :=
  match readChunks cutSseRecord reader.readRecord [] chunks with
  | .inl answer => answer
  | .inr _ =>
      match failure with
      | some message => .error (.http message)
      | none => .error (.unavailable
          "registry event stream closed before a sync hint arrived".toList)

end EventReader

/-!
## Where records end
-/

section Windows

variable {pattern bytes more : Bytes} {position : Nat}

theorem windowPosition_found
    (h : windowPosition pattern bytes = some position) :
    pattern <+: bytes.drop position := by
  induction bytes generalizing position with
  | nil => cases h
  | cons byte rest ih =>
      unfold windowPosition at h
      split at h
      · rename_i hpattern
        cases h
        exact List.isPrefixOf_iff_prefix.mp hpattern
      · rcases Option.map_eq_some_iff.mp h with ⟨before, hbefore, hnext⟩
        rw [← hnext]
        exact ih hbefore

/-- The bytes of the pattern stand where it was found. -/
theorem windowPosition_getElem?
    (h : windowPosition pattern bytes = some position) {index : Nat}
    (hindex : index < pattern.length) :
    bytes[position + index]? = pattern[index]? := by
  rcases windowPosition_found h with ⟨rest, hrest⟩
  rw [← List.getElem?_drop, ← hrest, List.getElem?_append_left hindex]

theorem windowPosition_within
    (h : windowPosition pattern bytes = some position)
    (hpattern : pattern ≠ []) :
    position + pattern.length ≤ bytes.length := by
  have hlength := (windowPosition_found h).length_le
  have hpositive := List.length_pos_iff.mpr hpattern
  rw [List.length_drop] at hlength
  omega

theorem windowPosition_append
    (h : windowPosition pattern bytes = some position) :
    windowPosition pattern (bytes ++ more) = some position := by
  induction bytes generalizing position with
  | nil => cases h
  | cons byte rest ih =>
      rw [List.cons_append]
      unfold windowPosition at h ⊢
      split at h
      · rename_i hpattern
        have hlonger : pattern.isPrefixOf (byte :: (rest ++ more)) = true := by
          apply List.isPrefixOf_iff_prefix.mpr
          exact (List.isPrefixOf_iff_prefix.mp hpattern).trans
            (List.prefix_append (byte :: rest) more)
        rw [if_pos hlonger]
        exact h
      · rename_i hpattern
        rcases Option.map_eq_some_iff.mp h with ⟨before, hbefore, hnext⟩
        have hlonger :
            ¬pattern.isPrefixOf (byte :: (rest ++ more)) = true := by
          intro hfound
          apply hpattern
          have hwithin : pattern.length ≤ (byte :: rest).length := by
            have hlength := (windowPosition_found hbefore).length_le
            rw [List.length_drop] at hlength
            rw [List.length_cons]
            omega
          apply List.isPrefixOf_iff_prefix.mpr
          exact List.prefix_of_prefix_length_le
            (List.isPrefixOf_iff_prefix.mp hfound)
            (List.prefix_append (byte :: rest) more) hwithin
        rw [if_neg hlonger, ih hbefore]
        exact congrArg some hnext

/-- What is first found with more bytes reaches into them. -/
theorem windowPosition_later (hpattern : pattern ≠ [])
    (hnone : windowPosition pattern bytes = none)
    (h : windowPosition pattern (bytes ++ more) = some position) :
    bytes.length < position + pattern.length := by
  induction bytes generalizing position with
  | nil =>
      exact Nat.lt_of_lt_of_le (List.length_pos_iff.mpr hpattern)
        (Nat.le_add_left _ _)
  | cons byte rest ih =>
      rw [List.cons_append] at h
      unfold windowPosition at hnone h
      split at hnone
      · cases hnone
      · rename_i habsent
        have hrest := Option.map_eq_none_iff.mp hnone
        split at h
        · rename_i hfound
          cases h
          rw [Nat.zero_add]
          apply Nat.lt_of_not_le
          intro hwithin
          apply habsent
          apply List.isPrefixOf_iff_prefix.mpr
          exact List.prefix_of_prefix_length_le
            (List.isPrefixOf_iff_prefix.mp hfound)
            (List.prefix_append (byte :: rest) more) hwithin
        · rcases Option.map_eq_some_iff.mp h with ⟨before, hbefore, hnext⟩
          have hlater := ih hrest hbefore
          rw [List.length_cons]
          omega

end Windows

section Cuts

variable {bytes more : Bytes} {position length : Nat}

theorem crlfDelimiter_ne_nil : crlfDelimiter ≠ [] :=
  List.cons_ne_nil _ _

theorem lfDelimiter_ne_nil : lfDelimiter ≠ [] :=
  List.cons_ne_nil _ _

/-- An empty line that ends with a line feed alone is not ended by bytes that
come later in another way. -/
theorem crlf_after_lf {crlf lf : Nat}
    (hnone : windowPosition crlfDelimiter bytes = none)
    (hlf : windowPosition lfDelimiter bytes = some lf)
    (hcrlf : windowPosition crlfDelimiter (bytes ++ more) = some crlf) :
    lf < crlf := by
  have hlater := windowPosition_later crlfDelimiter_ne_nil hnone hcrlf
  have hwithin := windowPosition_within hlf lfDelimiter_ne_nil
  have hlf' : windowPosition lfDelimiter (bytes ++ more) = some lf :=
    windowPosition_append hlf
  have hlengths : crlfDelimiter.length = 4 ∧ lfDelimiter.length = 2 :=
    ⟨rfl, rfl⟩
  rw [hlengths.1] at hlater
  rw [hlengths.2] at hwithin
  apply Nat.lt_of_not_le
  intro hle
  -- The two would overlap, where one has a carriage return.
  have hcases : crlf = lf ∨ crlf + 1 = lf := by omega
  rcases hcases with hsame | hnext
  · have hfirst : (bytes ++ more)[crlf + 0]? = some 13 :=
      windowPosition_getElem? hcrlf (by decide)
    have hother : (bytes ++ more)[lf + 0]? = some 10 :=
      windowPosition_getElem? hlf' (by decide)
    rw [hsame, hother] at hfirst
    cases hfirst
  · have hthird : (bytes ++ more)[crlf + 2]? = some 13 :=
      windowPosition_getElem? hcrlf (by decide)
    have hother : (bytes ++ more)[lf + 1]? = some 10 :=
      windowPosition_getElem? hlf' (by decide)
    rw [← hnext] at hother
    rw [hother] at hthird
    cases hthird

theorem lf_after_crlf {crlf lf : Nat}
    (hcrlf : windowPosition crlfDelimiter bytes = some crlf)
    (hnone : windowPosition lfDelimiter bytes = none)
    (hlf : windowPosition lfDelimiter (bytes ++ more) = some lf) :
    crlf ≤ lf := by
  have hlater := windowPosition_later lfDelimiter_ne_nil hnone hlf
  have hwithin := windowPosition_within hcrlf crlfDelimiter_ne_nil
  have hlengths : crlfDelimiter.length = 4 ∧ lfDelimiter.length = 2 :=
    ⟨rfl, rfl⟩
  rw [hlengths.2] at hlater
  rw [hlengths.1] at hwithin
  omega

theorem findSseRecordEnd_within
    (h : findSseRecordEnd bytes = some (position, length)) :
    0 < length ∧ position + length ≤ bytes.length := by
  unfold findSseRecordEnd at h
  split at h
  · rename_i crlf lf hcrlf hlf
    split at h
    · cases h
      exact ⟨by decide, windowPosition_within hcrlf crlfDelimiter_ne_nil⟩
    · cases h
      exact ⟨by decide, windowPosition_within hlf lfDelimiter_ne_nil⟩
  · rename_i crlf hcrlf _
    cases h
    exact ⟨by decide, windowPosition_within hcrlf crlfDelimiter_ne_nil⟩
  · rename_i lf _ hlf
    cases h
    exact ⟨by decide, windowPosition_within hlf lfDelimiter_ne_nil⟩
  · cases h

/-- The end of the first record does not move when more bytes come. -/
theorem findSseRecordEnd_append
    (h : findSseRecordEnd bytes = some (position, length)) :
    findSseRecordEnd (bytes ++ more) = some (position, length) := by
  unfold findSseRecordEnd at h ⊢
  split at h
  · rename_i crlf lf hcrlf hlf
    rw [windowPosition_append hcrlf, windowPosition_append hlf]
    exact h
  · rename_i crlf hcrlf hnone
    rw [windowPosition_append hcrlf]
    cases hlf : windowPosition lfDelimiter (bytes ++ more) with
    | none => exact h
    | some lf =>
        simp only
        rw [if_pos (lf_after_crlf hcrlf hnone hlf)]
        exact h
  · rename_i lf hnone hlf
    rw [windowPosition_append hlf]
    cases hcrlf : windowPosition crlfDelimiter (bytes ++ more) with
    | none => exact h
    | some crlf =>
        simp only
        rw [if_neg (Nat.not_le_of_lt (crlf_after_lf hnone hlf hcrlf))]
        exact h
  · cases h

theorem cutSseRecord_cuts : CutsRecords cutSseRecord where
  shorter := by
    intro bytes record rest h
    rcases Option.map_eq_some_iff.mp h with ⟨⟨position, length⟩, hend, hcut⟩
    have hwithin := findSseRecordEnd_within hend
    have hrest : bytes.drop (position + length) = rest :=
      congrArg Prod.snd hcut
    rw [← hrest, List.length_drop]
    omega
  stable := by
    intro bytes record rest h more
    rcases Option.map_eq_some_iff.mp h with ⟨⟨position, length⟩, hend, hcut⟩
    have hwithin := findSseRecordEnd_within hend
    cases hcut
    unfold cutSseRecord
    rw [findSseRecordEnd_append hend]
    have hposition : position ≤ bytes.length :=
      Nat.le_trans (Nat.le_add_right _ _) hwithin.2
    show some (_, _) = _
    rw [List.take_append_of_le_length hposition,
      List.drop_append_of_le_length hwithin.2]

end Cuts

namespace EventReader

/-- Where the chunks of a stream end makes no difference to the hint that is
read or to the error. -/
theorem waitForSyncHint_chunks (reader : EventReader) (chunks : List Bytes)
    (failure : Option Text) :
    reader.waitForSyncHint chunks failure =
      reader.waitForSyncHint [chunks.flatten] failure := by
  unfold waitForSyncHint
  rw [readChunks_flatten cutSseRecord_cuts, readChunks_flatten cutSseRecord_cuts]
  rw [List.flatten_cons, List.flatten_nil, List.append_nil]

end EventReader

/-!
## What is read
-/

/-- The text has no empty line, and none begins where it ends. -/
def OneRecord (text : Text) : Prop :=
  findSseRecordEnd (utf8 text ++ lfDelimiter) = some ((utf8 text).length, 2)

theorem OneRecord.cut {text : Text} (h : OneRecord text) (more : Bytes) :
    cutSseRecord (utf8 text ++ lfDelimiter ++ more) =
      some (utf8 text, more) := by
  have hlength :
      (utf8 text ++ lfDelimiter).length = (utf8 text).length + 2 :=
    List.length_append
  unfold cutSseRecord
  rw [findSseRecordEnd_append h]
  show some (_, _) = _
  rw [List.append_assoc, List.take_left, ← List.append_assoc,
    ← hlength, List.drop_left]

/-- A record on the wire. -/
def sseRecord (text : Text) : Bytes :=
  utf8 text ++ lfDelimiter

namespace EventReader

/-- After any number of records without data a hint is read from the record
that has it, whatever follows. -/
theorem takeRecords_sent {reader : EventReader} {silent : List Text}
    {text : Text} {hint : SyncHint} (more : Bytes)
    (hsilent : forall other, other ∈ silent ->
      OneRecord other ∧ recordData other = [])
    (htext : OneRecord text) (hdata : recordData text ≠ [])
    (hhint : reader.fromStr (recordData text) = .ok hint) :
    takeRecords cutSseRecord reader.readRecord
        (silent.flatMap sseRecord ++ (sseRecord text ++ more)) = .inl (.ok hint) := by
  induction silent with
  | nil =>
      rw [List.flatMap_nil, List.nil_append]
      apply takeRecords_answer cutSseRecord_cuts (htext.cut more)
      unfold readRecord
      rw [fromUtf8_utf8]
      simp only [if_neg hdata, hhint]
  | cons other rest ih =>
      rcases hsilent other List.mem_cons_self with ⟨hother, hnone⟩
      rw [List.flatMap_cons, List.append_assoc]
      have hskipped : reader.readRecord (utf8 other) = none := by
        unfold readRecord
        rw [fromUtf8_utf8]
        simp only [if_pos hnone]
      rw [show sseRecord other = utf8 other ++ lfDelimiter from rfl,
        takeRecords_skip cutSseRecord_cuts (hother.cut _) hskipped]
      exact ih fun later hlater =>
        hsilent later (List.mem_cons_of_mem _ hlater)

end EventReader

namespace Sample

def keepAlive : Text :=
  ": keepalive".toList

def hintRecord : Text :=
  "event: sync\ndata: all".toList

def eventReader : EventReader where
  utf8Error := fun _ => []
  fromStr := fun text =>
    if text = "all".toList then .ok .resyncAll else .error []

/-- Two chunks, cut within the record of the hint. -/
def eventChunks : List Bytes :=
  [sseRecord keepAlive ++ (sseRecord hintRecord).take 20,
    (sseRecord hintRecord).drop 20 ++ utf8 "data".toList]

end Sample

end Denju
