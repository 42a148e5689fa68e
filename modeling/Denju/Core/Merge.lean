import Denju.Core.ContentAddressing
import Denju.Lib.Union
import Mathlib.Data.List.Dedup
import Mathlib.Data.List.Pairwise

/-!
# Three-way merge of skill trees

Two heads that share a base are merged path by path; two edited versions of one
text file are merged line by line when their changed regions do not overlap.
The result does not depend on the order of the heads, so every device computes
the same tree and the same two-parent revision.
-/

namespace Denju

open Lib

inductive MergeConflictKind where
  | addAdd
  | deleteModify
  | typeOrMetadata
  | binaryContent
  | textOverlap
deriving DecidableEq, Repr

structure MergeConflict where
  path : Text
  kind : MergeConflictKind
deriving DecidableEq, Repr

inductive SkillMergeResult where
  | clean (entries : List OwnedSkillEntry)
  | conflicted (conflicts : List MergeConflict)
deriving DecidableEq, Repr

/-!
## Text edits
-/

/-- Base lines from `start` up to `stop` are replaced. -/
structure TextEdit where
  start : Nat
  stop : Nat
  replacement : List Text
deriving DecidableEq, Repr

def lines (value : Text) : List Text :=
  splitInclusive '\n' value

/-- Append an edit, or extend the last one that it touches. -/
def pushEdit (edits : List TextEdit) (edit : TextEdit) : List TextEdit :=
  match edits.getLast? with
  | some last =>
      if last.stop = edit.start then
        edits.dropLast ++
          [ { last with
              stop := edit.stop
              replacement := last.replacement ++ edit.replacement } ]
      else
        edits ++ [edit]
  | none => [edit]

/-- One pass of the loop over the operations of the diff. -/
def addOperation (variant : List Text) (edits : List TextEdit) (op : DiffOp) :
    List TextEdit :=
  if op.tag = .equal then
    edits
  else
    pushEdit edits
      { start := op.oldStart
        stop := op.oldEnd
        replacement := (variant.take op.newEnd).drop op.newStart }

def editsOverlap (a b : TextEdit) : Bool :=
  match a.start == a.stop, b.start == b.stop with
  | true, true => a.start == b.start
  | true, false => a.start ≥ b.start && a.start < b.stop
  | false, true => b.start ≥ a.start && b.start < a.stop
  | false, false => a.start < b.stop && b.start < a.stop

def TextEdit.key (edit : TextEdit) : Nat ×ₗ (Nat ×ₗ List Bytes) :=
  toLex (edit.start, toLex (edit.stop, edit.replacement.map utf8))

/-- Rewrite the base from the cursor on. -/
def applyEdits (baseLines : List Text) : Nat -> List TextEdit -> Option Text
  | cursor, [] => some (baseLines.drop cursor).flatten
  | cursor, edit :: rest =>
      if edit.start < cursor then
        none
      else do
        let tail <- applyEdits baseLines edit.stop rest
        return ((baseLines.take edit.start).drop cursor).flatten ++
          edit.replacement.flatten ++ tail

variable (ext : Externals)

def textEdits (base variant : List Text) : List TextEdit :=
  (ext.diffOps base variant).foldl (addOperation variant) []

def mergeText (base a b : Text) : Option Bytes := do
  let baseLines := lines base
  let aEdits := textEdits ext baseLines (lines a)
  let bEdits := textEdits ext baseLines (lines b)
  let edits <- absorb editsOverlap aEdits bEdits
  let output <- applyEdits baseLines 0 (sortByKey TextEdit.key edits)
  return utf8 output

/-!
## Files and paths
-/

def mergeFileBytes (base a b : Bytes) : Except MergeConflictKind Bytes :=
  if a = b then
    .ok a
  else if a = base then
    .ok b
  else if b = base then
    .ok a
  else do
    let base <- okOr (fromUtf8 base) .binaryContent
    let a <- okOr (fromUtf8 a) .binaryContent
    let b <- okOr (fromUtf8 b) .binaryContent
    okOr (mergeText ext base a b) .textOverlap

def mergeScalar {α : Type} [DecidableEq α] (base a b : α) : Option α :=
  if a = b then
    some a
  else if a = base then
    some b
  else if b = base then
    some a
  else
    none

def mergeChangedPath (base a b : Option OwnedSkillEntry) :
    Except MergeConflictKind (Option OwnedSkillEntry) :=
  match base, a, b with
  | some base, some a, some b =>
      match base, a, b with
      | .file path baseBytes baseExecutable, .file _ aBytes aExecutable,
          .file _ bBytes bExecutable => do
          let executable <-
            okOr (mergeScalar baseExecutable aExecutable bExecutable)
              .typeOrMetadata
          let bytes <- mergeFileBytes ext baseBytes aBytes bBytes
          return some (.file path bytes executable)
      | _, _, _ => .error .typeOrMetadata
  | none, _, _ => .error .addAdd
  | some _, _, _ => .error .deleteModify

/-- The last entry with the path, as collecting into a map keeps it. -/
def byPath (entries : List OwnedSkillEntry) (path : Text) :
    Option OwnedSkillEntry :=
  entries.reverse.find? fun entry => entry.path = path

/-- What becomes of one path: an entry, nothing, or a conflict. -/
def mergePath (resolvedHeadAPaths : List Text) (path : Text)
    (base a b : Option OwnedSkillEntry) :
    Except MergeConflictKind (Option OwnedSkillEntry) :=
  if a = b then
    .ok a
  else if a = base then
    .ok b
  else if b = base then
    .ok a
  else
    match mergeChangedPath ext base a b with
    | .ok entry => .ok entry
    | .error kind =>
        if path ∈ resolvedHeadAPaths then .ok a else .error kind

/-- Collect the outcome of one path. -/
def collectPath
    (outcome : Text -> Except MergeConflictKind (Option OwnedSkillEntry))
    (collected : List OwnedSkillEntry × List MergeConflict) (path : Text) :
    List OwnedSkillEntry × List MergeConflict :=
  match outcome path with
  | .ok (some entry) => (collected.1 ++ [entry], collected.2)
  | .ok none => collected
  | .error kind => (collected.1, collected.2 ++ [{ path, kind }])

/-- The paths of the three trees, each once, in byte order. -/
def mergedPaths (base headA headB : List OwnedSkillEntry) : List Text :=
  sortByKey utf8 ((base ++ headA ++ headB).map SkillEntry.path).dedup

def mergeSkillEntriesWithResolutions
    (base headA headB : List OwnedSkillEntry)
    (resolvedHeadAPaths : List Text) : SkillMergeResult :=
  let outcome := fun path =>
    mergePath ext resolvedHeadAPaths path (byPath base path)
      (byPath headA path) (byPath headB path)
  let collected :=
    (mergedPaths base headA headB).foldl (collectPath outcome) ([], [])
  if collected.2.isEmpty then
    .clean (sortByKey SkillEntry.key collected.1)
  else
    .conflicted collected.2

def mergeSkillEntries (base headA headB : List OwnedSkillEntry) :
    SkillMergeResult :=
  mergeSkillEntriesWithResolutions ext base headA headB []

/-!
## The edits of one side

The operations of a diff run through both lists from the front to the back.
Coalescing neighbours leaves a gap of base lines between two edits of one side,
so an edit never overlaps another edit of its own side.
-/

/-- The operations cover both lists from the given positions on. -/
def Covers (base variant : List Text) : Nat -> Nat -> List DiffOp -> Prop
  | old, new, [] => old = base.length ∧ new = variant.length
  | old, new, op :: rest =>
      op.oldStart = old ∧ op.newStart = new ∧
        old ≤ op.oldEnd ∧ new ≤ op.newEnd ∧
          (op.tag = .equal ->
            (base.take op.oldEnd).drop op.oldStart =
              (variant.take op.newEnd).drop op.newStart) ∧
            Covers base variant op.oldEnd op.newEnd rest

/-- The diff partitions both lists, and equal operations cover equal lines. -/
def DiffPartitions : Prop :=
  forall base variant, Covers base variant 0 0 (ext.diffOps base variant)

/-- Edits in order, with at least one base line between two of them. -/
structure Separated (edits : List TextEdit) : Prop where
  ordered : forall edit, edit ∈ edits -> edit.start ≤ edit.stop
  apart : edits.Pairwise fun a b => a.stop < b.start

theorem separated_pushEdit {edits : List TextEdit} {edit : TextEdit}
    (hedits : Separated edits) (hedit : edit.start ≤ edit.stop)
    (hbound : forall e, e ∈ edits -> e.stop ≤ edit.start) :
    Separated (pushEdit edits edit) ∧
      forall e, e ∈ pushEdit edits edit -> e.stop ≤ edit.stop := by
  rcases List.eq_nil_or_concat' edits with rfl | ⟨init, last, rfl⟩
  · refine ⟨⟨?_, ?_⟩, ?_⟩
    · intro e he
      cases List.mem_singleton.mp he
      exact hedit
    · exact List.pairwise_singleton _ _
    · intro e he
      cases List.mem_singleton.mp he
      exact le_refl _
  · have hlast := hbound last (by simp)
    have hlastOrdered := hedits.ordered last (by simp)
    have hparts := List.pairwise_append.mp hedits.apart
    have hinit : forall e, e ∈ init -> e.stop < last.start :=
      fun e he => hparts.2.2 e he last (by simp)
    have hinitOrdered : forall e, e ∈ init -> e.start ≤ e.stop :=
      fun e he => hedits.ordered e (by simp [he])
    unfold pushEdit
    simp only [List.getLast?_concat, List.dropLast_concat]
    split
    · refine ⟨⟨?_, ?_⟩, ?_⟩
      · intro e he
        rcases List.mem_append.mp he with he | he
        · exact hinitOrdered e he
        · cases List.mem_singleton.mp he
          change last.start ≤ edit.stop
          omega
      · refine List.pairwise_append.mpr
          ⟨hparts.1, List.pairwise_singleton _ _, ?_⟩
        intro e he other hother
        cases List.mem_singleton.mp hother
        exact hinit e he
      · intro e he
        rcases List.mem_append.mp he with he | he
        · have hgap := hinit e he
          omega
        · cases List.mem_singleton.mp he
          exact le_refl _
    · rename_i hne
      refine ⟨⟨?_, ?_⟩, ?_⟩
      · intro e he
        rcases List.mem_append.mp he with he | he
        · exact hedits.ordered e he
        · cases List.mem_singleton.mp he
          exact hedit
      · refine List.pairwise_append.mpr
          ⟨hedits.apart, List.pairwise_singleton _ _, ?_⟩
        intro e he other hother
        cases List.mem_singleton.mp hother
        rcases List.mem_append.mp he with he | he
        · have hgap := hinit e he
          omega
        · cases List.mem_singleton.mp he
          omega
      · intro e he
        rcases List.mem_append.mp he with he | he
        · have hgap := hbound e he
          omega
        · cases List.mem_singleton.mp he
          exact le_refl _

theorem separated_foldl {base variant : List Text} {ops : List DiffOp}
    {old new : Nat} {edits : List TextEdit}
    (hcovers : Covers base variant old new ops)
    (hedits : Separated edits)
    (hbound : forall e, e ∈ edits -> e.stop ≤ old) :
    Separated (ops.foldl (addOperation variant) edits) := by
  induction ops generalizing old new edits with
  | nil => exact hedits
  | cons op rest ih =>
      rcases hcovers with ⟨hstart, _, hold, _, _, hrest⟩
      rw [List.foldl_cons]
      by_cases hequal : op.tag = .equal
      · rw [addOperation, if_pos hequal]
        apply ih hrest hedits
        intro e he
        exact le_trans (hbound e he) hold
      · rw [addOperation, if_neg hequal]
        have hordered : op.oldStart ≤ op.oldEnd := by
          rw [hstart]
          exact hold
        have hbefore : forall e, e ∈ edits -> e.stop ≤ op.oldStart := by
          rw [hstart]
          exact hbound
        have hpush := @separated_pushEdit edits
          { start := op.oldStart
            stop := op.oldEnd
            replacement := (variant.take op.newEnd).drop op.newStart }
          hedits hordered hbefore
        exact ih hrest hpush.1 hpush.2

variable {ext}

theorem separated_textEdits (hdiff : DiffPartitions ext)
    (base variant : List Text) : Separated (textEdits ext base variant) := by
  apply separated_foldl (hdiff base variant)
  · refine ⟨?_, List.Pairwise.nil⟩
    intro e he
    cases he
  · intro e he
    cases he

theorem editsOverlap_comm (a b : TextEdit) :
    editsOverlap a b = editsOverlap b a := by
  unfold editsOverlap
  cases ha : a.start == a.stop with
  | true =>
      cases hb : b.start == b.stop with
      | true => simp [Bool.beq_comm]
      | false => rfl
  | false =>
      cases hb : b.start == b.stop with
      | true => rfl
      | false => simp [Bool.and_comm]

theorem editsOverlap_eq_false_of_lt {a b : TextEdit}
    (ha : a.start ≤ a.stop) (h : a.stop < b.start) :
    editsOverlap a b = false := by
  unfold editsOverlap
  split
  · simp
    omega
  · simp
    omega
  · simp
    omega
  · simp
    omega

theorem Separated.nodup {edits : List TextEdit} (h : Separated edits) :
    edits.Nodup := by
  apply List.Pairwise.imp_of_mem _ h.apart
  intro a b ha _ hlt heq
  have hordered := h.ordered a ha
  rw [← heq] at hlt
  omega

theorem Separated.compatible {edits : List TextEdit} (h : Separated edits) :
    Compatible editsOverlap edits := by
  intro a ha b hb hoverlap
  by_contra hne
  have hsymm : Std.Symm fun x y : TextEdit =>
      x.stop < y.start ∨ y.stop < x.start := ⟨fun x y => Or.symm⟩
  have hpairwise : edits.Pairwise fun x y =>
      x.stop < y.start ∨ y.stop < x.start := h.apart.imp Or.inl
  have hapart := hpairwise.forall ha hb hne
  rcases hapart with hlt | hlt
  · rw [editsOverlap_eq_false_of_lt (h.ordered a ha) hlt] at hoverlap
    cases hoverlap
  · rw [editsOverlap_comm, editsOverlap_eq_false_of_lt (h.ordered b hb) hlt]
      at hoverlap
    cases hoverlap

theorem TextEdit.key_injective : Function.Injective TextEdit.key := by
  intro a b h
  rcases a with ⟨startA, stopA, replacementA⟩
  rcases b with ⟨startB, stopB, replacementB⟩
  simp only [key, EmbeddingLike.apply_eq_iff_eq, Prod.mk.injEq] at h
  rcases h with ⟨rfl, rfl, hreplacement⟩
  have hlines : replacementA = replacementB :=
    List.map_injective_iff.mpr (fun x y => utf8_injective) hreplacement
  rw [hlines]

/-!
## Symmetry, from lines to trees
-/

theorem mergeText_eq (base a b : Text) :
    mergeText ext base a b =
      ((absorb editsOverlap (textEdits ext (lines base) (lines a))
        (textEdits ext (lines base) (lines b))).map
          (sortByKey TextEdit.key)).bind fun edits =>
            (applyEdits (lines base) 0 edits).map utf8 := by
  unfold mergeText
  dsimp only
  cases absorb editsOverlap (textEdits ext (lines base) (lines a))
      (textEdits ext (lines base) (lines b)) with
  | none => rfl
  | some edits =>
      change (applyEdits (lines base) 0 (sortByKey TextEdit.key edits)).bind _ =
        (applyEdits (lines base) 0 (sortByKey TextEdit.key edits)).map utf8
      cases applyEdits (lines base) 0 (sortByKey TextEdit.key edits) with
      | none => rfl
      | some output => rfl

theorem mergeText_comm (hdiff : DiffPartitions ext) (base a b : Text) :
    mergeText ext base a b = mergeText ext base b a := by
  have ha := separated_textEdits hdiff (lines base) (lines a)
  have hb := separated_textEdits hdiff (lines base) (lines b)
  rw [mergeText_eq, mergeText_eq,
    absorb_comm TextEdit.key_injective editsOverlap_comm ha.nodup hb.nodup
      ha.compatible hb.compatible]

theorem mergeFileBytes_comm (hdiff : DiffPartitions ext) (base a b : Bytes) :
    mergeFileBytes ext base a b = mergeFileBytes ext base b a := by
  unfold mergeFileBytes
  apply threeWay_comm
  cases fromUtf8 base with
  | none => rfl
  | some baseText =>
      cases fromUtf8 a with
      | none =>
          cases fromUtf8 b with
          | none => rfl
          | some bText => rfl
      | some aText =>
          cases fromUtf8 b with
          | none => rfl
          | some bText =>
              simp only [okOr, bind, Except.bind]
              rw [mergeText_comm hdiff baseText aText bText]

theorem mergeScalar_comm {α : Type} [DecidableEq α] (base a b : α) :
    mergeScalar base a b = mergeScalar base b a :=
  threeWay_comm some base a b rfl

theorem mergeChangedPath_comm (hdiff : DiffPartitions ext)
    (base a b : Option OwnedSkillEntry) :
    mergeChangedPath ext base a b = mergeChangedPath ext base b a := by
  cases base with
  | none => rfl
  | some base =>
      cases a with
      | none =>
          cases b with
          | none => rfl
          | some b => rfl
      | some a =>
          cases b with
          | none => rfl
          | some b =>
              cases base with
              | directory path => rfl
              | symlink path target => rfl
              | file path baseBytes baseExecutable =>
                  cases a with
                  | directory pathA =>
                      cases b with
                      | directory pathB => rfl
                      | symlink pathB targetB => rfl
                      | file pathB bytesB executableB => rfl
                  | symlink pathA targetA =>
                      cases b with
                      | directory pathB => rfl
                      | symlink pathB targetB => rfl
                      | file pathB bytesB executableB => rfl
                  | file pathA bytesA executableA =>
                      cases b with
                      | directory pathB => rfl
                      | symlink pathB targetB => rfl
                      | file pathB bytesB executableB =>
                          simp only [mergeChangedPath]
                          rw [mergeScalar_comm,
                            mergeFileBytes_comm hdiff baseBytes]

theorem mergePath_comm (hdiff : DiffPartitions ext) (path : Text)
    (base a b : Option OwnedSkillEntry) :
    mergePath ext [] path base a b = mergePath ext [] path base b a := by
  unfold mergePath
  apply threeWay_comm
  rw [mergeChangedPath_comm hdiff]
  cases mergeChangedPath ext base b a with
  | ok entry => rfl
  | error kind => rfl

theorem mergedPaths_comm (base headA headB : List OwnedSkillEntry) :
    mergedPaths base headA headB = mergedPaths base headB headA := by
  unfold mergedPaths
  apply sortByKey_eq_of_perm
  · intro a b _ _ hab
    exact utf8_injective hab
  · rw [List.perm_ext_iff_of_nodup (List.nodup_dedup _) (List.nodup_dedup _)]
    intro path
    simp only [List.mem_dedup, List.map_append, List.mem_append]
    tauto

theorem mergeSkillEntries_swap (hdiff : DiffPartitions ext)
    (base headA headB : List OwnedSkillEntry) :
    mergeSkillEntries ext base headA headB =
      mergeSkillEntries ext base headB headA := by
  have houtcome :
      (fun path => mergePath ext [] path (byPath base path)
        (byPath headA path) (byPath headB path)) =
      fun path => mergePath ext [] path (byPath base path)
        (byPath headB path) (byPath headA path) := by
    funext path
    exact mergePath_comm hdiff path _ _ _
  unfold mergeSkillEntries mergeSkillEntriesWithResolutions
  rw [houtcome, mergedPaths_comm]

/--
Both devices compute the same merge, and from a clean one the same two-parent
revision.
-/
theorem mergeSkillEntries_symmetric
    (hdiff : DiffPartitions ext)
    (base headA headB : List OwnedSkillEntry) :
    mergeSkillEntries ext base headA headB =
        mergeSkillEntries ext base headB headA ∧
      forall entriesA entriesB name manifestA manifestB parentA parentB
        author operation,
        mergeSkillEntries ext base headA headB = .clean entriesA ->
        mergeSkillEntries ext base headB headA = .clean entriesB ->
        buildSkillManifest ext name entriesA = .ok manifestA ->
        buildSkillManifest ext name entriesB = .ok manifestB ->
          (Revision.new manifestA.rootTree [parentA, parentB] author
              operation).map (Revision.id ext) =
            (Revision.new manifestB.rootTree [parentB, parentA] author
              operation).map (Revision.id ext) := by
  have hswap := mergeSkillEntries_swap hdiff base headA headB
  refine ⟨hswap, ?_⟩
  intro entriesA entriesB name manifestA manifestB parentA parentB author
    operation hA hB hmanifestA hmanifestB
  rw [hswap, hB] at hA
  cases hA
  rw [hmanifestB] at hmanifestA
  cases hmanifestA
  rw [Revision.new_perm (List.Perm.swap parentB parentA [])]

/-- A diff that replaces everything unless nothing changed. -/
def Sample.wholeDiff (base variant : List Text) : List DiffOp :=
  if base = variant then
    if base = [] then [] else [⟨.equal, 0, base.length, 0, base.length⟩]
  else
    [⟨.replace, 0, base.length, 0, variant.length⟩]

def Sample.mergeExternals : Externals :=
  { Sample.externals with diffOps := Sample.wholeDiff }

theorem Sample.diffPartitions : DiffPartitions Sample.mergeExternals := by
  intro base variant
  change Covers base variant 0 0 (Sample.wholeDiff base variant)
  unfold Sample.wholeDiff
  split
  · rename_i hsame
    subst hsame
    split
    · rename_i hempty
      simp [Covers, hempty]
    · simp [Covers]
  · simp [Covers]

def Sample.authorUuid : Vector UInt8 16 :=
  #v[0x01, 0x89, 0x0f, 0x47, 0x6a, 0x1c, 0x7c, 0xc2, 0x98, 0xc1, 0x5f, 0x6c,
    0x1e, 0xd8, 0xa3, 0xa1]

theorem Sample.authorUuid_version : Sample.authorUuid.get 6 >>> 4 = 7 := by
  decide

def Sample.author : AuthorPrincipalId :=
  ⟨⟨Sample.authorUuid, Sample.authorUuid_version⟩⟩

def Sample.operationUuid : Vector UInt8 16 :=
  #v[0x01, 0x89, 0x0f, 0x47, 0x6a, 0x1d, 0x7a, 0xd0, 0x8f, 0x43, 0x9a, 0x4d,
    0x8c, 0x29, 0xf0, 0x02]

theorem Sample.operationUuid_version :
    Sample.operationUuid.get 6 >>> 4 = 7 := by
  decide

def Sample.operation : OperationId :=
  ⟨⟨Sample.operationUuid, Sample.operationUuid_version⟩⟩

/-- One side keeps the sample, the other one changes its link. -/
theorem Sample.merge_symmetric :
    mergeSkillEntries Sample.mergeExternals (Sample.entries "bin/run")
        (Sample.entries "bin/run") (Sample.entries "bin/./run") =
      mergeSkillEntries Sample.mergeExternals (Sample.entries "bin/run")
        (Sample.entries "bin/./run") (Sample.entries "bin/run") ∧
    (Revision.new ⟨digestOfNat Sample.dottedRoot⟩
        [⟨digestOfNat 1⟩, ⟨digestOfNat 2⟩] Sample.author
          Sample.operation).map (Revision.id Sample.mergeExternals) =
      (Revision.new ⟨digestOfNat Sample.dottedRoot⟩
        [⟨digestOfNat 2⟩, ⟨digestOfNat 1⟩] Sample.author
          Sample.operation).map (Revision.id Sample.mergeExternals) := by
  have happly := mergeSkillEntries_symmetric Sample.diffPartitions
    (Sample.entries "bin/run") (Sample.entries "bin/run")
    (Sample.entries "bin/./run")
  refine ⟨happly.1, ?_⟩
  exact happly.2 (Sample.sortedEntries "bin/./run")
    (Sample.sortedEntries "bin/./run") Sample.name
    (Sample.manifest "bin/./run" Sample.dottedRoot)
    (Sample.manifest "bin/./run" Sample.dottedRoot)
    _ _ _ _ (by decide +kernel) (by decide +kernel) (by decide +kernel)
    (by decide +kernel)

end Denju
