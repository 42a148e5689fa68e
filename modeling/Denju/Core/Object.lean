import Denju.Core.PortablePath
import Denju.Lib.Framing

/-!
# Content-addressed objects

Blobs, trees and revisions are named by the SHA-256 digest of their bytes or of
a framed transcript.  The transcript of a tree determines its entries.
-/

namespace Denju

open Lib

/-!
## Identifiers
-/

structure BlobId where
  bytes : Digest
deriving DecidableEq, Repr

structure TreeId where
  bytes : Digest
deriving DecidableEq, Repr

structure RevisionId where
  bytes : Digest
deriving DecidableEq, Repr

/-- The sixteen bytes of a version 7 UUID. -/
structure UuidV7 where
  bytes : Vector UInt8 16
  version : bytes[6] >>> 4 = 7
deriving DecidableEq

structure AuthorPrincipalId where
  uuid : UuidV7
deriving DecidableEq

structure OperationId where
  uuid : UuidV7
deriving DecidableEq

variable (ext : Externals)

def BlobId.hash (bytes : Bytes) : BlobId :=
  ⟨ext.sha256 bytes⟩

def hexDigit (n : UInt8) : Char :=
  Char.ofNat (if n < 10 then n.toNat + 48 else n.toNat + 87)

def hex (bytes : Bytes) : Text :=
  bytes.flatMap fun (byte : UInt8) =>
    [hexDigit (byte >>> 4), hexDigit (byte &&& 15)]

/-!
## Trees
-/

inductive TreeError where
  | invalidName (source : PortablePathError)
  | nestedName
  | duplicateName (name : Text)
  | tooManyEntries
  | entryTooLarge
  | nameTooLarge
  | symlinkTargetTooLarge
deriving DecidableEq, Repr

inductive TreeEntryKind where
  | file (blob : BlobId) (executable : Bool)
  | directory (tree : TreeId)
  | symlink (target : Text)
deriving DecidableEq, Repr

/-- A direct child of a tree: its name is a portable path of one component. -/
@[ext]
structure TreeEntry where
  name : Text
  kind : TreeEntryKind
  valid : validatePortablePath ext name = .ok ()
  single : (name.splitOn '/').length = 1

variable {ext}

instance instDecidableEqTreeEntry : DecidableEq (TreeEntry ext) := fun _ _ =>
  decidable_of_iff _ TreeEntry.ext_iff.symm

def TreeEntry.new (name : Text) (kind : TreeEntryKind) :
    Except TreeError (TreeEntry ext) :=
  match (PortablePath.parse name : Except _ (PortablePath ext)) with
  | .error source => .error (.invalidName source)
  | .ok path =>
      if h : path.componentCount = 1 then
        .ok ⟨path.value, kind, path.valid, h⟩
      else
        .error .nestedName

theorem TreeEntry.new_eq_ok {name : Text} {kind : TreeEntryKind}
    {entry : TreeEntry ext} (h : TreeEntry.new name kind = .ok entry) :
    entry.name = name ∧ entry.kind = kind := by
  unfold TreeEntry.new at h
  split at h
  · cases h
  · rename_i path hparse
    split at h
    · cases h
      exact ⟨PortablePath.parse_eq_ok.mp hparse, rfl⟩
    · cases h

/-- A length that fits the 32-bit field, or the given error. -/
def u32TryFrom (n : Nat) (error : TreeError) : Except TreeError Nat :=
  if n < 2 ^ 32 then .ok n else .error error

@[simp] theorem u32TryFrom_eq_ok {n m : Nat} {error : TreeError} :
    u32TryFrom n error = .ok m <-> n < 2 ^ 32 ∧ n = m := by
  unfold u32TryFrom
  split
  · simp_all
  · simp_all

def encodeTreeEntry (entry : TreeEntry ext) : Except TreeError Bytes := do
  let name := utf8 entry.name
  let nameLen <- u32TryFrom name.length .nameTooLarge
  let encoded := u32BigEndian nameLen ++ name
  match entry.kind with
  | .file blob executable =>
      return encoded ++ [1, if executable then 1 else 0] ++ blob.bytes.toList
  | .directory tree =>
      return encoded ++ [2] ++ tree.bytes.toList
  | .symlink target =>
      let targetLen <- u32TryFrom (utf8 target).length .symlinkTargetTooLarge
      return encoded ++ [3] ++ u32BigEndian targetLen ++ utf8 target

/-- The first name that equals its successor, as `windows(2)` finds it. -/
def duplicateName : List (TreeEntry ext) -> Option Text
  | a :: b :: rest =>
      if a.name = b.name then some a.name else duplicateName (b :: rest)
  | _ => none

def treeDomain : Bytes :=
  utf8 "denju:tree:v1\x00".toList

/-- The framed payload of one entry of the transcript. -/
def encodeFramedEntry (entry : TreeEntry ext) : Except TreeError Bytes := do
  let payload <- encodeTreeEntry entry
  let payloadLen <- u32TryFrom payload.length .entryTooLarge
  return u32BigEndian payloadLen ++ payload

def TreeEntry.key (entry : TreeEntry ext) : Bytes :=
  utf8 entry.name

/-- Everything that the hasher of `TreeId.fromEntries` is fed. -/
def treeTranscript (entries : List (TreeEntry ext)) :
    Except TreeError Bytes := do
  let entries := sortByKey TreeEntry.key entries
  match duplicateName entries with
  | some name => .error (.duplicateName name)
  | none =>
      let entryCount <- u32TryFrom entries.length .tooManyEntries
      let payloads <- entries.mapM encodeFramedEntry
      return treeDomain ++ u32BigEndian entryCount ++ payloads.flatten

def TreeId.fromEntries (entries : List (TreeEntry ext)) :
    Except TreeError TreeId := do
  let transcript <- treeTranscript entries
  return ⟨ext.sha256 transcript⟩

/-!
## The tree transcript determines the entries
-/

/-- The bytes behind the name of an encoded entry. -/
def renderKind : TreeEntryKind -> Bytes
  | .file blob executable =>
      [1, if executable then 1 else 0] ++ blob.bytes.toList
  | .directory tree => [2] ++ tree.bytes.toList
  | .symlink target => [3] ++ lengthPrefixed (utf8 target)

theorem digest_toList_injective {a b : Digest} (h : a.toList = b.toList) :
    a = b := by
  exact Vector.toList_inj.mp h

theorem renderKind_injective {a b : TreeEntryKind}
    (ha : forall target, a = .symlink target -> (utf8 target).length < 2 ^ 32)
    (hb : forall target, b = .symlink target -> (utf8 target).length < 2 ^ 32)
    (h : renderKind a = renderKind b) : a = b := by
  cases a with
  | file blob executable =>
      cases b with
      | file blob' executable' =>
          simp only [renderKind, List.cons_append, List.nil_append,
            List.cons.injEq, true_and] at h
          rcases h with ⟨hflag, hblob⟩
          have hexecutable : executable = executable' := by
            revert hflag
            cases executable <;> cases executable' <;> decide
          have hbytes := digest_toList_injective hblob
          cases blob
          cases blob'
          simp_all
      | directory tree => simp [renderKind] at h
      | symlink target => simp [renderKind] at h
  | directory tree =>
      cases b with
      | file blob executable => simp [renderKind] at h
      | directory tree' =>
          simp only [renderKind, List.cons_append, List.nil_append,
            List.cons.injEq, true_and] at h
          have hbytes := digest_toList_injective h
          cases tree
          cases tree'
          simp_all
      | symlink target => simp [renderKind] at h
  | symlink target =>
      cases b with
      | file blob executable => simp [renderKind] at h
      | directory tree => simp [renderKind] at h
      | symlink target' =>
          simp only [renderKind, List.cons_append, List.nil_append,
            List.cons.injEq, true_and] at h
          have htext := prefixFreeOn_lengthPrefixed.injective
            (ha target rfl) (hb target' rfl) h
          rw [utf8_injective htext]

theorem encodeTreeEntry_eq_ok {entry : TreeEntry ext} {payload : Bytes}
    (h : encodeTreeEntry entry = .ok payload) :
    (utf8 entry.name).length < 2 ^ 32 ∧
      (forall target, entry.kind = .symlink target ->
        (utf8 target).length < 2 ^ 32) ∧
      payload = lengthPrefixed (utf8 entry.name) ++ renderKind entry.kind := by
  unfold encodeTreeEntry at h
  rcases bind_eq_ok.mp h with ⟨nameLen, hname, h⟩
  rcases u32TryFrom_eq_ok.mp hname with ⟨hnameBound, rfl⟩
  refine ⟨hnameBound, ?_⟩
  cases hkind : entry.kind with
  | file blob executable =>
      simp only [hkind, pure, Except.pure, Except.ok.injEq] at h
      simp [renderKind, lengthPrefixed, ← h]
  | directory tree =>
      simp only [hkind, pure, Except.pure, Except.ok.injEq] at h
      simp [renderKind, lengthPrefixed, ← h]
  | symlink target =>
      simp only [hkind] at h
      rcases bind_eq_ok.mp h with ⟨targetLen, htarget, h⟩
      rcases u32TryFrom_eq_ok.mp htarget with ⟨htargetBound, rfl⟩
      simp only [pure, Except.pure, Except.ok.injEq] at h
      constructor
      · intro other hother
        cases hother
        exact htargetBound
      · simp [renderKind, lengthPrefixed, ← h]

theorem encodeTreeEntry_injective {a b : TreeEntry ext} {payload : Bytes}
    (ha : encodeTreeEntry a = .ok payload)
    (hb : encodeTreeEntry b = .ok payload) : a = b := by
  rcases encodeTreeEntry_eq_ok ha with ⟨haName, haTarget, haPayload⟩
  rcases encodeTreeEntry_eq_ok hb with ⟨hbName, hbTarget, hbPayload⟩
  rw [haPayload] at hbPayload
  rcases prefixFreeOn_lengthPrefixed _ _ _ _ haName hbName hbPayload with
    ⟨hname, hkind⟩
  apply TreeEntry.ext
  · exact utf8_injective hname
  · exact renderKind_injective haTarget hbTarget hkind

/-- The payload of an entry that has one. -/
def entryPayload (entry : TreeEntry ext) : Bytes :=
  lengthPrefixed (utf8 entry.name) ++ renderKind entry.kind

theorem encodeFramedEntry_eq_ok {entry : TreeEntry ext} {framed : Bytes}
    (h : encodeFramedEntry entry = .ok framed) :
    encodeTreeEntry entry = .ok (entryPayload entry) ∧
      (entryPayload entry).length < 2 ^ 32 ∧
        framed = lengthPrefixed (entryPayload entry) := by
  rcases bind_eq_ok.mp h with ⟨payload, hpayload, h⟩
  rcases bind_eq_ok.mp h with ⟨payloadLen, hlength, h⟩
  rcases u32TryFrom_eq_ok.mp hlength with ⟨hbound, rfl⟩
  have hrender := (encodeTreeEntry_eq_ok hpayload).2.2
  cases h
  subst hrender
  exact ⟨hpayload, hbound, rfl⟩

theorem treeTranscript_eq_ok
    {entries : List (TreeEntry ext)} {transcript : Bytes}
    (h : treeTranscript entries = .ok transcript) :
    entries.length < 2 ^ 32 ∧
      (forall entry, entry ∈ sortByKey TreeEntry.key entries ->
        encodeTreeEntry entry = .ok (entryPayload entry) ∧
          (entryPayload entry).length < 2 ^ 32) ∧
      transcript = treeDomain ++ u32BigEndian entries.length ++
        ((sortByKey TreeEntry.key entries).map entryPayload).flatMap
          lengthPrefixed := by
  unfold treeTranscript at h
  dsimp only at h
  split at h
  · cases h
  · rcases bind_eq_ok.mp h with ⟨entryCount, hcount, h⟩
    rcases u32TryFrom_eq_ok.mp hcount with ⟨hbound, rfl⟩
    rcases bind_eq_ok.mp h with ⟨payloads, hpayloads, h⟩
    have hlength : (sortByKey TreeEntry.key entries).length =
        entries.length :=
      (sortByKey_perm _ entries).length_eq
    have hmap := mapM_eq_ok_iff_map
      (g := fun entry => lengthPrefixed (entryPayload entry))
      (fun entry _ framed hframed => (encodeFramedEntry_eq_ok hframed).2.2)
      hpayloads
    rw [hlength] at hbound
    refine ⟨hbound, ?_, ?_⟩
    · intro entry hmem
      rcases mapM_eq_ok_forall hpayloads entry hmem with ⟨framed, _, hframed⟩
      have hentry := encodeFramedEntry_eq_ok hframed
      exact ⟨hentry.1, hentry.2.1⟩
    · simp only [pure, Except.pure, Except.ok.injEq] at h
      rw [← h, hlength, hmap]
      simp [List.flatMap_def]
      rfl

theorem treeTranscript_injective
    {a b : List (TreeEntry ext)} {transcript : Bytes}
    (ha : treeTranscript a = .ok transcript)
    (hb : treeTranscript b = .ok transcript) :
    sortByKey TreeEntry.key a = sortByKey TreeEntry.key b := by
  rcases treeTranscript_eq_ok ha with ⟨haCount, haEntries, haBytes⟩
  rcases treeTranscript_eq_ok hb with ⟨hbCount, hbEntries, hbBytes⟩
  rw [haBytes, List.append_assoc, List.append_assoc] at hbBytes
  have hbody := List.append_cancel_left hbBytes
  rcases prefixFreeOn_u32BigEndian _ _ _ _ haCount hbCount hbody with
    ⟨hcount, hflat⟩
  have hpayloads : (sortByKey TreeEntry.key a).map entryPayload =
      (sortByKey TreeEntry.key b).map entryPayload := by
    apply prefixFreeOn_lengthPrefixed.flatMap_injective
    · intro payload hmem
      rcases List.mem_map.mp hmem with ⟨entry, hentry, rfl⟩
      exact (haEntries entry hentry).2
    · intro payload hmem
      rcases List.mem_map.mp hmem with ⟨entry, hentry, rfl⟩
      exact (hbEntries entry hentry).2
    · simp [(sortByKey_perm _ a).length_eq, (sortByKey_perm _ b).length_eq,
        hcount]
    · exact hflat
  have hinj : forall x, x ∈ sortByKey TreeEntry.key a ->
      forall y, y ∈ sortByKey TreeEntry.key b ->
        entryPayload x = entryPayload y -> x = y := by
    intro x hx y hy hxy
    apply encodeTreeEntry_injective (haEntries x hx).1
    rw [hxy]
    exact (hbEntries y hy).1
  exact eq_of_map_eq_map hinj hpayloads

/-!
## Revisions
-/

inductive RevisionError where
  | tooManyParents
  | duplicateParent
deriving DecidableEq, Repr

def RevisionId.key (id : RevisionId) : Bytes :=
  id.bytes.toList

theorem RevisionId.key_injective {a b : RevisionId} (h : a.key = b.key) :
    a = b := by
  have hbytes := digest_toList_injective h
  cases a
  cases b
  simp_all

/-- A revision names at most two distinct parents, in the order of their bytes. -/
@[ext]
structure Revision where
  root : TreeId
  parents : List RevisionId
  author : AuthorPrincipalId
  operation : OperationId
  atMostTwo : parents.length ≤ 2
  sorted : parents.Pairwise (keyLe RevisionId.key)
  distinct : parents.Nodup
deriving DecidableEq

theorem nodup_of_neighbours_ne {parents : List RevisionId}
    (hlength : parents.length ≤ 2)
    (hne : ¬ (parents.zip parents.tail).any (fun pair => pair.1 == pair.2)) :
    parents.Nodup := by
  match parents, hlength with
  | [], _ => exact List.nodup_nil
  | [_], _ => simp
  | [a, b], _ => simpa using hne

def Revision.new (root : TreeId) (parents : List RevisionId)
    (author : AuthorPrincipalId) (operation : OperationId) :
    Except RevisionError Revision :=
  if hlength : parents.length > 2 then
    .error .tooManyParents
  else
    let sorted := sortByKey RevisionId.key parents
    if hdup : (sorted.zip sorted.tail).any (fun pair => pair.1 == pair.2) then
      .error .duplicateParent
    else
      have hbound : sorted.length ≤ 2 := by
        rw [(sortByKey_perm _ parents).length_eq]
        omega
      .ok
        { root, parents := sorted, author, operation
          atMostTwo := hbound
          sorted := sortByKey_pairwise _ parents
          distinct := nodup_of_neighbours_ne hbound hdup }

theorem Revision.new_eq_ok {root : TreeId} {parents : List RevisionId}
    {author : AuthorPrincipalId} {operation : OperationId}
    {revision : Revision}
    (h : Revision.new root parents author operation = .ok revision) :
    revision.root = root ∧
      revision.parents = sortByKey RevisionId.key parents ∧
        revision.author = author ∧ revision.operation = operation := by
  unfold Revision.new at h
  split at h
  · cases h
  · dsimp only at h
    split at h
    · cases h
    · cases h
      exact ⟨rfl, rfl, rfl, rfl⟩

def revisionDomain : Bytes :=
  utf8 "denju:revision:v1\x00".toList

variable (ext) in
def Revision.id (revision : Revision) : RevisionId :=
  ⟨ext.sha256
    (revisionDomain ++ revision.root.bytes.toList ++
      u32BigEndian revision.parents.length ++
      (revision.parents.flatMap fun parent => parent.bytes.toList) ++
      revision.author.uuid.bytes.toList ++
      revision.operation.uuid.bytes.toList)⟩

/-- The order in which the parents are given does not matter. -/
theorem Revision.new_perm {root : TreeId} {parents parents' : List RevisionId}
    (hperm : parents.Perm parents')
    (author : AuthorPrincipalId) (operation : OperationId) :
    Revision.new root parents author operation =
      Revision.new root parents' author operation := by
  have hsorted : sortByKey RevisionId.key parents =
      sortByKey RevisionId.key parents' :=
    sortByKey_eq_of_perm
      (fun a b _ _ hkey => RevisionId.key_injective hkey) hperm
  unfold Revision.new
  simp only [hperm.length_eq, hsorted]

end Denju
