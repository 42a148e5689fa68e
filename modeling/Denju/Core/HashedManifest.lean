import Denju.Core.RoundTrip

/-!
# Manifests from hashed entries

The local index keeps the identity and the size of every file, so a changed
skill gets its manifest without rereading the unchanged files.  Only `SKILL.md`
is read again.  The checks run in another order than over complete entries, and
accept the same trees.
-/

namespace Denju

open Lib

variable {ext : Externals}

/-!
## The portable entries of a manifest
-/

def SkillManifestEntry.view (entry : SkillManifestEntry) :
    Text × PortableEntryKind :=
  (entry.path, entry.kind)

theorem manifestEntryValue_view (entry : OwnedSkillEntry) :
    (manifestEntryValue ext entry).view = entry.view := by
  cases entry with
  | file path bytes executable => rfl
  | directory path => rfl
  | symlink path target => rfl

theorem manifestEntryOf_of_fits {entry : OwnedSkillEntry}
    (h : forall path bytes executable, entry = .file path bytes executable ->
      bytes.length < 2 ^ 64) :
    manifestEntryOf ext entry = .ok (manifestEntryValue ext entry) := by
  cases entry with
  | file path bytes executable =>
      exact if_pos (h path bytes executable rfl)
  | directory path => rfl
  | symlink path target => rfl

section Portable

variable {α ε : Type} {path : α -> Text} {kind : α -> PortableEntryKind}
  {wrap : PortablePathError -> ε} {entries : List α}

theorem portable_views {portable : List (PortableEntry ext)}
    (h : (entries.mapM fun entry =>
      (PortableEntry.new (path entry) (kind entry)).mapError wrap) =
        .ok portable) :
    portable.map PortableEntry.view =
      entries.map fun entry => (path entry, kind entry) := by
  induction entries generalizing portable with
  | nil =>
      cases h
      rfl
  | cons entry rest ih =>
      rw [List.mapM_cons] at h
      rcases bind_eq_ok.mp h with ⟨first, hfirst, h⟩
      rcases bind_eq_ok.mp h with ⟨others, hothers, h⟩
      cases h
      have hnew := PortableEntry.new_eq_ok (mapError_eq_ok.mp hfirst)
      rw [List.map_cons, List.map_cons, ih hothers, PortableEntry.view, hnew.1,
        hnew.2]

theorem exists_portable (h : forall entry, entry ∈ entries ->
      validatePortablePath ext (path entry) = .ok ()) :
    exists portable : List (PortableEntry ext),
      (entries.mapM fun entry =>
        (PortableEntry.new (path entry) (kind entry)).mapError wrap) =
          .ok portable := by
  induction entries with
  | nil => exact ⟨[], rfl⟩
  | cons entry rest ih =>
      have hentry := h entry List.mem_cons_self
      rcases ih fun other hother => h other (List.mem_cons_of_mem entry hother)
        with ⟨portable, hportable⟩
      rw [List.mapM_cons]
      refine exists_bind_eq_ok (mapError_eq_ok.mpr
        (PortableEntry.new_of_valid (kind entry) hentry)) ?_
      exact exists_bind_eq_ok hportable ⟨_, rfl⟩

end Portable

variable (ext) in
/-- The portable entries that the declared manifest is validated through. -/
def declaredEntries (entries : List SkillManifestEntry) :
    Except SnapshotError (List (PortableEntry ext)) :=
  entries.mapM fun entry =>
    (PortableEntry.new entry.path entry.kind).mapError .portablePath

theorem perm_of_view_perm {portable portable' : List (PortableEntry ext)}
    (h : (portable.map PortableEntry.view).Perm
      (portable'.map PortableEntry.view)) :
    portable.Perm portable' :=
  (List.map_perm_map_iff PortableEntry.view_injective).mp h

def SkillManifestEntry.isSkillMd : SkillManifestEntry -> Bool
  | .file path _ _ _ => path == skillMdPath
  | _ => false

theorem validateDeclaredSkillManifest_eq_ok {manifest : SkillManifest}
    {trees : List (SkillManifestTree ext)} :
    validateDeclaredSkillManifest ext manifest = .ok trees <->
      (exists portable tree, declaredEntries ext manifest.entries =
          .ok portable ∧
        validatePortableTree portable = .ok tree) ∧
      manifest.entries.any SkillManifestEntry.isSkillMd = true ∧
      exists built, buildManifestTreeObjects ext manifest.entries =
          .ok built ∧
        rootTreeOf built = .ok manifest.rootTree ∧
          trees = built.map Prod.snd := by
  constructor
  · intro h
    rcases bind_eq_ok.mp h with ⟨portable, hportable, h⟩
    rcases bind_eq_ok.mp h with ⟨tree, htree, h⟩
    rcases bind_eq_ok.mp h with ⟨_, hskill, h⟩
    rcases bind_eq_ok.mp h with ⟨built, hbuilt, h⟩
    rcases bind_eq_ok.mp h with ⟨root, hroot, h⟩
    rcases bind_eq_ok.mp h with ⟨_, hsame, h⟩
    cases h
    refine ⟨⟨portable, tree, hportable, mapError_eq_ok.mp htree⟩,
      ensure_eq_ok.mp hskill, built, hbuilt, ?_, rfl⟩
    rw [hroot, eq_of_beq (ensure_eq_ok.mp hsame)]
  · rintro ⟨⟨portable, tree, hportable, htree⟩, hskill, built, hbuilt, hroot,
      rfl⟩
    refine bind_eq_ok.mpr ⟨portable, hportable, ?_⟩
    refine bind_eq_ok.mpr ⟨tree, mapError_eq_ok.mpr htree, ?_⟩
    refine bind_eq_ok.mpr ⟨(), ensure_eq_ok.mpr hskill, ?_⟩
    refine bind_eq_ok.mpr ⟨built, hbuilt, ?_⟩
    refine bind_eq_ok.mpr ⟨manifest.rootTree, hroot, ?_⟩
    exact bind_eq_ok.mpr ⟨(), ensure_eq_ok.mpr (beq_self_eq_true _), rfl⟩

/-!
## The two builders
-/

theorem validateSkillName_of_parseSkillDocument {name : Text} {bytes : Bytes}
    {document : SkillDocument}
    (h : parseSkillDocument ext name bytes = .ok document) :
    validateSkillName name = .ok () := by
  rcases bind_eq_ok.mp h with ⟨_, _, h⟩
  rcases bind_eq_ok.mp h with ⟨mapping, _, h⟩
  rcases bind_eq_ok.mp h with ⟨frontmatter, hfields, _⟩
  rcases bind_eq_ok.mp hfields with ⟨declared, _, hfields⟩
  rcases bind_eq_ok.mp hfields with ⟨_, hname, hfields⟩
  rcases bind_eq_ok.mp hfields with ⟨_, hsame, _⟩
  rw [← eq_of_beq (ensure_eq_ok.mp hsame)]
  exact hname

/-- A directory is accepted when its entries are a portable tree and its
`SKILL.md` is a document of that name. -/
theorem exists_validateSkillDirectory {name : Text}
    {entries : List SkillEntry} :
    (exists validated, validateSkillDirectory ext name entries =
        .ok validated) <->
      (exists (portable : List (PortableEntry ext)) (tree : PortableTree ext),
        (portable.map PortableEntry.view).Perm
          (entries.map SkillEntry.view) ∧
          validatePortableTree portable = .ok tree) ∧
        exists bytes executable document,
          .file skillMdPath bytes executable ∈ entries ∧
            parseSkillDocument ext name bytes = .ok document := by
  constructor
  · rintro ⟨validated, h⟩
    rcases (validateSkillDirectory_eq_ok h).2 with
      ⟨bytes, executable, hmem, hdocument⟩
    refine ⟨?_, bytes, executable, _, hmem, hdocument⟩
    rcases bind_eq_ok.mp h with ⟨_, _, h⟩
    rcases bind_eq_ok.mp h with ⟨⟨portable, skillMd⟩, hcollect, h⟩
    rcases bind_eq_ok.mp h with ⟨tree, htree, _⟩
    refine ⟨portable, tree, ?_, mapError_eq_ok.mp htree⟩
    rw [(collectPortableEntries_eq_ok hcollect).1]
    exact List.Perm.refl _
  · rintro ⟨⟨portable, tree, hviews, htree⟩, bytes, executable, document, hmem,
      hdocument⟩
    have haccepted : AcceptedEntries ext entries := by
      apply @acceptedEntries_of_views _ _ tree
      rw [validatePortableTree_eq_ok.mp htree]
      exact ((sortByKey_perm _ portable).map _).trans hviews
    have hcollect : exists collected : List (PortableEntry ext),
        collectPortableEntries entries [] none =
          .ok (collected, (skillMdBytes entries).or none) :=
      collectPortableEntries_of_valid haccepted.portable haccepted.nodup
        (Or.inl rfl)
    rcases hcollect with ⟨collected, hcollect⟩
    have hbytes : skillMdBytes entries = some bytes :=
      (skillMdBytes_eq_some haccepted.nodup).mpr ⟨executable, hmem⟩
    have htree' : validatePortableTree collected = .ok tree := by
      apply validatePortableTree_perm _ htree
      apply perm_of_view_perm
      rw [(collectPortableEntries_eq_ok hcollect).1]
      exact hviews
    refine exists_bind_eq_ok (validateSkillName_of_parseSkillDocument hdocument)
      ?_
    refine exists_bind_eq_ok hcollect ?_
    refine exists_bind_eq_ok (mapError_eq_ok.mpr htree') ?_
    rw [hbytes]
    refine exists_bind_eq_ok (a := bytes) rfl ?_
    exact exists_bind_eq_ok hdocument ⟨_, rfl⟩

/-- The manifest that both builders return for the given entries, whose tree
objects name its root. -/
def RootedManifest (ext : Externals) (entries : List SkillManifestEntry)
    (manifest : SkillManifest) : Prop :=
  manifest.entries = sortByKey SkillManifestEntry.key entries ∧
    exists built, buildManifestTreeObjects ext manifest.entries = .ok built ∧
      rootTreeOf built = .ok manifest.rootTree

theorem RootedManifest.bind_eq_ok {entries : List SkillManifestEntry}
    {manifest : SkillManifest} :
    RootedManifest ext entries manifest <-> (do
      let trees <- buildManifestTreeObjects ext
        (sortByKey SkillManifestEntry.key entries)
      let rootTree <- rootTreeOf trees
      return ({
        rootTree
        entries := sortByKey SkillManifestEntry.key entries } :
          SkillManifest)) = .ok manifest := by
  constructor
  · rintro ⟨hentries, built, hbuilt, hroot⟩
    rw [hentries] at hbuilt
    refine Lib.bind_eq_ok.mpr ⟨built, hbuilt, ?_⟩
    refine Lib.bind_eq_ok.mpr ⟨_, hroot, ?_⟩
    rw [← hentries]
    rfl
  · intro h
    rcases Lib.bind_eq_ok.mp h with ⟨built, hbuilt, h⟩
    rcases Lib.bind_eq_ok.mp h with ⟨root, hroot, h⟩
    cases h
    exact ⟨rfl, built, hbuilt, hroot⟩

theorem buildSkillManifest_eq_ok_iff {name : Text}
    {entries : List OwnedSkillEntry}
    (hfits : forall path bytes executable,
      .file path bytes executable ∈ entries -> bytes.length < 2 ^ 64)
    {manifest : SkillManifest} :
    buildSkillManifest ext name entries = .ok manifest <->
      (exists validated, validateSkillDirectory ext name entries =
        .ok validated) ∧
      RootedManifest ext (entries.map (manifestEntryValue ext)) manifest := by
  have hmap : entries.mapM (manifestEntryOf ext) =
      .ok (entries.map (manifestEntryValue ext)) := by
    apply mapM_ok_of_forall
    intro entry hmem
    apply manifestEntryOf_of_fits
    intro path bytes executable hentry
    rw [hentry] at hmem
    exact hfits path bytes executable hmem
  rw [RootedManifest.bind_eq_ok]
  constructor
  · intro h
    rcases bind_eq_ok.mp h with ⟨validated, hvalidated, h⟩
    rcases bind_eq_ok.mp h with ⟨found, hfound, h⟩
    rw [hmap] at hfound
    cases hfound
    exact ⟨⟨validated, mapError_eq_ok.mp hvalidated⟩, h⟩
  · rintro ⟨⟨validated, hvalidated⟩, h⟩
    refine bind_eq_ok.mpr ⟨validated, mapError_eq_ok.mpr hvalidated, ?_⟩
    exact bind_eq_ok.mpr ⟨_, hmap, h⟩

/-- The identity and the size under which the entries list `SKILL.md`. -/
def listedSkillMd (entries : List SkillManifestEntry) : Option (BlobId × Nat) :=
  entries.findSome? fun entry =>
    match entry with
    | .file path blob size _ =>
        if path = skillMdPath then some (blob, size) else none
    | _ => none

theorem mem_of_listedSkillMd {entries : List SkillManifestEntry}
    {listed : BlobId × Nat} (h : listedSkillMd entries = some listed) :
    exists executable,
      .file skillMdPath listed.1 listed.2 executable ∈ entries := by
  rcases List.exists_of_findSome?_eq_some h with ⟨entry, hmem, hentry⟩
  cases entry with
  | file path blob size executable =>
      dsimp only at hentry
      split at hentry
      · rename_i hpath
        cases hentry
        rw [hpath] at hmem
        exact ⟨executable, hmem⟩
      · cases hentry
  | directory path => cases hentry
  | symlink path target => cases hentry

theorem buildSkillManifestFromHashedEntries_eq_ok {name : Text}
    {skillMd : Bytes} {entries : List SkillManifestEntry}
    {manifest : SkillManifest} :
    buildSkillManifestFromHashedEntries ext name skillMd entries =
        .ok manifest <->
      (exists document, parseSkillDocument ext name skillMd = .ok document) ∧
      (listedSkillMd (sortByKey SkillManifestEntry.key entries) =
        some (BlobId.hash ext skillMd, skillMd.length) ∧
          skillMd.length < 2 ^ 64) ∧
      (exists portable tree, declaredEntries ext
          (sortByKey SkillManifestEntry.key entries) = .ok portable ∧
        validatePortableTree portable = .ok tree) ∧
      RootedManifest ext entries manifest := by
  constructor
  · intro h
    rcases bind_eq_ok.mp h with ⟨document, hdocument, h⟩
    rcases bind_eq_ok.mp h with ⟨listed, hlisted, h⟩
    rcases bind_eq_ok.mp h with ⟨_, hsize, h⟩
    rcases bind_eq_ok.mp h with ⟨_, hsame, h⟩
    rcases bind_eq_ok.mp h with ⟨built, hbuilt, h⟩
    rcases bind_eq_ok.mp h with ⟨root, hroot, h⟩
    rcases bind_eq_ok.mp h with ⟨_, hdeclared, h⟩
    cases h
    rcases validateDeclaredSkillManifest_eq_ok.mp hdeclared with
      ⟨hportable, _, _⟩
    have hlisted := okOr_eq_ok.mp hlisted
    rw [eq_of_beq (ensure_eq_ok.mp hsame)] at hlisted
    exact ⟨⟨document, mapError_eq_ok.mp hdocument⟩,
      ⟨hlisted, of_decide_eq_true (ensure_eq_ok.mp hsize)⟩, hportable, rfl,
      built, hbuilt, hroot⟩
  · rintro ⟨⟨document, hdocument⟩, ⟨hlisted, hsize⟩, hportable, hentries, built,
      hbuilt, hroot⟩
    have hskill : manifest.entries.any SkillManifestEntry.isSkillMd = true := by
      rcases mem_of_listedSkillMd hlisted with ⟨executable, hmem⟩
      rw [hentries]
      exact List.any_eq_true.mpr ⟨_, hmem, beq_self_eq_true _⟩
    rw [← hentries] at hportable
    have hdeclared := validateDeclaredSkillManifest_eq_ok.mpr
      ⟨hportable, hskill, built, hbuilt, hroot, rfl⟩
    have hmanifest : manifest = ⟨manifest.rootTree,
        sortByKey SkillManifestEntry.key entries⟩ := by
      rw [← hentries]
    refine bind_eq_ok.mpr ⟨document, mapError_eq_ok.mpr hdocument, ?_⟩
    refine bind_eq_ok.mpr ⟨_, okOr_eq_ok.mpr hlisted, ?_⟩
    refine bind_eq_ok.mpr ⟨(), ensure_eq_ok.mpr (decide_eq_true hsize), ?_⟩
    refine bind_eq_ok.mpr ⟨(), ensure_eq_ok.mpr (beq_self_eq_true _), ?_⟩
    rw [hentries] at hbuilt
    refine bind_eq_ok.mpr ⟨built, hbuilt, ?_⟩
    refine bind_eq_ok.mpr ⟨manifest.rootTree, hroot, ?_⟩
    rw [← hmanifest]
    exact bind_eq_ok.mpr ⟨_, hdeclared, rfl⟩

/-!
## Agreement
-/

theorem listedSkillMd_eq_some {entries : List SkillManifestEntry}
    {blob : BlobId} {size : Nat} {executable : Bool}
    (hnodup : (entries.map SkillManifestEntry.path).Nodup)
    (hmem : .file skillMdPath blob size executable ∈ entries) :
    listedSkillMd entries = some (blob, size) := by
  have hsome : (listedSkillMd entries).isSome = true := by
    rw [listedSkillMd, List.findSome?_isSome_iff]
    exact ⟨_, hmem, by simp⟩
  rcases Option.isSome_iff_exists.mp hsome with ⟨listed, hlisted⟩
  rcases mem_of_listedSkillMd hlisted with ⟨executable', hfound⟩
  have hsame := List.inj_on_of_nodup_map hnodup hfound hmem rfl
  cases hsame
  exact hlisted

theorem manifestEntryValue_path (entry : OwnedSkillEntry) :
    (manifestEntryValue ext entry).path = entry.path :=
  congrArg Prod.fst (manifestEntryValue_view entry)

theorem map_manifestEntryValue_path (entries : List OwnedSkillEntry) :
    (entries.map (manifestEntryValue ext)).map SkillManifestEntry.path =
      entries.map SkillEntry.path := by
  rw [List.map_map]
  exact List.map_congr_left fun entry _ => manifestEntryValue_path entry

theorem skillMd_mem_of_value {entries : List OwnedSkillEntry} {blob : BlobId}
    {size : Nat} {executable : Bool}
    (h : .file skillMdPath blob size executable ∈
      entries.map (manifestEntryValue ext)) :
    exists bytes, .file skillMdPath bytes executable ∈ entries := by
  rcases List.mem_map.mp h with ⟨entry, hmem, hvalue⟩
  cases entry with
  | file path bytes executable' =>
      cases hvalue
      exact ⟨bytes, hmem⟩
  | directory path => cases hvalue
  | symlink path target => cases hvalue

section Agreement

variable {entries : List OwnedSkillEntry} {hashed : List SkillManifestEntry}
  (hhashed : hashed.Perm (entries.map (manifestEntryValue ext)))

include hhashed

theorem hashed_views :
    (hashed.map SkillManifestEntry.view).Perm
      (entries.map SkillEntry.view) := by
  have hsame : (entries.map (manifestEntryValue ext)).map
      SkillManifestEntry.view = entries.map SkillEntry.view := by
    rw [List.map_map]
    exact List.map_congr_left fun entry _ => manifestEntryValue_view entry
  rw [← hsame]
  exact hhashed.map SkillManifestEntry.view

theorem sorted_hashed (hnodup : (entries.map SkillEntry.path).Nodup) :
    sortByKey SkillManifestEntry.key hashed =
      sortByKey SkillManifestEntry.key
        (entries.map (manifestEntryValue ext)) := by
  apply sortByKey_eq_of_perm _ hhashed
  intro a b ha hb hkey
  have hpaths : (hashed.map SkillManifestEntry.path).Nodup := by
    rw [(hhashed.map SkillManifestEntry.path).nodup_iff,
      map_manifestEntryValue_path]
    exact hnodup
  exact List.inj_on_of_nodup_map hpaths ha hb (utf8_injective hkey)

/-- The declared manifest is a portable tree when the complete entries are. -/
theorem exists_declared_iff :
    (exists portable tree, declaredEntries ext
        (sortByKey SkillManifestEntry.key hashed) = .ok portable ∧
      validatePortableTree portable = .ok tree) <->
    exists (portable : List (PortableEntry ext)) (tree : PortableTree ext),
      (portable.map PortableEntry.view).Perm (entries.map SkillEntry.view) ∧
        validatePortableTree portable = .ok tree := by
  have hsorted : ((sortByKey SkillManifestEntry.key hashed).map
      SkillManifestEntry.view).Perm (entries.map SkillEntry.view) :=
    ((sortByKey_perm _ hashed).map _).trans (hashed_views hhashed)
  constructor
  · rintro ⟨portable, tree, hportable, htree⟩
    refine ⟨portable, tree, ?_, htree⟩
    rw [portable_views hportable]
    exact hsorted
  · rintro ⟨portable, tree, hviews, htree⟩
    have hvalid : forall entry,
        entry ∈ sortByKey SkillManifestEntry.key hashed ->
          validatePortablePath ext entry.path = .ok () := by
      intro entry hmem
      have hview := (hsorted.trans hviews.symm).mem_iff.mp
        (List.mem_map_of_mem hmem)
      rcases List.mem_map.mp hview with ⟨found, _, hfound⟩
      have hpath : found.path.value = entry.path := congrArg Prod.fst hfound
      rw [← hpath]
      exact found.path.valid
    rcases exists_portable hvalid with ⟨declared, hdeclared⟩
    refine ⟨declared, tree, hdeclared, validatePortableTree_perm ?_ htree⟩
    apply perm_of_view_perm
    rw [portable_views hdeclared]
    exact hviews.trans hsorted.symm

end Agreement

theorem accepted_of_portableTree {entries : List SkillEntry}
    (h : exists (portable : List (PortableEntry ext)) (tree : PortableTree ext),
      (portable.map PortableEntry.view).Perm (entries.map SkillEntry.view) ∧
        validatePortableTree portable = .ok tree) :
    AcceptedEntries ext entries := by
  rcases h with ⟨portable, tree, hviews, htree⟩
  apply @acceptedEntries_of_views _ _ tree
  rw [validatePortableTree_eq_ok.mp htree]
  exact ((sortByKey_perm _ portable).map _).trans hviews

/-- The builder over hashed entries returns a manifest exactly when the builder
over the complete entries returns the same one. -/
theorem buildSkillManifestFromHashedEntries_agrees (ext : Externals)
    {name : Text} {entries : List OwnedSkillEntry} {skillMd : Bytes}
    {hashed : List SkillManifestEntry}
    (hfits : forall path bytes executable,
      .file path bytes executable ∈ entries -> bytes.length < 2 ^ 64)
    (hhashed : hashed.Perm (entries.map (manifestEntryValue ext)))
    (hskillMd : forall bytes executable,
      .file skillMdPath bytes executable ∈ entries ->
        exists executable', .file skillMdPath skillMd executable' ∈ entries)
    (manifest : SkillManifest) :
    buildSkillManifestFromHashedEntries ext name skillMd hashed =
        .ok manifest <->
      buildSkillManifest ext name entries = .ok manifest := by
  rw [buildSkillManifestFromHashedEntries_eq_ok,
    buildSkillManifest_eq_ok_iff hfits, exists_validateSkillDirectory,
    exists_declared_iff hhashed]
  constructor
  · rintro ⟨⟨document, hdocument⟩, ⟨hlisted, _⟩, htree, hrooted⟩
    have haccepted := accepted_of_portableTree htree
    have hsorted := sorted_hashed hhashed haccepted.nodup
    rcases mem_of_listedSkillMd hlisted with ⟨executable, hmem⟩
    have hvalue := hhashed.mem_iff.mp (mem_sortByKey.mp hmem)
    rcases skillMd_mem_of_value hvalue with ⟨bytes, hbytes⟩
    rcases hskillMd bytes executable hbytes with ⟨executable', hfile⟩
    refine ⟨⟨htree, skillMd, executable', document, hfile, hdocument⟩, ?_⟩
    rw [RootedManifest, ← hsorted]
    exact hrooted
  · rintro ⟨⟨htree, bytes, executable, document, hfile, hdocument⟩, hrooted⟩
    have haccepted := accepted_of_portableTree htree
    have hsorted := sorted_hashed hhashed haccepted.nodup
    rcases hskillMd bytes executable hfile with ⟨executable', hskill⟩
    have hsame := List.inj_on_of_nodup_map haccepted.nodup hfile hskill rfl
    cases hsame
    have hlisted : listedSkillMd (sortByKey SkillManifestEntry.key hashed) =
        some (BlobId.hash ext skillMd, skillMd.length) := by
      apply @listedSkillMd_eq_some _ _ _ executable
      · rw [((sortByKey_perm _ hashed).map _).nodup_iff,
          (hhashed.map SkillManifestEntry.path).nodup_iff,
          map_manifestEntryValue_path]
        exact haccepted.nodup
      · apply mem_sortByKey.mpr
        exact hhashed.mem_iff.mpr (List.mem_map.mpr ⟨_, hskill, rfl⟩)
    refine ⟨⟨document, hdocument⟩, ⟨hlisted, hfits _ _ _ hskill⟩, htree, ?_⟩
    rw [RootedManifest, hsorted]
    exact hrooted

theorem sample_fits (path : Text) (bytes : Bytes) (executable : Bool)
    (h : .file path bytes executable ∈ Sample.entries "bin/run") :
    bytes.length < 2 ^ 64 := by
  simp only [Sample.entries, List.mem_cons, List.not_mem_nil, or_false,
    reduceCtorEq, false_or, SkillEntry.file.injEq] at h
  rcases h with ⟨_, hbytes, _⟩ | ⟨_, hbytes, _⟩
  · rw [hbytes]
    decide +kernel
  · rw [hbytes]
    decide +kernel

theorem buildSkillManifestFromHashedEntries_sample :
    buildSkillManifestFromHashedEntries Sample.externals Sample.name
      Sample.skillMd Sample.linkedManifest.entries.reverse =
        .ok Sample.linkedManifest := by
  have hhashed : Sample.linkedManifest.entries.reverse.Perm
      ((Sample.entries "bin/run").map
        (manifestEntryValue Sample.externals)) := by
    decide +kernel
  have hskillMd : .file skillMdPath Sample.skillMd false ∈
      Sample.entries "bin/run" := by
    decide +kernel
  apply (buildSkillManifestFromHashedEntries_agrees Sample.externals
    sample_fits hhashed (fun _ _ _ => ⟨false, hskillMd⟩)
    Sample.linkedManifest).mpr
  exact Sample.buildSkillManifest_entries

end Denju
