import Denju.Core.ContentAddressing

/-!
# Snapshot round trip

Building a snapshot and reading it back returns the entries in path order.
The archive rewrites a link name that has a `.` component behind its first
one, which portable validation accepts; those are exactly the trees that do
not come back.
-/

namespace Denju

open Lib

variable {ext : Externals}

/-!
## The order of the entries
-/

variable (ext) in
/-- The manifest entry of an entry whose size fits. -/
def manifestEntryValue : OwnedSkillEntry -> SkillManifestEntry
  | .file path bytes executable =>
      .file path (BlobId.hash ext bytes) bytes.length executable
  | .directory path => .directory path
  | .symlink path target => .symlink path target

theorem manifestEntryOf_eq_value {entry : OwnedSkillEntry}
    {manifestEntry : SkillManifestEntry}
    (h : manifestEntryOf ext entry = .ok manifestEntry) :
    manifestEntry = manifestEntryValue ext entry := by
  cases entry with
  | file path bytes executable => exact manifestEntryOf_file h
  | directory path =>
      cases h
      rfl
  | symlink path target =>
      cases h
      rfl

theorem manifestEntryValue_key (entry : OwnedSkillEntry) :
    (manifestEntryValue ext entry).key = entry.key := by
  cases entry with
  | file path bytes executable => rfl
  | directory path => rfl
  | symlink path target => rfl

/-- The manifest does not depend on the order of the entries. -/
theorem buildSkillManifest_perm {name : Text}
    {entries entries' : List OwnedSkillEntry} {manifest : SkillManifest}
    (hperm : entries.Perm entries')
    (h : buildSkillManifest ext name entries = .ok manifest) :
    buildSkillManifest ext name entries' = .ok manifest := by
  rcases bind_eq_ok.mp h with ⟨validated, hvalidated, h⟩
  have hvalidated := mapError_eq_ok.mp hvalidated
  have haccepted := (validateSkillDirectory_eq_ok hvalidated).1
  rcases bind_eq_ok.mp h with ⟨manifestEntries, hmap, h⟩
  have hvalues : manifestEntries = entries.map (manifestEntryValue ext) :=
    mapM_eq_ok_iff_map
      (fun entry _ value hvalue => manifestEntryOf_eq_value hvalue) hmap
  have hmap' : entries'.mapM (manifestEntryOf ext) =
      .ok (entries'.map (manifestEntryValue ext)) := by
    apply mapM_ok_of_forall
    intro entry hmem
    rcases mapM_eq_ok_forall hmap entry (hperm.mem_iff.mpr hmem) with
      ⟨value, _, hvalue⟩
    rw [hvalue, manifestEntryOf_eq_value hvalue]
  have hsorted :
      sortByKey SkillManifestEntry.key (entries'.map (manifestEntryValue ext)) =
        sortByKey SkillManifestEntry.key manifestEntries := by
    rw [hvalues]
    apply Eq.symm
    apply sortByKey_eq_of_perm _ (hperm.map _)
    intro a b ha hb hkey
    rcases List.mem_map.mp ha with ⟨entryA, hmemA, rfl⟩
    rcases List.mem_map.mp hb with ⟨entryB, hmemB, rfl⟩
    rw [manifestEntryValue_key, manifestEntryValue_key] at hkey
    rw [List.inj_on_of_nodup_map haccepted.nodup hmemA hmemB
      (utf8_injective hkey)]
  unfold buildSkillManifest
  refine bind_eq_ok.mpr ⟨validated, ?_, ?_⟩
  · exact mapError_eq_ok.mpr (validateSkillDirectory_perm hperm hvalidated)
  · refine bind_eq_ok.mpr ⟨_, hmap', ?_⟩
    dsimp only
    rw [hsorted]
    exact h

/-!
## Stored paths and link names
-/

/-- The components of a validated link target are not empty. -/
theorem validateTargetComponents_ne_nil
    {path target : Text} {depth : Nat} {components : List Text}
    (h : validateTargetComponents path target depth components = .ok ()) :
    forall component, component ∈ components -> component ≠ [] := by
  induction components generalizing depth with
  | nil =>
      intro component hmem
      cases hmem
  | cons first rest ih =>
      unfold validateTargetComponents at h
      split at h
      · cases h
      · rename_i hempty
        have hfirst : first ≠ [] := by simpa using hempty
        have hrest : forall component, component ∈ rest ->
            component ≠ [] := by
          split at h
          · exact ih h
          · split at h
            · cases depth with
              | zero => cases h
              | succ depth => exact ih h
            · rcases bind_eq_ok.mp h with ⟨_, _, h⟩
              exact ih h
        intro component hmem
        rcases List.mem_cons.mp hmem with rfl | hmem
        · exact hfirst
        · exact hrest component hmem

theorem pathComponents_eq {path first : Text} {rest : List Text}
    (hsplit : path.splitOn '/' = first :: rest)
    (hne : forall component, component ∈ path.splitOn '/' ->
      component ≠ []) :
    pathComponents path =
      first :: rest.filter fun component => component != ".".toList := by
  have hfilter : (path.splitOn '/').filter
      (fun component => !component.isEmpty) = first :: rest := by
    rw [← hsplit]
    apply List.filter_eq_self.mpr
    intro component hmem
    simpa using hne component hmem
  unfold pathComponents
  rw [hfilter]

/-- A path with non-empty components is stored as it is, unless `.` is dropped. -/
theorem storedPath_eq_self_iff {path : Text}
    (hne : forall component, component ∈ path.splitOn '/' ->
      component ≠ []) :
    storedPath path = path <-> ".".toList ∉ (path.splitOn '/').tail := by
  cases hsplit : path.splitOn '/' with
  | nil => exact absurd hsplit (List.splitOn_ne_nil '/' path)
  | cons first rest =>
      have hcomponents := pathComponents_eq hsplit hne
      have hpath : join '/' (first :: rest) = path := by
        rw [← hsplit]
        exact List.intercalate_splitOn '/'
      constructor
      · intro hstored hdot
        have hsame : (join '/' (pathComponents path)).splitOn '/' =
            first :: rest := by
          unfold storedPath at hstored
          rw [hstored, hsplit]
        have hback : (join '/' (pathComponents path)).splitOn '/' =
            pathComponents path := by
          apply List.splitOn_intercalate
          · intro component hmem
            rw [hcomponents] at hmem
            have horiginal : component ∈ path.splitOn '/' := by
              rw [hsplit]
              rcases List.mem_cons.mp hmem with hfirst | hrest
              · exact hfirst ▸ List.mem_cons_self
              · exact List.mem_cons_of_mem _ (List.mem_filter.mp hrest).1
            exact separator_notMem_of_mem_splitOn horiginal
          · rw [hcomponents]
            exact List.cons_ne_nil _ _
        rw [hback, hcomponents] at hsame
        have hrest := (List.cons.inj hsame).2
        have hkept := (List.filter_eq_self.mp hrest) _ hdot
        simp at hkept
      · intro hdot
        have hrest : rest.filter (fun component => component != ".".toList) =
            rest := by
          apply List.filter_eq_self.mpr
          intro component hmem
          have hcomponent : component ≠ ".".toList := by
            intro heq
            exact hdot (heq ▸ hmem)
          simpa using hcomponent
        unfold storedPath
        rw [hcomponents, hrest, hpath]

theorem storedPath_of_valid {path : Text}
    (h : validatePortablePath ext path = .ok ()) : storedPath path = path := by
  have hcomponents := validatePortablePath_components h
  rw [storedPath_eq_self_iff fun component hmem =>
    validateComponent_ne_nil (hcomponents component hmem)]
  intro hdot
  exact (validateComponent_ne_dots
    (hcomponents _ (List.mem_of_mem_tail hdot))).1 rfl

/-!
## Reading back what was written
-/

/-- The entry as the archive stores it. -/
def storedEntry : OwnedSkillEntry -> OwnedSkillEntry
  | .symlink path target => .symlink path (storedPath target)
  | entry => entry

theorem trimEndMatches_slash_of_valid {path : Text}
    (h : validatePortablePath ext path = .ok ()) :
    trimEndMatches (fun c => c == '/') path = path := by
  have hcomponents := validatePortablePath_components h
  apply List.rdropWhile_eq_self_iff.mpr
  intro hne hslash
  have hlast : path.getLast hne = '/' := by
    simpa using hslash
  have hsplit : path = path.dropLast ++ ['/'] := by
    rw [← hlast]
    exact (List.dropLast_append_getLast hne).symm
  have hempty : [] ∈ path.splitOn '/' := by
    rw [hsplit, List.splitOn_append_cons_self]
    simp
  exact validateComponent_ne_nil (hcomponents [] hempty) rfl

theorem valid_ne_nil {path : Text}
    (h : validatePortablePath ext path = .ok ()) : path ≠ [] := by
  intro hnil
  simp [validatePortablePath, hnil] at h

/-- The execute bits of the two file modes. -/
theorem fileMode_executable (executable : Bool) :
    ((if executable then 0o755 else 0o644 : UInt32) &&& 0o111 != 0) =
      executable := by
  cases executable with
  | false => decide
  | true => decide

theorem readItem_appendEntry {entry : OwnedSkillEntry} {record : TarRecord}
    (hvalid : validatePortablePath ext entry.path = .ok ())
    (h : appendEntry entry = .ok record) :
    readItem (.ok record.toItem) = .ok (storedEntry entry) := by
  have hstored : storedPath entry.path = entry.path :=
    storedPath_of_valid hvalid
  have htrim := trimEndMatches_slash_of_valid hvalid
  have hne : entry.path.isEmpty = false := by
    simpa using valid_ne_nil hvalid
  cases entry with
  | file path bytes executable =>
      simp only [SkillEntry.path] at hstored htrim hne
      simp only [appendEntry] at h
      split at h
      · cases h
        have hmode := fileMode_executable executable
        simp only [readItem, TarRecord.toItem, hstored, fromUtf8_utf8, okOr,
          htrim, hne, ensure, storedEntry, Except.mapError, bind, Except.bind,
          pure, Except.pure, Bool.not_false, if_true, hmode]
      · cases h
  | directory path =>
      simp only [SkillEntry.path] at hstored htrim hne
      cases h
      simp [readItem, TarRecord.toItem, hstored, fromUtf8_utf8, okOr, htrim,
        hne, ensure, storedEntry, Except.mapError, bind, Except.bind, pure,
        Except.pure]
  | symlink path target =>
      simp only [SkillEntry.path] at hstored htrim hne
      rcases bind_eq_ok.mp h with ⟨linkName, hlink, h⟩
      unfold setLinkName at hlink
      split at hlink
      · cases hlink
      · cases hlink
        cases h
        simp [readItem, TarRecord.toItem, hstored, fromUtf8_utf8, okOr, htrim,
          hne, ensure, storedEntry, Except.mapError, bind, Except.bind, pure,
          Except.pure]

theorem mapM_readItem {entries : List OwnedSkillEntry}
    {records : List TarRecord}
    (hvalid : forall entry, entry ∈ entries ->
      validatePortablePath ext entry.path = .ok ())
    (h : entries.mapM appendEntry = .ok records) :
    (records.map fun record => Except.ok record.toItem).mapM readItem =
      .ok (entries.map storedEntry) := by
  induction entries generalizing records with
  | nil =>
      cases h
      rfl
  | cons entry rest ih =>
      rw [List.mapM_cons, bind_eq_ok] at h
      rcases h with ⟨record, hrecord, h⟩
      rcases bind_eq_ok.mp h with ⟨others, hothers, h⟩
      cases h
      have hitem :=
        readItem_appendEntry (hvalid entry List.mem_cons_self) hrecord
      have hrest := ih
        (fun other hother => hvalid other (List.mem_cons_of_mem entry hother))
        hothers
      rw [List.map_cons, List.mapM_cons, hitem, hrest]
      rfl

variable (ext) in
/-- Reading an archive yields what was stored in it. -/
def ArchiveRoundTrip : Prop :=
  forall records bytes, ext.archiveWrite records = .ok bytes ->
    ext.archiveRead bytes = .ok (records.map fun record => .ok record.toItem)

/-- What reading a snapshot decodes, before the manifest is compared. -/
theorem decode_snapshot {name : Text} {entries : List OwnedSkillEntry}
    {snapshot : DeterministicSkillSnapshot}
    (harchive : ArchiveRoundTrip ext)
    (h : buildDeterministicSkillSnapshot ext name entries = .ok snapshot) :
    buildSkillManifest ext name entries = .ok snapshot.manifest ∧
      exists items, ext.archiveRead snapshot.bytes = .ok items ∧
        items.mapM readItem =
          .ok ((sortByKey SkillEntry.key entries).map storedEntry) := by
  rcases bind_eq_ok.mp h with ⟨manifest, hmanifest, h⟩
  rcases bind_eq_ok.mp h with ⟨records, hrecords, h⟩
  rcases bind_eq_ok.mp h with ⟨bytes, hbytes, h⟩
  cases h
  rcases buildSkillManifest_eq_ok hmanifest with ⟨trees, hbuild⟩
  refine ⟨hmanifest, _, harchive records bytes (mapError_eq_ok.mp hbytes), ?_⟩
  have hvalid : forall entry, entry ∈ sortByKey SkillEntry.key entries ->
      validatePortablePath ext entry.path = .ok () :=
    fun entry hmem => hbuild.accepted.portable entry (mem_sortByKey.mp hmem)
  exact mapM_readItem hvalid hrecords

/-- No link target has a `.` component behind its first one. -/
def NoInnerDot (entries : List OwnedSkillEntry) : Prop :=
  forall path target, .symlink path target ∈ entries ->
    ".".toList ∉ (target.splitOn '/').tail

theorem map_storedEntry_eq_self_iff {entries : List OwnedSkillEntry}
    (haccepted : AcceptedEntries ext entries) :
    (sortByKey SkillEntry.key entries).map storedEntry =
        sortByKey SkillEntry.key entries <->
      NoInnerDot entries := by
  have htarget : forall path target, .symlink path target ∈ entries ->
      (storedPath target = target <->
        ".".toList ∉ (target.splitOn '/').tail) := by
    intro path target hmem
    rcases haccepted.target path target hmem with ⟨parsed, _, hvalid⟩
    apply storedPath_eq_self_iff
    exact validateTargetComponents_ne_nil
      (validateSymlinkTarget_components hvalid)
  constructor
  · intro hsame path target hmem
    have hentry := List.map_inj_left.mp (hsame.trans (List.map_id _).symm)
      _ (mem_sortByKey.mpr hmem)
    simp only [storedEntry, id_eq, SkillEntry.symlink.injEq, true_and]
      at hentry
    exact (htarget path target hmem).mp hentry
  · intro hdots
    refine (List.map_congr_left ?_).trans (List.map_id _)
    intro entry hmem
    cases entry with
    | file path bytes executable => rfl
    | directory path => rfl
    | symlink path target =>
        have hmem := mem_sortByKey.mp hmem
        have hstored := (htarget path target hmem).mpr (hdots path target hmem)
        simp only [storedEntry, hstored, id_eq]

theorem validateSkillSnapshot_roundTrip_iff
    (harchive : ArchiveRoundTrip ext)
    (name : Text)
    (entries : List OwnedSkillEntry)
    (snapshot : DeterministicSkillSnapshot)
    (hbuild :
      buildDeterministicSkillSnapshot ext name entries = .ok snapshot) :
    validateSkillSnapshot ext name snapshot.manifest snapshot.bytes =
        .ok (sortByKey SkillEntry.key entries) <->
      NoInnerDot entries := by
  rcases decode_snapshot harchive hbuild with
    ⟨hmanifest, items, hitems, hdecoded⟩
  rcases buildSkillManifest_eq_ok hmanifest with ⟨trees, hparts⟩
  rw [← map_storedEntry_eq_self_iff hparts.accepted]
  constructor
  · intro hvalidate
    rcases bind_eq_ok.mp hvalidate with ⟨items', hitems', hvalidate⟩
    rw [hitems] at hitems'
    cases hitems'
    rcases bind_eq_ok.mp hvalidate with ⟨decoded, hdecoded', hvalidate⟩
    rw [hdecoded] at hdecoded'
    cases hdecoded'
    rcases bind_eq_ok.mp hvalidate with ⟨actual, _, hvalidate⟩
    rcases bind_eq_ok.mp hvalidate with ⟨_, _, hvalidate⟩
    simpa [pure, Except.pure] using hvalidate
  · intro hsame
    have hsorted : buildSkillManifest ext name
        (sortByKey SkillEntry.key entries) = .ok snapshot.manifest :=
      buildSkillManifest_perm (sortByKey_perm _ entries).symm hmanifest
    rw [hsame] at hdecoded
    unfold validateSkillSnapshot
    refine bind_eq_ok.mpr ⟨items, mapError_eq_ok.mpr hitems, ?_⟩
    refine bind_eq_ok.mpr ⟨_, hdecoded, ?_⟩
    refine bind_eq_ok.mpr ⟨_, hsorted, ?_⟩
    refine bind_eq_ok.mpr ⟨(), by simp, rfl⟩

/-!
The link `run -> bin/./run` is portable and is stored as `bin/run`.
-/

theorem Sample.archiveRoundTrip : ArchiveRoundTrip Sample.externals := by
  intro written bytes hwrite
  simp only [Sample.externals] at hwrite ⊢
  split at hwrite
  · rename_i hrecords
    cases hwrite
    rw [if_pos rfl, hrecords]
  · cases hwrite

def Sample.dottedSnapshot : DeterministicSkillSnapshot where
  manifest := Sample.manifest "bin/./run" Sample.dottedRoot
  bytes := Sample.archive

theorem dottedSnapshot_does_not_roundTrip :
    ArchiveRoundTrip Sample.externals ∧
      buildDeterministicSkillSnapshot Sample.externals Sample.name
          (Sample.entries "bin/./run") = .ok Sample.dottedSnapshot ∧
        validateSkillSnapshot Sample.externals Sample.name
            Sample.dottedSnapshot.manifest Sample.dottedSnapshot.bytes ≠
          .ok (sortByKey SkillEntry.key (Sample.entries "bin/./run")) :=
  ⟨Sample.archiveRoundTrip, by decide +kernel, by decide +kernel⟩

theorem linkedSnapshot_roundTrip_iff :
    validateSkillSnapshot Sample.externals Sample.name
        Sample.linkedManifest Sample.archive =
        .ok (sortByKey SkillEntry.key (Sample.entries "bin/run")) <->
      NoInnerDot (Sample.entries "bin/run") :=
  validateSkillSnapshot_roundTrip_iff Sample.archiveRoundTrip Sample.name
    (Sample.entries "bin/run") ⟨Sample.linkedManifest, Sample.archive⟩
    (by decide +kernel)

end Denju
