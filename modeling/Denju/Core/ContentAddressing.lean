import Denju.Core.Snapshot

/-!
# Content addressing

The root tree of a manifest determines the skill tree it was built from, as
long as SHA-256 does not collide on the byte strings that are hashed on the
way.  The argument walks from the root: equal identifiers give equal
transcripts, equal transcripts give equal children, and a child directory
carries equal identifiers one level down.
-/

namespace Denju

open Lib

variable {ext : Externals}

/-!
## Parents and names
-/

theorem splitParent_eq (path : Text) :
    splitParent path =
      (join '/' (path.splitOn '/').dropLast, (path.splitOn '/').getLastD []) :=
  rfl

/-- The path of a child, from the path of its parent and its name. -/
def childPath (parts : Text × Text) : Text :=
  if parts.1 = [] then parts.2 else parts.1 ++ '/' :: parts.2

theorem validatePortablePath_components {path : Text}
    (h : validatePortablePath ext path = .ok ()) :
    forall component, component ∈ path.splitOn '/' ->
      validateComponent component false = .ok () :=
  PortablePath.valid_components ⟨path, h⟩

theorem childPath_splitParent {path : Text}
    (h : validatePortablePath ext path = .ok ()) :
    childPath (splitParent path) = path := by
  have hcomponents := validatePortablePath_components h
  have hpath : join '/' (path.splitOn '/') = path := List.intercalate_splitOn '/'
  have hne : path.splitOn '/' ≠ [] := List.splitOn_ne_nil '/' path
  rw [splitParent_eq]
  generalize path.splitOn '/' = components at hcomponents hpath hne
  have hlast : components.getLastD [] = components.getLast hne := by
    rw [List.getLastD_eq_getLast?, List.getLast?_eq_some_getLast hne]
    rfl
  have hsplit : components.dropLast ++ [components.getLastD []] =
      components := by
    rw [hlast]
    exact List.dropLast_append_getLast hne
  unfold childPath
  dsimp only
  by_cases hparents : components.dropLast = []
  · rw [hparents] at hsplit ⊢
    simp only [List.nil_append] at hsplit
    rw [join_nil, if_pos rfl, ← hpath]
    nth_rewrite 2 [← hsplit]
    simp [join]
  · have hparent : join '/' components.dropLast ≠ [] := by
      apply join_ne_nil '/' hparents
      intro piece hpiece
      exact validateComponent_ne_nil
        (hcomponents piece (List.dropLast_subset _ hpiece))
    rw [if_neg hparent, ← join_concat '/' hparents, hsplit, hpath]

theorem splitParent_injective {a b : Text}
    (ha : validatePortablePath ext a = .ok ())
    (hb : validatePortablePath ext b = .ok ())
    (h : splitParent a = splitParent b) : a = b := by
  rw [← childPath_splitParent ha, ← childPath_splitParent hb, h]

/-- The parent of an entry is the root or a directory one level up. -/
theorem AcceptedEntries.parent_cases {entries : List SkillEntry}
    (haccepted : AcceptedEntries ext entries) {entry : SkillEntry}
    (hmem : entry ∈ entries) :
    (splitParent entry.path).1 = [] ∨
      (.directory (splitParent entry.path).1 ∈ entries ∧
        ((splitParent entry.path).1.splitOn '/').length <
          (entry.path.splitOn '/').length) := by
  by_cases hone : (entry.path.splitOn '/').length ≤ 1
  · left
    have hdrop : (entry.path.splitOn '/').dropLast = [] := by
      apply List.length_eq_zero_iff.mp
      rw [List.length_dropLast]
      omega
    rw [splitParent_eq, hdrop]
    rfl
  · right
    have hparent := haccepted.parent entry
      ((entry.path.splitOn '/').length - 1) hmem (by omega) (by omega)
    rw [← List.dropLast_eq_take] at hparent
    rw [splitParent_eq]
    refine ⟨hparent, ?_⟩
    have hslash : forall component,
        component ∈ (entry.path.splitOn '/').dropLast -> '/' ∉ component := by
      intro component hcomponent
      exact separator_notMem_of_mem_splitOn
        (List.dropLast_subset _ hcomponent)
    have hne : (entry.path.splitOn '/').dropLast ≠ [] := by
      intro hnil
      have hlength := congrArg List.length hnil
      simp only [List.length_dropLast, List.length_nil] at hlength
      omega
    have hback : (join '/' (entry.path.splitOn '/').dropLast).splitOn '/' =
        (entry.path.splitOn '/').dropLast :=
      List.splitOn_intercalate '/' hslash hne
    rw [hback, List.length_dropLast]
    omega

/-!
## The trees of a manifest

What the directory loop establishes about the trees it returns: every tree is
hashed from its transcript, and its children are exactly the entries whose
parent it is.
-/

/-- How a child of a tree stands for an entry of the skill. -/
def IsChild (trees : List (Text × SkillManifestTree ext))
    (entry : SkillManifestEntry) (child : TreeEntry ext) : Prop :=
  child.name = (splitParent entry.path).2 ∧
    match entry with
    | .file _ blob _ executable => child.kind = .file blob executable
    | .directory path =>
        exists tree, (path, tree) ∈ trees ∧ child.kind = .directory tree.id
    | .symlink _ target => child.kind = .symlink target

theorem isChild_of_childEntry
    {trees : List (Text × SkillManifestTree ext)}
    {treeIds : List (Text × TreeId)}
    (hids : forall path id, (path, id) ∈ treeIds ->
      exists tree, (path, tree) ∈ trees ∧ tree.id = id)
    {entry : SkillManifestEntry} {child : TreeEntry ext}
    (h : childEntry treeIds entry = .ok child) :
    IsChild trees entry child := by
  rcases bind_eq_ok.mp h with ⟨kind, hkind, h⟩
  have hnew := TreeEntry.new_eq_ok (mapError_eq_ok.mp h)
  refine ⟨hnew.1, ?_⟩
  cases entry with
  | file path blob size executable =>
      cases hkind
      exact hnew.2
  | directory path =>
      simp only [childKind] at hkind
      split at hkind
      · rename_i id hlookup
        cases hkind
        rcases hids path id (mem_of_lookup_eq_some hlookup) with
          ⟨tree, htree, hid⟩
        refine ⟨tree, htree, ?_⟩
        rw [hnew.2, hid]
      · cases hkind
  | symlink path target =>
      cases hkind
      exact hnew.2

/-- What is known of one tree of the output. -/
structure TreeSpec (entries : List SkillManifestEntry)
    (trees : List (Text × SkillManifestTree ext))
    (path : Text) (tree : SkillManifestTree ext) : Prop where
  hashed : TreeId.fromEntries tree.entries = .ok tree.id
  children : forall entry, entry ∈ entries ->
    (splitParent entry.path).1 = path ->
      exists child, child ∈ tree.entries ∧ IsChild trees entry child
  origin : forall child, child ∈ tree.entries ->
    exists entry, entry ∈ entries ∧ (splitParent entry.path).1 = path ∧
      IsChild trees entry child

theorem treeSpec_of_children
    {entries : List SkillManifestEntry}
    {trees : List (Text × SkillManifestTree ext)}
    {treeIds : List (Text × TreeId)} {path : Text}
    {tree : SkillManifestTree ext}
    (hids : forall path id, (path, id) ∈ treeIds ->
      exists tree, (path, tree) ∈ trees ∧ tree.id = id)
    (hchildren : (entries.filter fun entry =>
      (splitParent entry.path).1 = path).mapM (childEntry treeIds) =
        .ok tree.entries)
    (hid : TreeId.fromEntries tree.entries = .ok tree.id) :
    TreeSpec entries trees path tree := by
  refine ⟨hid, ?_, ?_⟩
  · intro entry hmem hparent
    have hfilter : entry ∈ entries.filter fun entry =>
        (splitParent entry.path).1 = path := by
      simp [hmem, hparent]
    rcases mapM_eq_ok_forall hchildren entry hfilter with
      ⟨child, hchild, hentry⟩
    exact ⟨child, hchild, isChild_of_childEntry hids hentry⟩
  · intro child hmem
    rcases mapM_eq_ok_exists hchildren child hmem with
      ⟨entry, hentry, hchild⟩
    have hfilter := List.mem_filter.mp hentry
    exact ⟨entry, hfilter.1, by simpa using hfilter.2,
      isChild_of_childEntry hids hchild⟩

theorem buildTrees_output_subset
    {entries : List SkillManifestEntry} {directories : List Text}
    {treeIds : List (Text × TreeId)}
    {output result : List (Text × SkillManifestTree ext)}
    (h : buildTrees entries directories treeIds output = .ok result) :
    forall pair, pair ∈ output -> pair ∈ result := by
  induction directories generalizing treeIds output with
  | nil =>
      cases h
      exact fun pair hpair => hpair
  | cons directory rest ih =>
      rcases bind_eq_ok.mp h with ⟨children, _, h⟩
      rcases bind_eq_ok.mp h with ⟨id, _, h⟩
      intro pair hpair
      exact ih h pair (List.mem_append_left _ hpair)

theorem buildTrees_eq_ok
    {entries : List SkillManifestEntry} {directories : List Text}
    {treeIds : List (Text × TreeId)}
    {output result : List (Text × SkillManifestTree ext)}
    (h : buildTrees entries directories treeIds output = .ok result)
    (hids : forall path id, (path, id) ∈ treeIds ->
      exists tree, (path, tree) ∈ output ∧ tree.id = id)
    (houtput : forall path tree, (path, tree) ∈ output ->
      TreeSpec entries result path tree) :
    forall path tree, (path, tree) ∈ result ->
      TreeSpec entries result path tree := by
  induction directories generalizing treeIds output with
  | nil =>
      cases h
      exact houtput
  | cons directory rest ih =>
      rcases bind_eq_ok.mp h with ⟨children, hchildren, h⟩
      rcases bind_eq_ok.mp h with ⟨id, hid, h⟩
      have hgrow : forall pair,
          pair ∈ output ++ [(directory, ⟨id, children⟩)] -> pair ∈ result :=
        buildTrees_output_subset h
      have hidsResult : forall path id, (path, id) ∈ treeIds ->
          exists tree, (path, tree) ∈ result ∧ tree.id = id := by
        intro path id hmem
        rcases hids path id hmem with ⟨tree, htree, hsame⟩
        exact ⟨tree, hgrow _ (List.mem_append_left _ htree), hsame⟩
      have hspec : TreeSpec entries result directory ⟨id, children⟩ :=
        treeSpec_of_children hidsResult hchildren (mapError_eq_ok.mp hid)
      apply ih h
      · intro path id' hmem
        rcases List.mem_cons.mp hmem with hhead | htail
        · cases hhead
          exact ⟨⟨id, children⟩, by simp, rfl⟩
        · rcases hids path id' htail with ⟨tree, htree, hsame⟩
          exact ⟨tree, List.mem_append_left _ htree, hsame⟩
      · intro path tree hmem
        rcases List.mem_append.mp hmem with hold | hnew
        · exact houtput path tree hold
        · cases List.mem_singleton.mp hnew
          exact hspec

theorem buildManifestTreeObjects_eq_ok
    {entries : List SkillManifestEntry}
    {trees : List (Text × SkillManifestTree ext)}
    (h : buildManifestTreeObjects ext entries = .ok trees) :
    forall path tree, (path, tree) ∈ trees ->
      TreeSpec entries trees path tree := by
  apply buildTrees_eq_ok h
  · intro path id hmem
    cases hmem
  · intro path tree hmem
    cases hmem

/-!
## The bytes that are hashed
-/

variable (ext) in
/-- SHA-256 tells the given byte strings apart. -/
def NoCollision (inputs : List Bytes) : Prop :=
  forall a, a ∈ inputs -> forall b, b ∈ inputs ->
    ext.sha256 a = ext.sha256 b -> a = b

instance (inputs : List Bytes) : Decidable (NoCollision ext inputs) :=
  inferInstanceAs (Decidable (forall a, a ∈ inputs ->
    forall b, b ∈ inputs -> ext.sha256 a = ext.sha256 b -> a = b))

def fileContents (entries : List OwnedSkillEntry) : List Bytes :=
  entries.filterMap fun entry =>
    match entry with
    | .file _ bytes _ => some bytes
    | _ => none

variable (ext) in
/-- The transcripts of the trees that `buildSkillManifest` hashes. -/
def treeTranscripts (entries : List OwnedSkillEntry) : List Bytes :=
  let trees := do
    let manifestEntries <- entries.mapM (manifestEntryOf ext)
    buildManifestTreeObjects ext
      (sortByKey SkillManifestEntry.key manifestEntries)
  match trees with
  | .ok trees => trees.filterMap fun tree =>
      (treeTranscript tree.2.entries).toOption
  | .error _ => []

variable (ext) in
/-- Everything that `buildSkillManifest` hashes. -/
def hashedBytes (entries : List OwnedSkillEntry) : List Bytes :=
  fileContents entries ++ treeTranscripts ext entries

/-- The intermediate values of a successful `buildSkillManifest`. -/
structure ManifestBuild (entries : List OwnedSkillEntry)
    (manifest : SkillManifest)
    (trees : List (Text × SkillManifestTree ext)) : Prop where
  accepted : AcceptedEntries ext entries
  mapped : exists manifestEntries,
    entries.mapM (manifestEntryOf ext) = .ok manifestEntries ∧
      manifest.entries = sortByKey SkillManifestEntry.key manifestEntries
  built : buildManifestTreeObjects ext manifest.entries = .ok trees
  root : rootTreeOf trees = .ok manifest.rootTree

theorem buildSkillManifest_eq_ok {name : Text}
    {entries : List OwnedSkillEntry} {manifest : SkillManifest}
    (h : buildSkillManifest ext name entries = .ok manifest) :
    exists trees : List (Text × SkillManifestTree ext),
      ManifestBuild entries manifest trees := by
  rcases bind_eq_ok.mp h with ⟨validated, hvalidated, h⟩
  rcases bind_eq_ok.mp h with ⟨manifestEntries, hentries, h⟩
  rcases bind_eq_ok.mp h with ⟨trees, htrees, h⟩
  rcases bind_eq_ok.mp h with ⟨root, hroot, h⟩
  cases h
  exact ⟨trees,
    (validateSkillDirectory_eq_ok (mapError_eq_ok.mp hvalidated)).1,
    ⟨manifestEntries, hentries, rfl⟩, htrees, hroot⟩

namespace ManifestBuild

variable {entries : List OwnedSkillEntry} {manifest : SkillManifest}
  {trees : List (Text × SkillManifestTree ext)}

theorem mem_manifest (hbuild : ManifestBuild entries manifest trees)
    {entry : OwnedSkillEntry} (hmem : entry ∈ entries) :
    exists manifestEntry, manifestEntry ∈ manifest.entries ∧
      manifestEntryOf ext entry = .ok manifestEntry := by
  rcases hbuild.mapped with ⟨manifestEntries, hmap, hsorted⟩
  rcases mapM_eq_ok_forall hmap entry hmem with ⟨found, hfound, hof⟩
  refine ⟨found, ?_, hof⟩
  rw [hsorted]
  exact mem_sortByKey.mpr hfound

theorem mem_entries (hbuild : ManifestBuild entries manifest trees)
    {manifestEntry : SkillManifestEntry}
    (hmem : manifestEntry ∈ manifest.entries) :
    exists entry, entry ∈ entries ∧
      manifestEntryOf ext entry = .ok manifestEntry := by
  rcases hbuild.mapped with ⟨manifestEntries, hmap, hsorted⟩
  rw [hsorted] at hmem
  exact mapM_eq_ok_exists hmap manifestEntry (mem_sortByKey.mp hmem)

theorem file_mem_hashedBytes
    {path : Text} {bytes : Bytes} {executable : Bool}
    (hmem : .file path bytes executable ∈ entries) :
    bytes ∈ hashedBytes ext entries := by
  apply List.mem_append_left
  exact List.mem_filterMap.mpr ⟨_, hmem, rfl⟩

theorem transcript_mem_hashedBytes
    (hbuild : ManifestBuild entries manifest trees)
    {path : Text} {tree : SkillManifestTree ext} {transcript : Bytes}
    (hmem : (path, tree) ∈ trees)
    (htranscript : treeTranscript tree.entries = .ok transcript) :
    transcript ∈ hashedBytes ext entries := by
  apply List.mem_append_right
  rcases hbuild.mapped with ⟨manifestEntries, hmap, hsorted⟩
  have hbuilt := hbuild.built
  rw [hsorted] at hbuilt
  have htrees : (do
      let manifestEntries <- entries.mapM (manifestEntryOf ext)
      buildManifestTreeObjects ext
        (sortByKey SkillManifestEntry.key manifestEntries)) = .ok trees :=
    bind_eq_ok.mpr ⟨manifestEntries, hmap, hbuilt⟩
  unfold treeTranscripts
  rw [htrees]
  refine List.mem_filterMap.mpr ⟨(path, tree), hmem, ?_⟩
  rw [htranscript]
  rfl

theorem exists_root (hbuild : ManifestBuild entries manifest trees) :
    exists tree, ([], tree) ∈ trees ∧ tree.id = manifest.rootTree := by
  rcases Option.map_eq_some_iff.mp (okOr_eq_ok.mp hbuild.root) with
    ⟨⟨path, tree⟩, hfind, hid⟩
  have hpath : path = [] := by
    simpa using List.find?_some hfind
  have hmem := List.mem_of_find?_eq_some hfind
  rw [hpath] at hmem
  exact ⟨tree, hmem, hid⟩

end ManifestBuild

/-!
## From the root down
-/

theorem manifestEntryOf_path {entry : OwnedSkillEntry}
    {manifestEntry : SkillManifestEntry}
    (h : manifestEntryOf ext entry = .ok manifestEntry) :
    manifestEntry.path = entry.path := by
  cases entry with
  | file path bytes executable =>
      simp only [manifestEntryOf] at h
      split at h
      · cases h
        rfl
      · cases h
  | directory path =>
      cases h
      rfl
  | symlink path target =>
      cases h
      rfl

theorem manifestEntryOf_file {path : Text} {bytes : Bytes} {executable : Bool}
    {manifestEntry : SkillManifestEntry}
    (h : manifestEntryOf ext (.file path bytes executable) =
      .ok manifestEntry) :
    manifestEntry =
      .file path (BlobId.hash ext bytes) bytes.length executable := by
  simp only [manifestEntryOf] at h
  split at h
  · cases h
    rfl
  · cases h

section Walk

variable {a b : List OwnedSkillEntry} {manifestA manifestB : SkillManifest}
  {treesA treesB : List (Text × SkillManifestTree ext)}

/-- The two builds have a tree at the path, with the same identifier. -/
def SameTree (treesA treesB : List (Text × SkillManifestTree ext))
    (path : Text) : Prop :=
  exists treeA treeB, (path, treeA) ∈ treesA ∧ (path, treeB) ∈ treesB ∧
    treeA.id = treeB.id

theorem entries_eq_of_id_eq
    (hbuildA : ManifestBuild a manifestA treesA)
    (hbuildB : ManifestBuild b manifestB treesB)
    (hcollision : NoCollision ext (hashedBytes ext a ++ hashedBytes ext b))
    {pathA pathB : Text} {treeA treeB : SkillManifestTree ext}
    (hA : (pathA, treeA) ∈ treesA) (hB : (pathB, treeB) ∈ treesB)
    (hid : treeA.id = treeB.id) :
    sortByKey TreeEntry.key treeA.entries =
      sortByKey TreeEntry.key treeB.entries := by
  have hspecA := buildManifestTreeObjects_eq_ok hbuildA.built pathA treeA hA
  have hspecB := buildManifestTreeObjects_eq_ok hbuildB.built pathB treeB hB
  rcases bind_eq_ok.mp hspecA.hashed with ⟨transcriptA, htranscriptA, hidA⟩
  rcases bind_eq_ok.mp hspecB.hashed with ⟨transcriptB, htranscriptB, hidB⟩
  have hdigest : ext.sha256 transcriptA = ext.sha256 transcriptB := by
    simp only [pure, Except.pure, Except.ok.injEq] at hidA hidB
    rw [← hidA, ← hidB] at hid
    exact congrArg TreeId.bytes hid
  have hsame : transcriptA = transcriptB :=
    hcollision transcriptA
      (List.mem_append_left _
        (hbuildA.transcript_mem_hashedBytes hA htranscriptA))
      transcriptB
      (List.mem_append_right _
        (hbuildB.transcript_mem_hashedBytes hB htranscriptB))
      hdigest
  rw [← hsame] at htranscriptB
  exact treeTranscript_injective htranscriptA htranscriptB

/-- One level: an entry of a shared tree is an entry of the other side. -/
theorem mem_of_sameTree
    (hbuildA : ManifestBuild a manifestA treesA)
    (hbuildB : ManifestBuild b manifestB treesB)
    (hcollision : NoCollision ext (hashedBytes ext a ++ hashedBytes ext b))
    {entry : OwnedSkillEntry} (hmem : entry ∈ a)
    (hparent : SameTree treesA treesB (splitParent entry.path).1) :
    entry ∈ b ∧ forall path, entry = .directory path ->
      SameTree treesA treesB path := by
  rcases hparent with ⟨treeA, treeB, hA, hB, hid⟩
  have hentries :=
    entries_eq_of_id_eq hbuildA hbuildB hcollision hA hB hid
  rcases hbuildA.mem_manifest hmem with ⟨manifestEntry, hmanifest, hof⟩
  have hpath := manifestEntryOf_path hof
  rcases (buildManifestTreeObjects_eq_ok hbuildA.built _ treeA hA).children
    manifestEntry hmanifest (by rw [hpath]) with ⟨child, hchild, hisChild⟩
  have hchildB : child ∈ treeB.entries := by
    have hsorted : child ∈ sortByKey TreeEntry.key treeA.entries :=
      mem_sortByKey.mpr hchild
    rw [hentries] at hsorted
    exact mem_sortByKey.mp hsorted
  rcases (buildManifestTreeObjects_eq_ok hbuildB.built _ treeB hB).origin
    child hchildB with ⟨otherEntry, hother, hotherParent, hotherChild⟩
  rcases hbuildB.mem_entries hother with ⟨other, hotherMem, hotherOf⟩
  have hotherPath := manifestEntryOf_path hotherOf
  have hsamePath : entry.path = other.path := by
    apply splitParent_injective (hbuildA.accepted.portable entry hmem)
      (hbuildB.accepted.portable other hotherMem)
    apply Prod.ext
    · rw [← hotherParent, hotherPath]
    · rw [← hpath, ← hotherPath, ← hisChild.1, ← hotherChild.1]
  suffices hsame : entry = other ∧ forall path, entry = .directory path ->
      SameTree treesA treesB path by
    exact ⟨hsame.1 ▸ hotherMem, hsame.2⟩
  cases entry with
  | file path bytes executable =>
      rw [manifestEntryOf_file hof] at hisChild
      have hkind := hisChild.2
      cases other with
      | file path' bytes' executable' =>
          rw [manifestEntryOf_file hotherOf] at hotherChild
          have hkinds := hkind.symm.trans hotherChild.2
          simp only [TreeEntryKind.file.injEq] at hkinds
          have hbytes : bytes = bytes' :=
            hcollision bytes
              (List.mem_append_left _ (ManifestBuild.file_mem_hashedBytes hmem))
              bytes'
              (List.mem_append_right _
                (ManifestBuild.file_mem_hashedBytes hotherMem))
              (congrArg BlobId.bytes hkinds.1)
          have hpaths : path = path' := hsamePath
          rw [hpaths, hbytes, hkinds.2]
          exact ⟨rfl, fun directory hdirectory => by cases hdirectory⟩
      | directory path' =>
          cases hotherOf
          rcases hotherChild.2 with ⟨tree, _, hotherKind⟩
          rw [hkind] at hotherKind
          cases hotherKind
      | symlink path' target =>
          cases hotherOf
          have hotherKind := hotherChild.2
          rw [hkind] at hotherKind
          cases hotherKind
  | directory path =>
      cases hof
      rcases hisChild.2 with ⟨subtreeA, hsubtreeA, hkind⟩
      cases other with
      | file path' bytes' executable' =>
          rw [manifestEntryOf_file hotherOf] at hotherChild
          have hotherKind := hotherChild.2
          rw [hkind] at hotherKind
          cases hotherKind
      | directory path' =>
          cases hotherOf
          rcases hotherChild.2 with ⟨subtreeB, hsubtreeB, hotherKind⟩
          have hpaths : path = path' := hsamePath
          subst hpaths
          refine ⟨rfl, ?_⟩
          intro directory hdirectory
          cases hdirectory
          have hids := hkind.symm.trans hotherKind
          simp only [TreeEntryKind.directory.injEq] at hids
          exact ⟨subtreeA, subtreeB, hsubtreeA, hsubtreeB, hids⟩
      | symlink path' target =>
          cases hotherOf
          have hotherKind := hotherChild.2
          rw [hkind] at hotherKind
          cases hotherKind
  | symlink path target =>
      cases hof
      have hkind := hisChild.2
      cases other with
      | file path' bytes' executable' =>
          rw [manifestEntryOf_file hotherOf] at hotherChild
          have hotherKind := hotherChild.2
          rw [hkind] at hotherKind
          cases hotherKind
      | directory path' =>
          cases hotherOf
          rcases hotherChild.2 with ⟨tree, _, hotherKind⟩
          rw [hkind] at hotherKind
          cases hotherKind
      | symlink path' target' =>
          cases hotherOf
          have hkinds := hkind.symm.trans hotherChild.2
          simp only [TreeEntryKind.symlink.injEq] at hkinds
          have hpaths : path = path' := hsamePath
          rw [hpaths, hkinds]
          exact ⟨rfl, fun directory hdirectory => by cases hdirectory⟩

/-- All levels, by induction on the number of components of the path. -/
theorem subset_of_rootTree_eq
    (hbuildA : ManifestBuild a manifestA treesA)
    (hbuildB : ManifestBuild b manifestB treesB)
    (hcollision : NoCollision ext (hashedBytes ext a ++ hashedBytes ext b))
    (hroot : manifestA.rootTree = manifestB.rootTree) :
    forall entry, entry ∈ a -> entry ∈ b ∧
      forall path, entry = .directory path -> SameTree treesA treesB path := by
  suffices hall : forall n entry, entry ∈ a ->
      (entry.path.splitOn '/').length = n -> entry ∈ b ∧
        forall path, entry = .directory path ->
          SameTree treesA treesB path by
    intro entry hmem
    exact hall _ entry hmem rfl
  intro n
  induction n using Nat.strong_induction_on with
  | h n ih =>
      intro entry hmem hlength
      apply mem_of_sameTree hbuildA hbuildB hcollision hmem
      rcases hbuildA.accepted.parent_cases hmem with
        hrootParent | ⟨hdirectory, hshorter⟩
      · rw [hrootParent]
        rcases hbuildA.exists_root with ⟨treeA, hA, hidA⟩
        rcases hbuildB.exists_root with ⟨treeB, hB, hidB⟩
        exact ⟨treeA, treeB, hA, hB, by rw [hidA, hidB, hroot]⟩
      · exact (ih _ (hlength ▸ hshorter) _ hdirectory rfl).2 _ rfl

end Walk

theorem sortedEntries_eq_of_subset {a b : List OwnedSkillEntry}
    (ha : AcceptedEntries ext a) (hb : AcceptedEntries ext b)
    (hab : forall entry, entry ∈ a -> entry ∈ b)
    (hba : forall entry, entry ∈ b -> entry ∈ a) :
    sortByKey SkillEntry.key a = sortByKey SkillEntry.key b := by
  apply sortByKey_eq_of_perm
  · intro x y hx hy hkey
    exact List.inj_on_of_nodup_map ha.nodup hx hy (utf8_injective hkey)
  · rw [List.perm_ext_iff_of_nodup ha.nodup.of_map hb.nodup.of_map]
    intro entry
    exact ⟨hab entry, hba entry⟩

theorem NoCollision.swap {xs ys : List Bytes}
    (h : NoCollision ext (xs ++ ys)) : NoCollision ext (ys ++ xs) := by
  intro x hx y hy hxy
  exact h x (List.mem_append.mpr (List.mem_append.mp hx).symm) y
    (List.mem_append.mpr (List.mem_append.mp hy).symm) hxy

theorem sortedEntries_eq_of_rootTree_eq
    {nameA nameB : Text} {a b : List OwnedSkillEntry}
    {manifestA manifestB : SkillManifest}
    (ha : buildSkillManifest ext nameA a = .ok manifestA)
    (hb : buildSkillManifest ext nameB b = .ok manifestB)
    (hcollision : NoCollision ext (hashedBytes ext a ++ hashedBytes ext b))
    (hroot : manifestA.rootTree = manifestB.rootTree) :
    sortByKey SkillEntry.key a = sortByKey SkillEntry.key b := by
  rcases buildSkillManifest_eq_ok ha with ⟨treesA, hbuildA⟩
  rcases buildSkillManifest_eq_ok hb with ⟨treesB, hbuildB⟩
  apply sortedEntries_eq_of_subset hbuildA.accepted hbuildB.accepted
  · intro entry hmem
    exact (subset_of_rootTree_eq hbuildA hbuildB hcollision hroot
      entry hmem).1
  · intro entry hmem
    exact (subset_of_rootTree_eq hbuildB hbuildA hcollision.swap hroot.symm
      entry hmem).1

theorem validateSkillSnapshot_eq_ok {name : Text} {manifest : SkillManifest}
    {compressed : Bytes} {entries : List OwnedSkillEntry}
    (h : validateSkillSnapshot ext name manifest compressed = .ok entries) :
    buildSkillManifest ext name entries = .ok manifest := by
  rcases bind_eq_ok.mp h with ⟨items, _, h⟩
  rcases bind_eq_ok.mp h with ⟨decoded, _, h⟩
  rcases bind_eq_ok.mp h with ⟨actual, hactual, h⟩
  rcases bind_eq_ok.mp h with ⟨_, hsame, h⟩
  cases h
  have hmanifest : actual = manifest := by
    simpa using hsame
  rw [← hmanifest]
  exact hactual

theorem rootTree_determines_entries (ext : Externals) :
    (forall nameA nameB a b manifestA manifestB,
      buildSkillManifest ext nameA a = .ok manifestA ->
      buildSkillManifest ext nameB b = .ok manifestB ->
      NoCollision ext (hashedBytes ext a ++ hashedBytes ext b) ->
      manifestA.rootTree = manifestB.rootTree ->
        sortByKey SkillEntry.key a = sortByKey SkillEntry.key b) ∧
    (forall nameA nameB manifest compressedA compressedB a b,
      validateSkillSnapshot ext nameA manifest compressedA = .ok a ->
      validateSkillSnapshot ext nameB manifest compressedB = .ok b ->
      NoCollision ext (hashedBytes ext a ++ hashedBytes ext b) ->
        sortByKey SkillEntry.key a = sortByKey SkillEntry.key b) := by
  constructor
  · intro nameA nameB a b manifestA manifestB ha hb hcollision hroot
    exact sortedEntries_eq_of_rootTree_eq ha hb hcollision hroot
  · intro nameA nameB manifest compressedA compressedB a b ha hb hcollision
    exact sortedEntries_eq_of_rootTree_eq (validateSkillSnapshot_eq_ok ha)
      (validateSkillSnapshot_eq_ok hb) hcollision rfl

/-!
## A sample skill

A tree with a nested executable and a link, together with the values of the
external functions on it.
-/

/-- The big-endian bytes of a number. -/
def bytesOfNat (length n : Nat) : Bytes :=
  (List.range length).map fun i => UInt8.ofNat (n >>> (8 * (length - 1 - i)))

def digestOfNat (n : Nat) : Digest :=
  Vector.ofFn fun i => UInt8.ofNat (n >>> (8 * (31 - i.val)))

namespace Sample

def name : Text :=
  "a".toList

def frontmatter : Text :=
  "name: a\ndescription: d\n".toList

def frontmatterValue : Yaml.Value :=
  .mapping
    [(.string "name".toList, .string "a".toList),
      (.string "description".toList, .string "d".toList)]

def skillMd : Bytes :=
  utf8 ("---\n".toList ++ frontmatter ++ "---\n".toList)

def entries (target : String) : List OwnedSkillEntry :=
  [ .symlink "run".toList target.toList,
    .file skillMdPath skillMd false,
    .directory "bin".toList,
    .file "bin/run".toList (utf8 "x".toList) true ]

def sortedEntries (target : String) : List OwnedSkillEntry :=
  [ .file skillMdPath skillMd false,
    .directory "bin".toList,
    .file "bin/run".toList (utf8 "x".toList) true,
    .symlink "run".toList target.toList ]

def transcript (children : List (String × TreeEntryKind)) : Bytes :=
  treeDomain ++ u32BigEndian children.length ++
    children.flatMap fun child =>
      lengthPrefixed
        (lengthPrefixed (utf8 child.1.toList) ++ renderKind child.2)

def skillMdDigest : Digest :=
  digestOfNat
    0x81f62cc77d0c68059fd131fe5f32e77d8bb35c4ac85145bf09d5e47e2de80378

def runDigest : Digest :=
  digestOfNat
    0x2d711642b726b04401627ca9fbac32f5c8530fb1903cc4db02258717921a4881

def binDigest : Digest :=
  digestOfNat
    0x27da7935c200d9cbcee9d92610ecf7605c6d2aea4b1f2a8a84388f86f25cb61f

/-- The root digest with the link `bin/run`. -/
def linkedRoot : Nat :=
  0x86594947d78f5320db316d89da14c02318b881c8977984bf28ba86bb204680ee

/-- The root digest with the link `bin/./run`. -/
def dottedRoot : Nat :=
  0xc5821b27044effed99e6f99bbc70773c855ca72bff9fc334609d8b9a727b28c6

def rootTranscript (target : String) : Bytes :=
  transcript
    [("SKILL.md", .file ⟨skillMdDigest⟩ false), ("bin", .directory ⟨binDigest⟩),
      ("run", .symlink target.toList)]

def digests : List (Bytes × Digest) :=
  [ (skillMd, skillMdDigest),
    (utf8 "x".toList, runDigest),
    (transcript [("run", .file ⟨runDigest⟩ true)], binDigest),
    (rootTranscript "bin/run", digestOfNat linkedRoot),
    (rootTranscript "bin/./run", digestOfNat dottedRoot) ]

def records : List TarRecord :=
  [ ⟨.regular, skillMdPath, 0o644, none, skillMd⟩,
    ⟨.directory, "bin".toList, 0o755, none, []⟩,
    ⟨.regular, "bin/run".toList, 0o755, none, utf8 "x".toList⟩,
    ⟨.symlink, "run".toList, 0o777, some "bin/run".toList, []⟩ ]

def archive : Bytes :=
  bytesOfNat 180
    0x28b52ffd04603d05000207171a80b73a00666981b5d353283d058830a0e935c64ec4869085ba29825afd7f139b70d9d3531303f0215d65576caddb76e1437a32f33864c0c363102f1a96c49d868c4469f06466118a8d599abacbe957b65b14ccb6eb14c0710c08851a2000832a65786054c8ac4298822605fc28104091966862326052bc0f1583558b901b0027ec814fc51fa0140020b5d70303b44d9b08baab8f3e8a0360b20d06ef468bc0e1e0848fa6c20d6f

def externals : Externals where
  nfc text := text
  toLowercase c := [c.toLower]
  sha256 bytes := (digests.lookup bytes).getD (Vector.replicate 32 0)
  yamlFromStr text :=
    if text = frontmatter then .ok frontmatterValue else .error []
  yamlToString _ := .error []
  diffOps _ _ := []
  archiveWrite written :=
    if written = records then .ok archive else .error []
  archiveRead bytes :=
    if bytes = archive then
      .ok (records.map fun record => .ok record.toItem)
    else
      .error []

def manifest (target : String) (root : Nat) : SkillManifest where
  rootTree := ⟨digestOfNat root⟩
  entries :=
    [ .file skillMdPath ⟨skillMdDigest⟩ 31 false,
      .directory "bin".toList,
      .file "bin/run".toList ⟨runDigest⟩ 1 true,
      .symlink "run".toList target.toList ]

def linkedManifest : SkillManifest :=
  manifest "bin/run" linkedRoot

/-- What the sample's externals make of it. -/
theorem entries_checked :
    buildSkillManifest externals name (entries "bin/run") =
        .ok linkedManifest ∧
      buildSkillManifest externals name (entries "bin/run").reverse =
          .ok linkedManifest ∧
        validateSkillSnapshot externals name linkedManifest archive =
            .ok (sortedEntries "bin/run") ∧
          (validateDeclaredSkillManifest externals linkedManifest).isOk =
            true := by
  decide +kernel

theorem buildSkillManifest_entries :
    buildSkillManifest externals name (entries "bin/run") =
      .ok linkedManifest :=
  entries_checked.1

theorem buildSkillManifest_entries_reverse :
    buildSkillManifest externals name (entries "bin/run").reverse =
      .ok linkedManifest :=
  entries_checked.2.1

theorem validateSkillSnapshot_archive :
    validateSkillSnapshot externals name linkedManifest archive =
      .ok (sortedEntries "bin/run") :=
  entries_checked.2.2.1

theorem linkedManifest_declared :
    exists trees, validateDeclaredSkillManifest externals linkedManifest =
      .ok trees :=
  exists_of_isOk entries_checked.2.2.2

end Sample

theorem rootTree_determines_entries_of_sample :
    sortByKey SkillEntry.key (Sample.entries "bin/run") =
        sortByKey SkillEntry.key (Sample.entries "bin/run").reverse ∧
      sortByKey SkillEntry.key (Sample.sortedEntries "bin/run") =
        sortByKey SkillEntry.key (Sample.sortedEntries "bin/run") :=
  ⟨(rootTree_determines_entries Sample.externals).1 Sample.name Sample.name
      _ _ _ _ Sample.buildSkillManifest_entries
      Sample.buildSkillManifest_entries_reverse (by decide +kernel) rfl,
    (rootTree_determines_entries Sample.externals).2 Sample.name Sample.name
      _ _ _ _ _ Sample.validateSkillSnapshot_archive
      Sample.validateSkillSnapshot_archive (by decide +kernel)⟩

end Denju
