import Denju.Core.HashedManifest
import Denju.Core.Merge
import Denju.Lib.TreeMerge

/-!
# Merged trees

A merge without conflicts is committed at once, so its entries have to be a
portable tree again.  Every path is decided on its own; the tree rules relate a
path to its parents and to the paths that differ from it by case only.
-/

namespace Denju

open Lib

variable (ext : Externals)

/-!
## Trees as nodes
-/

/-- The portable tree of the entries, as validation collects and checks it. -/
def portableTreeOf (entries : List OwnedSkillEntry) :
    Except SkillValidationError (PortableTree ext) := do
  let portable : List (PortableEntry ext) <-
    entries.mapM fun entry =>
      (PortableEntry.new entry.path entry.kind).mapError .portablePath
  (validatePortableTree portable).mapError .portableTree

def isPortableTree (entries : List OwnedSkillEntry) : Bool :=
  (portableTreeOf ext entries).toBool

def pathShape : PathShape Text Text where
  above upper path :=
    exists stop, 0 < stop ∧ stop < (path.splitOn '/').length ∧
      upper = join '/' ((path.splitOn '/').take stop)
  fold := foldCase ext

def OwnedSkillEntry.node : OwnedSkillEntry -> Node OwnedSkillEntry
  | .directory _ => .directory
  | entry => .leaf entry

def nodes (entries : List OwnedSkillEntry) (path : Text) :
    Option (Node OwnedSkillEntry) :=
  (byPath entries path).map OwnedSkillEntry.node

/-- The entry passes on its own. -/
structure EntrySound (entry : OwnedSkillEntry) : Prop where
  path : validatePortablePath ext entry.path = .ok ()
  target : forall target, entry.kind = .symlink target ->
    validateSymlinkTarget (⟨entry.path, path⟩ : PortablePath ext) target =
      .ok ()

variable {ext}

theorem byPath_eq_some {entries : List OwnedSkillEntry}
    (hnodup : (entries.map SkillEntry.path).Nodup) {path : Text}
    {entry : OwnedSkillEntry} :
    byPath entries path = some entry <-> entry ∈ entries ∧ entry.path = path := by
  unfold byPath
  constructor
  · intro h
    have hpath := List.find?_some h
    exact ⟨List.mem_reverse.mp (List.mem_of_find?_eq_some h),
      of_decide_eq_true hpath⟩
  · rintro ⟨hmem, rfl⟩
    cases hfound : entries.reverse.find? fun other =>
        other.path = entry.path with
    | none =>
        have hnone := List.find?_eq_none.mp hfound entry
          (List.mem_reverse.mpr hmem)
        simp at hnone
    | some other =>
        have hpath : other.path = entry.path := by
          simpa using List.find?_some hfound
        have hother := List.mem_reverse.mp (List.mem_of_find?_eq_some hfound)
        rw [List.inj_on_of_nodup_map hnodup hother hmem hpath]

theorem nodes_isSome_iff {entries : List OwnedSkillEntry} {path : Text} :
    (nodes entries path).isSome = true <->
      exists entry, entry ∈ entries ∧ entry.path = path := by
  unfold nodes byPath
  rw [Option.isSome_map, List.find?_isSome]
  simp

theorem OwnedSkillEntry.node_eq_directory {entry : OwnedSkillEntry} :
    entry.node = .directory <-> entry = .directory entry.path := by
  cases entry with
  | file path bytes executable => simp [node]
  | directory path => simp [node, SkillEntry.path]
  | symlink path target => simp [node]

theorem nodes_eq_directory {entries : List OwnedSkillEntry}
    (hnodup : (entries.map SkillEntry.path).Nodup) {path : Text} :
    nodes entries path = some .directory <-> .directory path ∈ entries := by
  unfold nodes
  rw [Option.map_eq_some_iff]
  constructor
  · rintro ⟨entry, hentry, hnode⟩
    rcases (byPath_eq_some hnodup).mp hentry with ⟨hmem, rfl⟩
    rw [← OwnedSkillEntry.node_eq_directory.mp hnode]
    exact hmem
  · intro hmem
    exact ⟨_, (byPath_eq_some hnodup).mpr ⟨hmem, rfl⟩, rfl⟩

/-!
## What validation accepts
-/

theorem collectKinds_of_nodup {entries : List (PortableEntry ext)}
    {foldedPaths : List (Text × Text)} {kinds : List (Text × EntryClass)}
    (hnodup : (entries.map fun entry =>
      foldCase ext entry.path.value).Nodup)
    (hfresh : forall entry, entry ∈ entries ->
      foldedPaths.lookup (foldCase ext entry.path.value) = none) :
    exists result, collectKinds entries foldedPaths kinds = .ok result := by
  induction entries generalizing foldedPaths kinds with
  | nil => exact ⟨kinds, rfl⟩
  | cons entry rest ih =>
      rw [List.map_cons, List.nodup_cons] at hnodup
      unfold collectKinds
      dsimp only
      rw [hfresh entry List.mem_cons_self]
      apply ih hnodup.2
      intro other hother
      have hne : (foldCase ext other.path.value ==
          foldCase ext entry.path.value) = false := by
        apply beq_false_of_ne
        intro hsame
        apply hnodup.1
        exact List.mem_map.mpr ⟨other, hother, hsame⟩
      rw [List.lookup_cons, hne]
      exact hfresh other (List.mem_cons_of_mem entry hother)

theorem checkEntry_of_tree {entries : List (PortableEntry ext)}
    {kinds : List (Text × EntryClass)}
    (hkinds : collectKinds entries [] [] = .ok kinds)
    {entry : PortableEntry ext}
    (hparents : forall stop, 0 < stop ->
      stop < entry.path.components.length ->
        exists parent, parent ∈ entries ∧
          parent.path.value = join '/' (entry.path.components.take stop) ∧
            parent.kind = .directory)
    (htarget : forall target, entry.kind = .symlink target ->
      validateSymlinkTarget entry.path target = .ok ()) :
    checkEntry kinds entry = .ok () := by
  have hspec := collectKinds_eq_ok hkinds
  have hpaths : (entries.map fun entry => entry.path.value).Nodup := by
    have hmap : (entries.map fun entry => foldCase ext entry.path.value) =
        (entries.map fun entry => entry.path.value).map (foldCase ext) := by
      simp
    have hfolded := hspec.1
    rw [hmap] at hfolded
    exact hfolded.of_map (foldCase ext)
  have hlookup : forall parent, parent ∈ entries -> parent.kind = .directory ->
      kinds.lookup parent.path.value = some .directory := by
    intro parent hparent hkind
    have hpair : (parent.path.value, EntryClass.directory) ∈ kinds := by
      rw [hspec.2.2]
      simp only [List.append_nil, List.mem_reverse, List.mem_map,
        Prod.mk.injEq]
      exact ⟨parent, hparent, rfl, by rw [hkind]; rfl⟩
    cases hfound : kinds.lookup parent.path.value with
    | none =>
        have hnone := List.lookup_eq_none_iff.mp hfound _ hpair
        simp at hnone
    | some found =>
        have hmem := mem_of_lookup_eq_some hfound
        rw [hspec.2.2] at hmem
        simp only [List.append_nil, List.mem_reverse, List.mem_map,
          Prod.mk.injEq] at hmem
        rcases hmem with ⟨other, hother, hpath, hclass⟩
        have hsame := List.inj_on_of_nodup_map hpaths hother hparent hpath
        rw [hsame, hkind] at hclass
        rw [← hclass]
        rfl
  refine bind_eq_ok.mpr ⟨(), ?_, ?_⟩
  · apply forM_eq_ok.mpr
    intro stop hstop
    rw [List.mem_range'_1] at hstop
    rcases hparents stop (by omega) (by omega) with
      ⟨parent, hparent, hpath, hkind⟩
    have hdirectory := hlookup parent hparent hkind
    rw [hpath] at hdirectory
    dsimp only
    rw [hdirectory]
  · cases hkind : entry.kind with
    | file executable => rfl
    | directory => rfl
    | symlink target => exact htarget target hkind

theorem sound_of_portableTree {entries : List OwnedSkillEntry}
    {tree : PortableTree ext} (h : portableTreeOf ext entries = .ok tree) :
    (forall entry, entry ∈ entries -> EntrySound ext entry) ∧
      (entries.map SkillEntry.path).Nodup ∧
        WellFormed (pathShape ext) (nodes entries) := by
  rcases bind_eq_ok.mp h with ⟨portable, hportable, htree⟩
  have hentries := validatePortableTree_eq_ok.mp (mapError_eq_ok.mp htree)
  have hviews : (tree.entries.map PortableEntry.view).Perm
      (entries.map SkillEntry.view) := by
    rw [hentries]
    exact ((sortByKey_perm _ portable).map _).trans
      (List.Perm.of_eq (portable_views hportable))
  have haccepted := acceptedEntries_of_views hviews
  have hfolded : (entries.map fun entry =>
      foldCase ext entry.path).Nodup := by
    rcases tree.exists_kinds with ⟨kinds, hkinds, _⟩
    have hpaths := hviews.map fun view => foldCase ext view.1
    rw [List.map_map, List.map_map] at hpaths
    exact hpaths.nodup_iff.mp (collectKinds_eq_ok hkinds).1
  refine ⟨?_, haccepted.nodup, ?_, ?_⟩
  · intro entry hmem
    refine ⟨haccepted.portable entry hmem, ?_⟩
    intro target hkind
    cases entry with
    | file path bytes executable => cases hkind
    | directory path => cases hkind
    | symlink path found =>
        cases hkind
        rcases haccepted.target path target hmem with ⟨parsed, rfl, htarget⟩
        exact htarget
  · rintro upper path ⟨stop, hpos, hstop, rfl⟩ hsome
    rcases nodes_isSome_iff.mp hsome with ⟨entry, hmem, rfl⟩
    exact (nodes_eq_directory haccepted.nodup).mpr
      (haccepted.parent entry stop hmem hpos hstop)
  · intro path other hpath hother hfold
    rcases nodes_isSome_iff.mp hpath with ⟨entry, hmem, rfl⟩
    rcases nodes_isSome_iff.mp hother with ⟨entry', hmem', rfl⟩
    rw [List.inj_on_of_nodup_map hfolded hmem hmem' hfold]

theorem exists_portableTree {entries : List OwnedSkillEntry}
    (hsound : forall entry, entry ∈ entries -> EntrySound ext entry)
    (hnodup : (entries.map SkillEntry.path).Nodup)
    (hformed : WellFormed (pathShape ext) (nodes entries)) :
    exists tree, portableTreeOf ext entries = .ok tree := by
  have hvalid : forall entry, entry ∈ entries ->
      validatePortablePath ext entry.path = .ok () :=
    fun entry hmem => (hsound entry hmem).path
  rcases @exists_portable ext _ _ SkillEntry.path SkillEntry.kind
    SkillValidationError.portablePath _ hvalid with ⟨portable, hportable⟩
  have hviews : ((sortByKey PortableEntry.key portable).map
      PortableEntry.view).Perm (entries.map SkillEntry.view) :=
    ((sortByKey_perm _ portable).map _).trans
      (List.Perm.of_eq (portable_views hportable))
  have hentry : forall found, found ∈ sortByKey PortableEntry.key portable ->
      exists entry, entry ∈ entries ∧ entry.view = found.view := by
    intro found hfound
    exact List.mem_map.mp (hviews.mem_iff.mp (List.mem_map_of_mem hfound))
  have hfolded : ((sortByKey PortableEntry.key portable).map fun entry =>
      foldCase ext entry.path.value).Nodup := by
    have hpaths := hviews.map fun view => foldCase ext view.1
    rw [List.map_map, List.map_map] at hpaths
    refine hpaths.nodup_iff.mpr ?_
    have hmap : entries.map ((fun view => foldCase ext view.1) ∘
        SkillEntry.view) = (entries.map SkillEntry.path).map
          (foldCase ext) := by
      rw [List.map_map]
      rfl
    rw [hmap]
    apply hnodup.map_on
    intro path hpath other hother hsame
    rcases List.mem_map.mp hpath with ⟨entry, hmem, rfl⟩
    rcases List.mem_map.mp hother with ⟨entry', hmem', rfl⟩
    exact hformed.apart _ _ (nodes_isSome_iff.mpr ⟨entry, hmem, rfl⟩)
      (nodes_isSome_iff.mpr ⟨entry', hmem', rfl⟩) hsame
  rcases @collectKinds_of_nodup ext _ [] [] hfolded fun _ _ => rfl with
    ⟨kinds, hkinds⟩
  have hcheck : checkPortableTree (sortByKey PortableEntry.key portable) =
      .ok () := by
    refine bind_eq_ok.mpr ⟨kinds, hkinds, forM_eq_ok.mpr ?_⟩
    intro found hfound
    rcases hentry found hfound with ⟨entry, hmem, hview⟩
    have hpath : entry.path = found.path.value := congrArg Prod.fst hview
    have hkind : entry.kind = found.kind := congrArg Prod.snd hview
    apply checkEntry_of_tree hkinds
    · intro stop hpos hstop
      have hdirectory := hformed.parents
        (join '/' (found.path.components.take stop)) entry.path
        ⟨stop, hpos, by rw [hpath]; exact hstop, by rw [hpath]; rfl⟩
        (nodes_isSome_iff.mpr ⟨entry, hmem, rfl⟩)
      have hparent := (nodes_eq_directory hnodup).mp hdirectory
      have hparentView := hviews.mem_iff.mpr
        (List.mem_map_of_mem (f := SkillEntry.view) hparent)
      rcases List.mem_map.mp hparentView with ⟨parent, hparent, hsame⟩
      exact ⟨parent, hparent, congrArg Prod.fst hsame,
        congrArg Prod.snd hsame⟩
    · intro target htarget
      rw [← hkind] at htarget
      have hsame : (⟨entry.path, (hsound entry hmem).path⟩ :
          PortablePath ext) = found.path := by
        rcases found with ⟨⟨value, valid⟩, kind⟩
        cases hpath
        rfl
      rw [← hsame]
      exact (hsound entry hmem).target target htarget
  have htree : exists tree, validatePortableTree portable = .ok tree := by
    refine ⟨⟨_, sortByKey_pairwise _ portable, hcheck⟩, ?_⟩
    exact validatePortableTree_eq_ok.mpr rfl
  rcases htree with ⟨tree, htree⟩
  exact ⟨tree, bind_eq_ok.mpr ⟨portable, hportable,
    mapError_eq_ok.mpr htree⟩⟩

/-- A list of entries is a portable tree when each entry passes on its own and
the paths fit together. -/
theorem isPortableTree_iff {entries : List OwnedSkillEntry} :
    isPortableTree ext entries = true <->
      (forall entry, entry ∈ entries -> EntrySound ext entry) ∧
        (entries.map SkillEntry.path).Nodup ∧
          WellFormed (pathShape ext) (nodes entries) := by
  have hok : isPortableTree ext entries = true <->
      exists tree, portableTreeOf ext entries = .ok tree := by
    unfold isPortableTree
    cases portableTreeOf ext entries with
    | ok tree => simp [Except.toBool]
    | error error => simp [Except.toBool]
  rw [hok]
  constructor
  · rintro ⟨tree, h⟩
    exact sound_of_portableTree h
  · rintro ⟨hsound, hnodup, hformed⟩
    exact exists_portableTree hsound hnodup hformed

/-!
## The outcome of a merge
-/

theorem path_of_byPath {entries : List OwnedSkillEntry} {path : Text}
    {entry : OwnedSkillEntry} (h : byPath entries path = some entry) :
    entry ∈ entries ∧ entry.path = path :=
  ⟨List.mem_reverse.mp (List.mem_of_find?_eq_some h), by
    simpa using List.find?_some h⟩

def goodOutcome
    (outcome : Text -> Except MergeConflictKind (Option OwnedSkillEntry))
    (path : Text) : Option OwnedSkillEntry :=
  match outcome path with
  | .ok entry => entry
  | .error _ => none

theorem foldl_collectPath
    {outcome : Text -> Except MergeConflictKind (Option OwnedSkillEntry)}
    {paths : List Text} {collected : List OwnedSkillEntry × List MergeConflict}
    (h : (paths.foldl (collectPath outcome) collected).2 = []) :
    collected.2 = [] ∧
      (forall path, path ∈ paths -> exists entry, outcome path = .ok entry) ∧
      (paths.foldl (collectPath outcome) collected).1 =
        collected.1 ++ paths.filterMap (goodOutcome outcome) := by
  induction paths generalizing collected with
  | nil => exact ⟨h, fun _ hmem => absurd hmem List.not_mem_nil, by simp⟩
  | cons path rest ih =>
      rw [List.foldl_cons] at h ⊢
      rcases ih h with ⟨hnone, hok, hentries⟩
      rw [hentries]
      unfold collectPath at hnone ⊢
      cases hpath : outcome path with
      | error kind =>
          rw [hpath] at hnone
          simp at hnone
      | ok entry =>
          rw [hpath] at hnone
          have hall : forall other, other ∈ path :: rest ->
              exists entry, outcome other = .ok entry := by
            intro other hother
            rcases List.mem_cons.mp hother with rfl | hrest
            · exact ⟨entry, hpath⟩
            · exact hok other hrest
          cases entry with
          | none =>
              refine ⟨hnone, hall, ?_⟩
              rw [List.filterMap_cons_none (by rw [goodOutcome, hpath])]
          | some found =>
              refine ⟨hnone, hall, ?_⟩
              rw [List.filterMap_cons_some (b := found)
                (by rw [goodOutcome, hpath])]
              simp

theorem mem_mergedPaths {base headA headB : List OwnedSkillEntry}
    {path : Text} :
    path ∈ mergedPaths base headA headB <->
      exists entry, entry ∈ base ++ headA ++ headB ∧ entry.path = path := by
  unfold mergedPaths
  rw [mem_sortByKey, List.mem_dedup, List.mem_map]

theorem mergeChangedPath_eq_ok {base a b : Option OwnedSkillEntry}
    {entry : Option OwnedSkillEntry}
    (h : mergeChangedPath ext base a b = .ok entry) :
    exists path baseBytes baseExecutable pathA aBytes aExecutable pathB bBytes
      bExecutable bytes executable,
      base = some (.file path baseBytes baseExecutable) ∧
        a = some (.file pathA aBytes aExecutable) ∧
        b = some (.file pathB bBytes bExecutable) ∧
        entry = some (.file path bytes executable) := by
  unfold mergeChangedPath at h
  split at h
  · rename_i base a b
    split at h
    · rcases bind_eq_ok.mp h with ⟨executable, _, h⟩
      rcases bind_eq_ok.mp h with ⟨bytes, _, h⟩
      cases h
      exact ⟨_, _, _, _, _, _, _, _, _, _, _, rfl, rfl, rfl, rfl⟩
    · cases h
  · cases h
  · cases h

theorem mergePath_outcome {path : Text}
    {base a b merged : Option OwnedSkillEntry}
    (h : mergePath ext [] path base a b = .ok merged) :
    Outcome (base.map OwnedSkillEntry.node) (a.map OwnedSkillEntry.node)
      (b.map OwnedSkillEntry.node) (merged.map OwnedSkillEntry.node) := by
  unfold mergePath at h
  split at h
  · rename_i hsame
    cases h
    rw [hsame]
    exact .same _ _
  · split at h
    · rename_i hbase
      cases h
      rw [hbase]
      exact .left _ _
    · split at h
      · rename_i hbase
        cases h
        rw [hbase]
        exact .right _ _
      · split at h
        · rename_i entry hchanged
          cases h
          rcases mergeChangedPath_eq_ok hchanged with
            ⟨_, _, _, _, _, _, _, _, _, _, _, rfl, rfl, rfl, rfl⟩
          exact .content _ _ _ _
        · simp at h

/-- A merged entry comes from a head, or is a file at a path of the base. -/
theorem mergePath_source {path : Text}
    {base a b : Option OwnedSkillEntry} {entry : OwnedSkillEntry}
    (h : mergePath ext [] path base a b = .ok (some entry)) :
    some entry = a ∨ some entry = b ∨
      exists path baseBytes baseExecutable bytes executable,
        base = some (.file path baseBytes baseExecutable) ∧
          entry = .file path bytes executable := by
  unfold mergePath at h
  split at h
  · cases h
    exact Or.inl rfl
  · split at h
    · cases h
      exact Or.inr (Or.inl rfl)
    · split at h
      · cases h
        exact Or.inl rfl
      · split at h
        · rename_i found hchanged
          cases h
          rcases mergeChangedPath_eq_ok hchanged with
            ⟨_, _, _, _, _, _, _, _, _, _, _, hbase, _, _, hentry⟩
          cases hentry
          exact Or.inr (Or.inr ⟨_, _, _, _, _, hbase, rfl⟩)
        · simp at h

/-- What becomes of the path. -/
def outcomeAt (ext : Externals) (base headA headB : List OwnedSkillEntry)
    (path : Text) : Except MergeConflictKind (Option OwnedSkillEntry) :=
  mergePath ext [] path (byPath base path) (byPath headA path)
    (byPath headB path)

section Clean

variable {base headA headB merged : List OwnedSkillEntry}

theorem outcomeAt_path {path : Text} {entry : OwnedSkillEntry}
    (h : outcomeAt ext base headA headB path = .ok (some entry)) :
    entry.path = path := by
  rcases mergePath_source h with ha | hb | ⟨_, _, _, _, _, hbase, rfl⟩
  · exact (path_of_byPath ha.symm).2
  · exact (path_of_byPath hb.symm).2
  · exact (path_of_byPath hbase).2

theorem goodOutcome_eq_some {path : Text} {entry : OwnedSkillEntry} :
    goodOutcome (outcomeAt ext base headA headB) path = some entry <->
      outcomeAt ext base headA headB path = .ok (some entry) := by
  unfold goodOutcome
  cases outcomeAt ext base headA headB path with
  | ok found => simp
  | error kind => simp

theorem outcomeAt_absent {path : Text}
    (h : path ∉ mergedPaths base headA headB) :
    outcomeAt ext base headA headB path = .ok none := by
  have habsent : forall entries, entries ⊆ base ++ headA ++ headB ->
      byPath entries path = none := by
    intro entries hsubset
    cases hfound : byPath entries path with
    | none => rfl
    | some entry =>
        rcases path_of_byPath hfound with ⟨hmem, hpath⟩
        exact absurd (mem_mergedPaths.mpr ⟨entry, hsubset hmem, hpath⟩) h
  unfold outcomeAt mergePath
  rw [habsent base (by simp), habsent headA (by simp),
    habsent headB (by simp)]
  rfl

/-- A clean merge holds at every path what became of it. -/
theorem mergeSkillEntries_eq_clean
    (h : mergeSkillEntries ext base headA headB = .clean merged) :
    (merged.map SkillEntry.path).Nodup ∧
      forall path, outcomeAt ext base headA headB path =
        .ok (byPath merged path) := by
  unfold mergeSkillEntries mergeSkillEntriesWithResolutions at h
  dsimp only at h
  split at h
  · rename_i hempty
    cases h
    rcases foldl_collectPath (List.isEmpty_iff.mp hempty) with
      ⟨_, hok, hentries⟩
    rw [List.nil_append] at hentries
    change _ = (mergedPaths base headA headB).filterMap
      (goodOutcome (outcomeAt ext base headA headB)) at hentries
    rw [hentries]
    have hpaths : (mergedPaths base headA headB).Nodup :=
      (sortByKey_perm utf8 _).nodup_iff.mpr (List.nodup_dedup _)
    have hmem : forall entry, entry ∈ sortByKey SkillEntry.key
        ((mergedPaths base headA headB).filterMap
          (goodOutcome (outcomeAt ext base headA headB))) <->
        entry.path ∈ mergedPaths base headA headB ∧
          outcomeAt ext base headA headB entry.path = .ok (some entry) := by
      intro entry
      rw [mem_sortByKey, List.mem_filterMap]
      constructor
      · rintro ⟨path, hpath, hgood⟩
        have hat := goodOutcome_eq_some.mp hgood
        rw [outcomeAt_path hat]
        exact ⟨hpath, hat⟩
      · rintro ⟨hpath, hat⟩
        exact ⟨_, hpath, goodOutcome_eq_some.mpr hat⟩
    have hnodup : ((sortByKey SkillEntry.key
        ((mergedPaths base headA headB).filterMap
          (goodOutcome (outcomeAt ext base headA headB)))).map
            SkillEntry.path).Nodup := by
      rw [((sortByKey_perm _ _).map _).nodup_iff, List.map_filterMap]
      apply hpaths.filterMap
      intro path other found hfound hfound'
      rcases Option.map_eq_some_iff.mp hfound with ⟨entry, hgood, rfl⟩
      rcases Option.map_eq_some_iff.mp hfound' with ⟨entry', hgood', hsame⟩
      rw [← outcomeAt_path (goodOutcome_eq_some.mp hgood), ← hsame,
        outcomeAt_path (goodOutcome_eq_some.mp hgood')]
    refine ⟨hnodup, ?_⟩
    intro path
    have hvalue : exists value, outcomeAt ext base headA headB path =
        .ok value := by
      by_cases hlisted : path ∈ mergedPaths base headA headB
      · exact hok path hlisted
      · exact ⟨none, outcomeAt_absent hlisted⟩
    rcases hvalue with ⟨value, hvalue⟩
    rw [hvalue]
    apply congrArg
    apply Option.ext
    intro entry
    rw [byPath_eq_some hnodup, hmem]
    constructor
    · rintro rfl
      have hpath := outcomeAt_path hvalue
      refine ⟨⟨?_, by rw [hpath]; exact hvalue⟩, hpath⟩
      rw [hpath]
      by_contra hlisted
      rw [outcomeAt_absent hlisted] at hvalue
      cases hvalue
    · rintro ⟨⟨_, hat⟩, rfl⟩
      rw [hvalue] at hat
      exact Except.ok.inj hat
  · cases h

end Clean

/-!
## When a clean merge is a tree
-/

/-- The heads add no two paths that differ by case only, and neither adds a path
below a directory of the base that the other one removes or replaces. -/
def MergesSafely (ext : Externals) (base headA headB : List OwnedSkillEntry) :
    Prop :=
  ¬Twins (pathShape ext) (nodes base) (nodes headA) (nodes headB) ∧
    ¬Orphans (pathShape ext) (nodes base) (nodes headA) (nodes headB) ∧
      ¬Orphans (pathShape ext) (nodes base) (nodes headB) (nodes headA)

theorem EntrySound.file {path : Text} {bytes bytes' : Bytes}
    {executable executable' : Bool}
    (h : EntrySound ext (.file path bytes executable)) :
    EntrySound ext (.file path bytes' executable') where
  path := h.path
  target := fun _ htarget => by cases htarget

/-- A clean merge of three portable trees is a portable tree exactly when the
heads merge safely. -/
theorem isPortableTree_merge_iff (ext : Externals)
    {base headA headB merged : List OwnedSkillEntry}
    (hbase : isPortableTree ext base = true)
    (hheadA : isPortableTree ext headA = true)
    (hheadB : isPortableTree ext headB = true)
    (hclean : mergeSkillEntries ext base headA headB = .clean merged) :
    isPortableTree ext merged = true <-> MergesSafely ext base headA headB := by
  rcases isPortableTree_iff.mp hbase with ⟨hsoundBase, _, _⟩
  rcases isPortableTree_iff.mp hheadA with ⟨hsoundA, _, hformedA⟩
  rcases isPortableTree_iff.mp hheadB with ⟨hsoundB, _, hformedB⟩
  rcases mergeSkillEntries_eq_clean hclean with ⟨hnodup, houtcome⟩
  have hsound : forall entry, entry ∈ merged -> EntrySound ext entry := by
    intro entry hmem
    have hat := houtcome entry.path
    rw [(byPath_eq_some hnodup).mpr ⟨hmem, rfl⟩] at hat
    rcases mergePath_source hat with ha | hb | ⟨_, _, _, _, _, hfile, rfl⟩
    · exact hsoundA entry (path_of_byPath ha.symm).1
    · exact hsoundB entry (path_of_byPath hb.symm).1
    · exact (hsoundBase _ (path_of_byPath hfile).1).file
  have hformed := wellFormed_merge_iff (pathShape ext) hformedA hformedB
    fun path => mergePath_outcome (houtcome path)
  rw [isPortableTree_iff]
  constructor
  · rintro ⟨_, _, hmerged⟩
    exact hformed.mp hmerged
  · intro hsafe
    exact ⟨hsound, hnodup, hformed.mpr hsafe⟩

namespace Sample

def note : OwnedSkillEntry :=
  .file "d/x".toList (utf8 "x".toList) false

/-- One head removes the directory into which the other one adds a file. -/
def directoryBase : List OwnedSkillEntry :=
  [.file skillMdPath skillMd false, .directory "d".toList]

def directoryRemoved : List OwnedSkillEntry :=
  [.file skillMdPath skillMd false]

def directoryFilled : List OwnedSkillEntry :=
  [.file skillMdPath skillMd false, .directory "d".toList, note]

end Sample

/-- Three portable trees merge cleanly into a file without its directory. -/
theorem merge_drops_parent :
    isPortableTree Sample.mergeExternals Sample.directoryBase = true ∧
      isPortableTree Sample.mergeExternals Sample.directoryRemoved = true ∧
      isPortableTree Sample.mergeExternals Sample.directoryFilled = true ∧
      mergeSkillEntries Sample.mergeExternals Sample.directoryBase
          Sample.directoryRemoved Sample.directoryFilled =
        .clean [.file skillMdPath Sample.skillMd false, Sample.note] ∧
      isPortableTree Sample.mergeExternals
        [.file skillMdPath Sample.skillMd false, Sample.note] = false := by
  decide +kernel

/-- A head without changes merges safely. -/
theorem isPortableTree_merge_unchanged :
    MergesSafely Sample.mergeExternals Sample.directoryBase
      Sample.directoryBase Sample.directoryFilled :=
  (@isPortableTree_merge_iff Sample.mergeExternals _ _ _ Sample.directoryFilled
    (by decide +kernel) (by decide +kernel) (by decide +kernel)
    (by decide +kernel)).mp (by decide +kernel)

end Denju
