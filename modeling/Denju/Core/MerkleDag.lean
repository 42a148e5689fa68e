import Denju.Core.HashedManifest

/-!
# The tree objects of a declared manifest

The deepest directories come first, so a directory finds the trees of its
subdirectories in the table.  The returned trees are a Merkle DAG of the
manifest in whatever order its entries are listed.
-/

namespace Denju

open Lib

variable {ext : Externals}

/-!
## Portable manifests
-/

/-- The entry without its bytes. -/
def SkillManifestEntry.withoutBytes : SkillManifestEntry -> SkillEntry
  | .file path _ _ executable => .file path [] executable
  | .directory path => .directory path
  | .symlink path target => .symlink path target

theorem withoutBytes_view (entry : SkillManifestEntry) :
    entry.withoutBytes.view = entry.view := by
  cases entry with
  | file path blob size executable => rfl
  | directory path => rfl
  | symlink path target => rfl

theorem withoutBytes_path (entry : SkillManifestEntry) :
    entry.withoutBytes.path = entry.path :=
  congrArg Prod.fst (withoutBytes_view entry)

theorem SkillManifestEntry.eq_directory {entry : SkillManifestEntry}
    {path : Text} (h : entry.withoutBytes = .directory path) :
    entry = .directory path := by
  cases entry with
  | file path' blob size executable => cases h
  | directory path' =>
      cases h
      rfl
  | symlink path' target => cases h

variable (ext) in
/-- What a validated tree knows of the paths of its entries. -/
structure PortablePaths (entries : List SkillManifestEntry) : Prop where
  nodup : (entries.map SkillManifestEntry.path).Nodup
  valid : forall entry, entry ∈ entries ->
    validatePortablePath ext entry.path = .ok ()
  parent : forall entry, entry ∈ entries ->
    (splitParent entry.path).1 = [] ∨
      (.directory (splitParent entry.path).1 ∈ entries ∧
        ((splitParent entry.path).1.splitOn '/').length <
          (entry.path.splitOn '/').length)

theorem portablePaths_of_valid {entries : List SkillManifestEntry}
    {portable : List (PortableEntry ext)} {tree : PortableTree ext}
    (hportable : declaredEntries ext entries = .ok portable)
    (htree : validatePortableTree portable = .ok tree) :
    PortablePaths ext entries := by
  have hviews : (tree.entries.map PortableEntry.view).Perm
      ((entries.map SkillManifestEntry.withoutBytes).map SkillEntry.view) := by
    have hsame : (entries.map SkillManifestEntry.withoutBytes).map
        SkillEntry.view = entries.map SkillManifestEntry.view := by
      rw [List.map_map]
      exact List.map_congr_left fun entry _ => withoutBytes_view entry
    rw [validatePortableTree_eq_ok.mp htree, hsame]
    have hperm := (sortByKey_perm PortableEntry.key portable).map
      PortableEntry.view
    rw [portable_views hportable] at hperm
    exact hperm
  have haccepted := acceptedEntries_of_views hviews
  constructor
  · have hnodup := haccepted.nodup
    rw [List.map_map] at hnodup
    have hpaths : SkillEntry.path ∘ SkillManifestEntry.withoutBytes =
        SkillManifestEntry.path := funext withoutBytes_path
    rw [hpaths] at hnodup
    exact hnodup
  · intro entry hentry
    rw [← withoutBytes_path]
    exact haccepted.portable _ (List.mem_map_of_mem hentry)
  · intro entry hentry
    have hparent := haccepted.parent_cases
      (List.mem_map_of_mem (f := SkillManifestEntry.withoutBytes) hentry)
    rw [withoutBytes_path] at hparent
    rcases hparent with hroot | ⟨hdirectory, hdeeper⟩
    · exact .inl hroot
    · rcases List.mem_map.mp hdirectory with ⟨directory, hmem, hsame⟩
      rw [SkillManifestEntry.eq_directory hsame] at hmem
      exact .inr ⟨hmem, hdeeper⟩

theorem mem_manifestDirectories {entries : List SkillManifestEntry}
    {path : Text} :
    path ∈ manifestDirectories entries <-> .directory path ∈ entries := by
  unfold manifestDirectories
  rw [List.mem_filterMap]
  constructor
  · rintro ⟨entry, hentry, hpath⟩
    cases entry with
    | file path' blob size executable => cases hpath
    | directory path' =>
        cases hpath
        exact hentry
    | symlink path' target => cases hpath
  · intro hentry
    exact ⟨_, hentry, rfl⟩

/-!
## The order of the directories
-/

/-- The directories in the order in which their trees are built. -/
def orderedDirectories (entries : List SkillManifestEntry) : List Text :=
  sortByKey directoryKey (manifestDirectories entries ++ [[]])

theorem mem_orderedDirectories {entries : List SkillManifestEntry}
    {path : Text} :
    path ∈ orderedDirectories entries <->
      .directory path ∈ entries ∨ path = [] := by
  rw [orderedDirectories, mem_sortByKey, List.mem_append,
    mem_manifestDirectories, List.mem_singleton]

theorem pathComponentCount_of_ne_nil {path : Text} (h : path ≠ []) :
    pathComponentCount path = (path.splitOn '/').length := by
  unfold pathComponentCount
  rw [if_neg]
  rw [List.isEmpty_iff]
  exact h

theorem pathComponentCount_pos {path : Text} (h : path ≠ []) :
    0 < pathComponentCount path := by
  rw [pathComponentCount_of_ne_nil h]
  exact List.length_pos_of_ne_nil (List.splitOn_ne_nil '/' path)

theorem keyLe_directoryKey {a b : Text} (h : keyLe directoryKey a b) :
    pathComponentCount b ≤ pathComponentCount a := by
  rcases Prod.Lex.le_iff.mp h with hlt | ⟨heq, _⟩
  · exact le_of_lt hlt
  · exact le_of_eq heq.symm

namespace PortablePaths

variable {entries : List SkillManifestEntry}

theorem path_ne_nil (h : PortablePaths ext entries)
    {entry : SkillManifestEntry} (hentry : entry ∈ entries) :
    entry.path ≠ [] := by
  intro hnil
  have hvalid := validatePortablePath_components (h.valid entry hentry)
  rw [hnil] at hvalid
  exact validateComponent_ne_nil (hvalid [] (by simp)) rfl

theorem nodup_orderedDirectories (h : PortablePaths ext entries) :
    (orderedDirectories entries).Nodup := by
  have hdirectories : (manifestDirectories entries).Nodup := by
    apply List.Nodup.filterMap _ (List.Nodup.of_map _ h.nodup)
    intro a b path ha hb
    cases a with
    | directory a =>
        cases b with
        | directory b =>
            cases ha
            cases hb
            rfl
        | file path' blob size executable => cases hb
        | symlink path' target => cases hb
    | file path' blob size executable => cases ha
    | symlink path' target => cases ha
  rw [orderedDirectories, (sortByKey_perm _ _).nodup_iff]
  apply List.nodup_append'.mpr
  refine ⟨hdirectories, List.nodup_singleton _, ?_⟩
  intro path hpath hroot
  rw [List.mem_singleton.mp hroot] at hpath
  exact h.path_ne_nil (mem_manifestDirectories.mp hpath) rfl

theorem parent_mem (h : PortablePaths ext entries)
    {entry : SkillManifestEntry} (hentry : entry ∈ entries) :
    (splitParent entry.path).1 ∈ orderedDirectories entries := by
  rw [mem_orderedDirectories]
  rcases h.parent entry hentry with hroot | ⟨hdirectory, _⟩
  · exact .inr hroot
  · exact .inl hdirectory

theorem parent_shallower (h : PortablePaths ext entries)
    {entry : SkillManifestEntry} (hentry : entry ∈ entries) :
    pathComponentCount (splitParent entry.path).1 <
      pathComponentCount entry.path := by
  have hpath := h.path_ne_nil hentry
  rcases h.parent entry hentry with hroot | ⟨hdirectory, hdeeper⟩
  · rw [hroot]
    exact pathComponentCount_pos hpath
  · have hparent : (splitParent entry.path).1 ≠ [] :=
      h.path_ne_nil hdirectory
    rw [pathComponentCount_of_ne_nil hparent,
      pathComponentCount_of_ne_nil hpath]
    exact hdeeper

/-- A directory is built before the one that it is in. -/
theorem subdirectory_first (h : PortablePaths ext entries) {path : Text}
    (hpath : .directory path ∈ entries) {before after : List Text}
    (horder : orderedDirectories entries =
      before ++ (splitParent path).1 :: after) : path ∈ before := by
  have hmem : path ∈ before ++ (splitParent path).1 :: after := by
    rw [← horder]
    exact mem_orderedDirectories.mpr (.inl hpath)
  have hsorted := sortByKey_pairwise directoryKey
    (manifestDirectories entries ++ [[]])
  change (orderedDirectories entries).Pairwise _ at hsorted
  rw [horder] at hsorted
  have hshallower := h.parent_shallower hpath
  change pathComponentCount (splitParent path).1 <
    pathComponentCount path at hshallower
  rcases List.mem_append.mp hmem with hbefore | hrest
  · exact hbefore
  · rcases List.mem_cons.mp hrest with heq | hafter
    · rw [← heq] at hshallower
      exact absurd hshallower (Nat.lt_irrefl _)
    · have hparent := (List.pairwise_append.mp hsorted).2.1
      have hle := keyLe_directoryKey
        ((List.pairwise_cons.mp hparent).1 path hafter)
      omega

end PortablePaths

/-- The root is built last. -/
theorem root_last (entries : List SkillManifestEntry) :
    exists init, orderedDirectories entries = init ++ [[]] := by
  have hroot : [] ∈ orderedDirectories entries :=
    mem_orderedDirectories.mpr (.inr rfl)
  have hsorted := sortByKey_pairwise directoryKey
    (manifestDirectories entries ++ [[]])
  change (orderedDirectories entries).Pairwise _ at hsorted
  rcases List.eq_nil_or_concat' (orderedDirectories entries) with
    hnil | ⟨init, last, hsplit⟩
  · rw [hnil] at hroot
    cases hroot
  · rw [hsplit] at hroot hsorted
    refine ⟨init, ?_⟩
    rcases List.mem_append.mp hroot with hinit | hlast
    · have hle := keyLe_directoryKey
        ((List.pairwise_append.mp hsorted).2.2 [] hinit last
          List.mem_cons_self)
      by_cases hnil : last = []
      · rw [hsplit, hnil]
      · have hpos := pathComponentCount_pos hnil
        exact absurd (le_trans hpos hle) (Nat.lt_irrefl 0)
    · rw [hsplit, ← List.mem_singleton.mp hlast]

/-!
## The trees
-/

/-- The trees behind the given ones, each with its directory: a tree is hashed
from its children, which stand for the entries of the directory in order, and a
child directory has the identifier of an earlier tree. -/
def Linked (entries : List SkillManifestEntry)
    (earlier nodes : List (Text × SkillManifestTree ext)) : Prop :=
  forall before directory tree after,
    nodes = before ++ (directory, tree) :: after ->
      TreeId.fromEntries tree.entries = .ok tree.id ∧
        List.Forall₂ (IsChild (earlier ++ before))
          (entries.filter fun entry => (splitParent entry.path).1 = directory)
          tree.entries

theorem buildTrees_linked {entries : List SkillManifestEntry}
    {directories : List Text} {treeIds : List (Text × TreeId)}
    {output result : List (Text × SkillManifestTree ext)}
    (h : buildTrees entries directories treeIds output = .ok result)
    (hids : forall path id, (path, id) ∈ treeIds ->
      exists tree, (path, tree) ∈ output ∧ tree.id = id) :
    exists nodes, result = output ++ nodes ∧
      nodes.map Prod.fst = directories ∧ Linked entries output nodes := by
  induction directories generalizing treeIds output with
  | nil =>
      cases h
      refine ⟨[], (List.append_nil _).symm, rfl, ?_⟩
      intro before directory tree after hnodes
      have hlength := congrArg List.length hnodes
      simp at hlength
  | cons directory rest ih =>
      rcases bind_eq_ok.mp h with ⟨children, hchildren, h⟩
      rcases bind_eq_ok.mp h with ⟨id, hid, h⟩
      have hids' : forall path id',
          (path, id') ∈ (directory, id) :: treeIds ->
            exists tree,
              (path, tree) ∈ output ++ [(directory, ⟨id, children⟩)] ∧
                tree.id = id' := by
        intro path id' hmem
        rcases List.mem_cons.mp hmem with hhead | htail
        · cases hhead
          exact ⟨⟨id, children⟩, by simp, rfl⟩
        · rcases hids path id' htail with ⟨tree, htree, hsame⟩
          exact ⟨tree, List.mem_append_left _ htree, hsame⟩
      rcases ih h hids' with ⟨nodes, hresult, hpaths, hlinked⟩
      refine ⟨(directory, ⟨id, children⟩) :: nodes, ?_, ?_, ?_⟩
      · rw [hresult, List.append_assoc]
        rfl
      · rw [List.map_cons, hpaths]
      · intro before directory' tree after hnodes
        cases before with
        | nil =>
            cases hnodes
            refine ⟨mapError_eq_ok.mp hid, ?_⟩
            rw [List.append_nil]
            exact (mapM_eq_ok_forall2 hchildren).imp fun entry child hchild =>
              isChild_of_childEntry hids hchild
        | cons first before =>
            rw [List.cons_append] at hnodes
            cases hnodes
            have hspec := hlinked before directory' tree after rfl
            rw [List.append_assoc] at hspec
            exact hspec

/-- No directory is missing from the table when its parent is built. -/
theorem buildTrees_avoids {entries : List SkillManifestEntry} (missing : Text)
    {directories : List Text} {treeIds : List (Text × TreeId)}
    {output : List (Text × SkillManifestTree ext)}
    (h : forall path before after, .directory path ∈ entries ->
      directories = before ++ (splitParent path).1 :: after ->
        path ∈ treeIds.map Prod.fst ++ before) :
    Avoids (.missingChildTree missing)
      (buildTrees entries directories treeIds output) := by
  induction directories generalizing treeIds output with
  | nil => exact Avoids.ok _
  | cons directory rest ih =>
      unfold buildTrees
      apply Avoids.bind
      · apply Avoids.mapM
        intro entry hentry
        rcases List.mem_filter.mp hentry with ⟨hmem, hparent⟩
        apply Avoids.bind
        · cases entry with
          | file path blob size executable => exact Avoids.ok _
          | symlink path target => exact Avoids.ok _
          | directory path =>
              have hfound := h path [] rest hmem (by
                rw [List.nil_append]
                congr 1
                exact (of_decide_eq_true hparent).symm)
              rw [List.append_nil] at hfound
              rcases List.mem_map.mp hfound with ⟨found, hid, hpath⟩
              cases hlookup : treeIds.lookup path with
              | some tree =>
                  simp only [childKind, hlookup]
                  exact Avoids.ok _
              | none =>
                  have hnone := List.lookup_eq_none_iff.mp hlookup found hid
                  rw [hpath, bne_self_eq_false] at hnone
                  cases hnone
        · intro kind _
          apply Avoids.mapError
          intro source hsource
          cases hsource
      · intro children _
        apply Avoids.bind
        · apply Avoids.mapError
          intro source hsource
          cases hsource
        · intro id _
          apply ih
          intro path before after hpath hrest
          have hfound := h path (directory :: before) after hpath (by
            rw [hrest]
            rfl)
          rw [List.mem_append, List.mem_cons] at hfound
          rw [List.map_cons, List.mem_append, List.mem_cons]
          rcases hfound with hfound | hfound | hfound
          · exact .inl (.inr hfound)
          · exact .inl (.inl hfound)
          · exact .inr hfound

/-- The trees of a manifest, each with its directory, form a complete Merkle
DAG. -/
structure MerkleDag (manifest : SkillManifest)
    (nodes : List (Text × SkillManifestTree ext)) : Prop where
  directories : (nodes.map Prod.fst).Perm
    (manifestDirectories manifest.entries ++ [[]])
  nodup : (nodes.map Prod.fst).Nodup
  complete : (nodes.flatMap fun node => manifest.entries.filter fun entry =>
    (splitParent entry.path).1 = node.1).Perm manifest.entries
  linked : Linked manifest.entries [] nodes
  earlier : forall before directory tree after,
    nodes = before ++ (directory, tree) :: after ->
      forall child, child ∈ tree.entries -> forall id,
        child.kind = .directory id ->
          exists node, node ∈ before ∧ node.2.id = id
  root : exists init tree,
    nodes = init ++ [([], tree)] ∧ tree.id = manifest.rootTree

theorem Linked.earlier {entries : List SkillManifestEntry}
    {nodes : List (Text × SkillManifestTree ext)} (h : Linked entries [] nodes)
    {before : List (Text × SkillManifestTree ext)} {directory : Text}
    {tree : SkillManifestTree ext}
    {after : List (Text × SkillManifestTree ext)}
    (hnodes : nodes = before ++ (directory, tree) :: after)
    {child : TreeEntry ext} (hchild : child ∈ tree.entries) {id : TreeId}
    (hkind : child.kind = .directory id) :
    exists node, node ∈ before ∧ node.2.id = id := by
  have hchildren := (h before directory tree after hnodes).2
  rcases exists_of_mem_forall2 hchildren hchild with ⟨entry, _, _, hstands⟩
  rw [hkind, List.nil_append] at hstands
  cases entry with
  | file path blob size executable => cases hstands
  | directory path =>
      rcases hstands with ⟨earlier, hearlier, hid⟩
      cases hid
      exact ⟨(path, earlier), hearlier, rfl⟩
  | symlink path target => cases hstands

theorem buildManifestTreeObjects_linked {entries : List SkillManifestEntry}
    {nodes : List (Text × SkillManifestTree ext)}
    (h : buildManifestTreeObjects ext entries = .ok nodes) :
    nodes.map Prod.fst = orderedDirectories entries ∧
      Linked entries [] nodes := by
  rcases buildTrees_linked h (fun _ _ hid => absurd hid List.not_mem_nil) with
    ⟨built, hbuilt, hpaths, hlinked⟩
  rw [List.nil_append] at hbuilt
  rw [hbuilt]
  exact ⟨hpaths, hlinked⟩

/-- The tree of the root is the last one. -/
theorem exists_root_node {entries : List SkillManifestEntry}
    {nodes : List (Text × SkillManifestTree ext)}
    (hpaths : nodes.map Prod.fst = orderedDirectories entries) :
    exists init tree, nodes = init ++ [([], tree)] := by
  rcases root_last entries with ⟨init, hinit⟩
  rw [hinit] at hpaths
  rcases List.map_eq_append_iff.mp hpaths with ⟨front, rest, hnodes, _, hrest⟩
  rcases List.map_eq_singleton_iff.mp hrest with ⟨⟨path, tree⟩, hlast, hpath⟩
  cases hpath
  exact ⟨front, tree, by rw [hnodes, hlast]⟩

theorem rootTreeOf_concat {init : List (Text × SkillManifestTree ext)}
    {tree : SkillManifestTree ext}
    (hnodup : ((init ++ [([], tree)]).map Prod.fst).Nodup) :
    rootTreeOf (init ++ [([], tree)]) = .ok tree.id := by
  have hinit : forall node, node ∈ init -> node.1.isEmpty = false := by
    intro node hnode
    rw [List.map_append, List.nodup_append'] at hnodup
    rw [Bool.eq_false_iff, Ne, List.isEmpty_iff]
    intro hnil
    exact hnodup.2.2 (List.mem_map_of_mem hnode) (by simp [hnil])
  have hnone : (init.find? fun node => node.1.isEmpty) = none := by
    rw [List.find?_eq_none]
    intro node hnode
    rw [hinit node hnode]
    exact Bool.false_ne_true
  rw [rootTreeOf, List.find?_append, hnone]
  rfl

theorem merkleDag_of_build {manifest : SkillManifest}
    {nodes : List (Text × SkillManifestTree ext)}
    (hportable : PortablePaths ext manifest.entries)
    (hbuild : buildManifestTreeObjects ext manifest.entries = .ok nodes)
    (hroot : rootTreeOf nodes = .ok manifest.rootTree) :
    MerkleDag manifest nodes := by
  rcases buildManifestTreeObjects_linked hbuild with ⟨hpaths, hlinked⟩
  have hnodup : (nodes.map Prod.fst).Nodup := by
    rw [hpaths]
    exact hportable.nodup_orderedDirectories
  constructor
  · rw [hpaths]
    exact sortByKey_perm _ _
  · exact hnodup
  · have hgroups := @flatMap_filter_perm _ _ _
      (fun entry : SkillManifestEntry => (splitParent entry.path).1)
      (nodes.map Prod.fst) manifest.entries hnodup (by
        intro entry hentry
        rw [hpaths]
        exact hportable.parent_mem hentry)
    rw [List.flatMap_map] at hgroups
    exact hgroups
  · exact hlinked
  · intro before directory tree after hnodes child hchild id hkind
    exact hlinked.earlier hnodes hchild hkind
  · rcases exists_root_node hpaths with ⟨init, tree, hnodes⟩
    refine ⟨init, tree, hnodes, ?_⟩
    rw [hnodes] at hnodup hroot
    rw [rootTreeOf_concat hnodup] at hroot
    exact Except.ok.inj hroot

theorem validateDeclaredSkillManifest_avoids {manifest : SkillManifest}
    (hportable : PortablePaths ext manifest.entries) (path : Text) :
    Avoids (.missingChildTree path)
      (validateDeclaredSkillManifest ext manifest) := by
  unfold validateDeclaredSkillManifest
  apply Avoids.bind
  · apply Avoids.mapM
    intro entry _
    apply Avoids.mapError
    intro source hsource
    cases hsource
  · intro portable _
    apply Avoids.bind
    · apply Avoids.mapError
      intro source hsource
      cases hsource
    · intro tree _
      apply Avoids.bind
      · apply Avoids.ensure
        intro hsource
        cases hsource
      · intro _ _
        apply Avoids.bind
        · apply buildTrees_avoids
          intro path' before after hpath horder
          exact List.mem_append_right _
            (hportable.subdirectory_first hpath horder)
        · intro nodes hnodes
          apply Avoids.bind
          · rcases buildManifestTreeObjects_linked hnodes with ⟨hpaths, _⟩
            have hnodup : (nodes.map Prod.fst).Nodup := by
              rw [hpaths]
              exact hportable.nodup_orderedDirectories
            rcases exists_root_node hpaths with ⟨init, root, hroot⟩
            rw [hroot] at hnodup ⊢
            rw [rootTreeOf_concat hnodup]
            exact Avoids.ok _
          · intro root _
            apply Avoids.bind
            · apply Avoids.ensure
              intro hsource
              cases hsource
            · intro _ _
              exact Avoids.ok _

/-- The trees of an accepted manifest are a complete Merkle DAG of it, and a
portable manifest never lacks a tree. -/
theorem validateDeclaredSkillManifest_dag (manifest : SkillManifest) :
    (forall trees, validateDeclaredSkillManifest ext manifest = .ok trees ->
      exists nodes, trees = nodes.map Prod.snd ∧ MerkleDag manifest nodes) ∧
      forall portable tree, declaredEntries ext manifest.entries =
          .ok portable ->
        validatePortableTree portable = .ok tree -> forall path,
          validateDeclaredSkillManifest ext manifest ≠
            .error (.missingChildTree path) := by
  constructor
  · intro trees htrees
    rcases validateDeclaredSkillManifest_eq_ok.mp htrees with
      ⟨⟨portable, tree, hportable, htree⟩, _, nodes, hbuild, hroot, rfl⟩
    exact ⟨nodes, rfl, merkleDag_of_build
      (portablePaths_of_valid hportable htree) hbuild hroot⟩
  · intro portable tree hportable htree path
    exact validateDeclaredSkillManifest_avoids
      (portablePaths_of_valid hportable htree) path

theorem validateDeclaredSkillManifest_dag_sample :
    exists trees, validateDeclaredSkillManifest Sample.externals
        Sample.linkedManifest = .ok trees ∧
      exists nodes, trees = nodes.map Prod.snd ∧
        MerkleDag Sample.linkedManifest nodes := by
  rcases Sample.linkedManifest_declared with ⟨trees, htrees⟩
  exact ⟨trees, htrees,
    (validateDeclaredSkillManifest_dag Sample.linkedManifest).1 trees htrees⟩

end Denju
