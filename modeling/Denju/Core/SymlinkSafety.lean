import Denju.Core.PortablePath

/-!
# Symlinks of an accepted tree

`validateSymlinkTarget` reads each target on its own and counts a name as one
level down.  A file system follows the links it meets, so a name may lead
anywhere in the tree.  This module compares the two: it says exactly which
accepted trees keep every resolution below the root.
-/

namespace Denju

open Lib
open Lib.Resolution

variable {ext : Externals}

/-!
## An accepted tree as a file system
-/

def toComponent (component : Text) : Component Text :=
  if component = ".".toList then
    .current
  else if component = "..".toList then
    .parent
  else
    .name component

def targetComponents (target : Text) : List (Component Text) :=
  (target.splitOn '/').map toComponent

def PortableEntryKind.node : PortableEntryKind -> Node Text
  | .file _ => .file
  | .directory => .directory
  | .symlink target => .link (targetComponents target)

namespace PortableTree

def lookup (tree : PortableTree ext) (location : List Text) :
    Option (Node Text) :=
  (tree.entries.find? fun entry =>
    entry.path.components = location).map fun entry => entry.kind.node

theorem exists_link_of_lookup
    {tree : PortableTree ext} {location : List Text}
    {path : List (Component Text)}
    (h : tree.lookup location = some (.link path)) :
    exists entry target, entry ∈ tree.entries ∧
      entry.kind = .symlink target ∧
        entry.path.components = location ∧ targetComponents target = path := by
  unfold lookup at h
  rcases Option.map_eq_some_iff.mp h with ⟨entry, hfind, hnode⟩
  have hlocation : entry.path.components = location := by
    simpa using List.find?_some hfind
  have hmem := List.mem_of_find?_eq_some hfind
  cases hkind : entry.kind with
  | file executable => simp [hkind, PortableEntryKind.node] at hnode
  | directory => simp [hkind, PortableEntryKind.node] at hnode
  | symlink target =>
      refine ⟨entry, target, hmem, hkind, hlocation, ?_⟩
      simpa [hkind, PortableEntryKind.node] using hnode

/-- Where the resolution of an entry's target starts. -/
def directoryOf (entry : PortableEntry ext) : List Text :=
  entry.path.components.dropLast

/-- Following any link of the tree never takes `..` at the root. -/
def StaysInside (tree : PortableTree ext) : Prop :=
  forall entry target, entry ∈ tree.entries -> entry.kind = .symlink target ->
    ¬ Escapes tree.lookup (directoryOf entry) (targetComponents target)

/--
Some target has a `..` whose preceding components, read from the link's own
directory, pass through a symlink of the tree and lead to the root.
-/
def ClimbsThroughLink (tree : PortableTree ext) : Prop :=
  exists entry target before after,
    entry ∈ tree.entries ∧ entry.kind = .symlink target ∧
      targetComponents target = before ++ .parent :: after ∧
        RunsThroughLink tree.lookup (directoryOf entry) before ∧
          Lands tree.lookup (directoryOf entry) before []

end PortableTree

/-!
## The depth count of the validator

The running depth of `validateTargetComponents` is the lexical depth of the
target, so an accepted target never has `..` at lexical depth zero.
-/

theorem validateTargetComponents_lexicalDepth
    {path target : Text} {depth : Nat} {components : List Text}
    (h : validateTargetComponents path target depth components = .ok ()) :
    exists d, lexicalDepth depth (components.map toComponent) = some d := by
  induction components generalizing depth with
  | nil => exact ⟨depth, rfl⟩
  | cons component rest ih =>
      unfold validateTargetComponents at h
      split at h
      · cases h
      · split at h
        · rename_i hcurrent
          rcases ih h with ⟨d, hd⟩
          refine ⟨d, ?_⟩
          simpa [toComponent, hcurrent, lexicalDepth] using hd
        · rename_i hcurrent
          split at h
          · rename_i hparent
            cases depth with
            | zero => cases h
            | succ depth =>
                rcases ih h with ⟨d, hd⟩
                refine ⟨d, ?_⟩
                simpa [toComponent, hcurrent, hparent, lexicalDepth] using hd
          · rename_i hparent
            rcases bind_eq_ok.mp h with ⟨_, _, hrest⟩
            rcases ih hrest with ⟨d, hd⟩
            have hname : toComponent component = .name component := by
              simp only [toComponent, if_neg hcurrent, if_neg hparent]
            refine ⟨d, ?_⟩
            simpa [hname, lexicalDepth] using hd

theorem PortableTree.target_lexicalDepth
    (tree : PortableTree ext)
    {entry : PortableEntry ext} {target : Text}
    (hmem : entry ∈ tree.entries)
    (hkind : entry.kind = .symlink target) :
    exists d, lexicalDepth (PortableTree.directoryOf entry).length
      (targetComponents target) = some d := by
  have hvalid := validateSymlinkTarget_components (tree.target_valid hmem hkind)
  have hlength : (PortableTree.directoryOf entry).length =
      entry.path.componentCount - 1 := by
    simp [PortableTree.directoryOf, PortablePath.componentCount]
  rw [hlength]
  exact validateTargetComponents_lexicalDepth hvalid

/-!
## Which accepted trees stay inside
-/

/-- In an accepted tree a `..` at the root is reached through a link only. -/
theorem PortableTree.climbsThroughLink_of_parentAtRoot
    {tree : PortableTree ext} {entry : PortableEntry ext} {target : Text}
    (hmem : entry ∈ tree.entries)
    (hkind : entry.kind = .symlink target)
    (h : ParentAtRoot tree.lookup (PortableTree.directoryOf entry)
      (targetComponents target)) :
    tree.ClimbsThroughLink := by
  rcases h with ⟨before, after, hsplit, hlands⟩
  refine ⟨entry, target, before, after, hmem, hkind, hsplit, ?_, hlands⟩
  rcases lands_lexicalDepth hlands with hthrough | hdepth
  · exact hthrough
  · rcases tree.target_lexicalDepth hmem hkind with ⟨d, hd⟩
    rw [hsplit] at hd
    exact absurd hd fun hd => lexicalDepth_append_parent hdepth hd

theorem staysInside_iff_not_climbsThroughLink
    (entries : List (PortableEntry ext))
    (tree : PortableTree ext) :
    validatePortableTree entries = .ok tree ->
      (tree.StaysInside <-> ¬ tree.ClimbsThroughLink) := by
  intro _
  constructor
  · rintro hstays ⟨entry, target, before, after, hmem, hkind, hsplit, _, hlands⟩
    apply hstays entry target hmem hkind
    rw [hsplit]
    exact escapes_of_lands hlands
  · intro hclimbs entry target hmem hkind hescapes
    apply hclimbs
    rcases escapes_cases hescapes with hself | ⟨dir, n, path, hlookup, hother⟩
    · exact PortableTree.climbsThroughLink_of_parentAtRoot hmem hkind hself
    · rcases PortableTree.exists_link_of_lookup hlookup with
        ⟨other, otherTarget, hotherMem, hotherKind, hlocation, hpath⟩
      have hdir : PortableTree.directoryOf other = dir := by
        simp [PortableTree.directoryOf, hlocation]
      rw [← hdir, ← hpath] at hother
      exact PortableTree.climbsThroughLink_of_parentAtRoot
        hotherMem hotherKind hother

/-!
A link inside the tree that leads to the root gives a second link a `..` to
leave by, and both targets stay at a lexical depth above zero.
-/

def PortablePath.ofAscii (value : String)
    (h : validatePortablePath .ascii value.toList = .ok () := by decide) :
    PortablePath .ascii :=
  ⟨value.toList, h⟩

def climbingEntries : List (PortableEntry .ascii) :=
  [ ⟨.ofAscii "d", .directory⟩,
    ⟨.ofAscii "d/e", .directory⟩,
    ⟨.ofAscii "d/e/up", .symlink "../..".toList⟩,
    ⟨.ofAscii "link", .symlink "d/e/up/..".toList⟩ ]

def climbingTree : PortableTree .ascii where
  entries := sortByKey PortableEntry.key climbingEntries
  sorted := sortByKey_pairwise _ climbingEntries
  valid := by decide

theorem climbingEntries_accepted_and_escape :
    validatePortableTree climbingEntries = .ok climbingTree ∧
      ¬ climbingTree.StaysInside := by
  refine ⟨validatePortableTree_eq_ok.mpr rfl, ?_⟩
  intro hstays
  apply hstays ⟨.ofAscii "link", .symlink "d/e/up/..".toList⟩
    "d/e/up/..".toList (by decide) rfl
  have hd : climbingTree.lookup ["d".toList] = some .directory := by
    decide
  have he : climbingTree.lookup ["d".toList, "e".toList] =
      some .directory := by
    decide
  have hup : climbingTree.lookup ["d".toList, "e".toList, "up".toList] =
      some (.link [.parent, .parent]) := by
    decide
  have hlands : Lands climbingTree.lookup []
      [.name "d".toList, .name "e".toList, .name "up".toList] [] :=
    .head (.directory hd) <| .head (.directory he) <| .head (.link hup) <|
      .head (.parent (by decide)) <| .head (.parent (by decide)) .refl
  exact ⟨[], runs_append hlands [.parent]⟩

theorem climbingTree_staysInside_iff :
    validatePortableTree climbingEntries = .ok climbingTree ∧
      (climbingTree.StaysInside <-> ¬ climbingTree.ClimbsThroughLink) := by
  have haccepted : validatePortableTree climbingEntries = .ok climbingTree :=
    validatePortableTree_eq_ok.mpr rfl
  exact ⟨haccepted, staysInside_iff_not_climbsThroughLink _ _ haccepted⟩

end Denju
