import Denju.Core.Externals
import Denju.Lib.Resolution
import Denju.Lib.Result
import Denju.Lib.Sorting

/-!
# Portable paths and trees

A portable path is a relative, `/`-separated, NFC-normalized path whose
components are available on every platform.  A portable tree is a list of such
entries, sorted by path bytes, without case-insensitive collisions, with a
directory entry for every parent, and with symlink targets that do not climb
above the root when they are read component by component.
-/

namespace Denju

open Lib

variable (ext : Externals)

/-!
## Paths
-/

inductive PortablePathError where
  | empty
  | notRelative
  | invalidComponent
  | notNfc
  | invalidCharacter
  | trailingDotOrSpace
  | windowsReservedName
deriving DecidableEq, Repr

/-- The Unicode control characters, category `Cc`. -/
def isControl (c : Char) : Bool :=
  c.toNat < 32 || (127 ≤ c.toNat && c.toNat < 160)

def isInvalidWindowsCharacter (c : Char) : Bool :=
  c == Char.ofNat 0 || isControl c || "<>:\"/\\|?*".toList.contains c

/-- The device numbers that `COM` and `LPT` reserve. -/
def reservedDeviceSuffixes : List Text :=
  ["1", "2", "3", "4", "5", "6", "7", "8", "9", "¹", "²", "³"].map
    String.toList

def isWindowsReservedName (component : Text) : Bool :=
  let stem := (component.splitOn '.').headD component
  let upper := stem.map Char.toUpper
  (["CON", "PRN", "AUX", "NUL"].map String.toList).contains upper ||
    ["COM", "LPT"].any fun device =>
      match device.toList.isPrefixOf? upper with
      | some suffix => reservedDeviceSuffixes.contains suffix
      | none => false

def validateComponent (component : Text) (allowDotNavigation : Bool) :
    Except PortablePathError Unit :=
  if component.isEmpty then
    .error .invalidComponent
  else if component = ".".toList ∨ component = "..".toList then
    if allowDotNavigation then .ok () else .error .invalidComponent
  else if component.getLast? = some '.' ∨ component.getLast? = some ' ' then
    .error .trailingDotOrSpace
  else if component.any isInvalidWindowsCharacter then
    .error .invalidCharacter
  else if isWindowsReservedName component then
    .error .windowsReservedName
  else
    .ok ()

def validatePortablePath (value : Text) : Except PortablePathError Unit :=
  if value.isEmpty then
    .error .empty
  else if value.head? = some '/' ∨ value.head? = some '\\' ∨
      value.contains '\\' then
    .error .notRelative
  else if ext.nfc value ≠ value then
    .error .notNfc
  else
    forM (value.splitOn '/') fun component =>
      validateComponent component false

/-- A text that passed `validatePortablePath`. -/
structure PortablePath where
  value : Text
  valid : validatePortablePath ext value = .ok ()
deriving DecidableEq

variable {ext}

namespace PortablePath

def parse (value : Text) : Except PortablePathError (PortablePath ext) :=
  match h : validatePortablePath ext value with
  | .ok () => .ok ⟨value, h⟩
  | .error error => .error error

def components (path : PortablePath ext) : List Text :=
  path.value.splitOn '/'

def componentCount (path : PortablePath ext) : Nat :=
  path.components.length

theorem parse_eq_ok {value : Text} {path : PortablePath ext} :
    parse value = .ok path <-> path.value = value := by
  unfold parse
  split
  · rename_i h
    constructor
    · intro hpath
      cases hpath
      rfl
    · intro hpath
      cases path
      subst hpath
      rfl
  · rename_i error h
    constructor
    · intro hpath
      cases hpath
    · intro hpath
      rw [← hpath, path.valid] at h
      cases h

/-!
What every validated path satisfies, without going back to the checks.
-/

theorem valid_components (path : PortablePath ext) :
    forall component, component ∈ path.components ->
      validateComponent component false = .ok () := by
  have hvalid := path.valid
  unfold validatePortablePath at hvalid
  split at hvalid
  · cases hvalid
  · split at hvalid
    · cases hvalid
    · split at hvalid
      · cases hvalid
      · exact forM_eq_ok.mp hvalid

theorem components_ne_nil (path : PortablePath ext) :
    path.components ≠ [] :=
  List.splitOn_ne_nil '/' path.value

theorem join_components (path : PortablePath ext) :
    join '/' path.components = path.value :=
  List.intercalate_splitOn '/'

end PortablePath

theorem validateComponent_ne_nil {component : Text} {allow : Bool}
    (h : validateComponent component allow = .ok ()) : component ≠ [] := by
  intro hnil
  simp [validateComponent, hnil] at h

theorem validateComponent_ne_dots {component : Text}
    (h : validateComponent component false = .ok ()) :
    component ≠ ".".toList ∧ component ≠ "..".toList := by
  unfold validateComponent at h
  split at h
  · cases h
  · split at h
    · cases h
    · rename_i hdots
      exact not_or.mp hdots

/-!
## Entries and trees
-/

inductive PortableEntryKind where
  | file (executable : Bool)
  | directory
  | symlink (target : Text)
deriving DecidableEq, Repr

variable (ext) in
structure PortableEntry where
  path : PortablePath ext
  kind : PortableEntryKind
deriving DecidableEq

def PortableEntry.new (path : Text) (kind : PortableEntryKind) :
    Except PortablePathError (PortableEntry ext) := do
  let path <- PortablePath.parse path
  return { path, kind }

theorem PortableEntry.new_eq_ok {path : Text} {kind : PortableEntryKind}
    {entry : PortableEntry ext} (h : PortableEntry.new path kind = .ok entry) :
    entry.path.value = path ∧ entry.kind = kind := by
  rcases bind_eq_ok.mp h with ⟨parsed, hparse, hentry⟩
  cases hentry
  exact ⟨PortablePath.parse_eq_ok.mp hparse, rfl⟩

inductive PortableTreeError where
  | caseCollision (first second : Text)
  | nonDirectoryParent (parent child : Text)
  | missingParentDirectory (parent child : Text)
  | invalidSymlinkTarget (path : Text)
  | escapingSymlink (path target : Text)
  | invalidSymlinkTargetComponent (path : Text) (source : PortablePathError)
deriving DecidableEq, Repr

inductive EntryClass where
  | file
  | directory
  | symlink
deriving DecidableEq, Repr

def PortableEntryKind.entryClass : PortableEntryKind -> EntryClass
  | .file _ => .file
  | .directory => .directory
  | .symlink _ => .symlink

variable (ext) in
def foldCase (value : Text) : Text :=
  value.flatMap ext.toLowercase

/-- The first pass: refuse case collisions and record the kind of each path. -/
def collectKinds :
    List (PortableEntry ext) -> List (Text × Text) ->
      List (Text × EntryClass) ->
      Except PortableTreeError (List (Text × EntryClass))
  | [], _, kinds => .ok kinds
  | entry :: rest, foldedPaths, kinds =>
      let path := entry.path.value
      let folded := foldCase ext path
      match foldedPaths.lookup folded with
      | some existing => .error (.caseCollision existing path)
      | none =>
          collectKinds rest ((folded, path) :: foldedPaths)
            ((path, entry.kind.entryClass) :: kinds)

def ensureParentComponentsAreDirectories (path : PortablePath ext)
    (kinds : List (Text × EntryClass)) : Except PortableTreeError Unit :=
  let components := path.components
  forM (List.range' 1 (components.length - 1)) fun stop =>
    let parent := join '/' (components.take stop)
    match kinds.lookup parent with
    | some .directory => .ok ()
    | some _ => .error (.nonDirectoryParent parent path.value)
    | none => .error (.missingParentDirectory parent path.value)

/-- The component loop of `validateSymlinkTarget`, with its running depth. -/
def validateTargetComponents (path target : Text) :
    Nat -> List Text -> Except PortableTreeError Unit
  | _, [] => .ok ()
  | depth, component :: rest =>
      if component.isEmpty then
        .error (.invalidSymlinkTarget path)
      else if component = ".".toList then
        validateTargetComponents path target depth rest
      else if component = "..".toList then
        match depth with
        | 0 => .error (.escapingSymlink path target)
        | depth + 1 => validateTargetComponents path target depth rest
      else do
        (validateComponent component true).mapError
          (.invalidSymlinkTargetComponent path)
        validateTargetComponents path target (depth + 1) rest

def validateSymlinkTarget (path : PortablePath ext) (target : Text) :
    Except PortableTreeError Unit :=
  if target.isEmpty ∨ target.head? = some '/' ∨ target.head? = some '\\' ∨
      target.contains '\\' ∨ target.contains (Char.ofNat 0) then
    .error (.invalidSymlinkTarget path.value)
  else if ext.nfc target ≠ target then
    .error (.invalidSymlinkTargetComponent path.value .notNfc)
  else do
    let components := target.splitOn '/'
    validateTargetComponents path.value target
      (path.componentCount - 1) components
    ensure (!components.isEmpty) (.invalidSymlinkTarget path.value)

/-- The second pass on one entry. -/
def checkEntry (kinds : List (Text × EntryClass))
    (entry : PortableEntry ext) : Except PortableTreeError Unit := do
  ensureParentComponentsAreDirectories entry.path kinds
  match entry.kind with
  | .symlink target => validateSymlinkTarget entry.path target
  | _ => .ok ()

/-- Both passes over the sorted entries. -/
def checkPortableTree (entries : List (PortableEntry ext)) :
    Except PortableTreeError Unit := do
  let kinds <- collectKinds entries [] []
  forM entries (checkEntry kinds)

def PortableEntry.key (entry : PortableEntry ext) : Bytes :=
  utf8 entry.path.value

variable (ext) in
/-- Entries in path order that passed both passes. -/
structure PortableTree where
  entries : List (PortableEntry ext)
  sorted : entries.Pairwise (keyLe PortableEntry.key)
  valid : checkPortableTree entries = .ok ()

def validatePortableTree (entries : List (PortableEntry ext)) :
    Except PortableTreeError (PortableTree ext) :=
  let sorted := sortByKey PortableEntry.key entries
  match h : checkPortableTree sorted with
  | .ok () => .ok ⟨sorted, sortByKey_pairwise _ entries, h⟩
  | .error error => .error error

/-!
## What an accepted tree satisfies
-/

theorem validatePortableTree_eq_ok
    {entries : List (PortableEntry ext)} {tree : PortableTree ext} :
    validatePortableTree entries = .ok tree <->
      tree.entries = sortByKey PortableEntry.key entries := by
  unfold validatePortableTree
  dsimp only
  split
  · constructor
    · intro htree
      cases htree
      rfl
    · intro htree
      cases tree
      subst htree
      rfl
  · rename_i error h
    constructor
    · intro htree
      cases htree
    · intro htree
      rw [← htree, tree.valid] at h
      cases h

theorem validateSymlinkTarget_components
    {path : PortablePath ext} {target : Text}
    (h : validateSymlinkTarget path target = .ok ()) :
    validateTargetComponents path.value target
      (path.componentCount - 1) (target.splitOn '/') = .ok () := by
  unfold validateSymlinkTarget at h
  split at h
  · cases h
  · split at h
    · cases h
    · rcases bind_eq_ok.mp h with ⟨_, hcomponents, _⟩
      exact hcomponents

theorem collectKinds_eq_ok
    {entries : List (PortableEntry ext)}
    {foldedPaths : List (Text × Text)}
    {kinds result : List (Text × EntryClass)}
    (h : collectKinds entries foldedPaths kinds = .ok result) :
    (entries.map fun entry => foldCase ext entry.path.value).Nodup ∧
      (forall entry, entry ∈ entries ->
        foldedPaths.lookup (foldCase ext entry.path.value) = none) ∧
      result =
        (entries.map fun entry =>
          (entry.path.value, entry.kind.entryClass)).reverse ++ kinds := by
  induction entries generalizing foldedPaths kinds with
  | nil =>
      simp only [collectKinds, Except.ok.injEq] at h
      simp [h]
  | cons entry rest ih =>
      simp only [collectKinds] at h
      split at h
      · cases h
      · rename_i hlookup
        rcases ih h with ⟨hnodup, hfresh, hresult⟩
        have hne : forall other, other ∈ rest ->
            foldCase ext other.path.value ≠ foldCase ext entry.path.value := by
          intro other hother hsame
          have hnone := hfresh other hother
          simp [hsame] at hnone
        refine ⟨?_, ?_, ?_⟩
        · simp only [List.map_cons, List.nodup_cons]
          refine ⟨?_, hnodup⟩
          intro hmem
          rcases List.mem_map.mp hmem with ⟨other, hother, hsame⟩
          exact hne other hother hsame
        · intro other hother
          rcases List.mem_cons.mp hother with hhead | htail
          · rw [hhead]
            exact hlookup
          · have hnone := hfresh other htail
            have hbeq : (foldCase ext other.path.value ==
                foldCase ext entry.path.value) = false := by
              simpa using hne other htail
            simpa [List.lookup_cons, hbeq] using hnone
        · simp [hresult]

namespace PortableTree

theorem exists_kinds (tree : PortableTree ext) :
    exists kinds,
      collectKinds tree.entries [] [] = .ok kinds ∧
        forall entry, entry ∈ tree.entries -> checkEntry kinds entry = .ok () := by
  rcases bind_eq_ok.mp tree.valid with ⟨kinds, hkinds, hcheck⟩
  exact ⟨kinds, hkinds, forM_eq_ok.mp hcheck⟩

theorem nodup_paths (tree : PortableTree ext) :
    (tree.entries.map fun entry => entry.path.value).Nodup := by
  rcases tree.exists_kinds with ⟨kinds, hkinds, _⟩
  have hfolded := (collectKinds_eq_ok hkinds).1
  have hmap : (tree.entries.map fun entry => foldCase ext entry.path.value) =
      (tree.entries.map fun entry => entry.path.value).map (foldCase ext) := by
    simp
  rw [hmap] at hfolded
  exact hfolded.of_map (foldCase ext)

theorem target_valid (tree : PortableTree ext)
    {entry : PortableEntry ext} {target : Text}
    (hmem : entry ∈ tree.entries)
    (hkind : entry.kind = .symlink target) :
    validateSymlinkTarget entry.path target = .ok () := by
  rcases tree.exists_kinds with ⟨kinds, _, hcheck⟩
  rcases bind_eq_ok.mp (hcheck entry hmem) with ⟨_, _, htarget⟩
  simpa [hkind] using htarget

theorem parent_directory (tree : PortableTree ext)
    {entry : PortableEntry ext} {stop : Nat}
    (hmem : entry ∈ tree.entries)
    (hpos : 0 < stop)
    (hstop : stop < entry.path.components.length) :
    exists parent, parent ∈ tree.entries ∧
      parent.path.value = join '/' (entry.path.components.take stop) ∧
        parent.kind = .directory := by
  rcases tree.exists_kinds with ⟨kinds, hkinds, hcheck⟩
  rcases bind_eq_ok.mp (hcheck entry hmem) with ⟨_, hparents, _⟩
  have hrange : stop ∈ List.range' 1 (entry.path.components.length - 1) := by
    rw [List.mem_range'_1]
    omega
  have hone := forM_eq_ok.mp hparents stop hrange
  have hlookup :
      kinds.lookup (join '/' (entry.path.components.take stop)) =
        some .directory := by
    dsimp only at hone
    split at hone
    · assumption
    · cases hone
    · cases hone
  have hpair := mem_of_lookup_eq_some hlookup
  rw [(collectKinds_eq_ok hkinds).2.2] at hpair
  simp only [List.append_nil, List.mem_reverse, List.mem_map,
    Prod.mk.injEq] at hpair
  rcases hpair with ⟨parent, hparent, hpath, hclass⟩
  refine ⟨parent, hparent, hpath, ?_⟩
  cases hkind : parent.kind with
  | file executable => simp [hkind, PortableEntryKind.entryClass] at hclass
  | directory => rfl
  | symlink target => simp [hkind, PortableEntryKind.entryClass] at hclass

end PortableTree

end Denju
