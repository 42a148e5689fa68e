import Denju.Core.PortablePath
import Mathlib.Data.List.Perm.Basic

/-!
# Skill documents and skill directories

A skill is a portable tree with a root `SKILL.md`, whose YAML frontmatter names
the skill after its directory.  The Markdown body behind the frontmatter is kept
byte for byte.
-/

namespace Denju

open Lib

inductive SkillValidationError where
  | invalidName
  | skillMdNotUtf8
  | missingFrontmatter
  | invalidFrontmatter (message : Text)
  | frontmatterMustBeMapping
  | missingRequiredField (field : String)
  | invalidOptionalField (field : String)
  | nameDoesNotMatchDirectory (name directory : Text)
  | invalidDescription
  | invalidCompatibility
  | invalidMetadata
  | missingSkillMd
  | duplicateSkillMd
  | portablePath (source : PortablePathError)
  | portableTree (source : PortableTreeError)
deriving DecidableEq, Repr

structure SkillFrontmatter where
  name : Text
  description : Text
  license : Option Text
  compatibility : Option Text
  metadata : List (Text × Text)
  allowedTools : Option Text
deriving DecidableEq, Repr

structure SkillDocument where
  frontmatter : SkillFrontmatter
  body : Bytes
deriving DecidableEq, Repr

/-!
## Names
-/

def isNameCharacter (c : Char) : Bool :=
  ('a' ≤ c && c ≤ 'z') || ('0' ≤ c && c ≤ '9') || c == '-'

def validateSkillName (name : Text) : Except SkillValidationError Unit :=
  if name.length < 1 ∨ 64 < name.length then
    .error .invalidName
  else if name.head? = some '-' ∨ name.getLast? = some '-' ∨
      (name.zip name.tail).contains ('-', '-') ∨
      ¬ name.all isNameCharacter then
    .error .invalidName
  else
    .ok ()

/-!
## Frontmatter
-/

def isLineEnd (c : Char) : Bool :=
  c == '\r' || c == '\n'

def isDelimiter (line : Text) : Bool :=
  trimEndMatches isLineEnd line == "---".toList

/-- The lines before the closing delimiter, and the text behind it. -/
def splitAtDelimiter : List Text -> Option (Text × Text)
  | [] => none
  | line :: rest =>
      if isDelimiter line then
        some ([], rest.flatten)
      else
        (splitAtDelimiter rest).map fun parts => (line ++ parts.1, parts.2)

/-- The frontmatter and the body of a document. -/
def splitFrontmatter (source : Text) :
    Except SkillValidationError (Text × Text) :=
  match splitInclusive '\n' source with
  | [] => .error .missingFrontmatter
  | first :: lines =>
      if isDelimiter first then
        match splitAtDelimiter lines with
        | some parts => .ok parts
        | none =>
            let rest := lines.flatten
            if "\n---".toList.isSuffixOf rest then
              .ok (rest.take (rest.length - 3), [])
            else
              .error .missingFrontmatter
      else
        .error .missingFrontmatter

def requiredString (mapping : Yaml.Mapping) (field : String) :
    Except SkillValidationError Text :=
  okOr ((mapping.get field.toList).bind Yaml.Value.asStr)
    (.missingRequiredField field)

def optionalString (mapping : Yaml.Mapping) (field : String) :
    Except SkillValidationError (Option Text) :=
  match mapping.get field.toList with
  | none => .ok none
  | some (.string value) => .ok (some value)
  | some _ => .error (.invalidOptionalField field)

/-- One entry of the metadata; a repeated key takes its last value. -/
def insertMetadata (metadata : List (Text × Text))
    (entry : Yaml.Value × Yaml.Value) :
    Except SkillValidationError (List (Text × Text)) := do
  let key <- okOr entry.1.asStr .invalidMetadata
  let value <- okOr entry.2.asStr .invalidMetadata
  return metadata.filter (fun pair => pair.1 != key) ++ [(key, value)]

def metadataMap (mapping : Yaml.Mapping) :
    Except SkillValidationError (List (Text × Text)) :=
  match mapping.get "metadata".toList with
  | none => .ok []
  | some value => do
      let entries <- okOr value.asMapping .invalidMetadata
      entries.foldlM insertMetadata []

variable (ext : Externals)

/-- The YAML value of the frontmatter, and the body. -/
def parseFrontmatter (bytes : Bytes) :
    Except SkillValidationError (Yaml.Value × Text) := do
  let source <- okOr (fromUtf8 bytes) .skillMdNotUtf8
  let (frontmatterSource, body) <- splitFrontmatter source
  let value <- (ext.yamlFromStr frontmatterSource).mapError
    .invalidFrontmatter
  return (value, body)

/-- The checks on the fields of the frontmatter. -/
def parseFields (parentDirectoryName : Text) (mapping : Yaml.Mapping) :
    Except SkillValidationError SkillFrontmatter := do
  let name <- requiredString mapping "name"
  validateSkillName name
  ensure (name == parentDirectoryName)
    (.nameDoesNotMatchDirectory name parentDirectoryName)
  let description <- requiredString mapping "description"
  ensure (!description.isEmpty && description.length ≤ 1024)
    .invalidDescription
  let license <- optionalString mapping "license"
  let compatibility <- optionalString mapping "compatibility"
  ensure (compatibility.all fun value =>
    !value.isEmpty && value.length ≤ 500) .invalidCompatibility
  let allowedTools <- optionalString mapping "allowed-tools"
  let metadata <- metadataMap mapping
  return { name, description, license, compatibility, metadata, allowedTools }

def parseSkillDocument (parentDirectoryName : Text) (bytes : Bytes) :
    Except SkillValidationError SkillDocument := do
  let (value, body) <- parseFrontmatter ext bytes
  let mapping <- okOr value.asMapping .frontmatterMustBeMapping
  let frontmatter <- parseFields parentDirectoryName mapping
  return { frontmatter, body := utf8 body }

def skillDocumentDeclaredName (bytes : Bytes) :
    Except SkillValidationError Text := do
  let (value, _) <- parseFrontmatter ext bytes
  let mapping <- okOr value.asMapping .frontmatterMustBeMapping
  let name <- requiredString mapping "name"
  validateSkillName name
  return name

def rewriteSkillDocumentName (canonicalParentName : Text) (bytes : Bytes)
    (projectedName : Text) : Except SkillValidationError Bytes := do
  let document <- parseSkillDocument ext canonicalParentName bytes
  validateSkillName projectedName
  let (value, _) <- parseFrontmatter ext bytes
  let mapping <- okOr value.asMapping .frontmatterMustBeMapping
  let renamed := value.withMapping
    (mapping.insert "name".toList (.string projectedName))
  let rendered <- (ext.yamlToString renamed).mapError .invalidFrontmatter
  let output :=
    utf8 ("---\n".toList ++ rendered ++ "---\n".toList) ++ document.body
  let _ <- parseSkillDocument ext projectedName output
  return output

/-!
## Directories
-/

/-- One entry of a skill tree with its content. -/
inductive SkillEntry where
  | file (path : Text) (bytes : Bytes) (executable : Bool)
  | directory (path : Text)
  | symlink (path target : Text)
deriving DecidableEq, Repr

namespace SkillEntry

def path : SkillEntry -> Text
  | .file path _ _ => path
  | .directory path => path
  | .symlink path _ => path

def kind : SkillEntry -> PortableEntryKind
  | .file _ _ executable => .file executable
  | .directory _ => .directory
  | .symlink _ target => .symlink target

end SkillEntry

def skillMdPath : Text :=
  "SKILL.md".toList

structure ValidatedSkill where
  document : SkillDocument
  portableTree : PortableTree ext

variable {ext}

/-- The entry loop: portable entries so far, and the bytes of `SKILL.md`. -/
def collectPortableEntries :
    List SkillEntry -> List (PortableEntry ext) -> Option Bytes ->
      Except SkillValidationError
        (List (PortableEntry ext) × Option Bytes)
  | [], portableEntries, skillMd => .ok (portableEntries, skillMd)
  | entry :: rest, portableEntries, skillMd => do
      let portable <- (PortableEntry.new entry.path entry.kind).mapError
        .portablePath
      match entry with
      | .file path bytes _ =>
          if path = skillMdPath then
            ensure skillMd.isNone .duplicateSkillMd
            collectPortableEntries rest (portableEntries ++ [portable])
              (some bytes)
          else
            collectPortableEntries rest (portableEntries ++ [portable])
              skillMd
      | _ =>
          collectPortableEntries rest (portableEntries ++ [portable]) skillMd

variable (ext) in
def validateSkillDirectory (parentDirectoryName : Text)
    (entries : List SkillEntry) :
    Except SkillValidationError (ValidatedSkill ext) := do
  validateSkillName parentDirectoryName
  let (portableEntries, skillMd) <- collectPortableEntries entries [] none
  let portableTree <- (validatePortableTree portableEntries).mapError
    .portableTree
  let bytes <- okOr skillMd .missingSkillMd
  let document <- parseSkillDocument ext parentDirectoryName bytes
  return { document, portableTree }

/-!
## What an accepted directory satisfies
-/

def PortableEntry.view (entry : PortableEntry ext) :
    Text × PortableEntryKind :=
  (entry.path.value, entry.kind)

def SkillEntry.view (entry : SkillEntry) : Text × PortableEntryKind :=
  (entry.path, entry.kind)

theorem collectPortableEntries_eq_ok
    {entries : List SkillEntry}
    {portableEntries result : List (PortableEntry ext)}
    {skillMd skillMd' : Option Bytes}
    (h : collectPortableEntries entries portableEntries skillMd =
      .ok (result, skillMd')) :
    result.map PortableEntry.view =
        portableEntries.map PortableEntry.view ++
          entries.map SkillEntry.view ∧
      (skillMd' = skillMd ∨
        exists bytes executable, skillMd' = some bytes ∧
          .file skillMdPath bytes executable ∈ entries) := by
  induction entries generalizing portableEntries skillMd with
  | nil =>
      simp only [collectPortableEntries, Except.ok.injEq, Prod.mk.injEq] at h
      simp [h.1, h.2]
  | cons entry rest ih =>
      rcases bind_eq_ok.mp h with ⟨portable, hportable, h⟩
      have hnew := PortableEntry.new_eq_ok (mapError_eq_ok.mp hportable)
      have hview : portable.view = entry.view := by
        simp [PortableEntry.view, SkillEntry.view, hnew.1, hnew.2]
      have hstep : forall {next : Option Bytes},
          collectPortableEntries rest (portableEntries ++ [portable]) next =
            .ok (result, skillMd') ->
          result.map PortableEntry.view =
              portableEntries.map PortableEntry.view ++
                (entry :: rest).map SkillEntry.view ∧
            (skillMd' = next ∨
              exists bytes executable, skillMd' = some bytes ∧
                .file skillMdPath bytes executable ∈ entry :: rest) := by
        intro next hnext
        rcases ih hnext with ⟨hviews, hbytes⟩
        refine ⟨by simp [hviews, hview], ?_⟩
        rcases hbytes with hsame | ⟨bytes, executable, hsome, hmem⟩
        · exact Or.inl hsame
        · exact Or.inr ⟨bytes, executable, hsome, List.mem_cons_of_mem _ hmem⟩
      cases entry with
      | file path bytes executable =>
          dsimp only at h
          split at h
          · rename_i hpath
            rcases bind_eq_ok.mp h with ⟨_, _, h⟩
            rcases hstep h with ⟨hviews, hsame | hrest⟩
            · refine ⟨hviews, Or.inr ⟨bytes, executable, hsame, ?_⟩⟩
              simp [hpath]
            · exact ⟨hviews, Or.inr hrest⟩
          · exact hstep h
      | directory path => exact hstep h
      | symlink path target => exact hstep h

variable (ext) in
/-- The facts about paths and targets that validation establishes. -/
structure AcceptedEntries (entries : List SkillEntry) : Prop where
  nodup : (entries.map SkillEntry.path).Nodup
  portable : forall entry, entry ∈ entries ->
    validatePortablePath ext entry.path = .ok ()
  target : forall path target, .symlink path target ∈ entries ->
    exists parsed : PortablePath ext, parsed.value = path ∧
      validateSymlinkTarget parsed target = .ok ()
  parent : forall entry stop, entry ∈ entries -> 0 < stop ->
    stop < (entry.path.splitOn '/').length ->
      .directory (join '/' ((entry.path.splitOn '/').take stop)) ∈ entries

theorem SkillEntry.eq_directory_of_view {entry : SkillEntry} {path : Text}
    (h : entry.view = (path, .directory)) : entry = .directory path := by
  cases entry with
  | file path' bytes executable => simp [view, kind] at h
  | directory path' =>
      simp only [view, SkillEntry.path, kind, Prod.mk.injEq, and_true] at h
      rw [h]
  | symlink path' target => simp [view, kind] at h

theorem acceptedEntries_of_views {entries : List SkillEntry}
    {tree : PortableTree ext}
    (hviews : (tree.entries.map PortableEntry.view).Perm
      (entries.map SkillEntry.view)) :
    AcceptedEntries ext entries := by
  have hentry : forall entry, entry ∈ entries ->
      exists portable, portable ∈ tree.entries ∧
        portable.view = entry.view := by
    intro entry hmem
    have hview : entry.view ∈ tree.entries.map PortableEntry.view :=
      hviews.mem_iff.mpr (List.mem_map_of_mem hmem)
    exact List.mem_map.mp hview
  refine ⟨?_, ?_, ?_, ?_⟩
  · have hpaths := hviews.map Prod.fst
    simp only [List.map_map] at hpaths
    exact hpaths.nodup_iff.mp tree.nodup_paths
  · intro entry hmem
    rcases hentry entry hmem with ⟨portable, _, hview⟩
    have hpath : portable.path.value = entry.path := congrArg Prod.fst hview
    rw [← hpath]
    exact portable.path.valid
  · intro path target hmem
    rcases hentry _ hmem with ⟨portable, hportable, hview⟩
    have hkind : portable.kind = .symlink target := congrArg Prod.snd hview
    exact ⟨portable.path, congrArg Prod.fst hview,
      tree.target_valid hportable hkind⟩
  · intro entry stop hmem hpos hstop
    rcases hentry entry hmem with ⟨portable, hportable, hview⟩
    have hpath : portable.path.value = entry.path := congrArg Prod.fst hview
    rw [← hpath] at hstop ⊢
    rcases tree.parent_directory hportable hpos hstop with
      ⟨parent, hparent, hparentPath, hparentKind⟩
    have hparentView : parent.view ∈ entries.map SkillEntry.view :=
      hviews.mem_iff.mp (List.mem_map_of_mem hparent)
    rcases List.mem_map.mp hparentView with ⟨directory, hdirectory, hsame⟩
    have hdirectoryView : directory.view =
        (join '/' (portable.path.components.take stop), .directory) := by
      rw [hsame, PortableEntry.view, hparentPath, hparentKind]
    rw [SkillEntry.eq_directory_of_view hdirectoryView] at hdirectory
    exact hdirectory

theorem validateSkillDirectory_eq_ok {name : Text}
    {entries : List SkillEntry} {validated : ValidatedSkill ext}
    (h : validateSkillDirectory ext name entries = .ok validated) :
    AcceptedEntries ext entries ∧
      exists bytes executable,
        .file skillMdPath bytes executable ∈ entries ∧
          parseSkillDocument ext name bytes = .ok validated.document := by
  rcases bind_eq_ok.mp h with ⟨_, _, h⟩
  rcases bind_eq_ok.mp h with ⟨⟨portableEntries, skillMd⟩, hcollect, h⟩
  rcases bind_eq_ok.mp h with ⟨tree, htree, h⟩
  rcases bind_eq_ok.mp h with ⟨bytes, hbytes, h⟩
  rcases bind_eq_ok.mp h with ⟨document, hdocument, h⟩
  cases h
  rcases collectPortableEntries_eq_ok hcollect with ⟨hviews, hskillMd⟩
  have hentries := validatePortableTree_eq_ok.mp (mapError_eq_ok.mp htree)
  have hsome := okOr_eq_ok.mp hbytes
  constructor
  · apply acceptedEntries_of_views
    rw [hentries]
    have hperm := (sortByKey_perm PortableEntry.key portableEntries).map
      PortableEntry.view
    rw [hviews] at hperm
    simpa using hperm
  · rcases hskillMd with hnone | ⟨bytes', executable, hbytes', hmem⟩
    · rw [hnone] at hsome
      cases hsome
    · rw [hbytes'] at hsome
      cases hsome
      exact ⟨bytes, executable, hmem, hdocument⟩

/-!
## The order of the entries

Validation sorts the entries, so a permutation is accepted with the same result.
-/

theorem PortableEntry.view_injective :
    Function.Injective
      (PortableEntry.view : PortableEntry ext -> Text × PortableEntryKind) := by
  intro a b h
  rcases a with ⟨⟨pathA, validA⟩, kindA⟩
  rcases b with ⟨⟨pathB, validB⟩, kindB⟩
  simp only [view, Prod.mk.injEq] at h
  rcases h with ⟨rfl, rfl⟩
  rfl

theorem PortableEntry.new_of_valid {path : Text} (kind : PortableEntryKind)
    (h : validatePortablePath ext path = .ok ()) :
    PortableEntry.new path kind = .ok (⟨⟨path, h⟩, kind⟩ : PortableEntry ext) := by
  have hparse : PortablePath.parse path = .ok (⟨path, h⟩ : PortablePath ext) :=
    PortablePath.parse_eq_ok.mpr rfl
  unfold PortableEntry.new
  rw [hparse]
  rfl

/-- The bytes of the root `SKILL.md`, if there is one. -/
def skillMdBytes : List SkillEntry -> Option Bytes
  | [] => none
  | .file path bytes _ :: rest =>
      if path = skillMdPath then some bytes else skillMdBytes rest
  | _ :: rest => skillMdBytes rest

theorem skillMdBytes_eq_some {entries : List SkillEntry} {bytes : Bytes}
    (hnodup : (entries.map SkillEntry.path).Nodup) :
    skillMdBytes entries = some bytes <->
      exists executable, .file skillMdPath bytes executable ∈ entries := by
  induction entries with
  | nil => simp [skillMdBytes]
  | cons entry rest ih =>
      simp only [List.map_cons, List.nodup_cons] at hnodup
      have hrest := ih hnodup.2
      cases entry with
      | file path content executable =>
          simp only [skillMdBytes]
          split
          · rename_i hpath
            have hfresh : forall executable',
                .file skillMdPath bytes executable' ∉ rest := by
              intro executable' hmem
              apply hnodup.1
              exact List.mem_map.mpr ⟨_, hmem, hpath.symm⟩
            simp [hpath, hfresh, eq_comm]
          · rename_i hpath
            rw [hrest]
            simp [Ne.symm hpath]
      | directory path => simp [skillMdBytes, hrest]
      | symlink path target => simp [skillMdBytes, hrest]

theorem collectPortableEntries_of_valid
    {entries : List SkillEntry} {portableEntries : List (PortableEntry ext)}
    {skillMd : Option Bytes}
    (hvalid : forall entry, entry ∈ entries ->
      validatePortablePath ext entry.path = .ok ())
    (hnodup : (entries.map SkillEntry.path).Nodup)
    (hfirst : skillMd = none ∨ skillMdBytes entries = none) :
    exists result : List (PortableEntry ext),
      collectPortableEntries entries portableEntries skillMd =
        .ok (result, (skillMdBytes entries).or skillMd) := by
  induction entries generalizing portableEntries skillMd with
  | nil => exact ⟨portableEntries, rfl⟩
  | cons entry rest ih =>
      simp only [List.map_cons, List.nodup_cons] at hnodup
      have hentry := hvalid entry List.mem_cons_self
      have hrest : forall other, other ∈ rest ->
          validatePortablePath ext other.path = .ok () :=
        fun other hother => hvalid other (List.mem_cons_of_mem entry hother)
      unfold collectPortableEntries
      rw [PortableEntry.new_of_valid entry.kind hentry]
      simp only [Except.mapError, bind, Except.bind]
      cases entry with
      | file path bytes executable =>
          simp only [skillMdBytes] at hfirst ⊢
          split
          · rename_i hpath
            have hnone : skillMd = none := by
              simpa [hpath] using hfirst
            have hlater : skillMdBytes rest = none := by
              cases hbytes : skillMdBytes rest with
              | none => rfl
              | some later =>
                  rcases (skillMdBytes_eq_some hnodup.2).mp hbytes with
                    ⟨executable', hmem⟩
                  exact absurd
                    (List.mem_map.mpr ⟨_, hmem, hpath.symm⟩) hnodup.1
            have hnext : exists result : List (PortableEntry ext),
                collectPortableEntries rest
                  (portableEntries ++ [⟨⟨path, hentry⟩, .file executable⟩])
                  (some bytes) =
                    .ok (result, (skillMdBytes rest).or (some bytes)) :=
              ih hrest hnodup.2 (Or.inr hlater)
            rcases hnext with ⟨result, hresult⟩
            rw [hlater] at hresult
            refine ⟨result, ?_⟩
            rw [hnone]
            exact hresult
          · rename_i hpath
            rw [if_neg hpath] at hfirst
            exact ih hrest hnodup.2 hfirst
      | directory path => exact ih hrest hnodup.2 hfirst
      | symlink path target => exact ih hrest hnodup.2 hfirst

theorem collectPortableEntries_perm {entries entries' : List SkillEntry}
    {portableEntries : List (PortableEntry ext)} {skillMd : Option Bytes}
    (hperm : entries.Perm entries')
    (haccepted : AcceptedEntries ext entries)
    (h : collectPortableEntries entries [] none =
      .ok (portableEntries, skillMd)) :
    exists portableEntries' : List (PortableEntry ext),
      portableEntries.Perm portableEntries' ∧
        collectPortableEntries entries' [] none =
          .ok (portableEntries', skillMd) := by
  have hnodup : (entries'.map SkillEntry.path).Nodup :=
    (hperm.map SkillEntry.path).nodup_iff.mp haccepted.nodup
  have hresult : exists result : List (PortableEntry ext),
      collectPortableEntries entries [] none =
        .ok (result, (skillMdBytes entries).or none) :=
    collectPortableEntries_of_valid haccepted.portable haccepted.nodup
      (Or.inl rfl)
  have hskillMd : skillMd = skillMdBytes entries := by
    rcases hresult with ⟨result, hresult⟩
    rw [h] at hresult
    cases hresult
    exact Option.or_none
  have hcollect : exists portableEntries' : List (PortableEntry ext),
      collectPortableEntries entries' [] none =
        .ok (portableEntries', (skillMdBytes entries').or none) :=
    collectPortableEntries_of_valid
      (fun entry hmem => haccepted.portable entry (hperm.mem_iff.mpr hmem))
      hnodup (Or.inl rfl)
  rcases hcollect with ⟨portableEntries', hcollect⟩
  have hbytes : skillMdBytes entries' = skillMdBytes entries := by
    apply Option.ext
    intro bytes
    rw [skillMdBytes_eq_some hnodup, skillMdBytes_eq_some haccepted.nodup]
    simp only [hperm.mem_iff]
  rw [Option.or_none, hbytes, ← hskillMd] at hcollect
  refine ⟨portableEntries', ?_, hcollect⟩
  have hviews := (collectPortableEntries_eq_ok h).1
  have hviews' := (collectPortableEntries_eq_ok hcollect).1
  rw [← List.map_perm_map_iff PortableEntry.view_injective, hviews, hviews']
  exact hperm.map SkillEntry.view

theorem validatePortableTree_perm
    {portableEntries portableEntries' : List (PortableEntry ext)}
    {tree : PortableTree ext}
    (hperm : portableEntries.Perm portableEntries')
    (h : validatePortableTree portableEntries = .ok tree) :
    validatePortableTree portableEntries' = .ok tree := by
  have hentries := validatePortableTree_eq_ok.mp h
  have hpaths : (portableEntries.map PortableEntry.key).Nodup := by
    have hsorted : (tree.entries.map PortableEntry.key).Nodup := by
      have hmap : tree.entries.map PortableEntry.key =
          (tree.entries.map fun entry => entry.path.value).map utf8 := by
        rw [List.map_map]
        rfl
      rw [hmap]
      exact tree.nodup_paths.map fun a b hab => utf8_injective hab
    rw [hentries] at hsorted
    exact ((sortByKey_perm _ portableEntries).map _).nodup_iff.mp hsorted
  have hsame : sortByKey PortableEntry.key portableEntries =
      sortByKey PortableEntry.key portableEntries' := by
    apply sortByKey_eq_of_perm _ hperm
    intro a b ha hb hkey
    exact List.inj_on_of_nodup_map hpaths ha hb hkey
  rw [validatePortableTree_eq_ok, ← hsame]
  exact hentries

theorem validateSkillDirectory_perm {name : Text}
    {entries entries' : List SkillEntry} {validated : ValidatedSkill ext}
    (hperm : entries.Perm entries')
    (h : validateSkillDirectory ext name entries = .ok validated) :
    validateSkillDirectory ext name entries' = .ok validated := by
  have haccepted := (validateSkillDirectory_eq_ok h).1
  rcases bind_eq_ok.mp h with ⟨_, hname, h⟩
  rcases bind_eq_ok.mp h with ⟨⟨portableEntries, skillMd⟩, hcollect, h⟩
  rcases bind_eq_ok.mp h with ⟨tree, htree, h⟩
  rcases collectPortableEntries_perm hperm haccepted hcollect with
    ⟨portableEntries', hportable, hcollect'⟩
  have htree' : validatePortableTree portableEntries' = .ok tree :=
    validatePortableTree_perm hportable (mapError_eq_ok.mp htree)
  unfold validateSkillDirectory
  refine bind_eq_ok.mpr ⟨_, hname, ?_⟩
  refine bind_eq_ok.mpr ⟨_, hcollect', ?_⟩
  exact bind_eq_ok.mpr ⟨tree, mapError_eq_ok.mpr htree', h⟩

end Denju
