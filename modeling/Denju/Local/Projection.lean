import Denju.Core.Rename
import Denju.Core.RoundTrip

/-!
# Collision-derived projections

When two managed skills share a name, a harness sees one of them through a
derived copy whose `SKILL.md` carries an alias.  Owned skills are edited through
either copy: the semantic root of the last agreement is the baseline against
which a reconcile decides which side changed.

A directory on disk is the list of its entries.  The model follows the Unix
build, where writing a new file leaves it without execute bits and copying a
file keeps them.
-/

namespace Denju

open Lib

variable (ext : Externals)

inductive ProjectionError where
  | io (message : Text)
  | corrupt (message : Text)
  | corruptSkill (source : SkillValidationError)
  | corruptSnapshot (source : SnapshotError)
  | divergedDerivedEdit (locator : Text)
deriving DecidableEq, Repr

/-!
## Reading and copying directories
-/

def replaceBackslashes (text : Text) : Text :=
  text.map fun c => if c = '\\' then '/' else c

/-- The entry as `read_skill_source` reports it. -/
def readEntry : OwnedSkillEntry -> OwnedSkillEntry
  | .file path bytes executable =>
      .file (replaceBackslashes path) bytes executable
  | .directory path => .directory (replaceBackslashes path)
  | .symlink path target =>
      .symlink (replaceBackslashes path) (replaceBackslashes target)

def readSkillSource (directory : List OwnedSkillEntry) :
    List OwnedSkillEntry :=
  directory.map readEntry

def skillManifest (directory : List OwnedSkillEntry) (skillName : Text) :
    Except ProjectionError SkillManifest :=
  (buildSkillManifest ext skillName (readSkillSource directory)).mapError
    .corruptSnapshot

/-- Rewrite the root `SKILL.md` and keep every other entry. -/
def rewriteSkillMd (rewrite : Bytes -> Except SkillValidationError Bytes)
    (mode : Bool -> Bool) :
    OwnedSkillEntry -> Except ProjectionError OwnedSkillEntry
  | .file path bytes executable =>
      if path = skillMdPath then do
        let rewritten <- (rewrite bytes).mapError .corruptSkill
        return .file path rewritten (mode executable)
      else
        return .file path bytes executable
  | entry => return entry

/-- The copy of one entry; the new `SKILL.md` is written without execute bits. -/
def copyDerivedEntry (canonicalName harnessName : Text) :
    OwnedSkillEntry -> Except ProjectionError OwnedSkillEntry :=
  rewriteSkillMd
    (fun bytes => rewriteSkillDocumentName ext canonicalName bytes harnessName)
    fun _ => false

def copyDerivedTree (source : List OwnedSkillEntry)
    (canonicalName harnessName : Text) :
    Except ProjectionError (List OwnedSkillEntry) := do
  let destination <- source.mapM (copyDerivedEntry ext canonicalName harnessName)
  let skillMd <- okOr (skillMdBytes destination)
    (.io "No such file or directory".toList)
  let _ <- (parseSkillDocument ext harnessName skillMd).mapError .corruptSkill
  return destination

/-- Give a derived entry its canonical name back. -/
def canonicalizeEntry (harnessName skillName : Text) :
    OwnedSkillEntry -> Except ProjectionError OwnedSkillEntry :=
  rewriteSkillMd
    (fun bytes => rewriteSkillDocumentName ext harnessName bytes skillName)
    fun executable => executable

def canonicalizedDerived (directory : List OwnedSkillEntry)
    (harnessName skillName : Text) :
    Except ProjectionError (SkillManifest × List OwnedSkillEntry) := do
  let entries <- (readSkillSource directory).mapM
    (canonicalizeEntry ext harnessName skillName)
  ensure (skillMdBytes entries).isSome
    (.corrupt "derived projection is missing SKILL.md".toList)
  let manifest <- (buildSkillManifest ext skillName entries).mapError
    .corruptSnapshot
  return (manifest, entries)

def canonicalizedDerivedManifest (directory : List OwnedSkillEntry)
    (harnessName skillName : Text) : Except ProjectionError SkillManifest := do
  let (manifest, _) <-
    canonicalizedDerived ext directory harnessName skillName
  return manifest

/-!
## The local state of one owned skill
-/

structure DerivedProjectionState where
  harnessName : Text
  baselineRootTreeId : TreeId
deriving DecidableEq, Repr

structure OwnedSkillRecord where
  locator : Text
  skillName : Text
  harnessName : Option Text
  materializedRevisionId : Option RevisionId
deriving DecidableEq, Repr

/-- The canonical tree, the derived views by revision and name, the baseline. -/
structure LocalSkill where
  canonical : List OwnedSkillEntry
  derived : RevisionId -> Text -> Option (List OwnedSkillEntry)
  baseline : Option DerivedProjectionState

namespace LocalSkill

def setDerived (skill : LocalSkill) (revision : RevisionId)
    (harnessName : Text) (view : List OwnedSkillEntry) : LocalSkill :=
  { skill with
    derived := fun revision' harnessName' =>
      if revision' = revision ∧ harnessName' = harnessName then
        some view
      else
        skill.derived revision' harnessName' }

def saveBaseline (skill : LocalSkill) (harnessName : Text)
    (root : TreeId) : LocalSkill :=
  { skill with baseline := some ⟨harnessName, root⟩ }

end LocalSkill

/-- The derived view, whether it was created, and the state that holds it. -/
def derivedView (record : OwnedSkillRecord) (skill : LocalSkill)
    (harnessName : Text) :
    Except ProjectionError (List OwnedSkillEntry × Bool × LocalSkill) :=
  match record.materializedRevisionId with
  | none =>
      .error (.corrupt "derived projection has no materialized revision".toList)
  | some revision =>
      match skill.derived revision harnessName with
      | some view => do
          let skillMd <- okOr (skillMdBytes view)
            (.io "No such file or directory".toList)
          let _ <- (parseSkillDocument ext harnessName skillMd).mapError
            .corruptSkill
          return (view, false, skill)
      | none => do
          let view <-
            copyDerivedTree ext skill.canonical record.skillName harnessName
          return (view, true, skill.setDerived revision harnessName view)

/--
The part of `reconcile_harness_projections` that concerns one owned skill which
is projected under a harness name.
-/
def reconcileHarnessProjection (record : OwnedSkillRecord)
    (skill : LocalSkill) (harnessName : Text) :
    Except ProjectionError (OwnedSkillRecord × LocalSkill) := do
  let derived := harnessName != record.skillName
  let (target, derivedCreated, skill) <-
    if derived then
      derivedView ext record skill harnessName
    else
      .ok (skill.canonical, false, skill)
  let record := { record with harnessName := some harnessName }
  let stale := skill.baseline.all fun state => state.harnessName != harnessName
  if derived && (derivedCreated || stale) then
    let canonicalManifest <- skillManifest ext skill.canonical record.skillName
    let derivedManifest <-
      canonicalizedDerivedManifest ext target harnessName record.skillName
    if canonicalManifest = derivedManifest then
      return (record,
        skill.saveBaseline harnessName canonicalManifest.rootTree)
    else
      return (record, skill)
  else
    return (record, skill)

/-- Decide which side changed since the baseline, and carry the change over. -/
def reconcileAgainstBaseline (record : OwnedSkillRecord) (skill : LocalSkill)
    (revision : RevisionId) (harnessName : Text)
    (canonicalManifest derivedManifest : SkillManifest)
    (derivedEntries : List OwnedSkillEntry) :
    Except ProjectionError (Bool × LocalSkill) :=
  match skill.baseline.filter fun state => state.harnessName == harnessName with
  | none => .error (.divergedDerivedEdit record.locator)
  | some baseline =>
      let canonicalChanged :=
        canonicalManifest.rootTree != baseline.baselineRootTreeId
      let derivedChanged :=
        derivedManifest.rootTree != baseline.baselineRootTreeId
      match canonicalChanged, derivedChanged with
      | false, true => do
          let written <- skillManifest ext derivedEntries record.skillName
          ensure (written.rootTree == derivedManifest.rootTree)
            (.corrupt
              "workspace writeback generation failed semantic verification".toList)
          return (true,
            { skill with canonical := derivedEntries }.saveBaseline harnessName
              derivedManifest.rootTree)
      | true, false => do
          let view <-
            copyDerivedTree ext skill.canonical record.skillName harnessName
          return (false,
            (skill.setDerived revision harnessName view).saveBaseline harnessName
              canonicalManifest.rootTree)
      | true, true => .error (.divergedDerivedEdit record.locator)
      | false, false => return (false, skill)

def reconcileOwnedDerivedProjection (record : OwnedSkillRecord)
    (skill : LocalSkill) : Except ProjectionError (Bool × LocalSkill) :=
  match record.harnessName, record.materializedRevisionId with
  | none, _ => .ok (false, skill)
  | some _, none => .ok (false, skill)
  | some harnessName, some revision =>
      if harnessName = record.skillName then
        .ok (false, skill)
      else
        match skill.derived revision harnessName with
        | none => .ok (false, skill)
        | some view => do
            let canonicalManifest <-
              skillManifest ext skill.canonical record.skillName
            let (derivedManifest, derivedEntries) <-
              canonicalizedDerived ext view harnessName record.skillName
            if canonicalManifest.rootTree = derivedManifest.rootTree then
              return (false,
                skill.saveBaseline harnessName canonicalManifest.rootTree)
            else
              reconcileAgainstBaseline ext record skill revision harnessName
                canonicalManifest derivedManifest derivedEntries

/-!
## Replacing the root document
-/

/-- The entry with other content for the root `SKILL.md`. -/
def setSkillMd (bytes : Bytes) (executable : Bool) :
    OwnedSkillEntry -> OwnedSkillEntry
  | .file path content mode =>
      if path = skillMdPath then
        .file path bytes executable
      else
        .file path content mode
  | entry => entry

/-- The root document of the list, which has no other one. -/
def HasSkillMd (entries : List OwnedSkillEntry) (bytes : Bytes)
    (executable : Bool) : Prop :=
  .file skillMdPath bytes executable ∈ entries ∧
    forall bytes' executable',
      .file skillMdPath bytes' executable' ∈ entries ->
        bytes' = bytes ∧ executable' = executable

theorem HasSkillMd.skillMdBytes_eq {entries : List OwnedSkillEntry}
    {bytes : Bytes} {executable : Bool}
    (h : HasSkillMd entries bytes executable) :
    skillMdBytes entries = some bytes := by
  rcases h with ⟨hmem, hunique⟩
  induction entries with
  | nil => cases hmem
  | cons entry rest ih =>
      have hrest : forall bytes' executable',
          .file skillMdPath bytes' executable' ∈ rest ->
            bytes' = bytes ∧ executable' = executable :=
        fun bytes' executable' hrest =>
          hunique bytes' executable' (List.mem_cons_of_mem entry hrest)
      cases entry with
      | file path content mode =>
          simp only [skillMdBytes]
          split
          · rename_i hpath
            have hsame := hunique content mode (by simp [hpath])
            rw [hsame.1]
          · rename_i hpath
            rcases List.mem_cons.mp hmem with hhead | hmem
            · cases hhead
              exact absurd rfl hpath
            · exact ih hmem hrest
      | directory path =>
          exact ih (by simpa using hmem) hrest
      | symlink path target =>
          exact ih (by simpa using hmem) hrest

theorem hasSkillMd_setSkillMd {entries : List OwnedSkillEntry}
    {bytes bytes' : Bytes} {executable executable' : Bool}
    (h : HasSkillMd entries bytes executable) :
    HasSkillMd (entries.map (setSkillMd bytes' executable')) bytes'
      executable' := by
  constructor
  · refine List.mem_map.mpr ⟨_, h.1, ?_⟩
    simp [setSkillMd]
  · intro content mode hmem
    rcases List.mem_map.mp hmem with ⟨entry, _, hentry⟩
    cases entry with
    | file path content' mode' =>
        simp only [setSkillMd] at hentry
        split at hentry
        · cases hentry
          exact ⟨rfl, rfl⟩
        · rename_i hpath
          cases hentry
          exact absurd rfl hpath
    | directory path => cases hentry
    | symlink path target => cases hentry

theorem map_setSkillMd_self {entries : List OwnedSkillEntry} {bytes : Bytes}
    {executable : Bool} (h : HasSkillMd entries bytes executable) :
    entries.map (setSkillMd bytes executable) = entries := by
  refine (List.map_congr_left ?_).trans (List.map_id entries)
  intro entry hmem
  cases entry with
  | file path content mode =>
      simp only [setSkillMd, id_eq]
      split
      · rename_i hpath
        rw [hpath] at hmem
        have hsame := h.2 content mode hmem
        rw [hsame.1, hsame.2]
      · rfl
  | directory path => rfl
  | symlink path target => rfl

theorem map_setSkillMd_twice (entries : List OwnedSkillEntry)
    (bytes bytes' : Bytes) (executable executable' : Bool) :
    (entries.map (setSkillMd bytes executable)).map
        (setSkillMd bytes' executable') =
      entries.map (setSkillMd bytes' executable') := by
  rw [List.map_map]
  apply List.map_congr_left
  intro entry _
  cases entry with
  | file path content mode =>
      by_cases hpath : path = skillMdPath
      · simp [setSkillMd, hpath]
      · simp [setSkillMd, hpath]
  | directory path => rfl
  | symlink path target => rfl

theorem mapM_rewriteSkillMd {entries : List OwnedSkillEntry} {bytes : Bytes}
    {executable : Bool} (h : HasSkillMd entries bytes executable)
    (rewrite : Bytes -> Except SkillValidationError Bytes)
    (mode : Bool -> Bool) (result : List OwnedSkillEntry) :
    entries.mapM (rewriteSkillMd rewrite mode) = .ok result <->
      exists rewritten, rewrite bytes = .ok rewritten ∧
        result = entries.map (setSkillMd rewritten (mode executable)) := by
  have hforward : forall rewritten, rewrite bytes = .ok rewritten ->
      entries.mapM (rewriteSkillMd rewrite mode) =
        .ok (entries.map (setSkillMd rewritten (mode executable))) := by
    intro rewritten hrewritten
    apply mapM_ok_of_forall
    intro entry hmem
    cases entry with
    | file path content mode' =>
        by_cases hpath : path = skillMdPath
        · rw [hpath] at hmem
          have hsame := h.2 content mode' hmem
          simp [rewriteSkillMd, setSkillMd, hpath, hsame, hrewritten,
            Except.mapError, bind, Except.bind, pure, Except.pure]
        · simp [rewriteSkillMd, setSkillMd, hpath, pure, Except.pure]
    | directory path => rfl
    | symlink path target => rfl
  constructor
  · intro hresult
    rcases mapM_eq_ok_forall hresult _ h.1 with ⟨entry, _, hentry⟩
    simp only [rewriteSkillMd, if_true] at hentry
    rcases bind_eq_ok.mp hentry with ⟨rewritten, hrewritten, _⟩
    have hrewritten := mapError_eq_ok.mp hrewritten
    refine ⟨rewritten, hrewritten, ?_⟩
    rw [hforward rewritten hrewritten] at hresult
    cases hresult
    rfl
  · rintro ⟨rewritten, hrewritten, rfl⟩
    exact hforward rewritten hrewritten

/-!
Reading a directory only touches backslashes, which `SKILL.md` does not have.
-/

theorem replaceBackslashes_eq_skillMdPath {path : Text} :
    replaceBackslashes path = skillMdPath <-> path = skillMdPath := by
  constructor
  · intro h
    have hslash : '/' ∉ skillMdPath := by decide
    have hback : forall c, c ∈ path -> c ≠ '\\' := by
      intro c hc heq
      apply hslash
      rw [← h]
      exact List.mem_map.mpr ⟨c, hc, by simp [heq]⟩
    rw [← h]
    apply Eq.symm
    refine (List.map_congr_left ?_).trans (List.map_id path)
    intro c hc
    simp [hback c hc]
  · rintro rfl
    decide

theorem readSkillSource_map_setSkillMd (directory : List OwnedSkillEntry)
    (bytes : Bytes) (executable : Bool) :
    readSkillSource (directory.map (setSkillMd bytes executable)) =
      (readSkillSource directory).map (setSkillMd bytes executable) := by
  unfold readSkillSource
  rw [List.map_map, List.map_map]
  apply List.map_congr_left
  intro entry _
  cases entry with
  | file path content mode =>
      by_cases hpath : path = skillMdPath
      · have hread := replaceBackslashes_eq_skillMdPath.mpr hpath
        simp only [Function.comp_apply, setSkillMd, readEntry, if_pos hpath,
          if_pos hread]
      · have hread : replaceBackslashes path ≠ skillMdPath :=
          fun h => hpath (replaceBackslashes_eq_skillMdPath.mp h)
        simp [setSkillMd, readEntry, hpath, hread]
  | directory path => rfl
  | symlink path target => rfl

theorem mem_readSkillSource_skillMd {directory : List OwnedSkillEntry}
    {bytes : Bytes} {executable : Bool} :
    .file skillMdPath bytes executable ∈ readSkillSource directory <->
      .file skillMdPath bytes executable ∈ directory := by
  constructor
  · intro h
    rcases List.mem_map.mp h with ⟨entry, hmem, hentry⟩
    cases entry with
    | file path content mode =>
        simp only [readEntry, SkillEntry.file.injEq] at hentry
        have hpath := replaceBackslashes_eq_skillMdPath.mp hentry.1
        rw [← hpath, ← hentry.2.1, ← hentry.2.2]
        exact hmem
    | directory path => cases hentry
    | symlink path target => cases hentry
  · intro h
    refine List.mem_map.mpr ⟨_, h, ?_⟩
    simp only [readEntry, SkillEntry.file.injEq, and_true]
    exact replaceBackslashes_eq_skillMdPath.mpr rfl

theorem hasSkillMd_readSkillSource {directory : List OwnedSkillEntry}
    {bytes : Bytes} {executable : Bool} :
    HasSkillMd (readSkillSource directory) bytes executable <->
      HasSkillMd directory bytes executable := by
  unfold HasSkillMd
  simp only [mem_readSkillSource_skillMd]

/-!
## When the new view agrees with the canonical tree
-/

variable {ext}

theorem hasSkillMd_of_manifest {directory : List OwnedSkillEntry}
    {skillName : Text} {manifest : SkillManifest}
    (h : skillManifest ext directory skillName = .ok manifest) :
    exists bytes executable, HasSkillMd directory bytes executable ∧
      exists document, parseSkillDocument ext skillName bytes = .ok document := by
  have hbuild := mapError_eq_ok.mp h
  rcases bind_eq_ok.mp hbuild with ⟨validated, hvalidated, _⟩
  rcases validateSkillDirectory_eq_ok (mapError_eq_ok.mp hvalidated) with
    ⟨haccepted, bytes, executable, hmem, hdocument⟩
  refine ⟨bytes, executable, ?_, _, hdocument⟩
  rw [← hasSkillMd_readSkillSource]
  refine ⟨hmem, ?_⟩
  intro bytes' executable' hmem'
  have hsame := List.inj_on_of_nodup_map haccepted.nodup hmem' hmem rfl
  cases hsame
  exact ⟨rfl, rfl⟩

/-- Other content for `SKILL.md` changes the manifest. -/
theorem buildSkillManifest_setSkillMd_iff {name : Text}
    {entries : List OwnedSkillEntry} {manifest : SkillManifest}
    {bytes bytes' : Bytes} {executable executable' : Bool}
    (hskillMd : HasSkillMd entries bytes executable)
    (hbuild : buildSkillManifest ext name entries = .ok manifest)
    (hcollision : ext.sha256 bytes' = ext.sha256 bytes -> bytes' = bytes) :
    buildSkillManifest ext name
        (entries.map (setSkillMd bytes' executable')) = .ok manifest <->
      bytes' = bytes ∧ executable' = executable := by
  constructor
  · intro hother
    rcases buildSkillManifest_eq_ok hbuild with ⟨trees, hparts⟩
    rcases buildSkillManifest_eq_ok hother with ⟨otherTrees, hotherParts⟩
    rcases hotherParts.mem_manifest
      (hasSkillMd_setSkillMd hskillMd).1 with ⟨value', hvalue', hof'⟩
    rcases hparts.mem_entries hvalue' with ⟨entry, hentry, hof⟩
    have hpath : entry.path = skillMdPath := by
      rw [← manifestEntryOf_path hof, manifestEntryOf_path hof']
      rfl
    rw [manifestEntryOf_file hof'] at hof
    cases entry with
    | file path content mode =>
        have hvalue := manifestEntryOf_file hof
        simp only [SkillManifestEntry.file.injEq, BlobId.hash,
          BlobId.mk.injEq] at hvalue
        have hpath : path = skillMdPath := hpath
        rw [hpath] at hentry
        have hsame := hskillMd.2 content mode hentry
        rw [hsame.1, hsame.2] at hvalue
        exact ⟨hcollision hvalue.2.1, hvalue.2.2.2⟩
    | directory path => cases hof
    | symlink path target => cases hof
  · rintro ⟨rfl, rfl⟩
    rw [map_setSkillMd_self hskillMd]
    exact hbuild

variable (ext) in
/--
The document is what emitting its own frontmatter gives: the delimiters end in
a newline, the frontmatter is the emitted text, and the name is a plain string.
-/
def InEmittedForm (name : Text) (bytes : Bytes) : Prop :=
  exists value mapping body text,
    parseFrontmatter ext bytes = .ok (value, body) ∧
      value.asMapping = some mapping ∧
        mapping.insert "name".toList (.string name) = mapping ∧
          ext.yamlToString value = .ok text ∧ bytes = renderDocument text body

/-- Renaming to the harness name and back restores exactly the emitted form. -/
theorem rewrite_back_eq_iff (hyaml : YamlRoundTrip ext)
    {name harness : Text} {bytes derived : Bytes} {document : SkillDocument}
    (hdocument : parseSkillDocument ext name bytes = .ok document)
    (hname : validateSkillName name = .ok ())
    (h : rewriteSkillDocumentName ext name bytes harness = .ok derived) :
    rewriteSkillDocumentName ext harness derived name = .ok bytes <->
      InEmittedForm ext name bytes := by
  rcases rewriteSkillDocumentName_back hyaml h with
    ⟨value, mapping, body, hvalue, hmapping, hback⟩
  rw [hback bytes]
  constructor
  · rintro ⟨⟨text, htext, hbytes⟩, _, _⟩
    have hrenamed := Yaml.Value.asMapping_withMapping hmapping
      (mapping.insert "name".toList (.string name))
    have hparsed := parseFrontmatter_renderDocument hyaml htext
      (by rw [hrenamed]; rfl) body
    rw [← hbytes, hvalue] at hparsed
    simp only [Except.ok.injEq, Prod.mk.injEq, and_true] at hparsed
    rw [← hparsed] at hrenamed htext
    rw [hmapping] at hrenamed
    have hinsert : mapping.insert "name".toList (.string name) = mapping :=
      (Option.some.inj hrenamed).symm
    exact ⟨value, mapping, body, text, hvalue, hmapping, hinsert, htext,
      hbytes⟩
  · rintro ⟨value', mapping', body', text, hvalue', hmapping', hinsert, htext,
      hbytes⟩
    rw [hvalue] at hvalue'
    cases hvalue'
    rw [hmapping] at hmapping'
    cases hmapping'
    rw [hinsert, Yaml.Value.withMapping_self hmapping]
    exact ⟨⟨text, htext, hbytes⟩, hname, document, hdocument⟩

/--
A view that was just created agrees with its canonical tree, the harness
projection records the baseline, and the next reconcile changes nothing.
-/
def ProjectionSettles (ext : Externals) (record : OwnedSkillRecord)
    (skill : LocalSkill) (harnessName : Text) (manifest : SkillManifest)
    (view : List OwnedSkillEntry) : Prop :=
  canonicalizedDerivedManifest ext view harnessName record.skillName =
      .ok manifest ∧
    exists record' skill',
      reconcileHarnessProjection ext record skill harnessName =
          .ok (record', skill') ∧
        skill'.baseline = some ⟨harnessName, manifest.rootTree⟩ ∧
          exists skill'',
            reconcileOwnedDerivedProjection ext record' skill' =
                .ok (false, skill'') ∧
              skill''.canonical = skill.canonical

theorem canonicalizedDerived_eq_ok {view : List OwnedSkillEntry}
    {harnessName skillName : Text} {bytes : Bytes} {executable : Bool}
    (hskillMd : HasSkillMd view bytes executable)
    (manifest : SkillManifest) (entries : List OwnedSkillEntry) :
    canonicalizedDerived ext view harnessName skillName =
        .ok (manifest, entries) <->
      exists rewritten,
        rewriteSkillDocumentName ext harnessName bytes skillName =
            .ok rewritten ∧
          entries =
            (readSkillSource view).map (setSkillMd rewritten executable) ∧
            buildSkillManifest ext skillName entries = .ok manifest := by
  have hread := hasSkillMd_readSkillSource.mpr hskillMd
  have hmapM := mapM_rewriteSkillMd hread
    (fun bytes => rewriteSkillDocumentName ext harnessName bytes skillName)
    fun executable => executable
  constructor
  · intro h
    rcases bind_eq_ok.mp h with ⟨entries', hentries, h⟩
    rcases bind_eq_ok.mp h with ⟨_, _, h⟩
    rcases bind_eq_ok.mp h with ⟨manifest', hmanifest, h⟩
    cases h
    rcases (hmapM entries).mp hentries with ⟨rewritten, hrewritten, hsame⟩
    exact ⟨rewritten, hrewritten, hsame, mapError_eq_ok.mp hmanifest⟩
  · rintro ⟨rewritten, hrewritten, hsame, hmanifest⟩
    have hfound : (skillMdBytes entries).isSome := by
      rw [hsame, (hasSkillMd_setSkillMd hread).skillMdBytes_eq]
      rfl
    unfold canonicalizedDerived
    refine bind_eq_ok.mpr ⟨entries, ?_, ?_⟩
    · exact (hmapM entries).mpr ⟨rewritten, hrewritten, hsame⟩
    · refine bind_eq_ok.mpr ⟨(), ensure_eq_ok.mpr hfound, ?_⟩
      exact bind_eq_ok.mpr ⟨manifest, mapError_eq_ok.mpr hmanifest, rfl⟩

theorem copyDerivedTree_eq_ok {source view : List OwnedSkillEntry}
    {canonicalName harnessName : Text} {bytes : Bytes} {executable : Bool}
    (hskillMd : HasSkillMd source bytes executable)
    (h : copyDerivedTree ext source canonicalName harnessName = .ok view) :
    exists rewritten,
      rewriteSkillDocumentName ext canonicalName bytes harnessName =
          .ok rewritten ∧
        view = source.map (setSkillMd rewritten false) := by
  rcases bind_eq_ok.mp h with ⟨destination, hdestination, h⟩
  rcases bind_eq_ok.mp h with ⟨_, _, h⟩
  rcases bind_eq_ok.mp h with ⟨_, _, h⟩
  cases h
  exact (mapM_rewriteSkillMd hskillMd _ _ _).mp hdestination

/-- The manifest of a new view is the canonical one in emitted form only. -/
theorem canonicalizedDerived_copy_iff (hyaml : YamlRoundTrip ext)
    {directory view : List OwnedSkillEntry} {skillName harnessName : Text}
    {manifest : SkillManifest} {bytes : Bytes} {executable : Bool}
    (hskillMd : HasSkillMd directory bytes executable)
    (hvalid : skillManifest ext directory skillName = .ok manifest)
    (hcopy : copyDerivedTree ext directory skillName harnessName = .ok view)
    (hcollision : forall result,
      canonicalizedDerived ext view harnessName skillName = .ok result ->
        NoCollision ext (fileContents (readSkillSource directory) ++
          fileContents result.2)) :
    (exists entries, canonicalizedDerived ext view harnessName skillName =
        .ok (manifest, entries)) <->
      executable = false ∧ InEmittedForm ext skillName bytes := by
  have hbuild := mapError_eq_ok.mp hvalid
  have hread := hasSkillMd_readSkillSource.mpr hskillMd
  rcases hasSkillMd_of_manifest hvalid with
    ⟨bytes', executable', hskillMd', document, hdocument⟩
  have hsame := hskillMd.2 bytes' executable' hskillMd'.1
  rw [hsame.1] at hdocument
  have hname : validateSkillName skillName = .ok () := by
    rcases bind_eq_ok.mp hbuild with ⟨validated, hvalidated, _⟩
    rcases bind_eq_ok.mp (mapError_eq_ok.mp hvalidated) with ⟨_, hname, _⟩
    exact hname
  rcases copyDerivedTree_eq_ok hskillMd hcopy with
    ⟨derivedBytes, hderived, hview⟩
  have hviewSkillMd : HasSkillMd view derivedBytes false := by
    rw [hview]
    exact hasSkillMd_setSkillMd hskillMd
  have hentries : forall rewritten,
      (readSkillSource view).map (setSkillMd rewritten false) =
        (readSkillSource directory).map (setSkillMd rewritten false) := by
    intro rewritten
    rw [hview, readSkillSource_map_setSkillMd, map_setSkillMd_twice]
  have hback := rewrite_back_eq_iff hyaml hdocument hname hderived
  constructor
  · rintro ⟨entries, hcanonicalized⟩
    rcases (canonicalizedDerived_eq_ok hviewSkillMd manifest entries).mp
      hcanonicalized with ⟨rewritten, hrewritten, hsameEntries, hmanifest⟩
    have hno := hcollision _ hcanonicalized
    rw [hentries] at hsameEntries
    rw [hsameEntries] at hmanifest hno
    have hcontent : rewritten = bytes ∧ false = executable := by
      refine (buildSkillManifest_setSkillMd_iff hread hbuild ?_).mp hmanifest
      apply hno
      · apply List.mem_append_right
        exact List.mem_filterMap.mpr
          ⟨_, (hasSkillMd_setSkillMd hread).1, rfl⟩
      · apply List.mem_append_left
        exact List.mem_filterMap.mpr ⟨_, hread.1, rfl⟩
    rw [hcontent.1] at hrewritten
    exact ⟨hcontent.2.symm, hback.mp hrewritten⟩
  · rintro ⟨rfl, hform⟩
    refine ⟨(readSkillSource directory).map (setSkillMd bytes false), ?_⟩
    refine (canonicalizedDerived_eq_ok hviewSkillMd _ _).mpr
      ⟨bytes, hback.mpr hform, (hentries bytes).symm, ?_⟩
    rw [map_setSkillMd_self hread]
    exact hbuild

theorem canonicalizedDerivedManifest_eq_ok {view : List OwnedSkillEntry}
    {harnessName skillName : Text} {manifest : SkillManifest} :
    canonicalizedDerivedManifest ext view harnessName skillName =
        .ok manifest <->
      exists entries, canonicalizedDerived ext view harnessName skillName =
        .ok (manifest, entries) := by
  constructor
  · intro h
    rcases bind_eq_ok.mp h with ⟨⟨manifest', entries⟩, hresult, h⟩
    cases h
    exact ⟨entries, hresult⟩
  · rintro ⟨entries, h⟩
    exact bind_eq_ok.mpr ⟨_, h, rfl⟩

/-- The reconcile after a view that agrees was projected. -/
theorem projectionSettles_of_agreement {record : OwnedSkillRecord}
    {skill : LocalSkill} {harnessName : Text} {revision : RevisionId}
    {manifest : SkillManifest} {view entries : List OwnedSkillEntry}
    (hrevision : record.materializedRevisionId = some revision)
    (hderived : harnessName ≠ record.skillName)
    (hvalid :
      skillManifest ext skill.canonical record.skillName = .ok manifest)
    (hfresh : skill.derived revision harnessName = none)
    (hcopy : copyDerivedTree ext skill.canonical record.skillName harnessName =
      .ok view)
    (hagrees : canonicalizedDerived ext view harnessName record.skillName =
      .ok (manifest, entries)) :
    ProjectionSettles ext record skill harnessName manifest view := by
  have hmanifest : canonicalizedDerivedManifest ext view harnessName
      record.skillName = .ok manifest :=
    canonicalizedDerivedManifest_eq_ok.mpr ⟨entries, hagrees⟩
  refine ⟨hmanifest, { record with harnessName := some harnessName },
    (skill.setDerived revision harnessName view).saveBaseline harnessName
      manifest.rootTree, ?_, rfl, ?_⟩
  · have hview : derivedView ext record skill harnessName =
        .ok (view, true, skill.setDerived revision harnessName view) := by
      unfold derivedView
      rw [hrevision]
      simp only [hfresh, hcopy, bind, Except.bind, pure, Except.pure]
    have hcanonical : skillManifest ext
        (skill.setDerived revision harnessName view).canonical
          record.skillName = .ok manifest := hvalid
    have hbne : (harnessName != record.skillName) = true := by
      simpa using hderived
    unfold reconcileHarnessProjection
    simp only [hbne, if_true, hview, bind, Except.bind, Bool.true_or,
      Bool.and_self, hcanonical, hmanifest, pure, Except.pure]
  · refine ⟨(skill.setDerived revision harnessName view).saveBaseline
      harnessName manifest.rootTree, ?_, rfl⟩
    have hlookup : ((skill.setDerived revision harnessName view).saveBaseline
        harnessName manifest.rootTree).derived revision harnessName =
          some view := by
      simp [LocalSkill.saveBaseline, LocalSkill.setDerived]
    have hcanonical : skillManifest ext
        ((skill.setDerived revision harnessName view).saveBaseline harnessName
          manifest.rootTree).canonical record.skillName = .ok manifest := hvalid
    unfold reconcileOwnedDerivedProjection
    simp only [hrevision, if_neg hderived, hlookup, hcanonical, hagrees, bind,
      Except.bind, if_true, pure, Except.pure]
    rfl

theorem projectionSettles_iff
    (hyaml : YamlRoundTrip ext)
    (record : OwnedSkillRecord)
    (skill : LocalSkill)
    (harnessName : Text)
    (revision : RevisionId)
    (manifest : SkillManifest)
    (view : List OwnedSkillEntry)
    (hrevision : record.materializedRevisionId = some revision)
    (hderived : harnessName ≠ record.skillName)
    (hvalid :
      skillManifest ext skill.canonical record.skillName = .ok manifest)
    (hfresh : skill.derived revision harnessName = none)
    (hcopy : copyDerivedTree ext skill.canonical record.skillName harnessName =
      .ok view)
    (hcollision : forall result,
      canonicalizedDerived ext view harnessName record.skillName =
          .ok result ->
        NoCollision ext (fileContents (readSkillSource skill.canonical) ++
          fileContents result.2)) :
    ProjectionSettles ext record skill harnessName manifest view <->
      exists bytes, .file skillMdPath bytes false ∈ skill.canonical ∧
        InEmittedForm ext record.skillName bytes := by
  rcases hasSkillMd_of_manifest hvalid with
    ⟨bytes, executable, hskillMd, _⟩
  have hiff := canonicalizedDerived_copy_iff hyaml hskillMd hvalid hcopy
    hcollision
  constructor
  · intro hsettles
    have hform := hiff.mp
      (canonicalizedDerivedManifest_eq_ok.mp hsettles.1)
    refine ⟨bytes, ?_, hform.2⟩
    rw [← hform.1]
    exact hskillMd.1
  · rintro ⟨bytes', hmem, hform⟩
    have hsame := hskillMd.2 bytes' false hmem
    rw [hsame.1] at hform
    rcases hiff.mpr ⟨hsame.2.symm, hform⟩ with ⟨entries, hagrees⟩
    exact projectionSettles_of_agreement hrevision hderived hvalid hfresh hcopy
      hagrees

/-!
A quoted name is valid frontmatter, and emitting it drops the quotes.
-/

namespace Sample

def harnessName : Text :=
  "bob-a".toList

def frontmatterNamed (spelling : Text) : Text :=
  "name: ".toList ++ spelling ++ "\ndescription: d\n".toList

def valueNamed (skillName : Text) : Yaml.Value :=
  .mapping
    [(.string "name".toList, .string skillName),
      (.string "description".toList, .string "d".toList)]

def quotedName : Text :=
  "\"a\"".toList

def documentNamed (spelling : Text) : Bytes :=
  renderDocument (frontmatterNamed spelling) []

/-- The emitted frontmatter of the two names that occur. -/
def emit : Yaml.Value -> Except Text Text
  | .mapping [(.string field, .string skillName),
      (.string field', .string description)] =>
      if field = "name".toList ∧ field' = "description".toList ∧
          description = "d".toList ∧
          (skillName = name ∨ skillName = harnessName) then
        .ok (frontmatterNamed skillName)
      else
        .error []
  | _ => .error []

def projectionDigests : List (Bytes × Digest) :=
  [ (documentNamed name, skillMdDigest),
    (documentNamed quotedName,
      digestOfNat
        0x5a94a891e248487235d9834deb3f4d05870fd727341037265386ddc9c1103f3f),
    (transcript [("SKILL.md", .file ⟨skillMdDigest⟩ false)],
      digestOfNat
        0x5088a610ea6e6d8c391894de6c798ed87fe9da7ec16a416bcd05499d093ac7de),
    (transcript [("SKILL.md", .file ⟨digestOfNat
        0x5a94a891e248487235d9834deb3f4d05870fd727341037265386ddc9c1103f3f⟩
          false)],
      digestOfNat
        0x2baa0ea6850cd80d8d49a16d1aaf7b67890d4a3c9286f2409667da6130056bd0) ]

def projectionExternals : Externals :=
  { Sample.externals with
    sha256 := fun bytes =>
      (projectionDigests.lookup bytes).getD (Vector.replicate 32 0)
    yamlFromStr := fun text =>
      if text = frontmatterNamed name ∨ text = frontmatterNamed quotedName then
        .ok (valueNamed name)
      else if text = frontmatterNamed harnessName then
        .ok (valueNamed harnessName)
      else
        .error []
    yamlToString := emit }

theorem isBlock_frontmatterNamed {skillName : Text}
    (h : skillName = name ∨ skillName = harnessName) :
    IsBlock (frontmatterNamed skillName) := by
  rcases h with rfl | rfl
  · refine ⟨Or.inr (by decide), ?_⟩
    decide
  · refine ⟨Or.inr (by decide), ?_⟩
    decide

theorem yamlRoundTrip : YamlRoundTrip projectionExternals := by
  intro value text h
  change emit value = .ok text at h
  unfold emit at h
  split at h
  · rename_i field skillName field' description
    split at h
    · rename_i hparts
      cases h
      rcases hparts with ⟨rfl, rfl, rfl, hname⟩
      refine ⟨?_, fun _ => isBlock_frontmatterNamed hname⟩
      rcases hname with rfl | rfl
      · rfl
      · rfl
    · cases h
  · cases h

def record : OwnedSkillRecord where
  locator := "bob/a".toList
  skillName := name
  harnessName := none
  materializedRevisionId := some ⟨digestOfNat 1⟩

def localSkill (spelling : Text) : LocalSkill where
  canonical := [.file skillMdPath (documentNamed spelling) false]
  derived := fun _ _ => none
  baseline := none

def localManifest (blob size root : Nat) : SkillManifest where
  rootTree := ⟨digestOfNat root⟩
  entries := [.file skillMdPath ⟨digestOfNat blob⟩ size false]

def plainManifest : SkillManifest :=
  localManifest
    0x81f62cc77d0c68059fd131fe5f32e77d8bb35c4ac85145bf09d5e47e2de80378 31
    0x5088a610ea6e6d8c391894de6c798ed87fe9da7ec16a416bcd05499d093ac7de

def quotedManifest : SkillManifest :=
  localManifest
    0x5a94a891e248487235d9834deb3f4d05870fd727341037265386ddc9c1103f3f 33
    0x2baa0ea6850cd80d8d49a16d1aaf7b67890d4a3c9286f2409667da6130056bd0

def harnessView : List OwnedSkillEntry :=
  [.file skillMdPath (documentNamed harnessName) false]

end Sample

theorem quotedName_does_not_settle :
    YamlRoundTrip Sample.projectionExternals ∧
      skillManifest Sample.projectionExternals
          (Sample.localSkill Sample.quotedName).canonical Sample.name =
        .ok Sample.quotedManifest ∧
      copyDerivedTree Sample.projectionExternals
          (Sample.localSkill Sample.quotedName).canonical Sample.name
            Sample.harnessName = .ok Sample.harnessView ∧
      ¬ ProjectionSettles Sample.projectionExternals Sample.record
          (Sample.localSkill Sample.quotedName) Sample.harnessName
            Sample.quotedManifest Sample.harnessView := by
  refine ⟨Sample.yamlRoundTrip, by decide +kernel, by decide +kernel, ?_⟩
  intro hsettles
  have hdiffers : canonicalizedDerivedManifest Sample.projectionExternals
      Sample.harnessView Sample.harnessName Sample.name ≠
        .ok Sample.quotedManifest := by
    decide +kernel
  exact hdiffers hsettles.1

theorem plainName_settles_iff :
    ProjectionSettles Sample.projectionExternals Sample.record
        (Sample.localSkill Sample.name) Sample.harnessName
          Sample.plainManifest Sample.harnessView <->
      exists bytes,
        .file skillMdPath bytes false ∈
            (Sample.localSkill Sample.name).canonical ∧
          InEmittedForm Sample.projectionExternals Sample.name bytes := by
  have hresult : canonicalizedDerived Sample.projectionExternals
      Sample.harnessView Sample.harnessName Sample.name =
        .ok (Sample.plainManifest,
          (Sample.localSkill Sample.name).canonical) := by
    decide +kernel
  refine projectionSettles_iff Sample.yamlRoundTrip Sample.record _ _
    ⟨digestOfNat 1⟩ _ _ rfl (by decide) (by decide +kernel) rfl
    (by decide +kernel) ?_
  intro result h
  have hsame := hresult.symm.trans h
  cases hsame
  decide +kernel

end Denju
