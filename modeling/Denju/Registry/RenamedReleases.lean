import Denju.Registry.ObjectRuns
import Denju.Registry.TeamRenameRoles

/-!
# The release of a renamed skill

A rename of a public skill creates a release.  For a team skill it is made from
the latest release; for a personal one from the head, with all that was saved
since.
-/

namespace Denju

open Lib

/-!
## Manifests with another document
-/

namespace SkillManifestEntry

/-- The entry with other bytes, if it is the skill document. -/
def withDocument (blob : BlobId) (size : Nat) :
    SkillManifestEntry -> SkillManifestEntry
  | .file path old oldSize executable =>
      if path = skillMdPath then .file path blob size executable
      else .file path old oldSize executable
  | .directory path => .directory path
  | .symlink path target => .symlink path target

variable {blob other : BlobId} {size otherSize : Nat}

theorem withDocument_key (entry : SkillManifestEntry) :
    (entry.withDocument blob size).key = entry.key := by
  cases entry with
  | file path old oldSize executable =>
      unfold withDocument
      dsimp only
      split
      · rfl
      · rfl
  | directory path => rfl
  | symlink path target => rfl

theorem withDocument_withDocument (entry : SkillManifestEntry) :
    (entry.withDocument other otherSize).withDocument blob size =
      entry.withDocument blob size := by
  cases entry with
  | file path old oldSize executable =>
      by_cases hpath : path = skillMdPath
      · simp only [withDocument, if_pos hpath]
      · simp only [withDocument, if_neg hpath]
  | directory path => rfl
  | symlink path target => rfl

theorem map_withDocument_twice (entries : List SkillManifestEntry) :
    (entries.map (withDocument other otherSize)).map (withDocument blob size) =
      entries.map (withDocument blob size) := by
  rw [List.map_map]
  apply List.map_congr_left
  intro entry _
  exact withDocument_withDocument entry

theorem exists_withDocument {entry : SkillManifestEntry}
    (h : entry.isSkillMd = true) :
    exists executable, entry.withDocument blob size =
      .file skillMdPath blob size executable := by
  cases entry with
  | file path old oldSize executable =>
      have hpath : path = skillMdPath := eq_of_beq h
      refine ⟨executable, ?_⟩
      rw [withDocument, if_pos hpath, hpath]
  | directory path => cases h
  | symlink path target => cases h

theorem document_of_withDocument {entry : SkillManifestEntry}
    {executable : Bool}
    (h : entry.withDocument blob size =
      .file skillMdPath other otherSize executable) :
    other = blob ∧ otherSize = size := by
  cases entry with
  | file path old oldSize executable =>
      unfold withDocument at h
      dsimp only at h
      split at h
      · cases h
        exact ⟨rfl, rfl⟩
      · rename_i hpath
        cases h
        exact absurd rfl hpath
  | directory path => cases h
  | symlink path target => cases h

/-- Two manifests with documents of their own agree when they agree besides
their documents, and the documents are one. -/
theorem map_withDocument_eq_iff {entries entries' : List SkillManifestEntry}
    (hskill : entries.any isSkillMd = true) :
    entries.map (withDocument blob size) =
        entries'.map (withDocument other otherSize) <->
      (forall b n, entries.map (withDocument b n) =
        entries'.map (withDocument b n)) ∧
        blob = other ∧ size = otherSize := by
  constructor
  · intro h
    constructor
    · intro b n
      rw [← map_withDocument_twice entries, h, map_withDocument_twice]
    · rcases List.any_eq_true.mp hskill with ⟨entry, hentry, hdocument⟩
      rcases exists_withDocument hdocument with ⟨executable, hfile⟩
      have hmem : entry.withDocument blob size ∈
          entries'.map (withDocument other otherSize) := by
        rw [← h]
        exact List.mem_map_of_mem hentry
      rcases List.mem_map.mp hmem with ⟨entry', _, hsame⟩
      rw [hfile] at hsame
      exact document_of_withDocument hsame
  · rintro ⟨hothers, rfl, rfl⟩
    exact hothers blob size

end SkillManifestEntry

section Documents

variable {ext : Externals} {name newName : Text}
  {entries : List OwnedSkillEntry} {bytes : Bytes}

/-- Replacing the document replaces its entry of the manifest. -/
theorem map_manifestEntryValue_replaceSkillMd
    (hnodup : (entries.map SkillEntry.path).Nodup) :
    (replaceSkillMd bytes entries).map (manifestEntryValue ext) =
      (entries.map (manifestEntryValue ext)).map
        (SkillManifestEntry.withDocument (BlobId.hash ext bytes)
          bytes.length) := by
  induction entries with
  | nil => rfl
  | cons entry rest ih =>
      rw [List.map_cons] at hnodup
      rcases List.nodup_cons.mp hnodup with ⟨hfirst, hrest⟩
      cases entry with
      | file path old executable =>
          unfold replaceSkillMd
          by_cases hpath : path = skillMdPath
          · rw [if_pos hpath, List.map_cons, List.map_cons, List.map_cons]
            have hothers : (rest.map (manifestEntryValue ext)).map
                (SkillManifestEntry.withDocument (BlobId.hash ext bytes)
                  bytes.length) = rest.map (manifestEntryValue ext) := by
              rw [List.map_map]
              apply List.map_congr_left
              intro other hother
              have hne : SkillEntry.path other ≠ skillMdPath := by
                intro hsame
                apply hfirst
                rw [show SkillEntry.path (.file path old executable) = path
                  from rfl, hpath, ← hsame]
                exact List.mem_map_of_mem hother
              cases other with
              | file otherPath otherBytes otherExecutable =>
                  exact if_neg hne
              | directory otherPath => rfl
              | symlink otherPath target => rfl
            rw [hothers]
            simp only [manifestEntryValue, SkillManifestEntry.withDocument,
              if_pos hpath]
          · rw [if_neg hpath, List.map_cons, List.map_cons, List.map_cons,
              ih hrest]
            simp only [manifestEntryValue, SkillManifestEntry.withDocument,
              if_neg hpath]
      | directory path =>
          exact congrArg (List.cons _) (ih hrest)
      | symlink path target =>
          exact congrArg (List.cons _) (ih hrest)

theorem buildSkillManifest_entries {manifest : SkillManifest}
    (h : buildSkillManifest ext name entries = .ok manifest) :
    (entries.map SkillEntry.path).Nodup ∧
      manifest.entries = sortByKey SkillManifestEntry.key
        (entries.map (manifestEntryValue ext)) := by
  rcases bind_eq_ok.mp h with ⟨validated, hvalidated, h⟩
  rcases bind_eq_ok.mp h with ⟨values, hvalues, h⟩
  rcases bind_eq_ok.mp h with ⟨trees, _, h⟩
  rcases bind_eq_ok.mp h with ⟨root, _, h⟩
  cases h
  constructor
  · exact (validateSkillDirectory_eq_ok
      (mapError_eq_ok.mp hvalidated)).1.nodup
  · rw [mapM_eq_ok_iff_map
      (fun entry _ value hvalue => manifestEntryOf_eq_value hvalue) hvalues]

/-- The manifest of the entries with another document. -/
theorem buildSkillManifest_replaceSkillMd {manifest renamed : SkillManifest}
    (h : buildSkillManifest ext name entries = .ok manifest)
    (hrenamed : buildSkillManifest ext newName (replaceSkillMd bytes entries) =
      .ok renamed) :
    renamed.entries = manifest.entries.map
      (SkillManifestEntry.withDocument (BlobId.hash ext bytes)
        bytes.length) := by
  rcases buildSkillManifest_entries h with ⟨hnodup, hentries⟩
  rw [(buildSkillManifest_entries hrenamed).2, hentries,
    map_manifestEntryValue_replaceSkillMd hnodup, sortByKey_map]
  congr 1
  have hkey : (fun entry => SkillManifestEntry.key
      (SkillManifestEntry.withDocument (BlobId.hash ext bytes) bytes.length
        entry)) = SkillManifestEntry.key :=
    funext fun entry => SkillManifestEntry.withDocument_key entry
  rw [hkey]

end Documents

/-!
## Snapshots with another name
-/

namespace Registry

variable (registry : Registry) (store : ObjectStore)

/-- The document of a stored archive, with the new name in it. -/
def RenamedDocument (name newName : Text) (stored : StoredSnapshot)
    (renamed : Bytes) : Prop :=
  exists entries document,
    registry.loadStoredEntries store name stored = .ok entries ∧
      skillMdBytes entries = some document ∧
        rewriteSkillDocumentName registry.ext name document newName =
          .ok renamed

/-- The second snapshot has the entries of the first, besides the name in the
document. -/
def RenamedEntries (name newName : Text) (old new : StoredSnapshot) : Prop :=
  exists renamed, RenamedDocument registry store name newName old renamed ∧
    new.manifest.entries = old.manifest.entries.map
      (SkillManifestEntry.withDocument (BlobId.hash registry.ext renamed)
        renamed.length)

/-- Nothing was saved since the release: the head has its entries, and their
documents differ in the name at most. -/
structure HeadAsReleased (name newName : Text)
    (head release : StoredSnapshot) : Prop where
  entries : forall blob size,
    head.manifest.entries.map (SkillManifestEntry.withDocument blob size) =
      release.manifest.entries.map (SkillManifestEntry.withDocument blob size)
  document : exists saved released,
    RenamedDocument registry store name newName head saved ∧
      RenamedDocument registry store name newName release released ∧
        BlobId.hash registry.ext saved = BlobId.hash registry.ext released ∧
          saved.length = released.length

variable {registry store} {name newName : Text}

theorem RenamedDocument.unique {stored : StoredSnapshot} {a b : Bytes}
    (ha : RenamedDocument registry store name newName stored a)
    (hb : RenamedDocument registry store name newName stored b) : a = b := by
  rcases ha with ⟨entries, document, hentries, hdocument, ha⟩
  rcases hb with ⟨entries', document', hentries', hdocument', hb⟩
  rw [hentries] at hentries'
  cases hentries'
  rw [hdocument] at hdocument'
  cases hdocument'
  rw [ha] at hb
  exact Except.ok.inj hb

theorem loadStoredEntries_eq_ok {stored : StoredSnapshot}
    {entries : List OwnedSkillEntry}
    (h : registry.loadStoredEntries store name stored = .ok entries) :
    buildSkillManifest registry.ext name entries = .ok stored.manifest := by
  rcases bind_eq_ok.mp h with ⟨bytes, _, h⟩
  rcases bind_eq_ok.mp (mapError_eq_ok.mp h) with ⟨items, _, h⟩
  rcases bind_eq_ok.mp h with ⟨found, _, h⟩
  rcases bind_eq_ok.mp h with ⟨actual, hactual, h⟩
  rcases bind_eq_ok.mp h with ⟨_, hsame, h⟩
  cases h
  rw [hactual, eq_of_beq (ensure_eq_ok.mp hsame)]

/-- A stored manifest has the document of its archive. -/
theorem RenamedDocument.isSkillMd {stored : StoredSnapshot} {renamed : Bytes}
    (h : RenamedDocument registry store name newName stored renamed) :
    stored.manifest.entries.any SkillManifestEntry.isSkillMd = true := by
  rcases h with ⟨entries, document, hentries, hdocument, _⟩
  rcases buildSkillManifest_entries (loadStoredEntries_eq_ok hentries) with
    ⟨hnodup, hmanifest⟩
  rcases (skillMdBytes_eq_some hnodup).mp hdocument with ⟨executable, hmem⟩
  apply List.any_eq_true.mpr
  refine ⟨manifestEntryValue registry.ext
    (.file skillMdPath document executable), ?_, ?_⟩
  · rw [hmanifest, mem_sortByKey]
    exact List.mem_map_of_mem hmem
  · exact beq_self_eq_true skillMdPath

/-- What is renamed keeps its entries. -/
theorem buildRenamedContent_renamedEntries {stored : StoredSnapshot}
    {entries : List OwnedSkillEntry} {parent : RevisionId}
    {author : AuthorPrincipalId} {operationId : OperationId}
    {renamed : RenamedContent}
    (hentries : registry.loadStoredEntries store name stored = .ok entries)
    (h : registry.buildRenamedContent store name newName entries parent author
      operationId = .ok renamed) :
    RenamedEntries registry store name newName stored
      renamed.content.snapshot := by
  rcases bind_eq_ok.mp h with ⟨document, hdocument, h⟩
  rcases bind_eq_ok.mp h with ⟨bytes, hbytes, h⟩
  rcases bind_eq_ok.mp h with ⟨_, _, h⟩
  rcases bind_eq_ok.mp h with ⟨snapshot, hsnapshot, h⟩
  rcases bind_eq_ok.mp h with ⟨_, _, h⟩
  rcases bind_eq_ok.mp h with ⟨_, _, h⟩
  rcases bind_eq_ok.mp h with ⟨_, _, h⟩
  rcases bind_eq_ok.mp h with ⟨_, _, h⟩
  cases h
  rcases bind_eq_ok.mp (mapError_eq_ok.mp hsnapshot) with
    ⟨manifest, hmanifest, hsnapshot⟩
  rcases bind_eq_ok.mp hsnapshot with ⟨_, _, hsnapshot⟩
  rcases bind_eq_ok.mp hsnapshot with ⟨_, _, hsnapshot⟩
  cases hsnapshot
  refine ⟨bytes, ⟨entries, document, hentries, okOr_eq_ok.mp hdocument,
    mapError_eq_ok.mp hbytes⟩, ?_⟩
  exact buildSkillManifest_replaceSkillMd (loadStoredEntries_eq_ok hentries)
    hmanifest

/-- What is renamed from the head is renamed from the release exactly where
nothing was saved since. -/
theorem renamedEntries_iff_headAsReleased {head release new : StoredSnapshot}
    (hhead : RenamedEntries registry store name newName head new) :
    RenamedEntries registry store name newName release new <->
      HeadAsReleased registry store name newName head release := by
  rcases hhead with ⟨saved, hsaved, hnew⟩
  have hskill := hsaved.isSkillMd
  constructor
  · rintro ⟨released, hreleased, hentries⟩
    rw [hnew] at hentries
    rcases (SkillManifestEntry.map_withDocument_eq_iff hskill).mp hentries with
      ⟨hothers, hblob, hsize⟩
    exact ⟨hothers, saved, released, hsaved, hreleased, hblob, hsize⟩
  · rintro ⟨hothers, saved', released, hsaved', hreleased, hblob, hsize⟩
    rw [hsaved'.unique hsaved] at hblob hsize
    refine ⟨released, hreleased, ?_⟩
    rw [hnew]
    exact (SkillManifestEntry.map_withDocument_eq_iff hskill).mpr
      ⟨hothers, hblob, hsize⟩

/-!
## What a rename releases
-/

/-- The content that a rename releases if the skill is public. -/
def RenamePlan.releaseContent {ext : Externals} :
    RenamePlan ext -> Option RenamedContent
  | .personal plan => some plan.renamed
  | .team plan => plan.release.map Prod.snd

variable {userId : Uuid} {request : RenameSkillRequest}
  {plan : RenamePlan registry.ext} {db db' current : Db}
  {resource : ResourceRow} {release : ReleaseRow} {version : Generation}

/-- The head that a rename of a personal skill starts from. -/
theorem readPersonalRename_renamedEntries {authority : UserAuthority}
    {plan : PendingRename registry.ext}
    (hprepared : request.preparedRevisionOperationId = none)
    (hresource : db.findResource request.resourceId = some resource)
    (h : registry.readPersonalRename store authority request db = .ok plan) :
    exists owner workspace,
      db.renameSource authority.userId request.resourceId =
          .ok (resource, owner, workspace) ∧
        RenamedEntries registry store resource.slug request.newName
          workspace.snapshot plan.renamed.content.snapshot := by
  rcases bind_eq_ok.mp h with ⟨⟨found, owner, workspace⟩, hsource, h⟩
  rcases bind_eq_ok.mp h with ⟨_, _, h⟩
  rcases bind_eq_ok.mp h with ⟨_, _, h⟩
  rcases bind_eq_ok.mp h with ⟨_, _, h⟩
  rcases bind_eq_ok.mp h with ⟨_, _, h⟩
  rcases bind_eq_ok.mp h with ⟨entries, hentries, h⟩
  rcases bind_eq_ok.mp h with ⟨renamed, hrenamed, h⟩
  rcases bind_eq_ok.mp h with ⟨trees, _, h⟩
  cases h
  unfold renameEntries at hentries
  rw [hprepared] at hentries
  have hfound : found = resource := by
    rcases bind_eq_ok.mp hsource with ⟨row, hrow, hsource⟩
    rcases bind_eq_ok.mp hsource with ⟨_, _, hsource⟩
    rcases bind_eq_ok.mp hsource with ⟨_, _, hsource⟩
    cases hsource
    have hrow := (Option.filter_eq_some_iff.mp (okOr_eq_ok.mp hrow)).1
    rw [hresource] at hrow
    exact (Option.some.inj hrow).symm
  rw [hfound] at hsource hentries hrenamed
  exact ⟨owner, workspace, hsource,
    buildRenamedContent_renamedEntries hentries hrenamed⟩

/-- A rename of a team skill releases its latest release again. -/
theorem readTeamRename_renamedEntries {authority : UserAuthority}
    {plan : PendingTeamRename} {renamed : RenamedContent}
    (hresource : db.findResource request.resourceId = some resource)
    (hlatest : resource.latestReleaseVersion = some version)
    (hrelease : db.findRelease request.resourceId version = some release)
    (h : registry.readTeamRename store authority request db = .ok plan)
    (hrenamed : plan.release.map Prod.snd = some renamed) :
    RenamedEntries registry store resource.slug request.newName
      release.snapshot renamed.content.snapshot := by
  rcases bind_eq_ok.mp h with ⟨target, _, h⟩
  rcases bind_eq_ok.mp h with ⟨_, _, h⟩
  rcases bind_eq_ok.mp h with ⟨source, hsource, h⟩
  rcases bind_eq_ok.mp h with ⟨_, _, h⟩
  rcases bind_eq_ok.mp h with ⟨_, _, h⟩
  rcases bind_eq_ok.mp h with ⟨_, _, h⟩
  rcases bind_eq_ok.mp h with ⟨_, _, h⟩
  rcases bind_eq_ok.mp h with ⟨_, _, h⟩
  rcases bind_eq_ok.mp h with ⟨moves, _, h⟩
  rcases bind_eq_ok.mp h with ⟨content, hcontent, h⟩
  rcases bind_eq_ok.mp h with ⟨actor, _, h⟩
  cases h
  rcases bind_eq_ok.mp hsource with ⟨row, hrow, hsource⟩
  rcases bind_eq_ok.mp hsource with ⟨owner, _, hsource⟩
  cases hsource
  have hrow := (Option.filter_eq_some_iff.mp (okOr_eq_ok.mp hrow)).1
  rw [hresource] at hrow
  cases hrow
  unfold renameTeamRelease at hcontent
  dsimp only at hcontent
  rw [hlatest] at hcontent
  rcases bind_eq_ok.mp hcontent with ⟨found, hfound, hcontent⟩
  rcases bind_eq_ok.mp hcontent with ⟨entries, hentries, hcontent⟩
  rcases bind_eq_ok.mp hcontent with ⟨built, hbuilt, hcontent⟩
  cases hcontent
  have hfound := (Option.filter_eq_some_iff.mp (okOr_eq_ok.mp hfound)).1
  rw [hrelease] at hfound
  cases hfound
  cases hrenamed
  exact buildRenamedContent_renamedEntries hentries hbuilt

/-- A new row is a release of the content. -/
def ReleasesContent (resourceId : Uuid) (content : Option RenamedContent)
    (before after : List ReleaseRow) : Prop :=
  forall row, row ∈ after -> row ∉ before ->
    exists renamed, content = some renamed ∧ row.resourceId = resourceId ∧
      row.snapshot = renamed.content.snapshot

theorem ReleasesContent.none {resourceId : Uuid}
    {content : Option RenamedContent} {rows : List ReleaseRow} :
    ReleasesContent resourceId content rows rows := by
  intro row hrow hnew
  exact absurd hrow hnew

theorem releaseRenamed_releases {resourceId : Uuid} {latest : Generation}
    {version : Generation} {author : AuthorPrincipalId}
    {renamed : RenamedContent}
    (h : releaseRenamed resourceId latest author renamed db =
      .ok (version, db')) :
    ReleasesContent resourceId (some renamed) db.releases db'.releases := by
  rcases bind_eq_ok.mp h with ⟨next, _, h⟩
  rcases bind_eq_ok.mp h with ⟨stored, hstored, h⟩
  rcases Db.insertRelease_eq_ok hstored with ⟨hdb', _⟩
  cases h
  rw [hdb']
  intro row hrow hnew
  rcases List.mem_append.mp hrow with hold | hlast
  · exact absurd hold hnew
  · rw [List.mem_singleton.mp hlast]
    exact ⟨renamed, rfl, rfl, rfl⟩

theorem writePersonalRename_releases {plan : PendingRename registry.ext}
    {outcome : RenameSkillResponse}
    (h : writePersonalRename plan db = .ok (outcome, db')) :
    ReleasesContent plan.request.resourceId (some plan.renamed) db.releases
      db'.releases := by
  rcases bind_eq_ok.mp h with ⟨⟨locked, owner⟩, _, h⟩
  rcases bind_eq_ok.mp h with ⟨_, _, h⟩
  rcases bind_eq_ok.mp h with ⟨_, _, h⟩
  rcases bind_eq_ok.mp h with ⟨_, _, h⟩
  rcases bind_eq_ok.mp h with ⟨_, _, h⟩
  rcases bind_eq_ok.mp h with ⟨stored, hstored, h⟩
  rcases bind_eq_ok.mp h with ⟨generation, _, h⟩
  rcases bind_eq_ok.mp h with ⟨⟨version, released⟩, hreleased, h⟩
  rcases finishRename_eq_ok h with ⟨_, _, _, hdb', _⟩
  rcases storeRenamed_frame hstored with ⟨_, _, _, _, _, _, _, _, _, hframe⟩
  have hafter : db'.releases = released.releases := by
    rw [hdb']
    rfl
  have hbefore : stored.releases = db.releases := by
    rw [hframe]
    rfl
  rw [hafter, ← hbefore]
  unfold releaseIfPublic at hreleased
  split at hreleased
  · cases hreleased
    exact .none
  · rcases bind_eq_ok.mp hreleased with ⟨latest, _, hreleased⟩
    rcases bind_eq_ok.mp hreleased with ⟨⟨next, inserted⟩, hnext, hreleased⟩
    cases hreleased
    exact releaseRenamed_releases hnext

theorem writeTeamRename_releases {plan : PendingTeamRename}
    {outcome : RenameSkillResponse}
    (h : writeTeamRename registry plan db = .ok (outcome, db')) :
    ReleasesContent plan.request.resourceId (plan.release.map Prod.snd)
      db.releases db'.releases := by
  rcases bind_eq_ok.mp h with ⟨target, _, h⟩
  rcases bind_eq_ok.mp h with ⟨_, _, h⟩
  rcases bind_eq_ok.mp h with ⟨locked, _, h⟩
  rcases bind_eq_ok.mp h with ⟨_, _, h⟩
  rcases bind_eq_ok.mp h with ⟨_, _, h⟩
  rcases bind_eq_ok.mp h with ⟨_, _, h⟩
  rcases bind_eq_ok.mp h with ⟨_, _, h⟩
  rcases bind_eq_ok.mp h with ⟨⟨seen, stored⟩, hstored, h⟩
  rcases bind_eq_ok.mp h with ⟨moved, hmoved, h⟩
  rcases bind_eq_ok.mp h with ⟨⟨version, released⟩, hreleased, h⟩
  rcases bind_eq_ok.mp h with ⟨generation, _, h⟩
  rcases finishRename_eq_ok h with ⟨_, _, _, hdb', _⟩
  rcases persistContents_frame hstored with
    ⟨_, _, _, _, _, _, _, _, _, _, hstoredFrame⟩
  rcases moveTeamWorkspaces_frame hmoved with ⟨_, hmovedFrame, _⟩
  dsimp only at hstoredFrame
  have hafter : db'.releases = released.releases := by
    rw [hdb']
    rfl
  have hbefore : moved.releases = db.releases := by
    rw [hmovedFrame, hstoredFrame]
    rfl
  rw [hafter, ← hbefore]
  unfold releaseTeamRename at hreleased
  cases hrelease : plan.release with
  | none =>
      rw [hrelease] at hreleased
      cases hreleased
      exact .none
  | some release =>
      rw [hrelease] at hreleased
      rcases bind_eq_ok.mp hreleased with ⟨⟨next, inserted⟩, hnext, hreleased⟩
      cases hreleased
      exact releaseRenamed_releases hnext

/-- The release of a rename is the content that was read for it, whatever
happened in between. -/
theorem writeRename_releases {outcome : RenameSkillResponse}
    (hread : registry.readRename store userId request db = .ok (.inr plan))
    (h : registry.writeRename plan current = .ok (outcome, db')) :
    ReleasesContent request.resourceId plan.releaseContent current.releases
      db'.releases := by
  rcases bind_eq_ok.mp hread with ⟨authority, _, hread⟩
  rcases bind_eq_ok.mp hread with ⟨_, _, hread⟩
  rcases bind_eq_ok.mp hread with ⟨_, _, hread⟩
  rcases bind_eq_ok.mp hread with ⟨replay, _, hread⟩
  cases replay with
  | some outcome => cases hread
  | none =>
      rcases bind_eq_ok.mp hread with ⟨found, hnew, hread⟩
      cases hread
      rcases bind_eq_ok.mp hnew with ⟨row, _, hnew⟩
      split at hnew
      · rcases bind_eq_ok.mp hnew with ⟨team, hteam, hnew⟩
        cases hnew
        have hrequest : team.request = request := by
          rcases bind_eq_ok.mp hteam with ⟨_, _, hteam⟩
          rcases bind_eq_ok.mp hteam with ⟨_, _, hteam⟩
          rcases bind_eq_ok.mp hteam with ⟨_, _, hteam⟩
          rcases bind_eq_ok.mp hteam with ⟨_, _, hteam⟩
          rcases bind_eq_ok.mp hteam with ⟨_, _, hteam⟩
          rcases bind_eq_ok.mp hteam with ⟨_, _, hteam⟩
          rcases bind_eq_ok.mp hteam with ⟨_, _, hteam⟩
          rcases bind_eq_ok.mp hteam with ⟨_, _, hteam⟩
          rcases bind_eq_ok.mp hteam with ⟨_, _, hteam⟩
          rcases bind_eq_ok.mp hteam with ⟨_, _, hteam⟩
          rcases bind_eq_ok.mp hteam with ⟨_, _, hteam⟩
          cases hteam
          rfl
        rw [← hrequest]
        exact writeTeamRename_releases h
      · rcases bind_eq_ok.mp hnew with ⟨personal, hpersonal, hnew⟩
        cases hnew
        have hrequest : personal.request = request := by
          rcases bind_eq_ok.mp hpersonal with ⟨⟨_, _, _⟩, _, hpersonal⟩
          rcases bind_eq_ok.mp hpersonal with ⟨_, _, hpersonal⟩
          rcases bind_eq_ok.mp hpersonal with ⟨_, _, hpersonal⟩
          rcases bind_eq_ok.mp hpersonal with ⟨_, _, hpersonal⟩
          rcases bind_eq_ok.mp hpersonal with ⟨_, _, hpersonal⟩
          rcases bind_eq_ok.mp hpersonal with ⟨_, _, hpersonal⟩
          rcases bind_eq_ok.mp hpersonal with ⟨_, _, hpersonal⟩
          rcases bind_eq_ok.mp hpersonal with ⟨_, _, hpersonal⟩
          cases hpersonal
          rfl
        rw [← hrequest]
        exact writePersonalRename_releases h

/-!
## Renames that publish no draft
-/

variable (registry store) in
/-- The release of a rename has the entries of the latest release. -/
def PublishesNoDraft (request : RenameSkillRequest)
    (plan : RenamePlan registry.ext) (resource : ResourceRow)
    (release : ReleaseRow) : Prop :=
  forall renamed, plan.releaseContent = some renamed ->
    RenamedEntries registry store resource.slug request.newName
      release.snapshot renamed.content.snapshot

variable (registry store) in
/-- The head that a rename of a personal skill reads was not saved since the
release. -/
def HeadIsReleased (userId : Uuid) (request : RenameSkillRequest) (db : Db)
    (resource : ResourceRow) (release : ReleaseRow) : Prop :=
  exists owner workspace,
    db.renameSource userId request.resourceId =
        .ok (resource, owner, workspace) ∧
      HeadAsReleased registry store resource.slug request.newName
        workspace.snapshot release.snapshot

/-- A rename of a team skill publishes no draft, and one of a personal skill
publishes none exactly where nothing was saved since the latest release.  The
release that it creates is the content that it read. -/
theorem renameSkill_publishesNoDraft_iff
    (hprepared : request.preparedRevisionOperationId = none)
    (hresource : db.findResource request.resourceId = some resource)
    (hlatest : resource.latestReleaseVersion = some version)
    (hrelease : db.findRelease request.resourceId version = some release)
    (hread : registry.readRename store userId request db = .ok (.inr plan)) :
    (PublishesNoDraft registry store request plan resource release <->
      db.ownerKind resource = some .team ∨
        HeadIsReleased registry store userId request db resource release) ∧
      forall current outcome db',
        registry.writeRename plan current = .ok (outcome, db') ->
          ReleasesContent request.resourceId plan.releaseContent
            current.releases db'.releases := by
  constructor
  · rcases bind_eq_ok.mp hread with ⟨authority, hauthority, hread⟩
    rcases bind_eq_ok.mp hread with ⟨_, _, hread⟩
    rcases bind_eq_ok.mp hread with ⟨_, _, hread⟩
    rcases bind_eq_ok.mp hread with ⟨replay, _, hread⟩
    have huser : authority.userId = userId :=
      (Directory.userAuthority_eq_ok hauthority).elim fun _ h => h.2.2.1
    cases replay with
    | some outcome => cases hread
    | none =>
        rcases bind_eq_ok.mp hread with ⟨found, hnew, hread⟩
        cases hread
        rcases bind_eq_ok.mp hnew with ⟨row, hrow, hnew⟩
        have hrow := (Option.filter_eq_some_iff.mp (okOr_eq_ok.mp hrow)).1
        rw [hresource] at hrow
        cases hrow
        by_cases hteam : db.ownerKind resource = some .team
        · rw [if_pos hteam] at hnew
          rcases bind_eq_ok.mp hnew with ⟨team, hplan, hnew⟩
          cases hnew
          constructor
          · exact fun _ => .inl hteam
          · intro _ renamed hrenamed
            exact readTeamRename_renamedEntries hresource hlatest hrelease
              hplan hrenamed
        · rw [if_neg hteam] at hnew
          rcases bind_eq_ok.mp hnew with ⟨personal, hplan, hnew⟩
          cases hnew
          rcases readPersonalRename_renamedEntries hprepared hresource hplan
            with ⟨owner, workspace, hsource, hhead⟩
          rw [huser] at hsource
          constructor
          · intro hpublishes
            exact .inr ⟨owner, workspace, hsource,
              (renamedEntries_iff_headAsReleased hhead).mp
                (hpublishes personal.renamed rfl)⟩
          · intro hcases renamed hrenamed
            cases hrenamed
            rcases hcases with hkind | ⟨owner', workspace', hsource', hsame⟩
            · exact absurd hkind hteam
            · rw [hsource] at hsource'
              cases hsource'
              exact (renamedEntries_iff_headAsReleased hhead).mpr hsame
  · intro current outcome db' h
    exact writeRename_releases hread h

end Registry

/-!
A user publishes a skill, saves another file to it and renames it.
-/

namespace Sample

def draftArchive : Bytes :=
  bytesOfNat 126
    0x28b52ffd04608d0300f244121980a93a00d1b222ce213276b305e192a704e67450c7623176534e76bfe54e8caa8a2bd13b3404d10cc3c116161231a71eaaaa330d851c09df81977300ff6dccfebf972b52120c08010d203003327607fbe1c7625412040730863f6174571f1d140754b205837fa345c070702a47d984a070

def draftArchiveDigest : Digest :=
  digestOfNat
    0x9b77d2460673e84831ba60d78002f44d0f7f677fd1b725b635b2bb2c55a793d4

def savedDraft : RevisionId :=
  ⟨digestOfNat
    0x95fa6ce5c47f472a1d0a5fdae1da05dd94b13ef0c7b400e27d79786a0ba6e323⟩

def renamedDraft : RevisionId :=
  ⟨digestOfNat
    0xefdf3ea6783e5f69905a5d16d43a5ae0bb18b977c0cf6c524a7637a00f9002fe⟩

def draftDigests : List (Bytes × Digest) :=
  [ (draftArchive, draftArchiveDigest),
    (revisionTranscriptOf (digestOfNat preparedRoot) [savedDraft] 63,
      renamedDraft.bytes) ]

/-- A registry that reads and archives the document with a second file. -/
def draftRenamer : Registry :=
  let base := registryOf (sharingDigests ++ draftDigests)
    [(uuid 63, renameHash)]
  { base with
    ext :=
      { sharing.ext with
        sha256 := base.ext.sha256
        yamlFromStr := parseNamed
        yamlToString := emitNamed
        archiveWrite := fun written =>
          if written =
              [ ⟨.regular, skillMdPath, 0o644, none, skillMdB⟩,
                ⟨.regular, "x".toList, 0o644, none, utf8 "x".toList⟩ ] then
            .ok draftArchive
          else
            sharing.ext.archiveWrite written } }

def draftSnapshot : StoredSnapshot where
  manifest := twoFiles sharedRoot skillMdDigest
  snapshotKey := snapshotKeyOf ⟨sharedArchiveDigest⟩
  snapshotSha256 := ⟨sharedArchiveDigest⟩
  snapshotSize := 125

def publishedRow : ResourceRow :=
  { crewResource with
    id := uuid 50
    ownerNamespaceId := amy.namespaceId
    visibility := .pub }

def publishedRelease : ReleaseRow :=
  { crewRelease with
    resourceId := uuid 50
    revisionId := imported
    snapshot := archivedSnapshot }

def savedAfterRelease : Db :=
  { directory
    resources := [publishedRow]
    releases := [publishedRelease]
    workspaces :=
      [{ crewWorkspace with
         revisionId := savedDraft
         snapshot := draftSnapshot }]
    snapshots :=
      [⟨uuid 50, imported, archivedSnapshot⟩,
        ⟨uuid 50, savedDraft, draftSnapshot⟩]
    revisions :=
      [⟨imported, documentRoot, amy.authorPrincipalId, operationId 5⟩,
        ⟨savedDraft, ⟨digestOfNat sharedRoot⟩, amy.authorPrincipalId,
          operationId 64⟩]
    revisionParents := [⟨savedDraft, imported, 0⟩]
    merkleTrees := [documentRoot, ⟨digestOfNat sharedRoot⟩]
    treeEntries :=
      [⟨documentRoot, "SKILL.md".toList, .file ⟨skillMdDigest⟩ false⟩,
        ⟨⟨digestOfNat sharedRoot⟩, "SKILL.md".toList,
          .file ⟨skillMdDigest⟩ false⟩,
        ⟨⟨digestOfNat sharedRoot⟩, "x".toList, .file ⟨runDigest⟩ false⟩]
    canonicalBlobs :=
      [⟨⟨skillMdDigest⟩, 31, canonicalBlobKey ⟨skillMdDigest⟩⟩,
        ⟨⟨runDigest⟩, 1, canonicalBlobKey ⟨runDigest⟩⟩]
    revisionBlobs :=
      [⟨imported, ⟨skillMdDigest⟩⟩, ⟨savedDraft, ⟨skillMdDigest⟩⟩,
        ⟨savedDraft, ⟨runDigest⟩⟩]
    resourceBlobs :=
      [((uuid 50, ⟨skillMdDigest⟩), 2), ((uuid 50, ⟨runDigest⟩), 1)]
    namespaceBlobs :=
      [((uuid 2, ⟨skillMdDigest⟩), 2), ((uuid 2, ⟨runDigest⟩), 1)] }

/-- The rename creates a release with the file that was not published. -/
theorem savedAfterRelease_renamed :
    exists outcome db' row,
      draftRenamer.renameSkill sharedStore amy.id crewRename
          savedAfterRelease = .ok (outcome, db') ∧
        row ∈ db'.releases ∧ row.snapshot.manifest.entries.length = 2 := by
  have h : (draftRenamer.renameSkill sharedStore amy.id crewRename
      savedAfterRelease).toOption.any (fun answer =>
        answer.2.releases.any fun row =>
          decide (row.snapshot.manifest.entries.length = 2)) = true := by
    decide +kernel
  cases hanswer : draftRenamer.renameSkill sharedStore amy.id crewRename
      savedAfterRelease with
  | error _ =>
      rw [hanswer] at h
      cases h
  | ok answer =>
      rw [hanswer] at h
      rcases List.any_eq_true.mp h with ⟨row, hrow, hlength⟩
      exact ⟨answer.1, answer.2, row, rfl, hrow, of_decide_eq_true hlength⟩

end Sample

theorem Registry.renameSkill_publishesNoDraft_saved :
    exists plan,
      Sample.draftRenamer.readRename Sample.sharedStore Sample.amy.id
          Sample.crewRename Sample.savedAfterRelease = .ok (.inr plan) ∧
        (PublishesNoDraft Sample.draftRenamer Sample.sharedStore
            Sample.crewRename plan Sample.publishedRow
            Sample.publishedRelease <->
          Sample.savedAfterRelease.ownerKind Sample.publishedRow =
              some .team ∨
            HeadIsReleased Sample.draftRenamer Sample.sharedStore
              Sample.amy.id Sample.crewRename Sample.savedAfterRelease
              Sample.publishedRow Sample.publishedRelease) := by
  rcases Sample.savedAfterRelease_renamed with
    ⟨outcome, db', row, hrename, hrow, hlength⟩
  rcases bind_eq_ok.mp hrename with ⟨read, hread, hwrite⟩
  cases read with
  | inl stored =>
      cases hwrite
      rw [List.mem_singleton.mp hrow] at hlength
      cases hlength
  | inr plan =>
      refine ⟨plan, hread, ?_⟩
      have hresource : Sample.savedAfterRelease.findResource
          Sample.crewRename.resourceId = some Sample.publishedRow := by
        decide +kernel
      have hrelease : Sample.savedAfterRelease.findRelease
          Sample.crewRename.resourceId .one =
            some Sample.publishedRelease := by
        decide +kernel
      exact (Registry.renameSkill_publishesNoDraft_iff rfl hresource rfl
        hrelease hread).1

theorem Registry.renameSkill_published_draft :
    exists outcome db' row,
      Sample.draftRenamer.renameSkill Sample.sharedStore Sample.amy.id
          Sample.crewRename Sample.savedAfterRelease = .ok (outcome, db') ∧
        row ∈ db'.releases ∧ row ∉ Sample.savedAfterRelease.releases ∧
          ¬RenamedEntries Sample.draftRenamer Sample.sharedStore
            Sample.publishedRow.slug Sample.crewRename.newName
            Sample.publishedRelease.snapshot row.snapshot := by
  rcases Sample.savedAfterRelease_renamed with
    ⟨outcome, db', row, hrename, hrow, hlength⟩
  refine ⟨outcome, db', row, hrename, hrow, ?_, ?_⟩
  · intro hold
    rw [List.mem_singleton.mp hold] at hlength
    cases hlength
  · rintro ⟨renamed, _, hentries⟩
    rw [hentries, List.length_map] at hlength
    cases hlength

end Denju
