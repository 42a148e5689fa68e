import Denju.Registry.Audience
import Denju.Registry.TeamCleanup
import Denju.Lib.Paging

/-!
# Searching the catalog

A search lists the resources that its viewer may find, in pages.  A page names
its last row in a cursor, and the next page starts behind that row.  The order
of the rows is the `ORDER BY` clause of the query; what is behind a cursor is
decided by a comparison of its own, which the query spells out column by
column.
-/

namespace Denju

open Lib

inductive SearchSort where
  | relevance
  | stars
deriving DecidableEq, Repr

inductive CatalogSource where
  | pub
  | owned
  | privateShare
  | team
deriving DecidableEq, Repr

inductive CatalogVisibility where
  | pub
  | priv
  | team
deriving DecidableEq, Repr

/-!
## Tables
-/

structure SearchDocument where
  resourceId : Uuid
  kind : ResourceKind
  ownerSlug : Text
  resourceSlug : Text
  description : Text
  license : Option Text
  compatibility : Option Text
  topics : List Text
  forkUpstreamLocator : Option Text
  packMembershipText : Text
  starCount : Nat
  searchText : Text
deriving DecidableEq

structure StarRow where
  userId : Uuid
  resourceId : Uuid
deriving DecidableEq

structure FollowRow where
  followerUserId : Uuid
  followedUserId : Uuid
deriving DecidableEq

/-- The registry with what only discovery reads. -/
structure Catalog where
  db : Db
  documents : List SearchDocument
  stars : List StarRow := []
  follows : List FollowRow := []
  documentKey : (documents.map SearchDocument.resourceId).Nodup

/-- The text functions of the database. -/
structure TextSearch where
  lower : Text -> Text
  startsLike : Text -> Text -> Bool
  coverRank : SearchDocument -> Text -> Int
  similarity : SearchDocument -> Text -> Int
  matchesQuery : SearchDocument -> Text -> Bool
  similar : SearchDocument -> Text -> Bool
  contains : SearchDocument -> Text -> Bool

/-- The order of texts in the database, by sort keys that separate them. -/
structure Collation (κ : Type) where
  sortKey : Text -> κ
  separates : Function.Injective sortKey

/-!
## Requests and rows
-/

structure CatalogSearchInput where
  query : Text
  limit : UInt32
  cursor : Option Text
  sort : SearchSort
  followingOnly : Bool
  topic : Option Text
  publicSkillsOnly : Bool
deriving DecidableEq

structure CatalogRow where
  resourceId : Uuid
  kind : ResourceKind
  ownerSlug : Text
  resourceSlug : Text
  description : Text
  license : Option Text
  compatibility : Option Text
  topics : List Text
  source : CatalogSource
  visibility : CatalogVisibility
  generation : Generation
  version : Option Generation
  starCount : Nat
  viewerStarred : Bool
  deprecated : Bool
  forkUpstreamLocator : Option Text
  packMembershipText : Text
  relevanceRank : Int
deriving DecidableEq

structure CatalogResource where
  resourceId : Uuid
  kind : ResourceKind
  locator : Text
  owner : Text
  name : Text
  description : Text
  license : Option Text
  compatibility : Option Text
  topics : List Text
  source : CatalogSource
  visibility : CatalogVisibility
  generation : Nat
  version : Option Nat
  starCount : Nat
  viewerStarred : Bool
  deprecated : Bool
  forkUpstreamLocator : Option Text
  packMembers : List Text
  relevanceRank : Int
deriving DecidableEq

structure CatalogSearchResponse where
  items : List CatalogResource
  nextCursor : Option Text
deriving DecidableEq

def splitWhitespace (text : Text) : List Text :=
  (text.splitOnP isWhitespace).filter fun word => !word.isEmpty

namespace CatalogRow

def locator (row : CatalogRow) : Text :=
  match row.kind with
  | .skill => '@' :: row.ownerSlug ++ '/' :: row.resourceSlug
  | .pack => '@' :: row.ownerSlug ++ "/packs/".toList ++ row.resourceSlug

def intoWire (row : CatalogRow) : CatalogResource where
  resourceId := row.resourceId
  kind := row.kind
  locator := row.locator
  owner := row.ownerSlug
  name := row.resourceSlug
  description := row.description
  license := row.license
  compatibility := row.compatibility
  topics := row.topics
  source := row.source
  visibility := row.visibility
  generation := row.generation.value
  version := row.version.map Generation.value
  starCount := row.starCount
  viewerStarred := row.viewerStarred
  deprecated := row.deprecated
  forkUpstreamLocator := row.forkUpstreamLocator
  packMembers := splitWhitespace row.packMembershipText
  relevanceRank := row.relevanceRank

end CatalogRow

def normalizeTopic (value : Text) : Except ApiError Text := do
  let topic := (trim value).map Char.toLower
  ensure (!(topic.isEmpty || decide (32 < (utf8 topic).length) ||
      topic.head? == some '-' || topic.getLast? == some '-' ||
      (topic.zip topic.tail).contains ('-', '-') ||
      !topic.all isNameCharacter))
    (ApiError.new .invalidRequest "invalid discovery topic")
  return topic

def normalizedTopic : Option Text -> Except ApiError (Option Text)
  | none => .ok none
  | some topic => (normalizeTopic topic).map some

/-!
## Candidates
-/

namespace Catalog

variable (search : TextSearch) (catalog : Catalog)

/-- How well a document answers a query. -/
def queryRank (query : Text) (document : SearchDocument) : Int :=
  if query = [] then 0
  else
    (if search.lower ('@' :: document.ownerSlug ++
          '/' :: document.resourceSlug) = search.lower query then 12000
      else if search.lower document.resourceSlug = search.lower query then
        10000
      else if search.startsLike (search.lower document.resourceSlug)
          (search.lower query) then 7000
      else 0) +
      search.coverRank document query + search.similarity document query

def answersQuery (query : Text) (document : SearchDocument) : Bool :=
  decide (query = []) || search.matchesQuery document query ||
    search.similar document query || search.contains document query

def hasTopic (topic : Option Text) (document : SearchDocument) : Bool :=
  topic.all fun topic => document.topics.contains topic

/-- The resource or the release on display is quarantined. -/
def hides (resource : ResourceRow) (showsRelease : Bool) : Bool :=
  catalog.db.quarantines.any fun row =>
    decide (row.resourceId = resource.id ∧ row.lifted = false) &&
      (row.releaseVersion.isNone ||
        (decide (resource.kind = .skill) && showsRelease &&
          decide (row.releaseVersion = resource.latestReleaseVersion)))

/-- A row of the candidates of a user. -/
def viewerCandidate (viewer : UserAuthority) (query : Text)
    (input : CatalogSearchInput) (topic : Option Text)
    (document : SearchDocument) : Option CatalogRow := do
  let db := catalog.db
  let resource <- (db.findResource document.resourceId).filter fun row =>
    db.canReadResource viewer.userId row.id
  let owner <- db.directory.namespaceById resource.ownerNamespaceId
  let isPublic := decide (resource.visibility = .pub)
  let isSkill := decide (resource.kind = .skill)
  let ofUser := decide (owner.kind = .user)
  let ofTeam := decide (owner.kind = .team)
  let ownerUser := if ofUser then
      db.directory.users.find? fun row =>
        row.namespaceId = resource.ownerNamespaceId
    else none
  let ownerWorkspace := ownerUser.any fun user =>
    (db.workspace resource.id user.id).any (db.canReadWorkspace viewer.userId)
  let teamWorkspace := ofTeam &&
    (db.workspace resource.id viewer.userId).any
      (db.canReadWorkspace viewer.userId)
  let shared := db.sharedWith resource.id viewer.userId
  let member := (db.directory.membership resource.ownerNamespaceId
    viewer.userId).isSome
  let pack := db.packState resource.id
  let owned := decide (resource.ownerNamespaceId = viewer.namespaceId)
  let released := resource.latestReleaseVersion.isSome
  let followed := ownerUser.any fun user =>
    catalog.follows.contains ⟨viewer.userId, user.id⟩
  let boost := match input.sort with
    | .relevance => if followed then 250 else 0
    | .stars => 0
  let showsRelease := isPublic || (ofTeam && !teamWorkspace)
  let found := !resource.deleted &&
    !catalog.hides resource showsRelease &&
    (!input.publicSkillsOnly || (isPublic && isSkill)) &&
    (!input.followingOnly || (isPublic && followed)) &&
    hasTopic topic document &&
    answersQuery search query document &&
    ((isPublic && ((isSkill && released) || (!isSkill && pack.isSome))) ||
      (!isPublic &&
        ((ofUser && isSkill && ownerWorkspace && (owned || shared)) ||
          (ofUser && !isSkill && owned && pack.isSome) ||
          (ofTeam && !isSkill && member && pack.isSome) ||
          (ofTeam && isSkill &&
            (teamWorkspace || ((member || shared) && released))))))
  if found then
    return {
      resourceId := document.resourceId
      kind := document.kind
      ownerSlug := document.ownerSlug
      resourceSlug := document.resourceSlug
      description := document.description
      license := document.license
      compatibility := document.compatibility
      topics := document.topics
      source := if isPublic then .pub
        else if owned then .owned
        else if ofTeam && member then .team
        else .privateShare
      visibility := if isPublic then .pub
        else if ofTeam then .team
        else .priv
      generation := resource.generation
      version := if isSkill && isPublic then resource.latestReleaseVersion
        else if !isSkill then pack.map PackStateRow.currentVersion
        else if ofTeam && isSkill && !teamWorkspace then
          resource.latestReleaseVersion
        else none
      starCount := if isPublic then document.starCount else 0
      viewerStarred := isPublic &&
        catalog.stars.contains ⟨viewer.userId, resource.id⟩
      deprecated := isPublic && resource.deprecated
      forkUpstreamLocator := document.forkUpstreamLocator
      packMembershipText := document.packMembershipText
      relevanceRank := queryRank search query document + boost }
  else none

/-- A row of the candidates of everybody. -/
def publicCandidate (query : Text) (input : CatalogSearchInput)
    (topic : Option Text) (document : SearchDocument) : Option CatalogRow := do
  let db := catalog.db
  let resource <- (db.findResource document.resourceId).filter fun row =>
    db.publicResource row.id
  let isSkill := decide (resource.kind = .skill)
  let pack := db.packState resource.id
  let found := !resource.deleted && decide (resource.visibility = .pub) &&
    ((isSkill && resource.latestReleaseVersion.isSome) ||
      (!isSkill && pack.isSome)) &&
    !catalog.hides resource true &&
    (!input.publicSkillsOnly || isSkill) &&
    hasTopic topic document &&
    answersQuery search query document
  if found then
    return {
      resourceId := document.resourceId
      kind := document.kind
      ownerSlug := document.ownerSlug
      resourceSlug := document.resourceSlug
      description := document.description
      license := document.license
      compatibility := document.compatibility
      topics := document.topics
      source := .pub
      visibility := .pub
      generation := resource.generation
      version := if isSkill then resource.latestReleaseVersion
        else pack.map PackStateRow.currentVersion
      starCount := document.starCount
      viewerStarred := false
      deprecated := resource.deprecated
      forkUpstreamLocator := document.forkUpstreamLocator
      packMembershipText := document.packMembershipText
      relevanceRank := queryRank search query document }
  else none

/-- What a search can find. -/
def candidates (viewer : Option UserAuthority) (input : CatalogSearchInput)
    (topic : Option Text) : List CatalogRow :=
  let query := trim input.query
  match viewer with
  | some viewer => catalog.documents.filterMap
      (catalog.viewerCandidate search viewer query input topic)
  | none => catalog.documents.filterMap
      (catalog.publicCandidate search query input topic)

end Catalog

/-!
## Cursors
-/

structure CatalogCursor where
  sort : SearchSort
  deprecated : Bool
  relevanceRank : Int
  starCount : Int
  owner : Text
  name : Text
  resourceId : Text
deriving DecidableEq

/-- The encodings of a cursor as JSON and of an identifier as text. -/
structure CursorFormat where
  toVec : CatalogCursor -> Bytes
  fromSlice : Bytes -> Option CatalogCursor
  decodeHex : Text -> Option Bytes
  parseUuid : Text -> Option Uuid

namespace CatalogCursor

def invalid : ApiError :=
  ApiError.new .invalidRequest "invalid search cursor"

def start (sort : SearchSort) : CatalogCursor where
  sort
  deprecated := false
  relevanceRank := 0
  starCount := 0
  owner := []
  name := []
  resourceId := uuidText (Vector.replicate 16 0)

def fromRow (sort : SearchSort) (row : CatalogRow) : CatalogCursor where
  sort
  deprecated := row.deprecated
  relevanceRank := row.relevanceRank
  starCount := row.starCount
  owner := row.ownerSlug
  name := row.resourceSlug
  resourceId := uuidText row.resourceId

variable (format : CursorFormat)

def resourceUuid (cursor : CatalogCursor) : Except ApiError Uuid :=
  okOr (format.parseUuid cursor.resourceId) invalid

def encode (cursor : CatalogCursor) : Text :=
  hex (format.toVec cursor)

def decode (value : Text) : Except ApiError CatalogCursor := do
  let bytes <- okOr (format.decodeHex value) invalid
  let cursor <- okOr (format.fromSlice bytes) invalid
  let _ <- cursor.resourceUuid format
  return cursor

end CatalogCursor

/-- The encodings are read back as what they were made of. -/
structure CursorFormat.Reads (format : CursorFormat) (sort : SearchSort)
    (row : CatalogRow) : Prop where
  json : format.fromSlice (format.toVec (CatalogCursor.fromRow sort row)) =
    some (CatalogCursor.fromRow sort row)
  hex : format.decodeHex (hex (format.toVec (CatalogCursor.fromRow sort row))) =
    some (format.toVec (CatalogCursor.fromRow sort row))
  uuid : format.parseUuid (uuidText row.resourceId) = some row.resourceId

/-- The encodings of all cursors that a search hands out are read back. -/
structure CursorFormat.Sound (format : CursorFormat) (sort : SearchSort)
    (rows : List CatalogRow) : Prop where
  start : format.parseUuid (uuidText (Vector.replicate 16 0)) =
    some (Vector.replicate 16 0)
  reads : forall row, row ∈ rows -> format.Reads sort row

theorem CursorFormat.Reads.decode {format : CursorFormat} {sort : SearchSort}
    {row : CatalogRow} (h : format.Reads sort row) :
    CatalogCursor.decode format
        ((CatalogCursor.fromRow sort row).encode format) =
      .ok (CatalogCursor.fromRow sort row) := by
  have huuid : (CatalogCursor.fromRow sort row).resourceUuid format =
      .ok row.resourceId := okOr_eq_ok.mpr h.uuid
  unfold CatalogCursor.decode CatalogCursor.encode
  rw [h.hex]
  show (okOr (format.fromSlice _) CatalogCursor.invalid >>= _) = _
  rw [h.json]
  show ((CatalogCursor.fromRow sort row).resourceUuid format >>= _) = _
  rw [huuid]
  rfl

/-!
## Order
-/

section

variable {κ : Type} [LinearOrder κ] (collation : Collation κ)

/-- The `ORDER BY` clause, as a tuple in lexicographic order. -/
abbrev OrderKey (κ : Type) :=
  Nat ×ₗ Intᵒᵈ ×ₗ Intᵒᵈ ×ₗ κ ×ₗ κ ×ₗ List UInt8

def orderKey (sort : SearchSort) (row : CatalogRow) : OrderKey κ :=
  let rank := OrderDual.toDual row.relevanceRank
  let stars := OrderDual.toDual (row.starCount : Int)
  let name := toLex (collation.sortKey row.ownerSlug,
    toLex (collation.sortKey row.resourceSlug, row.resourceId.toList))
  match sort with
  | .relevance =>
      toLex (row.deprecated.toNat, toLex (rank, toLex (stars, name)))
  | .stars =>
      toLex (row.deprecated.toNat, toLex (stars, toLex (rank, name)))

/-- The comparison with a cursor, column by column. -/
def cursorOrder (cursor : CatalogCursor) (resourceId : Uuid)
    (row : CatalogRow) : Bool :=
  let owner := collation.sortKey row.ownerSlug
  let name := collation.sortKey row.resourceSlug
  let byName :=
    decide (collation.sortKey cursor.owner < owner) ||
      (decide (row.ownerSlug = cursor.owner) &&
        (decide (collation.sortKey cursor.name < name) ||
          (decide (row.resourceSlug = cursor.name) &&
            decide (resourceId.toList < row.resourceId.toList))))
  match cursor.sort with
  | .relevance =>
      decide (row.relevanceRank < cursor.relevanceRank) ||
        (decide (row.relevanceRank = cursor.relevanceRank) &&
          (decide ((row.starCount : Int) < cursor.starCount) ||
            (decide ((row.starCount : Int) = cursor.starCount) && byName)))
  | .stars =>
      decide ((row.starCount : Int) < cursor.starCount) ||
        (decide ((row.starCount : Int) = cursor.starCount) &&
          (decide (row.relevanceRank < cursor.relevanceRank) ||
            (decide (row.relevanceRank = cursor.relevanceRank) && byName)))

def behindCursor (cursor : CatalogCursor) (resourceId : Uuid)
    (row : CatalogRow) : Bool :=
  decide (cursor.deprecated.toNat < row.deprecated.toNat) ||
    (decide (row.deprecated.toNat = cursor.deprecated.toNat) &&
      cursorOrder collation cursor resourceId row)

/-- The comparison is the strict order of the clause. -/
theorem behindCursor_fromRow (sort : SearchSort) (last row : CatalogRow) :
    behindCursor collation (CatalogCursor.fromRow sort last) last.resourceId
        row =
      decide (orderKey collation sort last < orderKey collation sort row) := by
  have howner : row.ownerSlug = last.ownerSlug <->
      collation.sortKey last.ownerSlug = collation.sortKey row.ownerSlug :=
    eq_comm.trans collation.separates.eq_iff.symm
  have hname : row.resourceSlug = last.resourceSlug <->
      collation.sortKey last.resourceSlug =
        collation.sortKey row.resourceSlug :=
    eq_comm.trans collation.separates.eq_iff.symm
  have hdeprecated : row.deprecated.toNat = last.deprecated.toNat <->
      last.deprecated.toNat = row.deprecated.toNat := eq_comm
  have hrank : row.relevanceRank = last.relevanceRank <->
      last.relevanceRank = row.relevanceRank := eq_comm
  have hstars : (row.starCount : Int) = (last.starCount : Int) <->
      (last.starCount : Int) = (row.starCount : Int) := eq_comm
  rw [Bool.eq_iff_iff]
  cases sort with
  | relevance =>
      have hsort : (CatalogCursor.fromRow .relevance last).sort = .relevance :=
        rfl
      simp only [behindCursor, cursorOrder, hsort, Bool.or_eq_true,
        Bool.and_eq_true, decide_eq_true_eq]
      simp only [CatalogCursor.fromRow, orderKey, Prod.Lex.toLex_lt_toLex,
        OrderDual.toDual_lt_toDual, OrderDual.toDual_inj, howner, hname,
        hdeprecated, hrank, hstars]
  | stars =>
      have hsort : (CatalogCursor.fromRow .stars last).sort = .stars :=
        rfl
      simp only [behindCursor, cursorOrder, hsort, Bool.or_eq_true,
        Bool.and_eq_true, decide_eq_true_eq]
      simp only [CatalogCursor.fromRow, orderKey, Prod.Lex.toLex_lt_toLex,
        OrderDual.toDual_lt_toDual, OrderDual.toDual_inj, howner, hname,
        hdeprecated, hrank, hstars]

omit [LinearOrder κ] in
/-- Rows of different resources have different places. -/
theorem orderKey_injective {sort : SearchSort} {a b : CatalogRow}
    (h : orderKey collation sort a = orderKey collation sort b) :
    a.resourceId = b.resourceId := by
  have hid : a.resourceId.toList = b.resourceId.toList := by
    cases sort with
    | relevance =>
        exact congrArg (fun key : OrderKey κ =>
          (ofLex (ofLex (ofLex (ofLex (ofLex key).2).2).2).2).2) h
    | stars =>
        exact congrArg (fun key : OrderKey κ =>
          (ofLex (ofLex (ofLex (ofLex (ofLex key).2).2).2).2).2) h
  exact Vector.toList_inj.mp hid

end

/-!
## Pages
-/

section

variable {κ : Type} [LinearOrder κ] (collation : Collation κ)
  (format : CursorFormat) (search : TextSearch) (catalog : Catalog)
  (viewer : Option UserAuthority)

def searchPageMax : Nat :=
  50

def pageLimit (limit : UInt32) : Nat :=
  min (max limit.toNat 1) searchPageMax

/-- The rows of the query: one more than a page holds. -/
def catalogQuery (input : CatalogSearchInput) (topic : Option Text)
    (cursor : CatalogCursor) (resourceId : Uuid) : List CatalogRow :=
  let rows := (catalog.candidates search viewer input topic).filter fun row =>
    !input.cursor.isSome || behindCursor collation cursor resourceId row
  (sortByKey (orderKey collation input.sort) rows).take
    (pageLimit input.limit + 1)

def requestedCursor (input : CatalogSearchInput) :
    Except ApiError CatalogCursor :=
  match input.cursor with
  | none => .ok (CatalogCursor.start input.sort)
  | some value => CatalogCursor.decode format value

def catalogSearch (input : CatalogSearchInput) :
    Except ApiError CatalogSearchResponse := do
  ensure (!(input.followingOnly && viewer.isNone))
    (ApiError.new .unauthorized "--following requires a claimed user identity")
  let topic <- normalizedTopic input.topic
  let limit := pageLimit input.limit
  let cursor <- requestedCursor format input
  ensure (decide (cursor.sort = input.sort))
    (ApiError.new .invalidRequest
      "search cursor was created for a different sort order")
  let resourceId <- cursor.resourceUuid format
  let rows := catalogQuery collation search catalog viewer input topic cursor
    resourceId
  let visible := rows.take limit
  let nextCursor :=
    if limit < rows.length then
      visible.getLast?.map fun row =>
        (CatalogCursor.fromRow input.sort row).encode format
    else none
  return { items := visible.map CatalogRow.intoWire, nextCursor }

/-!
## All pages
-/

variable {collation format search catalog viewer}
  {input : CatalogSearchInput} {topic : Option Text}

theorem candidate_resourceId {viewer : UserAuthority} {query : Text}
    {document : SearchDocument} {row : CatalogRow}
    (h : catalog.viewerCandidate search viewer query input topic document =
      some row) : row.resourceId = document.resourceId := by
  rcases Option.bind_eq_some_iff.mp h with ⟨resource, _, h⟩
  rcases Option.bind_eq_some_iff.mp h with ⟨owner, _, h⟩
  have hrow := (Option.ite_none_right_eq_some.mp h).2
  cases hrow
  rfl

theorem publicCandidate_resourceId {query : Text} {document : SearchDocument}
    {row : CatalogRow}
    (h : catalog.publicCandidate search query input topic document =
      some row) : row.resourceId = document.resourceId := by
  rcases Option.bind_eq_some_iff.mp h with ⟨resource, _, h⟩
  have hrow := (Option.ite_none_right_eq_some.mp h).2
  cases hrow
  rfl

/-- A search finds a resource at most once. -/
theorem candidates_nodup :
    ((catalog.candidates search viewer input topic).map
      CatalogRow.resourceId).Nodup := by
  cases viewer with
  | none =>
      apply nodup_map_filterMap catalog.documentKey
      intro document _ row hrow
      exact publicCandidate_resourceId hrow
  | some viewer =>
      apply nodup_map_filterMap catalog.documentKey
      intro document _ row hrow
      exact candidate_resourceId hrow

/-- The page behind a cursor that has been read. -/
theorem catalogSearch_shows
    (htopic : normalizedTopic input.topic = .ok topic)
    (hfollowing : input.followingOnly = true -> viewer.isSome = true)
    {cursor : CatalogCursor} {resourceId : Uuid} {rows : List CatalogRow}
    (hcursor : requestedCursor format input = .ok cursor)
    (hsort : cursor.sort = input.sort)
    (hid : cursor.resourceUuid format = .ok resourceId)
    (hrows : catalogQuery collation search catalog viewer input topic cursor
      resourceId = rows.take (pageLimit input.limit + 1)) :
    (catalogSearch collation format search catalog viewer input).map
        (fun response => (response.items, response.nextCursor)) =
      .ok ((rows.take (pageLimit input.limit)).map CatalogRow.intoWire,
        (lastOfPage (pageLimit input.limit) rows).map fun row =>
          (CatalogCursor.fromRow input.sort row).encode format) := by
  have hallowed : (!(input.followingOnly && viewer.isNone)) = true := by
    cases viewer with
    | none =>
        cases honly : input.followingOnly with
        | false => rfl
        | true => cases hfollowing honly
    | some viewer => simp
  have htake : (rows.take (pageLimit input.limit + 1)).take
      (pageLimit input.limit) = rows.take (pageLimit input.limit) := by
    rw [List.take_take, Nat.min_eq_left (Nat.le_succ _)]
  unfold catalogSearch
  rw [hallowed, htopic]
  show (requestedCursor format input >>= _).map _ = _
  rw [hcursor]
  show (ensure (decide (cursor.sort = input.sort)) _ >>= _).map _ = _
  rw [decide_eq_true hsort]
  show (cursor.resourceUuid format >>= _).map _ = _
  rw [hid]
  show Except.ok (((catalogQuery collation search catalog viewer input topic
    cursor resourceId).take (pageLimit input.limit)).map CatalogRow.intoWire,
      _) = _
  rw [hrows, htake, <- lastOfPage_take]
  congr 2
  unfold lastOfPage
  rw [htake]
  split
  · rfl
  · rfl

/-- Each page shows what is behind the last row of the page before. -/
theorem catalogSearch_paged
    (htopic : normalizedTopic input.topic = .ok topic)
    (hfollowing : input.followingOnly = true -> viewer.isSome = true)
    (hformat : format.Sound input.sort
      (catalog.candidates search viewer input topic)) :
    Paged (orderKey collation input.sort)
      (catalog.candidates search viewer input topic) (pageLimit input.limit)
      (fun row => (CatalogCursor.fromRow input.sort row).encode format)
      CatalogRow.intoWire
      (fun cursor =>
        (catalogSearch collation format search catalog viewer
          { input with cursor }).map
            fun response => (response.items, response.nextCursor)) := by
  intro last hlast
  cases last with
  | none =>
      have hstart : (CatalogCursor.start input.sort).resourceUuid format =
          .ok (Vector.replicate 16 0) := okOr_eq_ok.mpr hformat.start
      show (catalogSearch collation format search catalog viewer
        { input with cursor := none }).map _ = _
      apply catalogSearch_shows
      · exact htopic
      · exact hfollowing
      · rfl
      · rfl
      · exact hstart
      · rfl
  | some last =>
      have hreads := hformat.reads last (hlast last rfl)
      have hid : (CatalogCursor.fromRow input.sort last).resourceUuid format =
          .ok last.resourceId := okOr_eq_ok.mpr hreads.uuid
      show (catalogSearch collation format search catalog viewer
        { input with
          cursor := some ((CatalogCursor.fromRow input.sort last).encode
            format) }).map _ = _
      apply catalogSearch_shows
      · exact htopic
      · exact hfollowing
      · exact hreads.decode
      · rfl
      · exact hid
      show (sortByKey (orderKey collation input.sort)
        ((catalog.candidates search viewer input topic).filter fun row =>
          behindCursor collation (CatalogCursor.fromRow input.sort last)
            last.resourceId row)).take (pageLimit input.limit + 1) = _
      simp only [behindCursor_fromRow]
      rfl

/-- The pages of a search show every candidate once, in order, and end. -/
theorem catalogSearch_complete
    (htopic : normalizedTopic input.topic = .ok topic)
    (hfollowing : input.followingOnly = true -> viewer.isSome = true)
    (hformat : format.Sound input.sort
      (catalog.candidates search viewer input topic)) :
    exists rows : List CatalogRow,
      rows.Perm (catalog.candidates search viewer input topic) ∧
        (rows.map CatalogRow.resourceId).Nodup ∧
        (rows.Pairwise fun a b =>
          orderKey collation input.sort a < orderKey collation input.sort b) ∧
        exists pages,
          follow
              (fun cursor =>
                (catalogSearch collation format search catalog viewer
                  { input with cursor }).map
                    fun response => (response.items, response.nextCursor))
              pages none =
            some (.ok (rows.map CatalogRow.intoWire)) := by
  have hids : ((catalog.candidates search viewer input topic).map
      CatalogRow.resourceId).Nodup := candidates_nodup
  have hkeys : ((catalog.candidates search viewer input topic).map
      (orderKey collation input.sort)).Nodup := by
    apply List.Nodup.map_on
    · intro a ha b hb hab
      exact List.inj_on_of_nodup_map hids ha hb
        (orderKey_injective collation hab)
    · exact hids.of_map _
  have hlimit : 0 < pageLimit input.limit := by
    unfold pageLimit searchPageMax
    omega
  have hperm := sortByKey_perm (orderKey collation input.sort)
    (catalog.candidates search viewer input topic)
  refine ⟨_, hperm, ?_, sortByKey_strict hkeys, _,
    follow_eq_sortByKey hlimit hkeys
      (catalogSearch_paged htopic hfollowing hformat)⟩
  exact ((hperm.map CatalogRow.resourceId).nodup_iff).mpr hids

end

/-!
## A search of two pages
-/

namespace Sample

def searchDocument (id : UInt8) (slug : String) : SearchDocument where
  resourceId := uuid id
  kind := .pack
  ownerSlug := "amy".toList
  resourceSlug := slug.toList
  description := []
  license := none
  compatibility := none
  topics := ["tools".toList]
  forkUpstreamLocator := none
  packMembershipText := []
  starCount := 3
  searchText := "amy ".toList ++ slug.toList ++ "   tools  ".toList

def shelf : Catalog where
  db :=
    { directory := directory
      resources := [packRow 40 2 "kit" .pub, packRow 41 2 "box" .pub]
      packStates := [⟨uuid 40, .one⟩, ⟨uuid 41, .one⟩] }
  documents := [searchDocument 40 "kit", searchDocument 41 "box"]
  documentKey := by decide

def tools : CatalogSearchInput where
  query := []
  limit := 1
  cursor := none
  sort := .relevance
  followingOnly := false
  topic := some " Tools".toList
  publicSkillsOnly := false

/-- The text functions on documents that no query is matched against. -/
def plainSearch : TextSearch where
  lower text := text.map Char.toLower
  startsLike text pattern := pattern.isPrefixOf text
  coverRank _ _ := 0
  similarity _ _ := 0
  matchesQuery _ _ := false
  similar _ _ := false
  contains _ _ := false

def byBytes : Collation Bytes where
  sortKey := utf8
  separates := fun _ _ => utf8_injective

def found : List CatalogRow :=
  shelf.candidates plainSearch none tools (some "tools".toList)

def cursorJson (cursor : CatalogCursor) : Text :=
  "\x7b\"sort\":\"relevance\",\"deprecated\":".toList ++
    (toString cursor.deprecated).toList ++
    ",\"relevance_rank\":".toList ++ (toString cursor.relevanceRank).toList ++
    ",\"star_count\":".toList ++ (toString cursor.starCount).toList ++
    ",\"owner\":\"".toList ++ cursor.owner ++
    "\",\"name\":\"".toList ++ cursor.name ++
    "\",\"resource_id\":\"".toList ++ cursor.resourceId ++ "\"\x7d".toList

def shelfCursors : List CatalogCursor :=
  found.map (CatalogCursor.fromRow .relevance)

def shelfFormat : CursorFormat where
  toVec cursor := utf8 (cursorJson cursor)
  fromSlice bytes := shelfCursors.find? fun cursor =>
    utf8 (cursorJson cursor) = bytes
  decodeHex text := (shelfCursors.map fun cursor =>
    utf8 (cursorJson cursor)).find? fun bytes => hex bytes = text
  parseUuid text :=
    (Vector.replicate 16 0 :: found.map CatalogRow.resourceId).find?
      fun id => uuidText id = text

end Sample

theorem catalogSearch_complete_shelf :
    exists rows : List CatalogRow,
      rows.Perm Sample.found ∧
        (rows.map CatalogRow.resourceId).Nodup ∧
        (rows.Pairwise fun a b =>
          orderKey Sample.byBytes .relevance a <
            orderKey Sample.byBytes .relevance b) ∧
        exists pages,
          follow
              (fun cursor =>
                (catalogSearch Sample.byBytes Sample.shelfFormat
                  Sample.plainSearch Sample.shelf none
                  { Sample.tools with cursor }).map
                    fun response => (response.items, response.nextCursor))
              pages none =
            some (.ok (rows.map CatalogRow.intoWire)) := by
  have hreads : forall row, row ∈ Sample.found ->
      Sample.shelfFormat.fromSlice (Sample.shelfFormat.toVec
          (CatalogCursor.fromRow .relevance row)) =
        some (CatalogCursor.fromRow .relevance row) ∧
      Sample.shelfFormat.decodeHex (hex (Sample.shelfFormat.toVec
          (CatalogCursor.fromRow .relevance row))) =
        some (Sample.shelfFormat.toVec
          (CatalogCursor.fromRow .relevance row)) ∧
      Sample.shelfFormat.parseUuid (uuidText row.resourceId) =
        some row.resourceId := by
    decide +kernel
  apply @catalogSearch_complete _ _ _ _ _ _ _ Sample.tools
  · decide +kernel
  · intro hfollowing
    cases hfollowing
  · constructor
    · decide +kernel
    · intro row hrow
      rcases hreads row hrow with ⟨hjson, hhex, huuid⟩
      exact ⟨hjson, hhex, huuid⟩

end Denju
