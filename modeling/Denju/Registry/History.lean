import Denju.Registry.Storage

/-!
# The revision graph

The parent rows of a stored revision are the parents that its identifier was
computed from, as long as no two of the hashed revisions share an identifier.
The edges of the graph only grow, so an ancestor stays one.
-/

namespace Denju

open Lib

section Known

variable (ext : Externals) (known : List Revision)

/-- The revisions have different identifiers. -/
def NoRevisionCollision : Prop :=
  forall a, a ∈ known -> forall b, b ∈ known -> a.id ext = b.id ext -> a = b

/-- Every parent row is a parent of a known revision, in its place. -/
def ParentsAgree (rows : List RevisionParentRow) : Prop :=
  forall row, row ∈ rows -> exists revision, revision ∈ known ∧
    revision.id ext = row.revisionId ∧
      revision.parents[row.ordinal]? = some row.parentRevisionId

end Known

variable {ext : Externals} {known known' : List Revision}

theorem NoRevisionCollision.mono (h : NoRevisionCollision ext known')
    (hsub : forall revision, revision ∈ known -> revision ∈ known') :
    NoRevisionCollision ext known := by
  intro a ha b hb hab
  exact h a (hsub a ha) b (hsub b hb) hab

theorem ParentsAgree.mono {rows : List RevisionParentRow}
    (h : ParentsAgree ext known rows)
    (hsub : forall revision, revision ∈ known -> revision ∈ known') :
    ParentsAgree ext known' rows := by
  intro row hrow
  rcases h row hrow with ⟨revision, hknown, hid, hparent⟩
  exact ⟨revision, hsub revision hknown, hid, hparent⟩

namespace Db

variable {db : Db}

theorem mem_edges {revision parent : RevisionId} :
    (revision, parent) ∈ db.edges <->
      exists row, row ∈ db.revisionParents ∧ row.revisionId = revision ∧
        row.parentRevisionId = parent := by
  unfold edges
  simp [List.mem_map]

/-- What inserting parent rows of a known revision gives. -/
structure ParentsStored (ext : Externals) (known : List Revision)
    (revision : RevisionId) (parents : List RevisionId) (db db' : Db) :
    Prop where
  agree : ParentsAgree ext known db'.revisionParents
  edges : forall parent, parent ∈ parents -> (revision, parent) ∈ db'.edges
  grows : forall edge, edge ∈ db.edges -> edge ∈ db'.edges

variable {revision : Revision}

theorem insertParent_stored (hno : NoRevisionCollision ext known)
    (hknown : revision ∈ known)
    (hagree : ParentsAgree ext known db.revisionParents)
    {row : RevisionParentRow} (hid : revision.id ext = row.revisionId)
    (hparent : revision.parents[row.ordinal]? = some row.parentRevisionId) :
    ParentsStored ext known row.revisionId [row.parentRevisionId] db
      (db.insertParent row) := by
  unfold insertParent
  split
  · rename_i hconflict
    rcases List.any_eq_true.mp hconflict with ⟨other, hother, hclash⟩
    simp only [parentConflict, Bool.and_eq_true, Bool.or_eq_true,
      decide_eq_true_eq] at hclash
    refine ⟨hagree, ?_, fun edge hedge => hedge⟩
    intro parent hmem
    rw [List.mem_singleton.mp hmem]
    refine mem_edges.mpr ⟨other, hother, hclash.1.symm, ?_⟩
    rcases hclash.2 with hordinal | hsame
    · rcases hagree other hother with ⟨stored, hstored, hstoredId, hstoredAt⟩
      have hsame : stored = revision :=
        hno stored hstored revision hknown
          (hstoredId.trans (hclash.1.symm.trans hid.symm))
      rw [hsame, ← hordinal, hparent] at hstoredAt
      exact (Option.some.inj hstoredAt).symm
    · exact hsame.symm
  · constructor
    · intro other hother
      rcases List.mem_append.mp hother with hother | hother
      · exact hagree other hother
      · rw [List.mem_singleton.mp hother]
        exact ⟨revision, hknown, hid, hparent⟩
    · intro parent hmem
      rw [List.mem_singleton.mp hmem]
      exact mem_edges.mpr ⟨row, by simp, rfl, rfl⟩
    · intro edge hedge
      rcases mem_edges.mp hedge with ⟨other, hother, hrevision, hother'⟩
      exact mem_edges.mpr
        ⟨other, List.mem_append_left _ hother, hrevision, hother'⟩

theorem insertParentRows_stored (hno : NoRevisionCollision ext known)
    (hknown : revision ∈ known) (rows : List RevisionParentRow)
    (hagree : ParentsAgree ext known db.revisionParents)
    (hrows : forall row, row ∈ rows -> revision.id ext = row.revisionId ∧
      revision.parents[row.ordinal]? = some row.parentRevisionId) :
    ParentsStored ext known (revision.id ext)
      (rows.map RevisionParentRow.parentRevisionId) db
      (rows.foldl insertParent db) := by
  induction rows generalizing db with
  | nil => exact ⟨hagree, by simp, fun edge hedge => hedge⟩
  | cons row rest ih =>
      have hrow := hrows row List.mem_cons_self
      have hfirst := insertParent_stored hno hknown hagree hrow.1 hrow.2
      have hrest := ih hfirst.agree fun other hother =>
        hrows other (List.mem_cons_of_mem row hother)
      constructor
      · exact hrest.agree
      · intro parent hmem
        rcases List.mem_cons.mp hmem with hhead | htail
        · have hedge := hfirst.edges parent (by simp [hhead])
          rw [← hrow.1] at hedge
          exact hrest.grows _ hedge
        · exact hrest.edges parent htail
      · intro edge hedge
        exact hrest.grows edge (hfirst.grows edge hedge)

theorem insertParents_stored (hno : NoRevisionCollision ext known)
    (hknown : revision ∈ known)
    (hagree : ParentsAgree ext known db.revisionParents) :
    ParentsStored ext known (revision.id ext) revision.parents db
      (db.insertParents (revision.id ext) revision.parents) := by
  have hrows : forall row,
      row ∈ parentRows (revision.id ext) revision.parents ->
        revision.id ext = row.revisionId ∧
          revision.parents[row.ordinal]? = some row.parentRevisionId := by
    intro row hrow
    rcases List.mem_map.mp hrow with ⟨parent, hparent, rfl⟩
    exact ⟨rfl, List.mem_zipIdx_iff_getElem?.mp hparent⟩
  have hstored := insertParentRows_stored hno hknown _ hagree hrows
  have hparents : (parentRows (revision.id ext) revision.parents).map
      RevisionParentRow.parentRevisionId = revision.parents := by
    unfold parentRows
    rw [List.map_map]
    exact List.zipIdx_map_fst 0 revision.parents
  rw [hparents] at hstored
  exact hstored

end Db

/-- A fixed revision graph whose edges only grow keeps its ancestors. -/
theorem ancestor_of_grows {db db' : Db} {a b : RevisionId}
    (hgrows : forall edge, edge ∈ db.edges -> edge ∈ db'.edges)
    (h : Ancestor db.edges a b) : Ancestor db'.edges a b :=
  h.mono hgrows

end Denju
