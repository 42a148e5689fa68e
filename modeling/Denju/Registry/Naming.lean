import Denju.Registry.Visibility
import Denju.Lib.Naming

/-!
# The names of resources

A live resource holds its name, and a redirect points from a name to a
resource.  Most of what happens to a registry leaves both alone.
-/

namespace Denju

open Lib

/-- A namespace, a kind and a slug. -/
abbrev ResourceName := Uuid × ResourceKind × Text

def ResourceRow.name (row : ResourceRow) : ResourceName :=
  (row.ownerNamespaceId, row.kind, row.slug)

def RedirectRow.name (row : RedirectRow) : ResourceName :=
  (row.namespaceId, row.kind, row.oldSlug)

structure NamedResource where
  id : Uuid
  name : ResourceName
  deleted : Bool

def ResourceRow.named (row : ResourceRow) : NamedResource where
  id := row.id
  name := row.name
  deleted := row.deleted

namespace Db

def names (db : Db) : Names Uuid ResourceName where
  holds := fun id name => exists row, row ∈ db.resources ∧ row.id = id ∧
    row.deleted = false ∧ row.name = name
  points := fun name id => exists row, row ∈ db.redirects ∧ row.name = name ∧
    row.targetResourceId = id

/-- Identifiers and names are unique, a resource has an owner, and a pack has a
state. -/
structure Located (db : Db) : Prop where
  keyed : (db.resources.map ResourceRow.id).Nodup
  owned : forall row, row ∈ db.resources ->
    exists space, space ∈ db.directory.namespaces ∧
      space.id = row.ownerNamespaceId
  packed : forall row, row ∈ db.resources -> row.kind = .pack ->
    row.id ∈ db.packStates.map PackStateRow.resourceId
  unique : forall a b name, db.names.holds a name -> db.names.holds b name ->
    a = b

/-- The names stay as they are. -/
structure SameNames (db db' : Db) : Prop where
  directory : db'.directory = db.directory
  redirects : db'.redirects = db.redirects
  resources : db'.resources.map ResourceRow.named =
    db.resources.map ResourceRow.named
  packStates : db'.packStates.map PackStateRow.resourceId =
    db.packStates.map PackStateRow.resourceId

/-- At most one resource changes its name.  Where a condition holds, the name
that it takes keeps no redirect. -/
structure Renames (clears : Prop) (db db' : Db) : Prop where
  located : Located db'
  changes : exists item, Names.Changes item db.names db'.names ∧
    (clears -> forall name target,
      Names.Takes item name db.names db'.names ->
        ¬db'.names.points name target)

variable {db db' db'' : Db} {clears clears' : Prop}

theorem Renames.mono (h : Renames clears db db') (hclears : clears' -> clears) :
    Renames clears' db db' where
  located := h.located
  changes := by
    rcases h.changes with ⟨item, hchanges, htaken⟩
    exact ⟨item, hchanges, fun hcond => htaken (hclears hcond)⟩

namespace SameNames

theorem refl (db : Db) : SameNames db db :=
  ⟨rfl, rfl, rfl, rfl⟩

theorem trans (h : SameNames db db') (h' : SameNames db' db'') :
    SameNames db db'' where
  directory := h'.directory.trans h.directory
  redirects := h'.redirects.trans h.redirects
  resources := h'.resources.trans h.resources
  packStates := h'.packStates.trans h.packStates

/-- The names are those of the rows that a directory of names shows. -/
theorem holds_iff_named {id : Uuid} {name : ResourceName} :
    db.names.holds id name <->
      exists row, row ∈ db.resources.map ResourceRow.named ∧ row.id = id ∧
        row.deleted = false ∧ row.name = name := by
  constructor
  · rintro ⟨row, hrow, hheld⟩
    exact ⟨row.named, List.mem_map_of_mem hrow, hheld⟩
  · rintro ⟨named, hnamed, hheld⟩
    rcases List.mem_map.mp hnamed with ⟨row, hrow, rfl⟩
    exact ⟨row, hrow, hheld⟩

theorem names (h : SameNames db db') : db'.names = db.names := by
  have hholds : db'.names.holds = db.names.holds := by
    funext id name
    exact propext (by rw [holds_iff_named, holds_iff_named, h.resources])
  have hpoints : db'.names.points = db.names.points := by
    unfold Db.names
    rw [h.redirects]
  show Names.mk db'.names.holds db'.names.points =
    Names.mk db.names.holds db.names.points
  rw [hholds, hpoints]

theorem mem_named (h : SameNames db db') {row : ResourceRow}
    (hrow : row ∈ db'.resources) :
    exists old, old ∈ db.resources ∧ old.id = row.id ∧
      old.name = row.name ∧ old.deleted = row.deleted := by
  have hnamed := List.mem_map_of_mem (f := ResourceRow.named) hrow
  rw [h.resources] at hnamed
  rcases List.mem_map.mp hnamed with ⟨old, hold, hsame⟩
  injection hsame with hid hname hdeleted
  exact ⟨old, hold, hid, hname, hdeleted⟩

theorem located (h : SameNames db db') (hl : Located db) : Located db' where
  keyed := by
    have hids : forall rows : List ResourceRow,
        rows.map ResourceRow.id =
          (rows.map ResourceRow.named).map NamedResource.id := by
      intro rows
      rw [List.map_map]
      rfl
    rw [hids, h.resources, ← hids]
    exact hl.keyed
  owned := by
    intro row hrow
    rcases h.mem_named hrow with ⟨old, hold, _, hname, _⟩
    rcases hl.owned old hold with ⟨space, hspace, hid⟩
    injection hname with hnamespace _
    rw [h.directory]
    exact ⟨space, hspace, hid.trans hnamespace⟩
  packed := by
    intro row hrow hkind
    rcases h.mem_named hrow with ⟨old, hold, hid, hname, _⟩
    injection hname with _ hrest
    injection hrest with hkind' _
    rw [h.packStates, ← hid]
    exact hl.packed old hold (hkind'.trans hkind)
  unique := by
    rw [h.names]
    exact hl.unique

theorem renames (h : SameNames db db') (hl : Located db) :
    Renames clears db db' where
  located := h.located hl
  changes := by
    refine ⟨Vector.replicate 16 0, ?_, ?_⟩
    · rw [h.names]
      exact Names.Changes.refl _ _
    · intro _ name target htakes
      rw [h.names] at htakes
      exact absurd htakes.1 htakes.2

/-- Rewriting a row keeps the names if it keeps what is shown of the row. -/
theorem updateWhere_named {p : ResourceRow -> Bool}
    {f : ResourceRow -> ResourceRow} {rows : List ResourceRow}
    (hf : forall row, (f row).named = row.named) :
    (updateWhere p f rows).map ResourceRow.named =
      rows.map ResourceRow.named := by
  unfold updateWhere
  rw [List.map_map]
  refine List.map_congr_left fun row _ => ?_
  show (if p row then f row else row).named = row.named
  split
  · exact hf row
  · rfl

end SameNames

/-!
## Changing one name
-/

section Rename

theorem holds_iff (hl : (db.resources.map ResourceRow.id).Nodup) {id : Uuid}
    {row : ResourceRow} (hfound : db.findResource id = some row)
    (name : ResourceName) :
    db.names.holds id name <-> row.deleted = false ∧ row.name = name := by
  have hrow : row ∈ db.resources := List.mem_of_find?_eq_some hfound
  have hid : row.id = id := by
    simpa using List.find?_some hfound
  constructor
  · rintro ⟨other, hother, hotherId, hlive, hname⟩
    have hsame := List.inj_on_of_nodup_map hl hother hrow
      (hotherId.trans hid.symm)
    rw [← hsame]
    exact ⟨hlive, hname⟩
  · rintro ⟨hlive, hname⟩
    exact ⟨row, hrow, hid, hlive, hname⟩

variable {item : Uuid} {row : ResourceRow} {f : ResourceRow -> ResourceRow}

/-- A change of one row, which keeps the identifier and the kind. -/
structure Rewrites (item : Uuid) (f : ResourceRow -> ResourceRow)
    (db db' : Db) : Prop where
  directory : db'.directory = db.directory
  packStates : db'.packStates.map PackStateRow.resourceId =
    db.packStates.map PackStateRow.resourceId
  resources : db'.resources =
    updateWhere (fun row => row.id = item) f db.resources
  id : forall row, (f row).id = row.id
  kind : forall row, (f row).kind = row.kind

namespace Rewrites

variable (h : Rewrites item f db db')

include h

theorem ids : db'.resources.map ResourceRow.id =
    db.resources.map ResourceRow.id := by
  rw [h.resources]
  unfold updateWhere
  rw [List.map_map]
  refine List.map_congr_left fun row _ => ?_
  show (if decide (row.id = item) then f row else row).id = row.id
  split
  · exact h.id row
  · rfl

theorem found (hrow : db.findResource item = some row) :
    db'.findResource item = some (f row) := by
  have hid : row.id = item := by
    simpa using List.find?_some hrow
  unfold findResource at hrow ⊢
  rw [h.resources, find?_updateWhere, hrow]
  · simp [hid]
  · intro other _
    rw [h.id]

theorem holds_other {other : Uuid} (hother : other ≠ item)
    (name : ResourceName) :
    db'.names.holds other name <-> db.names.holds other name := by
  constructor
  · rintro ⟨row, hrow, hid, hheld⟩
    rw [h.resources] at hrow
    rcases mem_updateWhere.mp hrow with ⟨old, hold, rfl⟩
    split at hid
    · rename_i hitem
      rw [h.id] at hid
      exact absurd (hid.symm.trans (of_decide_eq_true hitem)) hother
    · rename_i hitem
      rw [if_neg hitem] at hheld
      exact ⟨old, hold, hid, hheld⟩
  · rintro ⟨row, hrow, hid, hheld⟩
    refine ⟨row, ?_, hid, hheld⟩
    rw [h.resources]
    refine mem_updateWhere.mpr ⟨row, hrow, ?_⟩
    rw [if_neg]
    simpa [hid] using hother

theorem located (hl : Located db)
    (howner : forall row, db.findResource item = some row ->
      exists space, space ∈ db.directory.namespaces ∧
        space.id = (f row).ownerNamespaceId)
    (hunique : forall a b name, db'.names.holds a name ->
      db'.names.holds b name -> a = b) : Located db' where
  keyed := by
    rw [h.ids]
    exact hl.keyed
  owned := by
    intro row hrow
    rw [h.resources] at hrow
    rw [h.directory]
    rcases mem_updateWhere.mp hrow with ⟨old, hold, rfl⟩
    split
    · rename_i hitem
      have hid : old.id = item := of_decide_eq_true hitem
      refine howner old ?_
      rw [← hid]
      exact find?_key_eq_some hl.keyed hold
    · exact hl.owned old hold
  packed := by
    intro row hrow hkind
    rw [h.resources] at hrow
    rw [h.packStates]
    rcases mem_updateWhere.mp hrow with ⟨old, hold, rfl⟩
    split at hkind
    · rename_i hitem
      rw [if_pos hitem, h.id]
      exact hl.packed old hold ((h.kind old).symm.trans hkind)
    · rename_i hitem
      rw [if_neg hitem]
      exact hl.packed old hold hkind
  unique := hunique

/-- A resource moves to a free name, and its old name may redirect to it. -/
theorem renames (hl : Located db) (hrow : db.findResource item = some row)
    (howner : exists space, space ∈ db.directory.namespaces ∧
      space.id = (f row).ownerNamespaceId)
    (hfree : (f row).deleted = false -> forall other, other ≠ item ->
      ¬db.names.holds other (f row).name)
    (hredirects : forall redirect, redirect ∈ db'.redirects ->
      redirect ∈ db.redirects ∨
        redirect.targetResourceId = item ∧ redirect.name = row.name ∧
          row.deleted = false ∧
            ((f row).deleted = true ∨ (f row).name ≠ row.name))
    (hclears : clears -> (f row).deleted = false -> (f row).name ≠ row.name ->
      forall redirect, redirect ∈ db'.redirects ->
        redirect.name ≠ (f row).name)
    (hlive : row.deleted = true -> (f row).deleted = true) :
    Renames clears db db' := by
  have hself := holds_iff hl.keyed hrow
  have hself' : forall name, db'.names.holds item name <->
      (f row).deleted = false ∧ (f row).name = name :=
    holds_iff (h.ids ▸ hl.keyed) (h.found hrow)
  have hchanges : Names.Changes item db.names db'.names := by
    refine ⟨fun other name hother => h.holds_other hother name, ?_, ?_⟩
    · intro name hholds hnot other hother
      have hnow := (hself' name).mp hholds
      by_cases hitem : other = item
      · rw [hitem] at hother
        exact hnot hother
      · rw [← hnow.2] at hother
        exact hfree hnow.1 other hitem hother
    · rintro name target ⟨redirect, hredirect, hname, htarget⟩
      rcases hredirects redirect hredirect with
        hold | ⟨hitem, hold, hwas, hgone⟩
      · exact .inl ⟨redirect, hold, hname, htarget⟩
      · refine .inr ⟨htarget.symm.trans hitem, ?_, ?_⟩
        · exact (hself name).mpr ⟨hwas, hold.symm.trans hname⟩
        · intro hholds
          have hnow := (hself' name).mp hholds
          rcases hgone with hdeleted | hmoved
          · rw [hnow.1] at hdeleted
            cases hdeleted
          · exact hmoved (hnow.2.trans (hname.symm.trans hold))
  refine ⟨h.located hl ?_ (hchanges.unique hl.unique), item, hchanges, ?_⟩
  · intro other hother
    rw [hrow] at hother
    cases hother
    exact howner
  · rintro hcond name target ⟨hholds, hnot⟩ ⟨redirect, hredirect, hname, _⟩
    have hnow := (hself' name).mp hholds
    have hmoved : (f row).name ≠ row.name := by
      intro hsame
      refine hnot ((hself name).mpr ⟨?_, hsame.symm.trans hnow.2⟩)
      by_contra hdeleted
      have hgone := hlive (Bool.eq_true_of_not_eq_false hdeleted)
      rw [hnow.1] at hgone
      cases hgone
    exact hclears hcond hnow.1 hmoved redirect hredirect
      (hname.trans hnow.2.symm)

end Rewrites

/-- A new resource takes a free name. -/
theorem renames_of_insert (hl : Located db)
    (hdirectory : db'.directory = db.directory)
    (hstates : forall id, id ∈ db.packStates.map PackStateRow.resourceId ->
      id ∈ db'.packStates.map PackStateRow.resourceId)
    (hresources : db'.resources = db.resources ++ [row])
    (hfresh : db.findResource row.id = none)
    (howner : exists space, space ∈ db.directory.namespaces ∧
      space.id = row.ownerNamespaceId)
    (hstate : row.kind = .pack ->
      row.id ∈ db'.packStates.map PackStateRow.resourceId)
    (hfree : forall other, ¬db.names.holds other row.name)
    (hredirects : forall redirect, redirect ∈ db'.redirects ->
      redirect ∈ db.redirects)
    (hclears : clears -> forall redirect, redirect ∈ db'.redirects ->
      redirect.name ≠ row.name) : Renames clears db db' := by
  have hnew : forall old, old ∈ db.resources -> old.id ≠ row.id := by
    intro old hold hid
    have habsent := List.find?_eq_none.mp hfresh old hold
    simp [hid] at habsent
  have hself : forall name, db'.names.holds row.id name -> row.name = name := by
    rintro name ⟨other, hother, hid, _, hname⟩
    rw [hresources] at hother
    rcases List.mem_append.mp hother with hold | hlast
    · exact absurd hid (hnew other hold)
    · rw [List.mem_singleton.mp hlast] at hname
      exact hname
  have hchanges : Names.Changes row.id db.names db'.names := by
    refine ⟨?_, ?_, ?_⟩
    · intro other name hother
      constructor
      · rintro ⟨found, hfound, hid, hheld⟩
        rw [hresources] at hfound
        rcases List.mem_append.mp hfound with hold | hlast
        · exact ⟨found, hold, hid, hheld⟩
        · rw [List.mem_singleton.mp hlast] at hid
          exact absurd hid.symm hother
      · rintro ⟨found, hfound, hheld⟩
        refine ⟨found, ?_, hheld⟩
        rw [hresources]
        exact List.mem_append_left _ hfound
    · intro name hholds _ other hother
      rw [← hself name hholds] at hother
      exact hfree other hother
    · rintro name target ⟨redirect, hredirect, hname, htarget⟩
      exact .inl ⟨redirect, hredirects redirect hredirect, hname, htarget⟩
  refine ⟨⟨?_, ?_, ?_, hchanges.unique hl.unique⟩, row.id, hchanges, ?_⟩
  · rw [hresources, List.map_append, List.nodup_append]
    refine ⟨hl.keyed, by simp, ?_⟩
    intro id hid other hother
    rcases List.mem_map.mp hid with ⟨old, hold, rfl⟩
    rw [List.map_singleton, List.mem_singleton] at hother
    rw [hother]
    exact hnew old hold
  · intro other hother
    rw [hdirectory]
    rw [hresources] at hother
    rcases List.mem_append.mp hother with hold | hlast
    · exact hl.owned other hold
    · rw [List.mem_singleton.mp hlast]
      exact howner
  · intro other hother hkind
    rw [hresources] at hother
    rcases List.mem_append.mp hother with hold | hlast
    · exact hstates _ (hl.packed other hold hkind)
    · rw [List.mem_singleton.mp hlast] at hkind ⊢
      exact hstate hkind
  · rintro hcond name target ⟨hholds, _⟩ ⟨redirect, hredirect, hname, _⟩
    exact hclears hcond redirect hredirect
      (hname.trans (hself name hholds).symm)

end Rename
end Db
end Denju
