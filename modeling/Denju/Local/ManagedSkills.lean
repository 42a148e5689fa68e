import Denju.Lib.Result
import Denju.Lib.Sorting
import Denju.Local.Store
import Mathlib.Data.List.Permutation
import Mathlib.Data.Prod.Lex

/-!
# The managed skills of a device

A skill is managed when it is subscribed to, owned, or put in place by a pack,
unless a stronger source suppresses that reason.  The rows of the three tables
are read in the order of owner, name and resource.  A resource that two of them
manage is looked for only between rows that follow each other.
-/

namespace Denju.Local

open Lib

/-!
## Tables
-/

/-- The columns that are read.  The schema lets the key of a table be null. -/
structure ManagedSkillRow where
  resourceId : Option ResourceId
  locator : Text
  owner : Text
  skillName : Text
  harnessName : Option Text
  materializedRevisionId : Option Text
deriving DecidableEq

structure ManagedSkillRecord where
  resourceId : ResourceId
  locator : Text
  owner : Text
  skillName : Text
  harnessName : Option Text
  materializedRevisionId : Option Text
deriving DecidableEq

/-- What the schema allows the tables to hold. -/
structure ManagedTables where
  subscriptions : List ManagedSkillRow
  ownedSkills : List ManagedSkillRow
  packMaterializedSkills : List ManagedSkillRow
  desiredSourceSuppressions : List (SuppressedKind × ResourceId)
  subscriptionKeys :
    (subscriptions.filterMap ManagedSkillRow.resourceId).Nodup
  subscriptionLocators : (subscriptions.map ManagedSkillRow.locator).Nodup
  ownedKeys : (ownedSkills.filterMap ManagedSkillRow.resourceId).Nodup
  ownedLocators : (ownedSkills.map ManagedSkillRow.locator).Nodup
  packKeys :
    (packMaterializedSkills.filterMap ManagedSkillRow.resourceId).Nodup
  packRevisions : forall row, row ∈ packMaterializedSkills ->
    row.materializedRevisionId ≠ none
  suppressionKeys : desiredSourceSuppressions.Nodup

inductive ManagedSkillsError where
  | invalidColumnType (index : Nat) (name : Text)
  | corrupt (message : Text)
deriving DecidableEq

def multipleOwners (resourceId : ResourceId) : Text :=
  "resource ".toList ++ resourceId ++
    " has multiple local desired-state owners".toList

/-!
## The query
-/

/-- A null key equals no key of the suppressions. -/
def ManagedTables.suppresses (tables : ManagedTables) (kind : SuppressedKind)
    (row : ManagedSkillRow) : Bool :=
  tables.desiredSourceSuppressions.any fun suppression =>
    suppression.1 = kind ∧ row.resourceId = some suppression.2

/-- The rows that are not suppressed, table after table. -/
def ManagedTables.activeRows (tables : ManagedTables) :
    List ManagedSkillRow :=
  tables.subscriptions.filter (fun row => !tables.suppresses .subscription row) ++
    tables.ownedSkills.filter (fun row => !tables.suppresses .owned row) ++
    tables.packMaterializedSkills

/-- Text is compared by its bytes and null comes first. -/
def ManagedSkillRow.orderKey (row : ManagedSkillRow) :
    Lex (Bytes × Lex (Bytes × List Bytes)) :=
  toLex (utf8 row.owner,
    toLex (utf8 row.skillName, (row.resourceId.map utf8).toList))

def ManagedSkillRow.toRecord (row : ManagedSkillRow) :
    Except ManagedSkillsError ManagedSkillRecord :=
  match row.resourceId with
  | none => .error (.invalidColumnType 0 "resource_id".toList)
  | some resourceId =>
      .ok {
        resourceId
        locator := row.locator
        owner := row.owner
        skillName := row.skillName
        harnessName := row.harnessName
        materializedRevisionId := row.materializedRevisionId }

def managedSkills (tables : ManagedTables) :
    Except ManagedSkillsError (List ManagedSkillRecord) := do
  let records <- (sortByKey ManagedSkillRow.orderKey tables.activeRows).mapM
    ManagedSkillRow.toRecord
  match (neighbours records).find? fun pair =>
      pair.1.resourceId = pair.2.resourceId with
  | some pair => .error (.corrupt (multipleOwners pair.1.resourceId))
  | none => .ok records

/-!
## Which resources are found twice
-/

/-- Two active rows of a resource stand beside each other when no active row of
another resource has its place between theirs. -/
structure ManagedTables.Beside (tables : ManagedTables)
    (a b : ManagedSkillRow) : Prop where
  rows : [a, b].Subperm tables.activeRows
  same : a.resourceId = b.resourceId
  order : a.orderKey ≤ b.orderKey
  free : forall row, row ∈ tables.activeRows ->
    row.resourceId ≠ a.resourceId ->
      ¬ (a.orderKey < row.orderKey ∧ row.orderKey < b.orderKey)

/-- No active row has a null key. -/
def ManagedTables.Keyed (tables : ManagedTables) : Prop :=
  forall row, row ∈ tables.activeRows -> row.resourceId ≠ none

theorem resourceId_of_toRecord {row : ManagedSkillRow}
    {record : ManagedSkillRecord} (h : row.toRecord = .ok record) :
    row.resourceId = some record.resourceId := by
  unfold ManagedSkillRow.toRecord at h
  cases hid : row.resourceId with
  | none =>
      rw [hid] at h
      cases h
  | some resourceId =>
      rw [hid] at h
      cases h
      rfl

theorem exists_toRecord {row : ManagedSkillRow} (h : row.resourceId ≠ none) :
    exists record, row.toRecord = .ok record := by
  unfold ManagedSkillRow.toRecord
  cases hid : row.resourceId with
  | none => exact absurd hid h
  | some resourceId => exact ⟨_, rfl⟩

/-- Rows of one place in the order are rows of one resource. -/
theorem resourceId_eq_of_orderKey {a b : ManagedSkillRow}
    (h : a.orderKey = b.orderKey) : a.resourceId = b.resourceId := by
  have hids := congrArg (fun key => (ofLex (ofLex key).2).2) h
  have hids : (a.resourceId.map utf8).toList = (b.resourceId.map utf8).toList :=
    hids
  have hids := congrArg List.head? hids
  rw [Option.head?_toList, Option.head?_toList] at hids
  exact Option.map_injective (fun _ _ => utf8_injective) hids

/-!
## What an answer holds
-/

section Answer

variable {tables : ManagedTables} {records : List ManagedSkillRecord}

/-- The records of a keyed content, in their order. -/
theorem exists_records (h : tables.Keyed) :
    exists records,
      (sortByKey ManagedSkillRow.orderKey tables.activeRows).mapM
        ManagedSkillRow.toRecord = .ok records := by
  apply exists_mapM_eq_ok.mpr
  intro row hrow
  exact exists_toRecord (h row (mem_sortByKey.mp hrow))

theorem keyed_of_records
    (h : (sortByKey ManagedSkillRow.orderKey tables.activeRows).mapM
      ManagedSkillRow.toRecord = .ok records) : tables.Keyed := by
  intro row hrow
  rcases mapM_eq_ok_forall h row (mem_sortByKey.mpr hrow) with
    ⟨record, _, hrecord⟩
  rw [resourceId_of_toRecord hrecord]
  exact Option.some_ne_none _

theorem resourceIds_of_records
    (h : (sortByKey ManagedSkillRow.orderKey tables.activeRows).mapM
      ManagedSkillRow.toRecord = .ok records) :
    (sortByKey ManagedSkillRow.orderKey tables.activeRows).map
        ManagedSkillRow.resourceId =
      records.map fun record => some record.resourceId := by
  apply (map_eq_map_of_mapM _ h).symm
  intro row record hrecord
  exact (resourceId_of_toRecord hrecord).symm

theorem managedSkills_eq_ok :
    managedSkills tables = .ok records <->
      (sortByKey ManagedSkillRow.orderKey tables.activeRows).mapM
          ManagedSkillRow.toRecord = .ok records ∧
        ¬ Repeats ManagedSkillRecord.resourceId records := by
  unfold managedSkills
  rw [bind_eq_ok]
  constructor
  · rintro ⟨found, hfound, hanswer⟩
    split at hanswer
    · cases hanswer
    · rename_i hnone
      cases hanswer
      refine ⟨hfound, ?_⟩
      rintro ⟨pair, hpair, hsame⟩
      have hdiffers := List.find?_eq_none.mp hnone pair hpair
      simp [hsame] at hdiffers
  · rintro ⟨hfound, hdistinct⟩
    refine ⟨records, hfound, ?_⟩
    have hnone : (neighbours records).find? (fun pair =>
        pair.1.resourceId = pair.2.resourceId) = none := by
      apply List.find?_eq_none.mpr
      intro pair hpair hsame
      exact hdistinct ⟨pair, hpair, of_decide_eq_true hsame⟩
    rw [hnone]

/-- The records repeat a resource where the ordered rows do. -/
theorem repeats_records_iff
    (h : (sortByKey ManagedSkillRow.orderKey tables.activeRows).mapM
      ManagedSkillRow.toRecord = .ok records) :
    Repeats ManagedSkillRecord.resourceId records <->
      Repeats ManagedSkillRow.resourceId
        (sortByKey ManagedSkillRow.orderKey tables.activeRows) := by
  have hids := resourceIds_of_records h
  have hrows : Repeats id
      ((sortByKey ManagedSkillRow.orderKey tables.activeRows).map
        ManagedSkillRow.resourceId) <->
        Repeats ManagedSkillRow.resourceId
          (sortByKey ManagedSkillRow.orderKey tables.activeRows) :=
    repeats_map
  rw [hids, repeats_map] at hrows
  apply Iff.trans _ hrows
  unfold Repeats
  simp only [id_eq, Option.some.injEq]

theorem repeats_iff_beside :
    Repeats ManagedSkillRow.resourceId
        (sortByKey ManagedSkillRow.orderKey tables.activeRows) <->
      exists a b, tables.Beside a b := by
  have hperm := sortByKey_perm ManagedSkillRow.orderKey tables.activeRows
  have hsorted := sortByKey_pairwise ManagedSkillRow.orderKey tables.activeRows
  constructor
  · rintro ⟨⟨a, b⟩, hpair, hsame⟩
    rcases exists_append_of_mem_neighbours hpair with ⟨front, back, heq⟩
    have hsub : [a, b].Sublist
        (sortByKey ManagedSkillRow.orderKey tables.activeRows) := by
      rw [heq]
      apply List.Sublist.trans _ (List.sublist_append_right front _)
      exact (List.nil_sublist back).cons_cons b |>.cons_cons a
    refine ⟨a, b, hsub.subperm.trans hperm.subperm, hsame, ?_, ?_⟩
    · exact List.pairwise_iff_forall_sublist.mp hsorted hsub
    · intro row hrow _
      exact not_between_of_neighbours hsorted hpair (mem_sortByKey.mpr hrow)
  · rintro ⟨a, b, hbeside⟩
    have hfree : forall row,
        row ∈ sortByKey ManagedSkillRow.orderKey tables.activeRows ->
          row.resourceId ≠ a.resourceId ->
            ¬ (a.orderKey < row.orderKey ∧ row.orderKey < b.orderKey) :=
      fun row hrow => hbeside.free row (mem_sortByKey.mp hrow)
    have hlabel : forall a b : ManagedSkillRow, a.orderKey = b.orderKey ->
        a.resourceId = b.resourceId := fun _ _ => resourceId_eq_of_orderKey
    rcases hbeside.rows.trans hperm.symm.subperm with ⟨pair, hpair, hsub⟩
    rcases List.perm_pair.mp hpair with rfl | rfl
    · exact repeats_of_sublist hlabel hsorted hsub hbeside.same hfree
    · apply repeats_of_sublist hlabel hsorted hsub hbeside.same.symm
      rintro row _ _ ⟨hbefore, hbehind⟩
      exact absurd hbeside.order
        (not_le_of_gt (lt_trans hbefore hbehind))

end Answer

/-!
## Resources with one owner
-/

/-- Every answer names each resource once. -/
def ManagedTables.AnswersDistinct (tables : ManagedTables) : Prop :=
  forall records, managedSkills tables = .ok records ->
    (records.map ManagedSkillRecord.resourceId).Nodup

section Distinct

variable {tables : ManagedTables}

/-- The rows of a keyed content name the resources of its records. -/
theorem nodup_records_iff {records : List ManagedSkillRecord}
    (h : (sortByKey ManagedSkillRow.orderKey tables.activeRows).mapM
      ManagedSkillRow.toRecord = .ok records) :
    (records.map ManagedSkillRecord.resourceId).Nodup <->
      (tables.activeRows.map ManagedSkillRow.resourceId).Nodup := by
  have hperm := (sortByKey_perm ManagedSkillRow.orderKey
    tables.activeRows).map ManagedSkillRow.resourceId
  have hsome : records.map (fun record => some record.resourceId) =
      (records.map ManagedSkillRecord.resourceId).map some :=
    List.map_map.symm
  rw [← hperm.nodup_iff, resourceIds_of_records h, hsome,
    List.nodup_map_iff (Option.some_injective _)]

/-- A resource that two active rows manage goes unnoticed exactly where no two
rows of one resource stand beside each other. -/
theorem managedSkills_distinct_iff (tables : ManagedTables) :
    tables.AnswersDistinct <->
      ¬ tables.Keyed ∨
        (tables.activeRows.map ManagedSkillRow.resourceId).Nodup ∨
          exists a b, tables.Beside a b := by
  constructor
  · intro hdistinct
    by_cases hkeyed : tables.Keyed
    · apply Or.inr
      rcases exists_records hkeyed with ⟨records, hrecords⟩
      by_cases hrepeats : Repeats ManagedSkillRecord.resourceId records
      · exact Or.inr (repeats_iff_beside.mp
          ((repeats_records_iff hrecords).mp hrepeats))
      · have hanswer : managedSkills tables = .ok records :=
          managedSkills_eq_ok.mpr ⟨hrecords, hrepeats⟩
        exact Or.inl ((nodup_records_iff hrecords).mp
          (hdistinct records hanswer))
    · exact Or.inl hkeyed
  · intro hcases records hanswer
    rcases managedSkills_eq_ok.mp hanswer with ⟨hrecords, hrepeats⟩
    rcases hcases with hkeyed | hnodup | hbeside
    · exact absurd (keyed_of_records hrecords) hkeyed
    · exact (nodup_records_iff hrecords).mpr hnodup
    · exact absurd ((repeats_records_iff hrecords).mpr
        (repeats_iff_beside.mpr hbeside)) hrepeats

/-- Rows of one resource that agree on its name are always noticed. -/
theorem answersDistinct_of_same_names
    (hnames : forall a b, a ∈ tables.activeRows -> b ∈ tables.activeRows ->
      a.resourceId = b.resourceId ->
        a.owner = b.owner ∧ a.skillName = b.skillName) :
    tables.AnswersDistinct := by
  apply (managedSkills_distinct_iff tables).mpr
  apply Or.inr
  by_cases hnodup : (tables.activeRows.map ManagedSkillRow.resourceId).Nodup
  · exact Or.inl hnodup
  · apply Or.inr
    have hpair : exists a b, [a, b].Sublist tables.activeRows ∧
        a.resourceId = b.resourceId := by
      by_contra hnone
      apply hnodup
      rw [List.Nodup, List.pairwise_map]
      apply List.pairwise_iff_forall_sublist.mpr
      intro a b hsub hsame
      exact hnone ⟨a, b, hsub, hsame⟩
    rcases hpair with ⟨a, b, hsub, hsame⟩
    have hkey : a.orderKey = b.orderKey := by
      rcases hnames a b (hsub.subset (by simp)) (hsub.subset (by simp)) hsame
        with ⟨howner, hname⟩
      unfold ManagedSkillRow.orderKey
      rw [howner, hname, hsame]
    refine ⟨a, b, hsub.subperm, hsame, le_of_eq hkey, ?_⟩
    rintro row _ _ ⟨hbefore, hbehind⟩
    rw [hkey] at hbefore
    exact absurd hbefore (not_lt_of_gt hbehind)

end Distinct

/-!
## A resource that is found twice
-/

def managedRow (resourceId owner skillName : String) : ManagedSkillRow where
  resourceId := some resourceId.toList
  locator := owner.toList ++ '/' :: skillName.toList
  owner := owner.toList
  skillName := skillName.toList
  harnessName := none
  materializedRevisionId := some "revision".toList

/-- A skill that was transferred: the device subscribes to it under its old
owner, and a pack has put it in place under the new one. -/
def transferredSkill : ManagedTables where
  subscriptions := [managedRow "review" "amy" "review"]
  ownedSkills := [managedRow "notes" "bob" "notes"]
  packMaterializedSkills := [managedRow "review" "crew" "review"]
  desiredSourceSuppressions := []
  subscriptionKeys := by decide
  subscriptionLocators := by decide
  ownedKeys := by decide
  ownedLocators := by decide
  packKeys := by decide
  packRevisions := by decide
  suppressionKeys := by decide

theorem transferredSkill_twice :
    ¬ transferredSkill.AnswersDistinct := by
  intro hdistinct
  have hanswer : ((managedSkills transferredSkill).toOption.map
      (List.map ManagedSkillRecord.resourceId)) =
        some ["review".toList, "notes".toList, "review".toList] := by
    decide +kernel
  cases hrecords : managedSkills transferredSkill with
  | error error =>
      rw [hrecords] at hanswer
      cases hanswer
  | ok records =>
      rw [hrecords] at hanswer
      have hids := Option.some.inj hanswer
      have hnodup := hdistinct records hrecords
      rw [hids] at hnodup
      exact absurd hnodup (by decide)

end Denju.Local
