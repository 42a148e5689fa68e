import Denju.Lib.ReadCommitted
import Mathlib.Data.Fintype.Defs

/-!
# Rules for transactions

A transaction is verified alone.  What it knows is its footprint, the rows that
it holds or shares, which nobody else can change; its notes, on which it
relies; and the invariant of the committed rows, which every commit has to
keep.  If all scripts are verified and no turn falsifies the notes of another,
the invariant holds in every state of every run.
-/

namespace Lib

/-- A row as it is committed, and as the transaction sees it. -/
structure Access (ν : Type) where
  committed : Option ν
  draft : Option ν

abbrev Footprint {κ : Type} (ν : κ -> Type) :=
  (k : κ) -> Option (Access (ν k))

/-!
## Cells
-/

namespace Cell

variable {τ ν : Type} [DecidableEq τ] {cell : Cell τ ν} {tx other : τ}
  {draft : Option ν}

/-- The row, if the transaction holds or shares it. -/
def access (cell : Cell τ ν) (tx : τ) : Option (Access ν) :=
  if cell.holder = some tx then some ⟨cell.committed, cell.draft⟩
  else if tx ∈ cell.sharers then some ⟨cell.committed, cell.committed⟩
  else none

/-- A row that is held is not shared with another. -/
def Exclusive (cell : Cell τ ν) : Prop :=
  forall tx, cell.holder = some tx ->
    forall sharer, sharer ∈ cell.sharers -> sharer = tx

theorem free_iff : cell.free tx = true <->
    (cell.holder = none ∨ cell.holder = some tx) ∧
      forall sharer, sharer ∈ cell.sharers -> sharer = tx := by
  simp [free]

theorem view_eq_access : cell.view tx =
    (cell.access tx).elim cell.committed Access.draft := by
  unfold view access
  split
  · rfl
  · split
    · rfl
    · rfl

theorem committed_of_access {access : Access ν}
    (h : cell.access tx = some access) : access.committed = cell.committed := by
  unfold Cell.access at h
  split at h
  · cases h
    rfl
  · split at h
    · cases h
      rfl
    · cases h

theorem access_other_of_free (hfree : cell.free tx = true)
    (hother : other ≠ tx) : cell.access other = none := by
  rcases free_iff.mp hfree with ⟨hholder, hsharers⟩
  have hnot : other ∉ cell.sharers := fun h => hother (hsharers other h)
  unfold access
  rcases hholder with hnone | hsome
  · simp [hnone, hnot]
  · simp [hsome, hnot, hother.symm]

theorem access_vacant (row : Option ν) : (vacant row).access tx = none := by
  simp [access, vacant]

theorem access_lock : (cell.lock tx).access tx =
    some ⟨cell.committed, cell.view tx⟩ := by
  simp [access, lock]

theorem access_lock_other (hfree : cell.free tx = true) (hother : other ≠ tx) :
    (cell.lock tx).access other = cell.access other := by
  have hnot : other ∉ cell.sharers :=
    fun h => hother ((free_iff.mp hfree).2 other h)
  rw [access_other_of_free hfree hother]
  simp [access, lock, hnot, hother.symm]

theorem access_write : (cell.write tx draft).access tx =
    some ⟨cell.committed, draft⟩ := by
  simp [access, write]

theorem access_write_other (hfree : cell.free tx = true) (hother : other ≠ tx) :
    (cell.write tx draft).access other = cell.access other := by
  have hnot : other ∉ cell.sharers :=
    fun h => hother ((free_iff.mp hfree).2 other h)
  rw [access_other_of_free hfree hother]
  simp [access, write, hnot, hother.symm]

theorem access_share : (cell.share tx).access tx =
    some ((cell.access tx).getD ⟨cell.committed, cell.committed⟩) := by
  unfold access share
  by_cases hholder : cell.holder = some tx
  · simp [hholder]
  · by_cases hsharer : tx ∈ cell.sharers
    · simp [hholder, hsharer]
    · simp [hholder, hsharer]

theorem access_share_other (hother : other ≠ tx) :
    (cell.share tx).access other = cell.access other := by
  simp [access, share, hother]

theorem access_release : (cell.release tx).access tx = none := by
  unfold release
  split
  · simp [access, vacant]
  · simp_all [access]

theorem access_release_other (hother : other ≠ tx) :
    (cell.release tx).access other = cell.access other := by
  unfold release
  split
  · rename_i hholder
    simp [access, vacant, hholder, hother, hother.symm]
  · simp [access, hother]

theorem committed_release : (cell.release tx).committed = cell.committed := by
  unfold release
  split
  · rfl
  · rfl

theorem access_commit : (cell.commit tx).access tx = none := by
  have hreleased := @access_release _ _ _ cell tx
  unfold access at hreleased ⊢
  unfold commit
  dsimp only
  split at hreleased
  · cases hreleased
  · rename_i hholder
    split at hreleased
    · cases hreleased
    · rename_i hsharer
      rw [if_neg hholder, if_neg hsharer]

theorem access_commit_other (hexclusive : cell.Exclusive)
    (hother : other ≠ tx) :
    (cell.commit tx).access other = cell.access other := by
  by_cases hholder : cell.holder = some tx
  · have hnot : other ∉ cell.sharers :=
      fun h => hother (hexclusive tx hholder other h)
    simp [access, commit, release, vacant, hholder, hnot, hother.symm]
  · have hview : cell.view tx = (cell.release tx).committed := by
      rw [committed_release]
      exact if_neg hholder
    have hsame : cell.commit tx = cell.release tx := by
      unfold commit
      rw [hview]
    rw [hsame, access_release_other hother]

omit [DecidableEq τ] in
theorem exclusive_vacant (row : Option ν) :
    (vacant row : Cell τ ν).Exclusive := by
  intro tx h
  cases h

theorem exclusive_lock (hfree : cell.free tx = true) :
    (cell.lock tx).Exclusive := by
  intro other h sharer hsharer
  cases h
  exact (free_iff.mp hfree).2 sharer hsharer

theorem exclusive_write (hfree : cell.free tx = true) :
    (cell.write tx draft).Exclusive := by
  intro other h sharer hsharer
  cases h
  exact (free_iff.mp hfree).2 sharer hsharer

omit [DecidableEq τ] in
theorem exclusive_share (hexclusive : cell.Exclusive)
    (hholder : cell.holder = none ∨ cell.holder = some tx) :
    (cell.share tx).Exclusive := by
  intro other h sharer hsharer
  have hsame : cell.holder = some other := h
  rcases hholder with hnone | hsome
  · rw [hnone] at hsame
    cases hsame
  · rw [hsome] at hsame
    cases hsame
    rcases List.mem_cons.mp hsharer with rfl | hold
    · rfl
    · exact hexclusive tx hsome sharer hold

theorem exclusive_release (hexclusive : cell.Exclusive) :
    (cell.release tx).Exclusive := by
  unfold release
  split
  · intro other h
    cases h
  · intro other h sharer hsharer
    exact hexclusive other h sharer (List.mem_of_mem_filter hsharer)

theorem exclusive_commit (hexclusive : cell.Exclusive) :
    (cell.commit tx).Exclusive :=
  @exclusive_release _ _ _ _ tx hexclusive

end Cell

/-!
## Footprints
-/

namespace Footprint

variable {κ : Type} {ν : κ -> Type} {footprint : Footprint ν} {rows : Rows ν}

def empty : Footprint ν :=
  fun _ => none

/-- The committed rows are those that the footprint knows. -/
def Agrees (footprint : Footprint ν) (rows : Rows ν) : Prop :=
  forall k access, footprint k = some access -> rows k = access.committed

/-- The rows as the transaction sees them. -/
def view (footprint : Footprint ν) (rows : Rows ν) : Rows ν :=
  fun k => (footprint k).elim (rows k) Access.draft

@[simp] theorem view_empty : (empty : Footprint ν).view rows = rows :=
  rfl

variable [DecidableEq κ]

def hold (footprint : Footprint ν) (rows : Rows ν) (k : κ)
    (draft : Option (ν k)) : Footprint ν :=
  Function.update footprint k (some ⟨rows k, draft⟩)

def share (footprint : Footprint ν) (rows : Rows ν) (k : κ) : Footprint ν :=
  Function.update footprint k
    (some ((footprint k).getD ⟨rows k, rows k⟩))

end Footprint

namespace Store

variable {κ τ : Type} {ν : κ -> Type} [DecidableEq τ] {store : Store τ ν}
  {tx : τ} {k : κ} {cell : Cell τ (ν k)}

def footprint (store : Store τ ν) (tx : τ) : Footprint ν :=
  fun k => (store.cell k).access tx

theorem footprint_agrees : (store.footprint tx).Agrees store.committed := by
  intro k access h
  exact (Cell.committed_of_access h).symm

theorem view_eq_footprint :
    (store.view tx).rows = (store.footprint tx).view store.committed := by
  funext k
  exact Cell.view_eq_access

variable [DecidableEq κ]

theorem footprint_set : (store.set k cell).footprint tx =
    Function.update (store.footprint tx) k (cell.access tx) := by
  funext j
  by_cases h : j = k
  · subst h
    simp [footprint, set]
  · simp [footprint, set, h]

omit [DecidableEq τ] in
theorem committed_set : (store.set k cell).committed =
    Function.update store.committed k cell.committed := by
  funext j
  by_cases h : j = k
  · subst h
    simp [committed, set]
  · simp [committed, set, h]

omit [DecidableEq τ] in
theorem committed_set_same (h : cell.committed = (store.cell k).committed) :
    (store.set k cell).committed = store.committed := by
  rw [committed_set, h]
  exact Function.update_eq_self k store.committed

theorem footprint_set_other {other : τ}
    (h : cell.access other = (store.cell k).access other) :
    (store.set k cell).footprint other = store.footprint other := by
  rw [footprint_set, h]
  exact Function.update_eq_self k (store.footprint other)

/-- No row is held by one transaction and shared by another. -/
def Exclusive (store : Store τ ν) : Prop :=
  forall k, (store.cell k).Exclusive

omit [DecidableEq τ] in
theorem Exclusive.set (h : store.Exclusive) (hcell : cell.Exclusive) :
    (store.set k cell).Exclusive := by
  intro j
  by_cases hkey : j = k
  · subst hkey
    simpa [Store.set] using hcell
  · simpa [Store.set, hkey] using h j

end Store

/-!
## Verified scripts
-/

/-- What every commit keeps, and what each note says about the rows. -/
structure Contract {κ : Type} (ν : κ -> Type) (η : Type) where
  invariant : Rows ν -> Prop
  holds : η -> Rows ν -> Prop

namespace Contract

variable {κ : Type} {ν : κ -> Type} {η ε α β : Type}
  (contract : Contract ν η)

/-- Rows that a transaction may find where it runs its next statement. -/
structure Sees (footprint : Footprint ν) (notes : List η)
    (rows : Rows ν) : Prop where
  invariant : contract.invariant rows
  agrees : footprint.Agrees rows
  notes : forall note, note ∈ notes -> contract.holds note rows

variable [DecidableEq κ]

/-- Every commit of the script keeps the invariant, and where the script ends
its value, its footprint and its notes are as required. -/
def Verified : Script ν η ε α -> Footprint ν -> List η ->
    (α -> Footprint ν -> List η -> Prop) -> Prop
  | .done value, footprint, notes, post => post value footprint notes
  | .fail _, _, _, _ => True
  | .commit next, footprint, notes, post =>
      (forall rows, contract.Sees footprint notes rows ->
        contract.invariant (footprint.view rows)) ∧
        Verified next .empty [] post
  | .select note next, footprint, notes, post =>
      forall rows (view : View ν), contract.Sees footprint notes rows ->
        view.rows = footprint.view rows ->
          (forall new, new ∈ note view -> contract.holds new rows) ->
            Verified (next view) footprint (notes ++ note view) post
  | .forUpdate k next, footprint, notes, post =>
      forall rows, contract.Sees footprint notes rows ->
        match footprint.view rows k with
        | none => Verified (next none) footprint notes post
        | some row =>
            Verified (next (some row)) (footprint.hold rows k (some row))
              notes post
  | .forShare k next, footprint, notes, post =>
      forall rows, contract.Sees footprint notes rows ->
        match footprint.view rows k with
        | none => Verified (next none) footprint notes post
        | some row =>
            Verified (next (some row)) (footprint.share rows k) notes post
  | .update k set next, footprint, notes, post =>
      forall rows, contract.Sees footprint notes rows ->
        match footprint.view rows k with
        | none => Verified (next false) footprint notes post
        | some row =>
            Verified (next true) (footprint.hold rows k (set row)) notes post
  | .insert k row next, footprint, notes, post =>
      forall rows, contract.Sees footprint notes rows ->
        match footprint.view rows k with
        | none =>
            Verified (next true) (footprint.hold rows k (some row)) notes post
        | some _ => Verified (next false) footprint notes post
  | .upsert k set next, footprint, notes, post =>
      forall rows, contract.Sees footprint notes rows ->
        Verified (next (footprint.view rows k).isNone)
          (footprint.hold rows k (some (set (footprint.view rows k)))) notes
          post
  | .outside k row next, footprint, notes, post =>
      (forall rows, contract.Sees footprint notes rows -> footprint k = none ->
        contract.invariant (Function.update rows k row)) ∧
        Verified next footprint notes post

variable {contract} {footprint : Footprint ν} {notes : List η}

theorem verified_mono {script : Script ν η ε α}
    {post post' : α -> Footprint ν -> List η -> Prop}
    (h : contract.Verified script footprint notes post)
    (hpost : forall value footprint notes,
      post value footprint notes -> post' value footprint notes) :
    contract.Verified script footprint notes post' := by
  induction script generalizing footprint notes with
  | done value => exact hpost _ _ _ h
  | fail error => trivial
  | commit next ih => exact ⟨h.1, ih h.2⟩
  | select note next ih =>
      intro rows view hsees hview hnew
      exact ih _ (h rows view hsees hview hnew)
  | forUpdate k next ih =>
      intro rows hsees
      have hnext := h rows hsees
      split
      · rename_i hrow
        rw [hrow] at hnext
        exact ih _ hnext
      · rename_i row hrow
        rw [hrow] at hnext
        exact ih _ hnext
  | forShare k next ih =>
      intro rows hsees
      have hnext := h rows hsees
      split
      · rename_i hrow
        rw [hrow] at hnext
        exact ih _ hnext
      · rename_i row hrow
        rw [hrow] at hnext
        exact ih _ hnext
  | update k set next ih =>
      intro rows hsees
      have hnext := h rows hsees
      split
      · rename_i hrow
        rw [hrow] at hnext
        exact ih _ hnext
      · rename_i row hrow
        rw [hrow] at hnext
        exact ih _ hnext
  | insert k row next ih =>
      intro rows hsees
      have hnext := h rows hsees
      split
      · rename_i hrow
        rw [hrow] at hnext
        exact ih _ hnext
      · rename_i row hrow
        rw [hrow] at hnext
        exact ih _ hnext
  | upsert k set next ih =>
      intro rows hsees
      exact ih _ (h rows hsees)
  | outside k row next ih => exact ⟨h.1, ih h.2⟩

/-- A script is verified part by part. -/
theorem verified_bind {script : Script ν η ε α} {f : α -> Script ν η ε β}
    {post : β -> Footprint ν -> List η -> Prop} :
    contract.Verified (script.bind f) footprint notes post <->
      contract.Verified script footprint notes fun value footprint notes =>
        contract.Verified (f value) footprint notes post := by
  induction script generalizing footprint notes with
  | done value => exact Iff.rfl
  | fail error => exact Iff.rfl
  | commit next ih => exact and_congr_right fun _ => ih
  | select note next ih =>
      exact forall_congr' fun rows => forall_congr' fun view =>
        forall_congr' fun _ => forall_congr' fun _ => forall_congr' fun _ =>
          ih _
  | forUpdate k next ih =>
      refine forall_congr' fun rows => forall_congr' fun _ => ?_
      dsimp only
      split
      · exact ih _
      · exact ih _
  | forShare k next ih =>
      refine forall_congr' fun rows => forall_congr' fun _ => ?_
      dsimp only
      split
      · exact ih _
      · exact ih _
  | update k set next ih =>
      refine forall_congr' fun rows => forall_congr' fun _ => ?_
      dsimp only
      split
      · exact ih _
      · exact ih _
  | insert k row next ih =>
      refine forall_congr' fun rows => forall_congr' fun _ => ?_
      dsimp only
      split
      · exact ih _
      · exact ih _
  | upsert k set next ih =>
      exact forall_congr' fun rows => forall_congr' fun _ => ih _
  | outside k row next ih => exact and_congr_right fun _ => ih

/-!
## Soundness

One statement of a verified script keeps the invariant, leaves the footprints
of all others alone, and leads to a script that is verified again.
-/

section Soundness

variable {τ : Type} [DecidableEq τ] {store store' : Store τ ν} {tx : τ}
  {process process' : Process ν η ε α}
  {post : α -> Footprint ν -> List η -> Prop}

/-- What one statement leaves. -/
structure StepSound (contract : Contract ν η) (tx : τ)
    (store store' : Store τ ν) (process' : Process ν η ε α)
    (post : α -> Footprint ν -> List η -> Prop) : Prop where
  invariant : contract.invariant store'.committed
  exclusive : store'.Exclusive
  others : forall other, other ≠ tx ->
    store'.footprint other = store.footprint other
  verified : contract.Verified process'.script (store'.footprint tx)
    process'.notes post

/-- A statement that changes no row. -/
theorem StepSound.same (hinvariant : contract.invariant store.committed)
    (hexclusive : store.Exclusive)
    (hverified : contract.Verified process'.script (store.footprint tx)
      process'.notes post) :
    StepSound contract tx store store process' post where
  invariant := hinvariant
  exclusive := hexclusive
  others := fun _ _ => rfl
  verified := hverified

/-- A statement that changes one cell, but not its committed row. -/
theorem StepSound.set {k : κ} {cell : Cell τ (ν k)}
    (hinvariant : contract.invariant store.committed)
    (hexclusive : store.Exclusive)
    (hcommitted : cell.committed = (store.cell k).committed)
    (hcell : cell.Exclusive)
    (hothers : forall other, other ≠ tx ->
      cell.access other = (store.cell k).access other)
    (hverified : contract.Verified process'.script
      (Function.update (store.footprint tx) k (cell.access tx))
      process'.notes post) :
    StepSound contract tx store (store.set k cell) process' post where
  invariant := by
    rw [Store.committed_set_same hcommitted]
    exact hinvariant
  exclusive := hexclusive.set hcell
  others := fun other hother => Store.footprint_set_other (hothers other hother)
  verified := by
    rw [Store.footprint_set]
    exact hverified

theorem step_sound (hinvariant : contract.invariant store.committed)
    (hexclusive : store.Exclusive)
    (hnotes : forall note, note ∈ process.notes ->
      contract.holds note store.committed)
    (hverified : contract.Verified process.script (store.footprint tx)
      process.notes post)
    (hstep : process.step store tx = some (store', process'))
    (hnew : forall note, note ∈ process'.notes ->
      contract.holds note store'.committed) :
    StepSound contract tx store store' process' post := by
  have hsees : contract.Sees (store.footprint tx) process.notes
      store.committed := ⟨hinvariant, Store.footprint_agrees, hnotes⟩
  have hview : forall k, (store.cell k).view tx =
      (store.footprint tx).view store.committed k :=
    fun k => congrFun Store.view_eq_footprint k
  rcases process with ⟨script, notes⟩
  unfold Process.step at hstep
  cases script with
  | done value => cases hstep
  | fail error => cases hstep
  | commit next =>
      cases hstep
      have hempty : (store.commit tx).footprint tx = Footprint.empty := by
        funext k
        exact Cell.access_commit
      refine ⟨?_, ?_, ?_, ?_⟩
      · have hkept := hverified.1 _ hsees
        rw [← Store.view_eq_footprint] at hkept
        exact hkept
      · intro k
        exact Cell.exclusive_commit (hexclusive k)
      · intro other hother
        funext k
        exact Cell.access_commit_other (hexclusive k) hother
      · rw [hempty]
        exact hverified.2
  | select note next =>
      cases hstep
      refine StepSound.same hinvariant hexclusive ?_
      exact hverified store.committed (store.view tx) hsees
        Store.view_eq_footprint fun new hmem =>
          hnew new (List.mem_append.mpr (.inr hmem))
  | forUpdate k next =>
      have hnext := hverified _ hsees
      rw [← hview k] at hnext
      dsimp only at hstep
      split at hstep
      · rename_i hrow
        cases hstep
        rw [hrow] at hnext
        exact StepSound.same hinvariant hexclusive hnext
      · rename_i row hrow
        split at hstep
        · rename_i hfree
          cases hstep
          rw [hrow] at hnext
          refine StepSound.set hinvariant hexclusive rfl
            (Cell.exclusive_lock hfree)
            (fun other hother => Cell.access_lock_other hfree hother) ?_
          rw [Cell.access_lock, hrow]
          exact hnext
        · cases hstep
  | forShare k next =>
      have hnext := hverified _ hsees
      rw [← hview k] at hnext
      dsimp only at hstep
      split at hstep
      · rename_i hrow
        cases hstep
        rw [hrow] at hnext
        exact StepSound.same hinvariant hexclusive hnext
      · rename_i row hrow
        split at hstep
        · rename_i hholder
          cases hstep
          rw [hrow] at hnext
          refine StepSound.set hinvariant hexclusive rfl
            (Cell.exclusive_share (hexclusive k) hholder)
            (fun other hother => Cell.access_share_other hother) ?_
          rw [Cell.access_share]
          exact hnext
        · cases hstep
  | update k set next =>
      have hnext := hverified _ hsees
      rw [← hview k] at hnext
      dsimp only at hstep
      split at hstep
      · rename_i hrow
        cases hstep
        rw [hrow] at hnext
        exact StepSound.same hinvariant hexclusive hnext
      · rename_i row hrow
        split at hstep
        · rename_i hfree
          cases hstep
          rw [hrow] at hnext
          refine StepSound.set hinvariant hexclusive rfl
            (Cell.exclusive_write hfree)
            (fun other hother => Cell.access_write_other hfree hother) ?_
          rw [Cell.access_write]
          exact hnext
        · cases hstep
  | insert k row next =>
      have hnext := hverified _ hsees
      rw [← hview k] at hnext
      dsimp only at hstep
      split at hstep
      · rename_i hrow
        split at hstep
        · rename_i hfree
          cases hstep
          rw [hrow] at hnext
          refine StepSound.set hinvariant hexclusive rfl
            (Cell.exclusive_write hfree)
            (fun other hother => Cell.access_write_other hfree hother) ?_
          rw [Cell.access_write]
          exact hnext
        · cases hstep
      · rename_i found hrow
        split at hstep
        · cases hstep
        · cases hstep
          rw [hrow] at hnext
          exact StepSound.same hinvariant hexclusive hnext
  | upsert k set next =>
      have hnext := hverified _ hsees
      rw [← hview k] at hnext
      dsimp only at hstep
      split at hstep
      · rename_i hfree
        cases hstep
        refine StepSound.set hinvariant hexclusive rfl
          (Cell.exclusive_write hfree)
          (fun other hother => Cell.access_write_other hfree hother) ?_
        rw [Cell.access_write]
        exact hnext
      · cases hstep
  | outside k row next =>
      dsimp only at hstep
      split at hstep
      · rename_i hfree
        cases hstep
        have hnone : forall other : τ, (store.cell k).access other = none := by
          intro other
          simp [Cell.access, hfree.1, hfree.2]
        have hkept : forall other : τ,
            Cell.access { store.cell k with committed := row } other =
              (store.cell k).access other := by
          intro other
          rw [hnone]
          simp [Cell.access, hfree.1, hfree.2]
        refine ⟨?_, ?_, ?_, ?_⟩
        · rw [Store.committed_set]
          exact hverified.1 _ hsees (hnone tx)
        · exact hexclusive.set (hexclusive k)
        · intro other _
          exact Store.footprint_set_other (hkept other)
        · rw [Store.footprint_set_other (hkept tx)]
          exact hverified.2
      · cases hstep

end Soundness
end Contract

/-!
## Runs
-/

namespace Schedule

variable {κ τ : Type} {ν : κ -> Type} {η ε α : Type} [DecidableEq κ]
  [DecidableEq τ] {schedule schedule' : Schedule τ ν η ε α}

/-- What every script on its way relies on still holds. -/
def Respects (contract : Contract ν η)
    (schedule : Schedule τ ν η ε α) : Prop :=
  forall tx process, schedule.running tx = some process ->
    forall note, note ∈ process.notes ->
      contract.holds note schedule.store.committed

/-- Every note on which a script on its way relies passes a check. -/
def respects [Fintype τ] (check : η -> Rows ν -> Bool)
    (schedule : Schedule τ ν η ε α) : Bool :=
  decide (forall tx, (schedule.running tx).all fun process =>
    process.notes.all fun note => check note schedule.store.committed)

omit [DecidableEq κ] [DecidableEq τ] in
theorem respects_sound [Fintype τ] {contract : Contract ν η}
    {check : η -> Rows ν -> Bool}
    (hcheck : forall note rows, check note rows = true ->
      contract.holds note rows)
    (h : schedule.respects check = true) : schedule.Respects contract := by
  intro tx process hprocess note hnote
  have hall := of_decide_eq_true h tx
  rw [hprocess] at hall
  exact hcheck note _ (List.all_eq_true.mp hall note hnote)

/-- Scripts of a kind start, and no turn falsifies a note. -/
def Respecting (contract : Contract ν η) (programs : Script ν η ε α -> Prop)
    (schedule : Schedule τ ν η ε α) (turn : Turn τ ν η ε α)
    (schedule' : Schedule τ ν η ε α) : Prop :=
  Starting programs schedule turn schedule' ∧ schedule'.Respects contract

structure Sound (contract : Contract ν η)
    (schedule : Schedule τ ν η ε α) : Prop where
  invariant : contract.invariant schedule.store.committed
  exclusive : schedule.store.Exclusive
  respects : schedule.Respects contract
  idle : forall tx, schedule.running tx = none ->
    schedule.store.footprint tx = Footprint.empty
  verified : forall tx process, schedule.running tx = some process ->
    contract.Verified process.script (schedule.store.footprint tx)
      process.notes fun _ _ _ => True

variable {contract : Contract ν η} {programs : Script ν η ε α -> Prop}

theorem sound_idle {view : View ν} (h : contract.invariant view.rows) :
    (idle view : Schedule τ ν η ε α).Sound contract where
  invariant := h
  exclusive := fun k => Cell.exclusive_vacant (view.rows k)
  respects := by
    intro tx process hprocess
    cases hprocess
  idle := by
    intro tx _
    funext k
    exact Cell.access_vacant (view.rows k)
  verified := by
    intro tx process hprocess
    cases hprocess

/-- A turn of verified scripts that falsifies no note. -/
theorem Sound.take
    (hprograms : forall script, programs script ->
      contract.Verified script .empty [] fun _ _ _ => True)
    (h : schedule.Sound contract) {turn : Turn τ ν η ε α}
    (htake : schedule.take turn = some schedule')
    (hallows : Respecting contract programs schedule turn schedule') :
    schedule'.Sound contract := by
  cases turn with
  | start tx script =>
      unfold Schedule.take at htake
      dsimp only at htake
      split at htake
      · cases htake
      · rename_i hnone
        cases htake
        refine ⟨h.invariant, h.exclusive, hallows.2, ?_, ?_⟩
        · intro other hother
          by_cases hsame : other = tx
          · subst hsame
            simp at hother
          · exact h.idle other (by simpa [hsame] using hother)
        · intro other process hprocess
          by_cases hsame : other = tx
          · subst hsame
            have hstarted : (⟨script, []⟩ : Process ν η ε α) = process := by
              simpa using hprocess
            rw [← hstarted, h.idle other hnone]
            exact hprograms script (hallows.1 other script rfl)
          · exact h.verified other process (by simpa [hsame] using hprocess)
  | step tx =>
      rcases Option.bind_eq_some_iff.mp htake with ⟨process, hprocess, htake⟩
      rcases Option.bind_eq_some_iff.mp htake with
        ⟨⟨store, next⟩, hstep, htake⟩
      cases htake
      have hsound := Contract.step_sound h.invariant h.exclusive
        (h.respects tx process hprocess) (h.verified tx process hprocess)
        hstep (hallows.2 tx next (by simp))
      refine ⟨hsound.invariant, hsound.exclusive, hallows.2, ?_, ?_⟩
      · intro other hother
        by_cases hsame : other = tx
        · subst hsame
          simp at hother
        · rw [hsound.others other hsame]
          exact h.idle other (by simpa [hsame] using hother)
      · intro other found hfound
        by_cases hsame : other = tx
        · subst hsame
          have hnext : next = found := by simpa using hfound
          rw [← hnext]
          exact hsound.verified
        · rw [hsound.others other hsame]
          exact h.verified other found (by simpa [hsame] using hfound)
  | abort tx =>
      unfold Schedule.take at htake
      dsimp only at htake
      split at htake
      · cases htake
      · cases htake
        have hcommitted : (schedule.store.release tx).committed =
            schedule.store.committed := by
          funext k
          exact Cell.committed_release
        have hothers : forall other, other ≠ tx ->
            (schedule.store.release tx).footprint other =
              schedule.store.footprint other := by
          intro other hother
          funext k
          exact Cell.access_release_other hother
        refine ⟨?_, ?_, hallows.2, ?_, ?_⟩
        · rw [hcommitted]
          exact h.invariant
        · intro k
          exact Cell.exclusive_release (h.exclusive k)
        · intro other hother
          by_cases hsame : other = tx
          · subst hsame
            funext k
            exact Cell.access_release
          · rw [hothers other hsame]
            exact h.idle other (by simpa [hsame] using hother)
        · intro other process hprocess
          by_cases hsame : other = tx
          · subst hsame
            simp at hprocess
          · rw [hothers other hsame]
            exact h.verified other process (by simpa [hsame] using hprocess)

/-- In every run of verified scripts whose turns falsify no note, every state
satisfies the invariant. -/
theorem sound_run {view : View ν}
    {turns : List (Turn τ ν η ε α)}
    (hprograms : forall script, programs script ->
      contract.Verified script .empty [] fun _ _ _ => True)
    (hinvariant : contract.invariant view.rows)
    (hrun : Run (Step (Respecting contract programs)) (idle view) turns
      schedule) : schedule.Sound contract :=
  hrun.invariant (P := fun schedule => schedule.Sound contract)
    (sound_idle hinvariant) (by
      rintro before turn after h ⟨htake, hallows⟩
      exact h.take hprograms htake hallows)

end Schedule
end Lib
