import Denju.Lib.TransactionRules

/-!
# Assertions about transactions

An assertion speaks about the committed rows and the rows as the transaction
sees them.  What a transaction may assert are the facts that no other
transaction can change: about rows that it has locked or written, and about
committed rows through the invariant and its notes.  Every statement has a rule.
-/

namespace Lib

/-- About the committed rows, and the rows as the transaction sees them. -/
abbrev Assertion {κ : Type} (ν : κ -> Type) := Rows ν -> Rows ν -> Prop

namespace Footprint

variable {κ : Type} {ν : κ -> Type} [DecidableEq κ] {footprint : Footprint ν}
  {rows rows' : Rows ν} {k : κ} {draft : Option (ν k)}

/-- A row that is held stays as it was committed when it was locked. -/
theorem agrees_hold (hagrees : footprint.Agrees rows)
    (h : (footprint.hold rows k draft).Agrees rows') :
    footprint.Agrees rows' ∧ rows' k = rows k := by
  have hrow : rows' k = rows k := h k ⟨rows k, draft⟩ (by simp [hold])
  refine ⟨?_, hrow⟩
  intro j access haccess
  by_cases hj : j = k
  · subst hj
    rw [hrow]
    exact hagrees j access haccess
  · exact h j access (by simpa [hold, hj] using haccess)

theorem view_hold : (footprint.hold rows k draft).view rows' =
    Function.update (footprint.view rows') k draft := by
  funext j
  by_cases hj : j = k
  · subst hj
    simp [hold, view]
  · simp [hold, view, hj]

omit [DecidableEq κ] in
/-- The row under a key of the footprint does not depend on the rows of
others. -/
theorem view_eq_of_row (h : rows' k = rows k) :
    footprint.view rows' k = footprint.view rows k := by
  unfold view
  rw [h]

theorem agrees_share (hagrees : footprint.Agrees rows)
    (h : (footprint.share rows k).Agrees rows') :
    footprint.Agrees rows' ∧ rows' k = rows k := by
  have hentry : (footprint.share rows k) k =
      some ((footprint k).getD ⟨rows k, rows k⟩) := by
    simp [share]
  have hrow : rows' k = rows k := by
    rw [h k _ hentry]
    cases haccess : footprint k with
    | none => rfl
    | some access => exact (hagrees k access haccess).symm
  refine ⟨?_, hrow⟩
  intro j access haccess
  by_cases hj : j = k
  · subst hj
    rw [hrow]
    exact hagrees j access haccess
  · exact h j access (by simpa [share, hj] using haccess)

theorem view_share (h : rows' k = rows k) :
    (footprint.share rows k).view rows' = footprint.view rows' := by
  funext j
  by_cases hj : j = k
  · subst hj
    cases haccess : footprint j with
    | none => simp [share, view, haccess, h]
    | some access => simp [share, view, haccess]
  · simp [share, view, hj]

end Footprint

namespace Contract

variable {κ : Type} {ν : κ -> Type} {η ε α β γ : Type} [DecidableEq κ]
  (contract : Contract ν η)

/-- The assertion holds whatever others do next. -/
def Leads (P : Assertion ν) (footprint : Footprint ν)
    (notes : List η) : Prop :=
  forall rows, contract.Sees footprint notes rows ->
    P rows (footprint.view rows)

/-- From states of the first assertion, the script is verified and ends in
states of the second one. -/
def Triple (P : Assertion ν) (script : Script ν η ε α)
    (Q : α -> Assertion ν) : Prop :=
  forall footprint notes, contract.Leads P footprint notes ->
    contract.Verified script footprint notes fun value footprint notes =>
      contract.Leads (Q value) footprint notes

variable {contract} {P P' : Assertion ν} {Q Q' : α -> Assertion ν}
  {k : κ}

/-- A script that starts from nothing. -/
theorem Triple.verified {script : Script ν η ε α}
    (h : contract.Triple (fun rows seen => seen = rows) script Q) :
    contract.Verified script .empty [] fun _ _ _ => True :=
  verified_mono (h .empty [] fun _ _ => rfl) fun _ _ _ _ => trivial

namespace Triple

theorem mono {script : Script ν η ε α} (h : contract.Triple P script Q)
    (hP : forall rows seen, contract.invariant rows -> P' rows seen ->
      P rows seen)
    (hQ : forall value rows seen, contract.invariant rows ->
      Q value rows seen -> Q' value rows seen) :
    contract.Triple P' script Q' := by
  intro footprint notes hleads
  refine verified_mono (h footprint notes ?_) ?_
  · intro rows hsees
    exact hP rows _ hsees.invariant (hleads rows hsees)
  · intro value footprint notes hvalue rows hsees
    exact hQ value rows _ hsees.invariant (hvalue rows hsees)

theorem pre {script : Script ν η ε α} (h : contract.Triple P script Q)
    (hP : forall rows seen, contract.invariant rows -> P' rows seen ->
      P rows seen) : contract.Triple P' script Q :=
  h.mono hP fun _ _ _ _ hvalue => hvalue

theorem post {script : Script ν η ε α} (h : contract.Triple P script Q)
    (hQ : forall value rows seen, contract.invariant rows ->
      Q value rows seen -> Q' value rows seen) : contract.Triple P script Q' :=
  h.mono (fun _ _ _ hpre => hpre) hQ

theorem pure (value : α)
    (h : forall rows seen, contract.invariant rows -> P rows seen ->
      Q value rows seen) :
    contract.Triple P (Pure.pure value : Script ν η ε α) Q :=
  fun _ _ hleads rows hsees => h rows _ hsees.invariant (hleads rows hsees)

theorem fail (error : ε) :
    contract.Triple P (Script.fail error : Script ν η ε α) Q :=
  fun _ _ _ => trivial

theorem bind {script : Script ν η ε α} {f : α -> Script ν η ε β}
    {R : β -> Assertion ν} (h : contract.Triple P script Q)
    (hf : forall value, contract.Triple (Q value) (f value) R) :
    contract.Triple P (script >>= f) R := by
  intro footprint notes hleads
  refine verified_bind.mpr (verified_mono (h footprint notes hleads) ?_)
  intro value footprint notes hvalue
  exact hf value footprint notes hvalue

/-- A check in memory. -/
theorem lift {result : Except ε α}
    (h : forall value, result = .ok value -> forall rows seen,
      contract.invariant rows -> P rows seen -> Q value rows seen) :
    contract.Triple P (liftM result : Script ν η ε α) Q := by
  intro footprint notes hleads
  cases result with
  | error error => trivial
  | ok value =>
      intro rows hsees
      exact h value rfl rows _ hsees.invariant (hleads rows hsees)

/-- What a check in memory has shown need not be asserted. -/
theorem lift_bind {result : Except ε α} {f : α -> Script ν η ε β}
    {R : β -> Assertion ν}
    (h : forall value, result = .ok value -> contract.Triple P (f value) R) :
    contract.Triple P ((liftM result : Script ν η ε α) >>= f) R := by
  intro footprint notes hleads
  cases result with
  | error error => trivial
  | ok value => exact h value rfl footprint notes hleads

theorem select {note : View ν -> List η} {read : View ν -> Script ν η ε α}
    (h : forall view : View ν,
      (exists rows, contract.invariant rows ∧ P rows view.rows) ->
        contract.Triple
          (fun rows seen => P rows seen ∧
            forall new, new ∈ note view -> contract.holds new rows)
          (read view) Q) :
    contract.Triple P (Script.select note read) Q := by
  intro footprint notes hleads rows view hsees hview _
  refine h view ⟨rows, hsees.invariant, ?_⟩ footprint _ ?_
  · rw [hview]
    exact hleads rows hsees
  · intro other hother
    refine ⟨hleads other ⟨hother.invariant, hother.agrees, ?_⟩, ?_⟩
    · intro old hold
      exact hother.notes old (List.mem_append_left _ hold)
    · intro new hnew
      exact hother.notes new (List.mem_append_right _ hnew)

theorem rows_bind {f : View ν -> Script ν η ε β} {R : β -> Assertion ν}
    (h : forall view : View ν,
      (exists rows, contract.invariant rows ∧ P rows view.rows) ->
        contract.Triple P (f view) R) :
    contract.Triple P ((Script.rows : Script ν η ε (View ν)) >>= f) R :=
  select fun view hview => (h view hview).pre fun _ _ _ hpre => hpre.1

theorem rely {notes : List η} :
    contract.Triple P (Script.rely notes : Script ν η ε Unit)
      fun _ rows seen => P rows seen ∧
        forall note, note ∈ notes -> contract.holds note rows :=
  select fun _ _ => pure () fun _ _ _ hpre => hpre

theorem lockRow {Q : Option (ν k) -> Assertion ν}
    (hfound : forall row rows seen, contract.invariant rows -> P rows seen ->
      seen k = some row -> Q (some row) rows seen)
    (hmissing : forall rows seen, contract.invariant rows -> P rows seen ->
      Q none rows seen) :
    contract.Triple P (Script.lockRow k : Script ν η ε (Option (ν k))) Q := by
  intro footprint notes hleads
  unfold Script.lockRow Verified
  intro rows hsees
  split
  · intro other hother
    exact hmissing other _ hother.invariant (hleads other hother)
  · rename_i row hrow
    intro other hother
    rcases Footprint.agrees_hold hsees.agrees hother.agrees with
      ⟨hagrees, hsame⟩
    have hseen : footprint.view other k = some row := by
      rw [Footprint.view_eq_of_row hsame]
      exact hrow
    have hview : (footprint.hold rows k (some row)).view other =
        footprint.view other := by
      rw [Footprint.view_hold, ← hseen, Function.update_eq_self]
    rw [hview]
    exact hfound row other _ hother.invariant
      (hleads other ⟨hother.invariant, hagrees, hother.notes⟩) hseen

theorem shareRow {Q : Option (ν k) -> Assertion ν}
    (hfound : forall row rows seen, contract.invariant rows -> P rows seen ->
      seen k = some row -> Q (some row) rows seen)
    (hmissing : forall rows seen, contract.invariant rows -> P rows seen ->
      Q none rows seen) :
    contract.Triple P (Script.shareRow k : Script ν η ε (Option (ν k)))
      Q := by
  intro footprint notes hleads
  unfold Script.shareRow Verified
  intro rows hsees
  split
  · intro other hother
    exact hmissing other _ hother.invariant (hleads other hother)
  · rename_i row hrow
    intro other hother
    rcases Footprint.agrees_share hsees.agrees hother.agrees with
      ⟨hagrees, hsame⟩
    have hseen : footprint.view other k = some row := by
      rw [Footprint.view_eq_of_row hsame]
      exact hrow
    rw [Footprint.view_share hsame]
    exact hfound row other _ hother.invariant
      (hleads other ⟨hother.invariant, hagrees, hother.notes⟩) hseen

/-- What a written row leaves of an assertion. -/
theorem leads_hold {footprint : Footprint ν} {notes : List η}
    {rows : Rows ν} {draft : Option (ν k)}
    (hleads : contract.Leads P footprint notes)
    (hsees : contract.Sees footprint notes rows)
    (h : forall other seen, contract.invariant other -> P other seen ->
      seen k = footprint.view rows k -> P' other (Function.update seen k draft)) :
    contract.Leads P' (footprint.hold rows k draft) notes := by
  intro other hother
  rcases Footprint.agrees_hold hsees.agrees hother.agrees with
    ⟨hagrees, hsame⟩
  rw [Footprint.view_hold]
  exact h other _ hother.invariant
    (hleads other ⟨hother.invariant, hagrees, hother.notes⟩)
    (Footprint.view_eq_of_row hsame)

theorem update {set : ν k -> Option (ν k)} {Q : Bool -> Assertion ν}
    (hfound : forall row rows seen, contract.invariant rows -> P rows seen ->
      seen k = some row -> Q true rows (Function.update seen k (set row)))
    (hmissing :
      (exists rows seen, contract.invariant rows ∧ P rows seen ∧
        seen k = none) ->
      forall rows seen, contract.invariant rows -> P rows seen ->
        Q false rows seen) :
    contract.Triple P (Script.update k set Script.done : Script ν η ε Bool)
      Q := by
  intro footprint notes hleads
  unfold Verified
  intro rows hsees
  split
  · rename_i hrow
    intro other hother
    exact hmissing ⟨rows, _, hsees.invariant, hleads rows hsees, hrow⟩ other _
      hother.invariant (hleads other hother)
  · rename_i row hrow
    refine leads_hold hleads hsees ?_
    intro other seen hinvariant hpre hseen
    exact hfound row other seen hinvariant hpre (hseen.trans hrow)

theorem insertRow {row : ν k} {Q : Bool -> Assertion ν}
    (hnew : forall rows seen, contract.invariant rows -> P rows seen ->
      seen k = none -> Q true rows (Function.update seen k (some row)))
    (hold : forall rows seen, contract.invariant rows -> P rows seen ->
      Q false rows seen) :
    contract.Triple P (Script.insertRow k row : Script ν η ε Bool) Q := by
  intro footprint notes hleads
  unfold Script.insertRow Verified
  intro rows hsees
  split
  · rename_i hrow
    refine leads_hold hleads hsees ?_
    intro other seen hinvariant hpre hseen
    exact hnew other seen hinvariant hpre (hseen.trans hrow)
  · intro other hother
    exact hold other _ hother.invariant (hleads other hother)

theorem upsertRow {set : Option (ν k) -> ν k} {Q : Bool -> Assertion ν}
    (h : forall inserted rows seen, contract.invariant rows -> P rows seen ->
      (seen k).isNone = inserted ->
        Q inserted rows (Function.update seen k (some (set (seen k))))) :
    contract.Triple P (Script.upsertRow k set : Script ν η ε Bool) Q := by
  intro footprint notes hleads rows hsees
  refine leads_hold hleads hsees ?_
  intro other seen hinvariant hpre hseen
  rw [← hseen]
  exact h _ other seen hinvariant hpre rfl

/-- A commit keeps the invariant. -/
theorem commit (value : α)
    (h : forall rows seen, contract.invariant rows -> P rows seen ->
      contract.invariant seen) :
    contract.Triple P (Script.commit (Script.done value) : Script ν η ε α)
      fun _ rows seen => seen = rows := by
  intro footprint notes hleads
  refine ⟨?_, fun _ _ => rfl⟩
  intro rows hsees
  exact h rows _ hsees.invariant (hleads rows hsees)

theorem transaction {body : Script ν η ε α}
    (hbody : contract.Triple P body Q)
    (h : forall value rows seen, contract.invariant rows ->
      Q value rows seen -> contract.invariant seen) :
    contract.Triple P (Script.transaction body)
      fun _ rows seen => seen = rows :=
  bind hbody fun value => commit value (h value)

theorem each {f : γ -> Script ν η ε Unit} {xs : List γ}
    (h : forall x, x ∈ xs -> contract.Triple P (f x) fun _ => P) :
    contract.Triple P (Script.each f xs) fun _ => P := by
  induction xs with
  | nil => exact pure () fun _ _ _ hpre => hpre
  | cons x rest ih =>
      refine bind (h x List.mem_cons_self) fun _ => ?_
      exact ih fun y hy => h y (List.mem_cons_of_mem x hy)

/-- What has been done to each element adds up. -/
theorem eachDone {f : γ -> Script ν η ε Unit} {xs : List γ}
    {R : List γ -> Assertion ν}
    (h : forall x found, x ∈ xs ->
      contract.Triple (R found) (f x) fun _ => R (found ++ [x]))
    (found : List γ) :
    contract.Triple (R found) (Script.each f xs) fun _ => R (found ++ xs) := by
  induction xs generalizing found with
  | nil =>
      refine pure () fun _ _ _ hpre => ?_
      rw [List.append_nil]
      exact hpre
  | cons x rest ih =>
      have hrest := ih fun y others hy => h y others (List.mem_cons_of_mem x hy)
      refine bind (h x found List.mem_cons_self) fun _ => ?_
      refine (hrest (found ++ [x])).post fun _ rows seen _ hpost => ?_
      rw [List.append_assoc] at hpost
      exact hpost

/-- Each statement leaves what it has done to its element. -/
theorem filterEach {f : γ -> Script ν η ε Bool} {xs : List γ}
    {R : List γ -> Assertion ν}
    (h : forall x found, x ∈ xs ->
      contract.Triple (R found) (f x) fun done => fun rows seen =>
        if done then R (found ++ [x]) rows seen else R found rows seen)
    (found : List γ) :
    contract.Triple (R found) (Script.filterEach f xs) fun others =>
      R (found ++ others) := by
  induction xs generalizing found with
  | nil =>
      refine pure [] fun _ _ _ hpre => ?_
      rw [List.append_nil]
      exact hpre
  | cons x rest ih =>
      have hrest := ih fun y others hy => h y others (List.mem_cons_of_mem x hy)
      refine bind (h x found List.mem_cons_self) fun done => ?_
      cases done with
      | false =>
          refine bind (hrest found) fun others => ?_
          exact pure others fun _ _ _ hpre => hpre
      | true =>
          refine bind (hrest (found ++ [x])) fun others => ?_
          refine pure (x :: others) fun rows seen _ hpre => ?_
          rw [List.append_assoc] at hpre
          exact hpre

end Triple
end Contract
end Lib
