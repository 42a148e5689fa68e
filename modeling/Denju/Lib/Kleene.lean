import Mathlib.Data.Bool.Basic

/-!
# Truth values of nullable conditions

A condition over columns that may be null is true, false or unknown.  A filter
accepts what is true, and an unknown part does not matter where the other part
decides.
-/

namespace Lib

/-- True, false or unknown. -/
abbrev Truth := Option Bool

namespace Truth

def and : Truth -> Truth -> Truth
  | some false, _ => some false
  | _, some false => some false
  | some true, some true => some true
  | _, _ => none

def or : Truth -> Truth -> Truth
  | some true, _ => some true
  | _, some true => some true
  | some false, some false => some false
  | _, _ => none

/-- A filter, or a branch of a case, takes what is true. -/
def holds (truth : Truth) : Bool :=
  truth == some true

/-- A column equals a value, unless it is null. -/
def equals {α : Type} [DecidableEq α] (column : Option α) (value : α) :
    Truth :=
  column.map fun found => decide (found = value)

@[simp] theorem holds_some (b : Bool) : holds (some b) = b := by
  cases b with
  | false => rfl
  | true => rfl

@[simp] theorem holds_and (a b : Truth) :
    (a.and b).holds = (a.holds && b.holds) := by
  rcases a with _ | _ | _
  all_goals rcases b with _ | _ | _
  all_goals rfl

@[simp] theorem holds_or (a b : Truth) :
    (a.or b).holds = (a.holds || b.holds) := by
  rcases a with _ | _ | _
  all_goals rcases b with _ | _ | _
  all_goals rfl

@[simp] theorem holds_equals {α : Type} [DecidableEq α] (column : Option α)
    (value : α) : (equals column value).holds = decide (column = some value) := by
  cases column with
  | none => simp [equals, holds]
  | some found => simp [equals]

/-- What is known is true exactly where it holds. -/
theorem eq_holds_of_isSome {truth : Truth} (h : truth.isSome = true) :
    truth = some truth.holds := by
  rcases truth with _ | _ | _
  · cases h
  · rfl
  · rfl

/-- A false part makes the whole known. -/
theorem and_of_false {a b : Truth} (h : b = some false) :
    a.and b = some false := by
  rw [h]
  rcases a with _ | _ | _
  all_goals rfl

/-- Known parts make the whole known. -/
theorem and_isSome {a b : Truth} (ha : a.isSome = true)
    (hb : b.isSome = true) : (a.and b).isSome = true := by
  rcases a with _ | _ | _
  · cases ha
  all_goals
    rcases b with _ | _ | _
    · cases hb
    all_goals rfl

end Truth
end Lib
