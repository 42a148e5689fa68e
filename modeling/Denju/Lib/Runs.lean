import Mathlib.Data.List.Basic

/-!
# Runs

A system moves from state to state, and each step leaves an event.  A run is
the list of the events from a first state to a last one.  What holds at the
start and survives every step holds wherever a run leads.
-/

namespace Lib

variable {σ ε : Type}

inductive Run (step : σ -> ε -> σ -> Prop) (init : σ) : List ε -> σ -> Prop where
  | nil : Run step init [] init
  | snoc {events : List ε} {s t : σ} {event : ε} :
      Run step init events s -> step s event t ->
        Run step init (events ++ [event]) t

variable {step : σ -> ε -> σ -> Prop} {init : σ}

namespace Run

theorem invariant {P : σ -> Prop} (hinit : P init)
    (hstep : forall s event t, P s -> step s event t -> P t)
    {events : List ε} {s : σ} (hrun : Run step init events s) : P s := by
  induction hrun with
  | nil => exact hinit
  | snoc _ hlast ih => exact hstep _ _ _ ih hlast

/-- An invariant that also speaks about the events so far. -/
theorem invariantOfHistory {P : List ε -> σ -> Prop} (hinit : P [] init)
    (hstep : forall events s event t,
      P events s -> step s event t -> P (events ++ [event]) t)
    {events : List ε} {s : σ} (hrun : Run step init events s) :
    P events s := by
  induction hrun with
  | nil => exact hinit
  | snoc _ hlast ih => exact hstep _ _ _ _ ih hlast

/-- Fewer steps make fewer runs. -/
theorem mono {step' : σ -> ε -> σ -> Prop}
    (hsub : forall s event t, step s event t -> step' s event t)
    {events : List ε} {s : σ} (hrun : Run step init events s) :
    Run step' init events s := by
  induction hrun with
  | nil => exact .nil
  | snoc _ hlast ih => exact .snoc ih (hsub _ _ _ hlast)

/-- A run may go on where another one has ended. -/
theorem append {events more : List ε} {s t : σ}
    (hrun : Run step init events s) (hmore : Run step s more t) :
    Run step init (events ++ more) t := by
  induction hmore with
  | nil =>
      rw [List.append_nil]
      exact hrun
  | snoc _ hlast ih =>
      rw [← List.append_assoc]
      exact ih.snoc hlast

end Run

/-!
## Guarded systems

In a deterministic system an event decides the next state, and a guard says
where the event may happen.
-/

section Guarded

variable {allows : σ -> ε -> Prop} {next : σ -> ε -> σ}

def Guarded (allows : σ -> ε -> Prop) (next : σ -> ε -> σ) (s : σ) (event : ε)
    (t : σ) : Prop :=
  allows s event ∧ t = next s event

/-- Every event of a list may happen where it does. -/
def GuardedAll (allows : σ -> ε -> Prop) (next : σ -> ε -> σ) :
    σ -> List ε -> Prop
  | _, [] => True
  | s, event :: rest =>
      allows s event ∧ GuardedAll allows next (next s event) rest

instance decidableGuardedAll (allows : σ -> ε -> Prop) (next : σ -> ε -> σ)
    [forall s event, Decidable (allows s event)] :
    forall s events, Decidable (GuardedAll allows next s events)
  | _, [] => .isTrue trivial
  | s, event :: rest =>
      have := decidableGuardedAll allows next (next s event) rest
      inferInstanceAs (Decidable (_ ∧ _))

theorem Run.guarded {past events : List ε} {s : σ}
    (hrun : Run (Guarded allows next) init past s)
    (hallows : GuardedAll allows next s events) :
    Run (Guarded allows next) init (past ++ events)
      (events.foldl next s) := by
  induction events generalizing past s with
  | nil =>
      rw [List.append_nil]
      exact hrun
  | cons event rest ih =>
      have hplayed := ih (hrun.snoc ⟨hallows.1, rfl⟩) hallows.2
      rw [List.append_assoc] at hplayed
      exact hplayed

theorem Run.guarded_of_all {events : List ε} {s : σ}
    (hallows : GuardedAll allows next s events) :
    Run (Guarded allows next) s events (events.foldl next s) := by
  have hplayed := Run.nil.guarded hallows
  rw [List.nil_append] at hplayed
  exact hplayed

/-- Where no step is guarded, every list of events is a run. -/
theorem Run.free (events : List ε) (s : σ) :
    Run (Guarded (fun _ _ => True) next) s events (events.foldl next s) := by
  apply Run.guarded_of_all
  induction events generalizing s with
  | nil => exact trivial
  | cons event rest ih => exact ⟨trivial, ih (next s event)⟩

end Guarded
end Lib
