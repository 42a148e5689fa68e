import Mathlib.Logic.Relation
import Mathlib.Data.List.Basic

/-!
# Interruptible routines

A routine is a sequence of operations on a state that others may change in
between.  It can be stopped after every operation, and every operation may fail
without effect, which the routine may handle.
-/

namespace Lib

open Relation

/-- A question only looks and is always answered.  An operation has an effect,
after which the routine goes on by what the operation has found, or it fails. -/
inductive Routine (σ ε α : Type) where
  | done (value : α)
  | fail (error : ε)
  | ask (next : σ -> Routine σ ε α)
  | step (effect : σ -> σ) (next : σ -> Routine σ ε α) (fault : Routine σ ε α)

namespace Routine

variable {σ ε α β : Type}

def bind : Routine σ ε α -> (α -> Routine σ ε β) -> Routine σ ε β
  | .done value, k => k value
  | .fail error, _ => .fail error
  | .ask next, k => .ask fun s => (next s).bind k
  | .step effect next fault, k =>
      .step effect (fun s => (next s).bind k) (fault.bind k)

instance : Monad (Routine σ ε) where
  pure := .done
  bind := bind

/-- One operation, and the error with which the system may fail it. -/
def act (fault : ε) (operation : σ -> Except ε (α × σ)) : Routine σ ε α :=
  .step
    (fun s =>
      match operation s with
      | .ok (_, t) => t
      | .error _ => s)
    (fun s =>
      match operation s with
      | .ok (value, _) => .done value
      | .error error => .fail error)
    (.fail fault)

def read (fault : ε) (f : σ -> α) : Routine σ ε α :=
  act fault fun s => .ok (f s, s)

def write (fault : ε) (f : σ -> σ) : Routine σ ε Unit :=
  act fault fun s => .ok ((), f s)

/-- Check what the state says. -/
def check (fault : ε) (f : σ -> Except ε α) : Routine σ ε α :=
  act fault fun s => (f s).map fun value => (value, s)

/-- The outcome of a routine as a value. -/
def attempt : Routine σ ε α -> Routine σ ε (Except ε α)
  | .done value => .done (.ok value)
  | .fail error => .done (.error error)
  | .ask next => .ask fun s => (next s).attempt
  | .step effect next fault =>
      .step effect (fun s => (next s).attempt) fault.attempt

/-- Go on whether the routine fails or not. -/
def ignore (p : Routine σ ε α) : Routine σ ε Unit := do
  let _ <- p.attempt
  return ()

def each (f : α -> Routine σ ε Unit) : List α -> Routine σ ε Unit
  | [] => return ()
  | x :: xs => do
      f x
      each f xs

/-- The next operation succeeds. -/
def perform : Routine σ ε α -> σ -> Routine σ ε α × σ
  | .ask next, s => (next s, s)
  | .step effect next _, s => (next s, effect s)
  | p, s => (p, s)

/-- The next operation fails. -/
def faulted : Routine σ ε α -> Routine σ ε α
  | .step _ _ fault => fault
  | p => p

/-!
## Running alone
-/

/-- Run a routine to its end, without others and without faults. -/
def run : Routine σ ε α -> σ -> Except ε α × σ
  | .done value, s => (.ok value, s)
  | .fail error, s => (.error error, s)
  | .ask next, s => (next s).run s
  | .step effect next _, s => (next s).run (effect s)

@[simp] theorem run_pure {value : α} {s : σ} :
    (pure value : Routine σ ε α).run s = (.ok value, s) :=
  rfl

@[simp] theorem run_fail {error : ε} {s : σ} :
    (fail error : Routine σ ε α).run s = (.error error, s) :=
  rfl

theorem run_bind {p : Routine σ ε α} {k : α -> Routine σ ε β} {s : σ} :
    (p >>= k).run s =
      match p.run s with
      | (.ok value, t) => (k value).run t
      | (.error error, t) => (.error error, t) := by
  show (p.bind k).run s = _
  induction p generalizing s with
  | done value => rfl
  | fail error => rfl
  | ask next ih => exact ih s
  | step effect next fault ih _ => exact ih s

theorem run_act {fault : ε} {operation : σ -> Except ε (α × σ)} {s : σ} :
    (act fault operation).run s =
      match operation s with
      | .ok (value, t) => (.ok value, t)
      | .error error => (.error error, s) := by
  unfold act
  simp only [run]
  cases operation s with
  | ok answer => rfl
  | error error => rfl

@[simp] theorem run_read {fault : ε} {f : σ -> α} {s : σ} :
    (read fault f).run s = (.ok (f s), s) :=
  run_act

@[simp] theorem run_write {fault : ε} {f : σ -> σ} {s : σ} :
    (write fault f).run s = (.ok (), f s) :=
  run_act

@[simp] theorem run_check {fault : ε} {f : σ -> Except ε α} {s : σ} :
    (check fault f).run s = (f s, s) := by
  unfold check
  rw [run_act]
  cases f s with
  | ok value => rfl
  | error error => rfl

@[simp] theorem run_attempt {p : Routine σ ε α} {s : σ} :
    p.attempt.run s = (.ok (p.run s).1, (p.run s).2) := by
  induction p generalizing s with
  | done value => rfl
  | fail error => rfl
  | ask next ih => exact ih s
  | step effect next fault ih _ => exact ih s

theorem run_bind_ok {p : Routine σ ε α} {k : α -> Routine σ ε β} {s t : σ}
    {value : α} (h : p.run s = (.ok value, t)) :
    (p >>= k).run s = (k value).run t := by
  rw [run_bind, h]

theorem run_bind_error {p : Routine σ ε α} {k : α -> Routine σ ε β} {s t : σ}
    {error : ε} (h : p.run s = (.error error, t)) :
    (p >>= k).run s = (.error error, t) := by
  rw [run_bind, h]

/-- What a routine alone has returned, its parts have returned. -/
theorem run_bind_eq_ok {p : Routine σ ε α} {k : α -> Routine σ ε β} {s t : σ}
    {value : β} :
    (p >>= k).run s = (.ok value, t) <->
      exists x u, p.run s = (.ok x, u) ∧ (k x).run u = (.ok value, t) := by
  rw [run_bind]
  constructor
  · intro h
    cases hp : p.run s with
    | mk outcome u =>
        rw [hp] at h
        cases outcome with
        | ok x => exact ⟨x, u, rfl, h⟩
        | error error => cases h
  · rintro ⟨x, u, hp, hk⟩
    rw [hp]
    exact hk

/-!
## What a run keeps

An assertion that every operation keeps holds where the run ends, whether it
succeeds or not.
-/

section Keeps

variable {P : σ -> Prop} {s : σ}

theorem keeps_act {fault : ε} {operation : σ -> Except ε (α × σ)} (hs : P s)
    (hok : forall value t, operation s = .ok (value, t) -> P t) :
    P ((act fault operation).run s).2 := by
  rw [run_act]
  cases hoperation : operation s with
  | ok answer => exact hok answer.1 answer.2 hoperation
  | error error => exact hs

theorem keeps_bind {p : Routine σ ε α} {k : α -> Routine σ ε β}
    (hp : P (p.run s).2)
    (hk : forall value t, P t -> P ((k value).run t).2) :
    P ((p >>= k).run s).2 := by
  rw [run_bind]
  cases hrun : p.run s with
  | mk outcome t =>
      rw [hrun] at hp
      cases outcome with
      | ok value => exact hk value t hp
      | error error => exact hp

theorem keeps_each {f : α -> Routine σ ε Unit} {xs : List α} (hs : P s)
    (hround : forall x, x ∈ xs -> forall t, P t -> P ((f x).run t).2) :
    P ((each f xs).run s).2 := by
  induction xs generalizing s with
  | nil => exact hs
  | cons x rest ih =>
      apply keeps_bind (p := f x)
      · exact hround x List.mem_cons_self s hs
      · intro _ t ht
        exact ih ht fun y hy => hround y (List.mem_cons_of_mem x hy)

end Keeps

/-!
## Running among others

What others may do is a relation, and so is what the routine does with every
operation.  A record that follows the state, such as what has been true of it
before, is part of what is spoken about.  Operations are only considered where
they are permitted.
-/

section Safe

variable {ω : Type} (view : ω -> σ) (after : ω -> σ -> ω) (permits : ω -> Prop)
  (rely guarantee : ω -> ω -> Prop)

/-- Whatever others do and wherever it is stopped, the routine does with every
operation what it guarantees, and where it ends it has reached its goal. -/
def Safe (goal : α -> ω -> Prop) (failed : ε -> ω -> Prop) :
    Routine σ ε α -> ω -> Prop
  | .done value, w => forall v, ReflTransGen rely w v -> goal value v
  | .fail error, w => forall v, ReflTransGen rely w v -> failed error v
  | .ask next, w => forall v, ReflTransGen rely w v -> permits v ->
      guarantee v (after v (view v)) ∧
        Safe goal failed (next (view v)) (after v (view v))
  | .step effect next fault, w => forall v, ReflTransGen rely w v ->
      (permits v ->
        guarantee v (after v (effect (view v))) ∧
          Safe goal failed (next (view v)) (after v (effect (view v)))) ∧
        Safe goal failed fault v

variable {view after permits rely guarantee} {goal : α -> ω -> Prop}
  {failed : ε -> ω -> Prop} {p : Routine σ ε α} {w v : ω}

theorem Safe.others (h : Safe view after permits rely guarantee goal failed p w)
    (hothers : ReflTransGen rely w v) :
    Safe view after permits rely guarantee goal failed p v := by
  cases p with
  | done value => exact fun u hu => h u (hothers.trans hu)
  | fail error => exact fun u hu => h u (hothers.trans hu)
  | ask next => exact fun u hu => h u (hothers.trans hu)
  | step effect next fault => exact fun u hu => h u (hothers.trans hu)

/-- A safe routine does what it guarantees, and is safe after it. -/
theorem Safe.perform
    (h : Safe view after permits rely guarantee goal failed p w)
    (hpermits : permits w) :
    p.perform (view w) = (p, view w) ∨
      guarantee w (after w (p.perform (view w)).2) ∧
        Safe view after permits rely guarantee goal failed
          (p.perform (view w)).1 (after w (p.perform (view w)).2) := by
  cases p with
  | done value => exact .inl rfl
  | fail error => exact .inl rfl
  | ask next => exact .inr (h w .refl hpermits)
  | step effect next fault => exact .inr ((h w .refl).1 hpermits)

theorem Safe.faulted
    (h : Safe view after permits rely guarantee goal failed p w) :
    Safe view after permits rely guarantee goal failed p.faulted w := by
  cases p with
  | done value => exact h
  | fail error => exact h
  | ask next => exact h
  | step effect next fault => exact (h w .refl).2

theorem Safe.bind {goal' : β -> ω -> Prop} {k : α -> Routine σ ε β}
    (h : Safe view after permits rely guarantee goal failed p w)
    (hk : forall value u, goal value u ->
      Safe view after permits rely guarantee goal' failed (k value) u) :
    Safe view after permits rely guarantee goal' failed (p >>= k) w := by
  show Safe view after permits rely guarantee goal' failed (p.bind k) w
  induction p generalizing w with
  | done value => exact hk value w (h w .refl)
  | fail error => exact h
  | ask next ih =>
      intro u hu hpermits
      exact ⟨(h u hu hpermits).1, ih _ (h u hu hpermits).2⟩
  | step effect next fault ih ihfault =>
      intro u hu
      rcases h u hu with ⟨hact, hfault⟩
      constructor
      · intro hpermits
        exact ⟨(hact hpermits).1, ih _ (hact hpermits).2⟩
      · exact ihfault hfault

theorem Safe.weaken {goal' : α -> ω -> Prop} {failed' : ε -> ω -> Prop}
    (h : Safe view after permits rely guarantee goal failed p w)
    (hgoal : forall value u, goal value u -> goal' value u)
    (hfailed : forall error u, failed error u -> failed' error u) :
    Safe view after permits rely guarantee goal' failed' p w := by
  induction p generalizing w with
  | done value => exact fun u hu => hgoal value u (h u hu)
  | fail error => exact fun u hu => hfailed error u (h u hu)
  | ask next ih =>
      intro u hu hpermits
      exact ⟨(h u hu hpermits).1, ih _ (h u hu hpermits).2⟩
  | step effect next fault ih ihfault =>
      intro u hu
      rcases h u hu with ⟨hact, hfault⟩
      constructor
      · intro hpermits
        exact ⟨(hact hpermits).1, ih _ (hact hpermits).2⟩
      · exact ihfault hfault

/-- An attempt ends where the routine ends or fails, and does not fail. -/
theorem Safe.attempt {never : ε -> ω -> Prop}
    (h : Safe view after permits rely guarantee goal failed p w) :
    Safe view after permits rely guarantee
      (fun (outcome : Except ε α) u =>
        match outcome with
        | .ok value => goal value u
        | .error error => failed error u)
      never p.attempt w := by
  induction p generalizing w with
  | done value => exact h
  | fail error => exact h
  | ask next ih =>
      intro u hu hpermits
      exact ⟨(h u hu hpermits).1, ih _ (h u hu hpermits).2⟩
  | step effect next fault ih ihfault =>
      intro u hu
      rcases h u hu with ⟨hact, hfault⟩
      constructor
      · intro hpermits
        exact ⟨(hact hpermits).1, ih _ (hact hpermits).2⟩
      · exact ihfault hfault

/-- An assertion that others keep. -/
def Stable (rely : ω -> ω -> Prop) (P : ω -> Prop) : Prop :=
  forall w v, P w -> rely w v -> P v

theorem Stable.others {P : ω -> Prop} (hstable : Stable rely P) (hw : P w)
    (hothers : ReflTransGen rely w v) : P v := by
  induction hothers with
  | refl => exact hw
  | tail _ hlast ih => exact hstable _ _ ih hlast

theorem Stable.and {P Q : ω -> Prop} (hp : Stable rely P) (hq : Stable rely Q) :
    Stable rely fun w => P w ∧ Q w :=
  fun w v h hrely => ⟨hp w v h.1 hrely, hq w v h.2 hrely⟩

theorem Safe.pure {value : α} (hstable : Stable rely (goal value))
    (hw : goal value w) :
    Safe view after permits rely guarantee goal failed (Pure.pure value) w :=
  fun _ hothers => hstable.others hw hothers

theorem Safe.fail {error : ε} (hstable : Stable rely (failed error))
    (hw : failed error w) :
    Safe view after permits rely guarantee goal failed
      (Routine.fail error : Routine σ ε α) w :=
  fun _ hothers => hstable.others hw hothers

/-- Where the failures do not matter. -/
theorem Safe.forget
    (h : Safe view after permits rely guarantee goal failed p w) :
    Safe view after permits rely guarantee goal (fun _ _ => True) p w :=
  h.weaken (fun _ _ hgoal => hgoal) fun _ _ _ => trivial

/-- A routine that may fail, where both outcomes keep the assertion. -/
theorem Safe.ignore {P : ω -> Prop} {never : ε -> ω -> Prop}
    (hstable : Stable rely P)
    (h : Safe view after permits rely guarantee (fun _ => P) (fun _ => P) p w) :
    Safe view after permits rely guarantee (fun _ => P) never p.ignore w := by
  apply h.attempt.bind
  intro outcome u hu v hv
  cases outcome with
  | ok value => exact hstable.others hu hv
  | error error => exact hstable.others hu hv

/-- The rule of a question. -/
theorem Safe.ask {next : σ -> Routine σ ε α} {P : ω -> Prop}
    (hstable : Stable rely P) (hw : P w)
    (hnext : forall u, P u -> permits u ->
      guarantee u (after u (view u)) ∧
        Safe view after permits rely guarantee goal failed (next (view u))
          (after u (view u))) :
    Safe view after permits rely guarantee goal failed (.ask next) w :=
  fun u hothers hpermits => hnext u (hstable.others hw hothers) hpermits

/-- The rule of an operation. -/
theorem Safe.act {fault : ε} {operation : σ -> Except ε (α × σ)}
    {P : ω -> Prop} (hstable : Stable rely P) (hw : P w)
    (hgoal : forall value, Stable rely (goal value))
    (hfailed : forall error, Stable rely (failed error))
    (hok : forall u value t, P u -> permits u ->
      operation (view u) = .ok (value, t) ->
        guarantee u (after u t) ∧ goal value (after u t))
    (herror : forall u error, P u -> permits u ->
      operation (view u) = .error error ->
        guarantee u (after u (view u)) ∧ failed error (after u (view u)))
    (hfault : forall u, P u -> failed fault u) :
    Safe view after permits rely guarantee goal failed
      (Routine.act fault operation) w := by
  intro u hothers
  have hu : P u := hstable.others hw hothers
  constructor
  · intro hpermits
    cases hoperation : operation (view u) with
    | ok answer =>
        have hanswer := hok u answer.1 answer.2 hu hpermits hoperation
        simp only [hoperation]
        exact ⟨hanswer.1, fun v hv => (hgoal answer.1).others hanswer.2 hv⟩
    | error error =>
        have hanswer := herror u error hu hpermits hoperation
        simp only [hoperation]
        exact ⟨hanswer.1, fun v hv => (hfailed error).others hanswer.2 hv⟩
  · exact fun v hv => (hfailed fault).others (hfault u hu) hv

/-- The rule of a loop, by what holds between its rounds. -/
theorem Safe.each {f : β -> Routine σ ε Unit} {xs : List β}
    {I : List β -> ω -> Prop} (hw : I xs w) (hdone : Stable rely (I []))
    (hround : forall x rest u, I (x :: rest) u ->
      Safe view after permits rely guarantee (fun _ => I rest) failed (f x) u) :
    Safe view after permits rely guarantee (fun _ => I []) failed
      (each f xs) w := by
  induction xs generalizing w with
  | nil => exact Safe.pure hdone hw
  | cons x rest ih =>
      exact (hround x rest w hw).bind fun _ u hu => ih hu

end Safe

end Routine
end Lib
