import Mathlib.Data.List.Basic

/-!
# Results

Fallible code returns `Except`.  These lemmas read a successful computation
back: a sequence succeeded when both halves did, a loop when every pass did.
-/

namespace Lib

variable {ε α β : Type}

/-- A conditional error: the early return of a failed check. -/
def ensure (condition : Bool) (error : ε) : Except ε Unit :=
  if condition then .ok () else .error error

@[simp] theorem ensure_eq_ok {condition : Bool} {error : ε} {u : Unit} :
    ensure condition error = .ok u <-> condition = true := by
  unfold ensure
  split
  · simp_all
  · simp_all

/-- The error of an absent value. -/
def okOr (value : Option α) (error : ε) : Except ε α :=
  match value with
  | some x => .ok x
  | none => .error error

@[simp] theorem okOr_eq_ok {value : Option α} {error : ε} {x : α} :
    okOr value error = .ok x <-> value = some x := by
  unfold okOr
  cases value with
  | none => simp
  | some y => simp

@[simp] theorem mapError_eq_ok {ε' : Type} {f : ε -> ε'}
    {x : Except ε α} {a : α} :
    x.mapError f = .ok a <-> x = .ok a := by
  cases x with
  | error e => simp [Except.mapError]
  | ok b => simp [Except.mapError]

theorem exists_of_isOk {x : Except ε α} (h : x.isOk = true) :
    exists a, x = .ok a := by
  cases x with
  | error e => cases h
  | ok a => exact ⟨a, rfl⟩

theorem bind_eq_ok {x : Except ε α} {f : α -> Except ε β} {b : β} :
    (x >>= f) = .ok b <-> exists a, x = .ok a ∧ f a = .ok b := by
  cases x with
  | error e => simp [bind, Except.bind]
  | ok a => simp [bind, Except.bind]

theorem map_eq_ok {x : Except ε α} {f : α -> β} {b : β} :
    x.map f = .ok b <-> exists a, x = .ok a ∧ f a = b := by
  cases x with
  | error found => simp [Except.map]
  | ok a => simp [Except.map]

theorem map_eq_error {x : Except ε α} {f : α -> β} {error : ε} :
    x.map f = .error error <-> x = .error error := by
  cases x with
  | error found => exact Iff.intro (by rintro ⟨⟩; rfl) (by rintro ⟨⟩; rfl)
  | ok a => exact Iff.intro (by rintro ⟨⟩) (by rintro ⟨⟩)

/-- A computation succeeds if its first step does and the rest does after it. -/
theorem exists_bind_eq_ok {x : Except ε α} {f : α -> Except ε β} {a : α}
    (hx : x = .ok a) (hf : exists b, f a = .ok b) :
    exists b, (x >>= f) = .ok b := by
  rcases hf with ⟨b, hb⟩
  exact ⟨b, bind_eq_ok.mpr ⟨a, hx, hb⟩⟩

theorem forM_eq_ok {f : α -> Except ε Unit} {xs : List α} :
    forM xs f = .ok () <-> forall x, x ∈ xs -> f x = .ok () := by
  induction xs with
  | nil => simp [pure, Except.pure]
  | cons x rest ih =>
      rw [List.forM_cons, bind_eq_ok]
      constructor
      · rintro ⟨u, hx, hrest⟩ y hy
        cases hy with
        | head => exact hx
        | tail _ hy => exact ih.mp hrest y hy
      · intro h
        refine ⟨(), h x List.mem_cons_self, ih.mpr ?_⟩
        intro y hy
        exact h y (List.mem_cons_of_mem x hy)

/-- What holds before a loop and survives every pass holds behind it. -/
theorem foldlM_invariant {σ : Type} {f : σ -> α -> Except ε σ} {P : σ -> Prop}
    (hstep : forall s x t, P s -> f s x = .ok t -> P t)
    {xs : List α} {s t : σ} (hstart : P s)
    (h : xs.foldlM f s = .ok t) : P t := by
  induction xs generalizing s with
  | nil =>
      cases h
      exact hstart
  | cons x rest ih =>
      rw [List.foldlM_cons] at h
      rcases bind_eq_ok.mp h with ⟨mid, hmid, h⟩
      exact ih (hstep s x mid hstart hmid) h

/-!
## Errors that a computation does not raise
-/

/-- The computation does not fail with this error. -/
def Avoids (error : ε) (x : Except ε α) : Prop :=
  x ≠ .error error

namespace Avoids

variable {error : ε}

theorem ok (a : α) : Avoids error (.ok a) := by
  intro h
  cases h

theorem bind {x : Except ε α} {f : α -> Except ε β} (hx : Avoids error x)
    (hf : forall a, x = .ok a -> Avoids error (f a)) :
    Avoids error (x >>= f) := by
  cases x with
  | error other => exact fun h => hx (by cases h; rfl)
  | ok a => exact hf a rfl

theorem ensure {condition : Bool} {other : ε} (h : other ≠ error) :
    Avoids error (Lib.ensure condition other) := by
  unfold Lib.ensure
  split
  · exact ok ()
  · exact fun heq => h (by cases heq; rfl)

theorem okOr {value : Option α} {other : ε}
    (h : value = none -> other ≠ error) :
    Avoids error (Lib.okOr value other) := by
  cases value with
  | none => exact fun heq => h rfl (by cases heq; rfl)
  | some a => exact ok a

theorem mapError {ε' : Type} {f : ε' -> ε} {x : Except ε' α}
    (h : forall source, f source ≠ error) : Avoids error (x.mapError f) := by
  cases x with
  | error source => exact fun heq => h source (by cases heq; rfl)
  | ok a => exact ok a

theorem mapM {f : α -> Except ε β} {xs : List α}
    (h : forall x, x ∈ xs -> Avoids error (f x)) :
    Avoids error (xs.mapM f) := by
  induction xs with
  | nil => exact ok []
  | cons x rest ih =>
      rw [List.mapM_cons]
      refine bind (h x List.mem_cons_self) fun y _ => ?_
      refine bind (ih fun z hz => h z (List.mem_cons_of_mem x hz)) ?_
      exact fun ys _ => ok (y :: ys)

theorem forM {f : α -> Except ε Unit} {xs : List α}
    (h : forall x, x ∈ xs -> Avoids error (f x)) :
    Avoids error (xs.forM f) := by
  induction xs with
  | nil => exact ok ()
  | cons x rest ih =>
      show Avoids error (f x >>= fun _ => rest.forM f)
      refine bind (h x List.mem_cons_self) fun _ _ => ?_
      exact ih fun z hz => h z (List.mem_cons_of_mem x hz)

theorem foldlM {σ : Type} {f : σ -> α -> Except ε σ} {xs : List α} {s : σ}
    (h : forall s x, Avoids error (f s x)) :
    Avoids error (xs.foldlM f s) := by
  induction xs generalizing s with
  | nil => exact ok s
  | cons x rest ih =>
      rw [List.foldlM_cons]
      exact bind (h s x) fun _ _ => ih

end Avoids

theorem mapM_eq_ok_length {f : α -> Except ε β} {xs : List α} {ys : List β}
    (h : xs.mapM f = .ok ys) : ys.length = xs.length := by
  induction xs generalizing ys with
  | nil =>
      simp [pure, Except.pure] at h
      simp [← h]
  | cons x rest ih =>
      rw [List.mapM_cons, bind_eq_ok] at h
      rcases h with ⟨y, _hy, h⟩
      rcases bind_eq_ok.mp h with ⟨tail, htail, hys⟩
      cases hys
      simp [ih htail]

theorem mapM_eq_ok_iff_map {f : α -> Except ε β} {g : α -> β}
    {xs : List α} {ys : List β}
    (hf : forall x, x ∈ xs -> forall y, f x = .ok y -> y = g x)
    (h : xs.mapM f = .ok ys) : ys = xs.map g := by
  induction xs generalizing ys with
  | nil =>
      simp [pure, Except.pure] at h
      simp [← h]
  | cons x rest ih =>
      rw [List.mapM_cons, bind_eq_ok] at h
      rcases h with ⟨y, hy, h⟩
      rcases bind_eq_ok.mp h with ⟨tail, htail, hys⟩
      cases hys
      have hhead := hf x List.mem_cons_self y hy
      have hrest := ih
        (fun z hz => hf z (List.mem_cons_of_mem x hz)) htail
      simp [hhead, hrest]

theorem mapM_ok_of_forall {f : α -> Except ε β} {g : α -> β} {xs : List α}
    (h : forall x, x ∈ xs -> f x = .ok (g x)) :
    xs.mapM f = .ok (xs.map g) := by
  induction xs with
  | nil => rfl
  | cons x rest ih =>
      rw [List.mapM_cons, h x List.mem_cons_self,
        ih (fun y hy => h y (List.mem_cons_of_mem x hy))]
      rfl

theorem mapM_eq_ok_forall {f : α -> Except ε β} {xs : List α} {ys : List β}
    (h : xs.mapM f = .ok ys) :
    forall x, x ∈ xs -> exists y, y ∈ ys ∧ f x = .ok y := by
  induction xs generalizing ys with
  | nil =>
      intro x hx
      cases hx
  | cons x rest ih =>
      rw [List.mapM_cons, bind_eq_ok] at h
      rcases h with ⟨y, hy, h⟩
      rcases bind_eq_ok.mp h with ⟨tail, htail, hys⟩
      cases hys
      intro z hz
      cases hz with
      | head => exact ⟨y, List.mem_cons_self, hy⟩
      | tail _ hz =>
          rcases ih htail z hz with ⟨w, hw, hfw⟩
          exact ⟨w, List.mem_cons_of_mem y hw, hfw⟩

theorem mapM_eq_ok_exists {f : α -> Except ε β} {xs : List α} {ys : List β}
    (h : xs.mapM f = .ok ys) :
    forall y, y ∈ ys -> exists x, x ∈ xs ∧ f x = .ok y := by
  induction xs generalizing ys with
  | nil =>
      cases h
      intro y hy
      cases hy
  | cons x rest ih =>
      rw [List.mapM_cons, bind_eq_ok] at h
      rcases h with ⟨first, hfirst, h⟩
      rcases bind_eq_ok.mp h with ⟨tail, htail, hys⟩
      cases hys
      intro y hy
      cases hy with
      | head => exact ⟨x, List.mem_cons_self, hfirst⟩
      | tail _ hy =>
          rcases ih htail y hy with ⟨z, hz, hfz⟩
          exact ⟨z, List.mem_cons_of_mem x hz, hfz⟩

/-- A traversal succeeds with one result for each element. -/
theorem mapM_eq_ok_forall2 {f : α -> Except ε β} {xs : List α} {ys : List β}
    (h : xs.mapM f = .ok ys) :
    List.Forall₂ (fun x y => f x = .ok y) xs ys := by
  induction xs generalizing ys with
  | nil =>
      cases h
      exact .nil
  | cons x rest ih =>
      rw [List.mapM_cons, bind_eq_ok] at h
      rcases h with ⟨first, hfirst, h⟩
      rcases bind_eq_ok.mp h with ⟨tail, htail, hys⟩
      cases hys
      exact .cons hfirst (ih htail)

/-- What the results say of the elements stands in the same order. -/
theorem map_eq_map_of_mapM {γ : Type} {f : α -> Except ε β} {g : β -> γ}
    {k : α -> γ} {xs : List α} {ys : List β}
    (hsame : forall x y, f x = .ok y -> g y = k x)
    (h : xs.mapM f = .ok ys) : ys.map g = xs.map k := by
  have hall := mapM_eq_ok_forall2 h
  clear h
  induction hall with
  | nil => rfl
  | cons hhead _ ih =>
      rw [List.map_cons, List.map_cons, hsame _ _ hhead, ih]

theorem exists_of_mem_forall2 {α β : Type} {r : α -> β -> Prop} {xs : List α}
    {ys : List β} (h : List.Forall₂ r xs ys) {y : β} (hy : y ∈ ys) :
    exists x, x ∈ xs ∧ r x y := by
  induction h with
  | nil => cases hy
  | cons hhead _ ih =>
      rcases List.mem_cons.mp hy with rfl | hy
      · exact ⟨_, List.mem_cons_self, hhead⟩
      · rcases ih hy with ⟨x, hx, hxy⟩
        exact ⟨x, List.mem_cons_of_mem _ hx, hxy⟩

/-- A traversal succeeds exactly where every element does. -/
theorem exists_mapM_eq_ok {f : α -> Except ε β} {xs : List α} :
    (exists ys, xs.mapM f = .ok ys) <->
      forall x, x ∈ xs -> exists y, f x = .ok y := by
  constructor
  · rintro ⟨ys, h⟩ x hx
    rcases mapM_eq_ok_forall h x hx with ⟨y, _, hy⟩
    exact ⟨y, hy⟩
  · intro h
    induction xs with
    | nil => exact ⟨[], rfl⟩
    | cons x rest ih =>
        rcases h x List.mem_cons_self with ⟨y, hy⟩
        rcases ih fun z hz => h z (List.mem_cons_of_mem x hz) with ⟨ys, hys⟩
        refine ⟨y :: ys, ?_⟩
        rw [List.mapM_cons, hy, hys]
        rfl

theorem mem_of_lookup_eq_some {κ α : Type} [BEq κ] [LawfulBEq κ]
    {entries : List (κ × α)} {key : κ} {value : α}
    (h : entries.lookup key = some value) : (key, value) ∈ entries := by
  rcases List.lookup_eq_some_iff.mp h with ⟨before, after, hentries, _⟩
  simp [hentries]

end Lib
