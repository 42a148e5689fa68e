import Denju.Lib.Runs

/-!
# Names

Items hold names, and a name that an item has given up may still point to it.
A change concerns one item: it may give up its name, take one that nobody
holds, or both.  As long as a taken name keeps no pointer, a held name has one
holder and no pointer, and a pointer leads to an item that has held the name.
-/

namespace Lib

variable {ι ν : Type}

structure Names (ι ν : Type) where
  holds : ι -> ν -> Prop
  points : ν -> ι -> Prop

namespace Names

/-- One holder of each name, and no pointer beside it. -/
structure Sound (s : Names ι ν) : Prop where
  unique : forall a b name, s.holds a name -> s.holds b name -> a = b
  direct : forall item name target,
    s.holds item name -> ¬s.points name target

/-- The change of what one item is called. -/
structure Changes (item : ι) (s t : Names ι ν) : Prop where
  others : forall other name, other ≠ item ->
    (t.holds other name <-> s.holds other name)
  free : forall name, t.holds item name -> ¬s.holds item name ->
    forall other, ¬s.holds other name
  leads : forall name target, t.points name target ->
    s.points name target ∨
      (target = item ∧ s.holds item name ∧ ¬t.holds item name)

def Takes (item : ι) (name : ν) (s t : Names ι ν) : Prop :=
  t.holds item name ∧ ¬s.holds item name

variable {item : ι} {s t : Names ι ν}

theorem Changes.refl (item : ι) (s : Names ι ν) : Changes item s s where
  others := fun _ _ _ => Iff.rfl
  free := fun _ hholds hnot => absurd hholds hnot
  leads := fun _ _ => .inl

namespace Changes

variable (h : Changes item s t)

include h

theorem unique
    (hs : forall a b name, s.holds a name -> s.holds b name -> a = b) :
    forall a b name, t.holds a name -> t.holds b name -> a = b := by
  have hself : forall other name, t.holds item name -> t.holds other name ->
      item = other := by
    intro other name hitem hother
    by_contra hne
    have hold := (h.others other name (Ne.symm hne)).mp hother
    by_cases hheld : s.holds item name
    · exact hne (hs item other name hheld hold)
    · exact h.free name hitem hheld other hold
  intro a b name ha hb
  by_cases hitem : a = item
  · rw [hitem] at ha ⊢
    exact hself b name ha hb
  · by_cases hother : b = item
    · rw [hother] at hb ⊢
      exact (hself a name hb ha).symm
    · exact hs a b name ((h.others a name hitem).mp ha)
        ((h.others b name hother).mp hb)

/-- A change keeps the names sound exactly when it leaves no pointer at the
name that it takes. -/
theorem sound_iff (hs : s.Sound) :
    t.Sound <-> forall name target, Takes item name s t ->
      ¬t.points name target := by
  constructor
  · intro ht name target htakes
    exact ht.direct item name target htakes.1
  · intro hclear
    refine ⟨h.unique hs.unique, ?_⟩
    intro holder name target hholds hpoints
    rcases h.leads name target hpoints with hold | ⟨rfl, hgave, hnot⟩
    · by_cases hitem : holder = item
      · rw [hitem] at hholds
        by_cases hheld : s.holds item name
        · exact hs.direct item name target hheld hold
        · exact hclear name target ⟨hholds, hheld⟩ hpoints
      · have hheld := (h.others holder name hitem).mp hholds
        exact hs.direct holder name target hheld hold
    · by_cases hitem : holder = target
      · rw [hitem] at hholds
        exact hnot hholds
      · have hheld := (h.others holder name hitem).mp hholds
        exact hitem (hs.unique holder target name hheld hgave)

end Changes

/-!
## Runs of changes
-/

section Runs

variable {σ ε : Type} {step : σ -> ε -> σ -> Prop} {P : σ -> Prop}

/-- From a moment at which a name is held, a pointer at the name leads only to
items that have held it since. -/
theorem points_held (names : σ -> Names ι ν) (hsound : forall s, P s -> (names s).Sound)
    (hstep : forall s event t, P s -> step s event t ->
      P t ∧ exists item, Changes item (names s) (names t))
    {init s : σ} {events : List ε} {holder target : ι} {name : ν}
    (hinit : P init) (hheld : (names init).holds holder name)
    (hrun : Run step init events s) :
    P s ∧ ((names s).points name target ->
      exists early late middle, events = early ++ late ∧
        Run step init early middle ∧ Run step middle late s ∧
          (names middle).holds target name) := by
  induction hrun with
  | nil =>
      refine ⟨hinit, fun hpoints => ?_⟩
      exact absurd hpoints ((hsound init hinit).direct holder name target hheld)
  | snoc hbefore hlast ih =>
      rcases hstep _ _ _ ih.1 hlast with ⟨hnext, item, hchanges⟩
      refine ⟨hnext, fun hpoints => ?_⟩
      rcases hchanges.leads name target hpoints with hold | ⟨rfl, hgave, _⟩
      · rcases ih.2 hold with ⟨early, late, middle, rfl, hearly, hlate, hholds⟩
        refine ⟨early, late ++ [_], middle, ?_, hearly, hlate.snoc hlast,
          hholds⟩
        rw [List.append_assoc]
      · exact ⟨_, [_], _, rfl, hbefore, Run.nil.snoc hlast, hgave⟩

end Runs
end Names
end Lib
