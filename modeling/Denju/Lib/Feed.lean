import Mathlib.Order.Lattice

/-!
# Feeds

Readers apply the numbered events of a log.  An event may become visible later
than others with larger numbers.  Readers that always apply the least event
that they await apply events in the order of their numbers, as long as no event
becomes visible behind one that an awaiting reader has applied already.
-/

namespace Lib

/-- The events that readers see, that each of them awaits, and the numbers of
those that each has applied. -/
structure Feed (ρ ε ν : Type) where
  visible : ε -> Prop
  awaits : ρ -> ε -> Prop
  applied : ρ -> ν -> Prop

namespace Feed

variable {ρ ε ν : Type} [LinearOrder ν] (number : ε -> ν)

/-- What a reader awaits comes after everything that it has applied. -/
def Caught (s : Feed ρ ε ν) : Prop :=
  forall reader event past, s.visible event -> s.awaits reader event ->
    s.applied reader past -> past < number event

/-- A reader that awaits the event awaits no earlier one. -/
def Settled (s : Feed ρ ε ν) (event : ε) : Prop :=
  forall reader earlier, s.visible earlier ->
    number earlier < number event -> s.awaits reader earlier ->
      ¬s.awaits reader event

/-- Nobody awaits the event. -/
def Done (s : Feed ρ ε ν) (event : ε) : Prop :=
  forall reader, ¬s.awaits reader event

/-- Events stay visible, and nobody begins to await one that is. -/
structure Eases (s t : Feed ρ ε ν) : Prop where
  visible : forall event, s.visible event -> t.visible event
  awaits : forall reader event, s.visible event -> t.awaits reader event ->
    s.awaits reader event

variable {number} {s t u : Feed ρ ε ν} {event : ε} {reader : ρ}

omit [LinearOrder ν] in
theorem Eases.refl (s : Feed ρ ε ν) : Eases s s :=
  ⟨fun _ h => h, fun _ _ _ h => h⟩

omit [LinearOrder ν] in
theorem Eases.trans (h : Eases s t) (h' : Eases t u) : Eases s u where
  visible := fun event hevent => h'.visible event (h.visible event hevent)
  awaits := fun reader event hevent hawaits =>
    h.awaits reader event hevent
      (h'.awaits reader event (h.visible event hevent) hawaits)

omit [LinearOrder ν] in
theorem Done.ease (hdone : s.Done event) (h : Eases s t)
    (hvisible : s.visible event) : t.Done event :=
  fun reader hawaits => hdone reader (h.awaits reader event hvisible hawaits)

/-- An event may become visible where it is behind nothing that an awaiting
reader has applied. -/
theorem Caught.reveal (hs : s.Caught number) (h : Eases s t)
    (happlied : forall reader past, t.applied reader past ->
      s.applied reader past)
    (hnew : forall event, t.visible event -> ¬s.visible event ->
      forall reader past, t.awaits reader event -> s.applied reader past ->
        past < number event) : t.Caught number := by
  intro reader event past hvisible hawaits hpast
  by_cases hold : s.visible event
  · exact hs reader event past hold (h.awaits reader event hold hawaits)
      (happlied reader past hpast)
  · exact hnew event hvisible hold reader past hawaits
      (happlied reader past hpast)

/-- A reader may apply the least event that it awaits. -/
theorem Caught.apply (hs : s.Caught number) (h : Eases s t)
    (hvisible : forall event, t.visible event -> s.visible event)
    (hleast : forall other, s.visible other -> s.awaits reader other ->
      number event ≤ number other)
    (happlied : forall other past, t.applied other past ->
      s.applied other past ∨ other = reader ∧ past = number event)
    (hgone : forall other, number other = number event ->
      ¬t.awaits reader other) : t.Caught number := by
  intro other later past hlater hawaits hpast
  have hbefore := h.awaits other later (hvisible later hlater) hawaits
  rcases happlied other past hpast with hold | ⟨rfl, rfl⟩
  · exact hs other later past (hvisible later hlater) hbefore hold
  · refine lt_of_le_of_ne (hleast later (hvisible later hlater) hbefore) ?_
    intro hsame
    exact hgone later hsame.symm hawaits

theorem Settled.least (hs : s.Settled number event)
    (hawaits : s.awaits reader event) (other : ε) (hother : s.visible other)
    (hearlier : s.awaits reader other) : number event ≤ number other := by
  by_contra hlt
  exact hs reader other hother (lt_of_not_ge hlt) hearlier hawaits

/-- An event stays settled if what becomes visible before it concerns other
readers. -/
theorem Settled.ease (hs : s.Settled number event) (h : Eases s t)
    (hvisible : s.visible event)
    (hnew : forall earlier, t.visible earlier -> ¬s.visible earlier ->
      number earlier < number event -> forall reader,
        t.awaits reader earlier -> ¬s.awaits reader event) :
    t.Settled number event := by
  intro reader earlier hearlier hlt hawaits hevent
  have hbefore := h.awaits reader event hvisible hevent
  by_cases hold : s.visible earlier
  · exact hs reader earlier hold hlt (h.awaits reader earlier hold hawaits)
      hbefore
  · exact hnew earlier hearlier hold hlt reader hawaits hbefore

/-- The first event that somebody may still await is settled. -/
theorem settled_of_done
    (h : forall earlier, s.visible earlier ->
      number earlier < number event -> s.Done earlier) :
    s.Settled number event :=
  fun reader earlier hearlier hlt hawaits _ =>
    h earlier hearlier hlt reader hawaits

end Feed
end Lib
