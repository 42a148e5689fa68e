import Denju.Lib.Locking
import Denju.Lib.Sorting
import Denju.Registry.Schema
import Mathlib.Data.List.Dedup

/-!
# The order of locks

What the transactions of the registry lock, and in which order: the creation, a
change and the drain of a pack, the publication of a skill, and the import of
one.  An advisory lock is known to the database by a hash of its name.
-/

namespace Denju

open Lib

inductive AdvisoryName where
  | pack (id : Uuid)
  | skill (id : Uuid)
deriving DecidableEq, Repr

inductive RegistryLock where
  | namespaceRow (id : Uuid) (exclusive : Bool)
  | packRow (id : Uuid)
  | advisory (name : AdvisoryName)
  | skillRow (id : Uuid) (exclusive : Bool)
deriving DecidableEq, Repr

namespace RegistryLock

/-- Two locks on the same row or under the same hash, not both shared. -/
def conflicts (key : AdvisoryName -> UInt64) :
    RegistryLock -> RegistryLock -> Bool
  | .namespaceRow a x, .namespaceRow b y => decide (a = b) && (x || y)
  | .packRow a, .packRow b => decide (a = b)
  | .advisory a, .advisory b => decide (key a = key b)
  | .skillRow a x, .skillRow b y => decide (a = b) && (x || y)
  | _, _ => false

theorem conflicts_symm (key : AdvisoryName -> UInt64) (a b : RegistryLock) :
    conflicts key a b = conflicts key b a := by
  cases a <;> cases b <;> simp [conflicts, eq_comm, Bool.or_comm]

end RegistryLock

/-- The transactions that the lock order is about.  A change of a pack is a
mutation, a publication or a lifecycle call; both parts of an import take the
same locks. -/
inductive LockCall where
  | createPack (namespaceId : Uuid)
  | changePack (namespaceId packId : Uuid) (skillIds : List Uuid)
  | advancePack (packId skillId : Uuid)
  | publishSkill (skillId namespaceId : Uuid)
  | importSkill (namespaceId : Uuid) (upstream : Option Uuid)
deriving DecidableEq, Repr

namespace LockCall

/-- The skills of a change without repetitions, in the order of their
identifiers. -/
def sortedSkills (skillIds : List Uuid) : List Uuid :=
  sortByKey (fun id : Uuid => id.toList) skillIds.dedup

/-- The locks of a call in their order.  A lock that the transaction already
holds is not repeated. -/
def script : LockCall -> List RegistryLock
  | .createPack namespaceId => [.namespaceRow namespaceId false]
  | .changePack namespaceId packId skillIds =>
      [.namespaceRow namespaceId false, .packRow packId,
        .advisory (.pack packId)] ++
        (sortedSkills skillIds).map fun id => .advisory (.skill id)
  | .advancePack packId skillId =>
      [.advisory (.pack packId), .advisory (.skill skillId), .packRow packId]
  | .publishSkill skillId namespaceId =>
      [.advisory (.skill skillId), .namespaceRow namespaceId false,
        .skillRow skillId true]
  | .importSkill namespaceId upstream =>
      [.namespaceRow namespaceId false, .namespaceRow namespaceId true] ++
        upstream.toList.map fun id => .skillRow id false

def names : LockCall -> List AdvisoryName
  | .createPack _ => []
  | .changePack _ packId skillIds =>
      .pack packId :: (sortedSkills skillIds).map .skill
  | .advancePack packId skillId => [.pack packId, .skill skillId]
  | .publishSkill skillId _ => [.skill skillId]
  | .importSkill _ _ => []

end LockCall

/-- The transactions of a registry that are under way. -/
abbrev RegistryLocks := LockTable LockCall RegistryLock

namespace RegistryLocks

variable (key : AdvisoryName -> UInt64)

def next (table : RegistryLocks) (event : LockEvent LockCall) :
    RegistryLocks :=
  LockTable.next (RegistryLock.conflicts key) LockCall.script table event

def Deadlocked (table : RegistryLocks) : Prop :=
  LockTable.Deadlocked (RegistryLock.conflicts key) table

/-!
## Locks that cross
-/

/-- It has the advisory lock of the pack, and still needs its row. -/
def advancing (packId : Uuid) (tx : Locking LockCall RegistryLock) : Bool :=
  .advisory (.pack packId) ∈ tx.held ∧ .packRow packId ∈ tx.rest

/-- It has the row of the pack, and still needs the advisory lock. -/
def changing (packId : Uuid) (tx : Locking LockCall RegistryLock) : Bool :=
  .packRow packId ∈ tx.held ∧ .advisory (.pack packId) ∈ tx.rest

/-- It shares the row of the namespace, and still needs it for itself. -/
def upgrading (namespaceId : Uuid) (tx : Locking LockCall RegistryLock) :
    Bool :=
  .namespaceRow namespaceId false ∈ tx.held ∧
    .namespaceRow namespaceId true ∈ tx.rest

/-- Taking the lock crosses the order of a transaction under way: a change
takes the row of a pack that a round of the drain is advancing, a round of the
drain takes the advisory lock of a pack that is being changed, or an import
shares a namespace that another import is about to take for itself. -/
def crosses : LockCall -> RegistryLock -> Locking LockCall RegistryLock -> Bool
  | .changePack _ _ _, .packRow packId, tx => advancing packId tx
  | .advancePack _ _, .advisory (.pack packId), tx => changing packId tx
  | .importSkill _ _, .namespaceRow namespaceId false, tx =>
      upgrading namespaceId tx
  | _, _, _ => false

/-- The advisory names of two calls have different hashes unless they are the
same. -/
def Separate (a b : LockCall) : Prop :=
  forall m, m ∈ a.names -> forall n, n ∈ b.names -> key m = key n -> m = n

/-- A call starts only if its advisory names are not confused with those of the
calls under way, and no lock is taken across the order. -/
def InOrder (table : RegistryLocks) : LockEvent LockCall -> Prop
  | .start call =>
      Separate key call call ∧
        forall tx, tx ∈ table -> Separate key call tx.call
  | .lock index =>
      forall tx, tx ∈ table[index]? ->
        forall request, request ∈ tx.rest.head? ->
          forall other, other ∈ table -> crosses tx.call request other = false
  | .finish _ => True

instance (a b : LockCall) : Decidable (Separate key a b) :=
  inferInstanceAs (Decidable (forall m, m ∈ a.names -> _))

instance (table : RegistryLocks) :
    forall event, Decidable (InOrder key table event)
  | .start _ => inferInstanceAs (Decidable (_ ∧ _))
  | .lock index =>
      inferInstanceAs (Decidable (forall tx, tx ∈ table[index]? -> _))
  | .finish _ => .isTrue trivial

/-!
## Ranks

A transaction that waits has the rank of the lock it asks for.  A lock that is
held keeps others waiting at most at the rank to which it is exposed.
-/

def rank : RegistryLock -> Lex (Nat × List UInt8)
  | .namespaceRow _ true => toLex (0, [])
  | .packRow _ => toLex (1, [])
  | .advisory (.pack _) => toLex (2, [])
  | .advisory (.skill id) => toLex (3, id.toList)
  | .namespaceRow _ false => toLex (4, [])
  | .skillRow _ _ => toLex (5, [])

def exposed : RegistryLock -> Lex (Nat × List UInt8)
  | .namespaceRow _ true => toLex (4, [])
  | .namespaceRow _ false => toLex (0, [])
  | lock => rank lock

/-- How a lock may stand before another one in the script of a call: its
exposure is below the rank of the other, except where the drain asks for the
row of a pack, or an import asks for a namespace that it shares. -/
def Before (call : LockCall) (a b : RegistryLock) : Prop :=
  exposed a < rank b ∨
    (exists packId skillId, call = .advancePack packId skillId ∧
      b = .packRow packId) ∨
    exists namespaceId upstream, call = .importSkill namespaceId upstream ∧
      a = .namespaceRow namespaceId false ∧ b = .namespaceRow namespaceId true

theorem sortedSkills_pairwise (skillIds : List Uuid) :
    (LockCall.sortedSkills skillIds).Pairwise fun a b =>
      a.toList < b.toList := by
  have hperm := sortByKey_perm (fun id : Uuid => id.toList) skillIds.dedup
  have hunique : (LockCall.sortedSkills skillIds).Nodup :=
    hperm.nodup_iff.mpr (List.nodup_dedup skillIds)
  refine ((sortByKey_pairwise (fun id : Uuid => id.toList)
    skillIds.dedup).and hunique).imp ?_
  rintro a b ⟨hle, hne⟩
  refine lt_of_le_of_ne hle fun hlist => hne ?_
  exact Vector.toList_inj.mp hlist

theorem rank_lt_of_level {m n : Nat} {xs ys : List UInt8} (h : m < n) :
    (toLex (m, xs) : Lex (Nat × List UInt8)) < toLex (n, ys) :=
  Prod.Lex.toLex_lt_toLex.mpr (.inl h)

theorem script_pairwise (call : LockCall) :
    call.script.Pairwise (Before call) := by
  cases call with
  | createPack namespaceId => exact List.pairwise_singleton _ _
  | changePack namespaceId packId skillIds =>
      have hskills : ((LockCall.sortedSkills skillIds).map fun id =>
          RegistryLock.advisory (.skill id)).Pairwise
          (Before (.changePack namespaceId packId skillIds)) := by
        refine List.pairwise_map.mpr
          ((sortedSkills_pairwise skillIds).imp fun {a b} hlt => .inl ?_)
        exact Prod.Lex.toLex_lt_toLex.mpr (.inr ⟨rfl, hlt⟩)
      have hlow : forall lock (id : Uuid),
          lock ∈ [RegistryLock.namespaceRow namespaceId false, .packRow packId,
            .advisory (.pack packId)] ->
          Before (.changePack namespaceId packId skillIds) lock
            (.advisory (.skill id)) := by
        intro lock id hlock
        simp only [List.mem_cons, List.not_mem_nil, or_false] at hlock
        rcases hlock with rfl | rfl | rfl
        · exact .inl (rank_lt_of_level (by decide))
        · exact .inl (rank_lt_of_level (by decide))
        · exact .inl (rank_lt_of_level (by decide))
      refine List.pairwise_append.mpr ⟨?_, hskills, ?_⟩
      · simp only [List.pairwise_cons, List.mem_cons, List.not_mem_nil,
          or_false, forall_eq_or_imp, forall_eq, false_implies, implies_true,
          List.Pairwise.nil, and_true]
        exact ⟨⟨.inl (rank_lt_of_level (by decide)),
          .inl (rank_lt_of_level (by decide))⟩,
          .inl (rank_lt_of_level (by decide))⟩
      · intro lock hlock other hother
        rcases List.mem_map.mp hother with ⟨id, _, rfl⟩
        exact hlow lock id hlock
  | advancePack packId skillId =>
      simp only [LockCall.script, List.pairwise_cons, List.mem_cons,
        List.not_mem_nil, or_false, forall_eq_or_imp, forall_eq,
        false_implies, implies_true, List.Pairwise.nil, and_true]
      exact ⟨⟨.inl (rank_lt_of_level (by decide)),
        .inr (.inl ⟨packId, skillId, rfl, rfl⟩)⟩,
        .inr (.inl ⟨packId, skillId, rfl, rfl⟩)⟩
  | publishSkill skillId namespaceId =>
      simp only [LockCall.script, List.pairwise_cons, List.mem_cons,
        List.not_mem_nil, or_false, forall_eq_or_imp, forall_eq,
        false_implies, implies_true, List.Pairwise.nil, and_true]
      exact ⟨⟨.inl (rank_lt_of_level (by decide)),
        .inl (rank_lt_of_level (by decide))⟩,
        .inl (rank_lt_of_level (by decide))⟩
  | importSkill namespaceId upstream =>
      refine List.pairwise_append.mpr ⟨?_, ?_, ?_⟩
      · simp only [List.pairwise_cons, List.mem_cons, List.not_mem_nil,
          or_false, forall_eq, false_implies, implies_true,
          List.Pairwise.nil, and_true]
        exact .inr (.inr ⟨namespaceId, upstream, rfl, rfl, rfl⟩)
      · cases upstream with
        | none => exact List.Pairwise.nil
        | some id => exact List.pairwise_singleton _ _
      · intro lock hlock other hother
        rcases List.mem_map.mp hother with ⟨id, _, rfl⟩
        simp only [List.mem_cons, List.not_mem_nil, or_false] at hlock
        rcases hlock with rfl | rfl
        · exact .inl (rank_lt_of_level (by decide))
        · exact .inl (rank_lt_of_level (by decide))

/-- What a transaction holds stands before what it still needs. -/
theorem before_of_scripted {tx : Locking LockCall RegistryLock}
    {a b : RegistryLock} (h : LockTable.Scripted LockCall.script tx)
    (ha : a ∈ tx.held) (hb : b ∈ tx.rest) : Before tx.call a b := by
  rcases h with hscript | ⟨hnone, _⟩
  · have hpairs := script_pairwise tx.call
    rw [← hscript] at hpairs
    exact (List.pairwise_append.mp hpairs).2.2 a ha b hb
  · rw [hnone] at ha
    cases ha

theorem mem_script {tx : Locking LockCall RegistryLock} {lock : RegistryLock}
    (h : LockTable.Scripted LockCall.script tx)
    (hlock : lock ∈ tx.held ∨ lock ∈ tx.rest) : lock ∈ tx.call.script := by
  rcases h with hscript | ⟨hheld, hrest⟩
  · rw [← hscript]
    exact List.mem_append.mpr hlock
  · rw [hheld, hrest] at hlock
    rcases hlock with hlock | hlock
    · cases hlock
    · cases hlock

/-- The rest of a script that has been entered. -/
theorem mem_of_mem_script {tx : Locking LockCall RegistryLock}
    {lock other : RegistryLock}
    (h : LockTable.Scripted LockCall.script tx) (hother : other ∈ tx.held ∨
      other ∈ tx.rest) (hlock : lock ∈ tx.call.script) :
    lock ∈ tx.held ∨ lock ∈ tx.rest := by
  rcases h with hscript | ⟨hheld, hrest⟩
  · rw [← hscript] at hlock
    exact List.mem_append.mp hlock
  · rw [hheld, hrest] at hother
    rcases hother with hother | hother
    · cases hother
    · cases hother

theorem call_of_packRow {call : LockCall} {packId : Uuid}
    (h : .packRow packId ∈ call.script) :
    (exists namespaceId skillIds,
        call = .changePack namespaceId packId skillIds) ∨
      exists skillId, call = .advancePack packId skillId := by
  cases call with
  | createPack => simp [LockCall.script] at h
  | changePack namespaceId other skillIds =>
      simp [LockCall.script] at h
      exact .inl ⟨namespaceId, skillIds, by rw [h]⟩
  | advancePack other skillId =>
      simp [LockCall.script] at h
      exact .inr ⟨skillId, by rw [h]⟩
  | publishSkill => simp [LockCall.script] at h
  | importSkill namespaceId upstream =>
      cases upstream <;> simp [LockCall.script] at h

theorem call_of_exclusive {call : LockCall} {namespaceId : Uuid}
    (h : .namespaceRow namespaceId true ∈ call.script) :
    exists upstream, call = .importSkill namespaceId upstream := by
  cases call with
  | createPack => simp [LockCall.script] at h
  | changePack => simp [LockCall.script] at h
  | advancePack => simp [LockCall.script] at h
  | publishSkill => simp [LockCall.script] at h
  | importSkill other upstream =>
      have hsame : namespaceId = other := by
        cases upstream <;> simpa [LockCall.script] using h
      exact ⟨upstream, by rw [hsame]⟩

/-- The drain takes the row of a pack last. -/
theorem advance_last {tx : Locking LockCall RegistryLock}
    {packId skillId other : Uuid} {lock : RegistryLock}
    (h : LockTable.Scripted LockCall.script tx)
    (hcall : tx.call = .advancePack packId skillId)
    (hheld : .packRow other ∈ tx.held) : lock ∉ tx.rest := by
  intro hlock
  have hpairs : (LockCall.script (.advancePack packId skillId)).Pairwise
      fun a _ => a ≠ .packRow other := by
    simp [LockCall.script]
  rcases h with hscript | ⟨hnone, _⟩
  · rw [← hcall, ← hscript] at hpairs
    exact (List.pairwise_append.mp hpairs).2.2 _ hheld _ hlock rfl
  · rw [hnone] at hheld
    cases hheld

/-- A transaction that advances a pack is a round of the drain. -/
theorem call_of_advancing {tx : Locking LockCall RegistryLock}
    {packId : Uuid} (h : LockTable.Scripted LockCall.script tx)
    (hheld : .advisory (.pack packId) ∈ tx.held)
    (hrest : .packRow packId ∈ tx.rest) :
    exists skillId, tx.call = .advancePack packId skillId := by
  rcases before_of_scripted h hheld hrest with hlt | ⟨other, skillId, hcall,
    hsame⟩ | ⟨_, _, _, hsame, _⟩
  · exact absurd hlt (lt_asymm (rank_lt_of_level (by decide)))
  · cases hsame
    exact ⟨skillId, hcall⟩
  · cases hsame

/-- A transaction that is about to change a pack is a change of it. -/
theorem call_of_changing {tx : Locking LockCall RegistryLock}
    {packId : Uuid} (h : LockTable.Scripted LockCall.script tx)
    (hheld : .packRow packId ∈ tx.held)
    (hrest : .advisory (.pack packId) ∈ tx.rest) :
    exists namespaceId skillIds,
      tx.call = .changePack namespaceId packId skillIds := by
  rcases call_of_packRow (mem_script h (.inl hheld)) with hchange |
    ⟨skillId, hadvance⟩
  · exact hchange
  · exact absurd hrest (advance_last h hadvance hheld)

/-!
## Runs without crossing locks
-/

/-- What holds as long as no lock is taken across the order. -/
structure Ordered (table : RegistryLocks) : Prop where
  consistent : LockTable.Consistent (RegistryLock.conflicts key)
    LockCall.script table
  separate : forall tx, tx ∈ table -> forall other, other ∈ table ->
    Separate key tx.call other.call
  pack : forall tx, tx ∈ table -> forall other, other ∈ table ->
    forall packId, advancing packId tx = true -> changing packId other = false
  upgrade : forall (i j : Nat) (tx other : Locking LockCall RegistryLock)
    (namespaceId : Uuid), i ≠ j -> table[i]? = some tx ->
      table[j]? = some other -> upgrading namespaceId tx = true ->
        upgrading namespaceId other = false

variable {key} {table : RegistryLocks} {event : LockEvent LockCall}

theorem ordered_nil : Ordered key [] where
  consistent := LockTable.consistent_nil
  separate := fun _ h => by cases h
  pack := fun _ h => by cases h
  upgrade := fun _ _ _ _ _ _ h => by simp at h

theorem Separate.symm {a b : LockCall} (h : Separate key a b) :
    Separate key b a :=
  fun m hm n hn hkey => (h n hn m hm hkey.symm).symm

theorem separate_next (h : Ordered key table)
    (horder : InOrder key table event)
    (tx : Locking LockCall RegistryLock) (htx : tx ∈ next key table event)
    (other : Locking LockCall RegistryLock)
    (hother : other ∈ next key table event) :
    Separate key tx.call other.call := by
  rcases LockTable.call_next htx with ⟨old, hold, hcall⟩ | hstart
  · rcases LockTable.call_next hother with ⟨oldOther, holdOther, hcallOther⟩ |
      hstartOther
    · rw [← hcall, ← hcallOther]
      exact h.separate old hold oldOther holdOther
    · rw [hstartOther] at horder
      rw [← hcall]
      exact (horder.2 old hold).symm
  · rw [hstart] at horder
    rcases LockTable.call_next hother with ⟨oldOther, holdOther, hcallOther⟩ |
      hstartOther
    · rw [← hcallOther]
      exact horder.2 oldOther holdOther
    · have hcall : tx.call = other.call :=
        LockEvent.start.inj (hstart.symm.trans hstartOther)
      rw [← hcall]
      exact horder.1

theorem advancing_next (horder : InOrder key table event)
    (hscripted : LockTable.Consistent (RegistryLock.conflicts key)
      LockCall.script (next key table event))
    {i : Nat} {tx : Locking LockCall RegistryLock} {packId : Uuid}
    (hi : (next key table event)[i]? = some tx)
    (hadvancing : advancing packId tx = true) :
    (exists old, old ∈ table ∧ advancing packId old = true) ∨
      (event = .lock i ∧
        forall other, other ∈ table -> changing packId other = false) := by
  have hboth := of_decide_eq_true hadvancing
  rcases LockTable.between_next hi hboth.1 hboth.2 with
    ⟨old, hold, hcall, hbefore | ⟨rfl, hhead⟩⟩
  · exact .inl ⟨old, List.mem_of_getElem? hold, decide_eq_true hbefore⟩
  · refine .inr ⟨rfl, fun other hother => ?_⟩
    rcases call_of_advancing (hscripted.scripted tx (List.mem_of_getElem? hi))
      hboth.1 hboth.2 with ⟨skillId, hadvance⟩
    have hfree := horder old hold _ hhead other hother
    rw [hcall, hadvance] at hfree
    exact hfree

theorem changing_next (horder : InOrder key table event)
    (hscripted : LockTable.Consistent (RegistryLock.conflicts key)
      LockCall.script (next key table event))
    {i : Nat} {tx : Locking LockCall RegistryLock} {packId : Uuid}
    (hi : (next key table event)[i]? = some tx)
    (hchanging : changing packId tx = true) :
    (exists old, old ∈ table ∧ changing packId old = true) ∨
      (event = .lock i ∧
        forall other, other ∈ table -> advancing packId other = false) := by
  have hboth := of_decide_eq_true hchanging
  rcases LockTable.between_next hi hboth.1 hboth.2 with
    ⟨old, hold, hcall, hbefore | ⟨rfl, hhead⟩⟩
  · exact .inl ⟨old, List.mem_of_getElem? hold, decide_eq_true hbefore⟩
  · refine .inr ⟨rfl, fun other hother => ?_⟩
    rcases call_of_changing (hscripted.scripted tx (List.mem_of_getElem? hi))
      hboth.1 hboth.2 with ⟨namespaceId, skillIds, hchange⟩
    have hfree := horder old hold _ hhead other hother
    rw [hcall, hchange] at hfree
    exact hfree

theorem upgrading_next (horder : InOrder key table event)
    (hscripted : LockTable.Consistent (RegistryLock.conflicts key)
      LockCall.script (next key table event))
    {i : Nat} {tx : Locking LockCall RegistryLock} {namespaceId : Uuid}
    (hi : (next key table event)[i]? = some tx)
    (hupgrading : upgrading namespaceId tx = true) :
    (exists old, table[i]? = some old ∧ upgrading namespaceId old = true) ∨
      (event = .lock i ∧
        forall other, other ∈ table -> upgrading namespaceId other = false) := by
  have hboth := of_decide_eq_true hupgrading
  rcases LockTable.between_next hi hboth.1 hboth.2 with
    ⟨old, hold, hcall, hbefore | ⟨rfl, hhead⟩⟩
  · exact .inl ⟨old, hold, decide_eq_true hbefore⟩
  · refine .inr ⟨rfl, fun other hother => ?_⟩
    rcases call_of_exclusive (mem_script
      (hscripted.scripted tx (List.mem_of_getElem? hi)) (.inr hboth.2)) with
      ⟨upstream, himport⟩
    have hfree := horder old hold _ hhead other hother
    rw [hcall, himport] at hfree
    exact hfree

theorem Ordered.next (h : Ordered key table)
    (horder : InOrder key table event) : Ordered key (next key table event) := by
  have hconsistent : LockTable.Consistent (RegistryLock.conflicts key)
      LockCall.script (RegistryLocks.next key table event) :=
    h.consistent.next (RegistryLock.conflicts_symm key) event
  refine ⟨hconsistent, separate_next h horder, ?_, ?_⟩
  · intro tx htx other hother packId hadvancing
    rw [Bool.eq_false_iff]
    intro hchanging
    rcases List.getElem?_of_mem htx with ⟨i, hi⟩
    rcases List.getElem?_of_mem hother with ⟨j, hj⟩
    rcases advancing_next horder hconsistent hi hadvancing with
      ⟨old, hold, hbefore⟩ | ⟨hlock, hnone⟩
    · rcases changing_next horder hconsistent hj hchanging with
        ⟨oldOther, holdOther, hbeforeOther⟩ | ⟨_, hnone⟩
      · rw [h.pack old hold oldOther holdOther packId hbefore] at hbeforeOther
        cases hbeforeOther
      · rw [hnone old hold] at hbefore
        cases hbefore
    · rcases changing_next horder hconsistent hj hchanging with
        ⟨oldOther, holdOther, hbeforeOther⟩ | ⟨hlockOther, _⟩
      · rw [hnone oldOther holdOther] at hbeforeOther
        cases hbeforeOther
      · rw [hlock] at hlockOther
        cases hlockOther
        rw [hi] at hj
        cases hj
        have hscripted := hconsistent.scripted tx htx
        have hadvance := of_decide_eq_true hadvancing
        have hchange := of_decide_eq_true hchanging
        rcases call_of_advancing hscripted hadvance.1 hadvance.2 with
          ⟨_, hcall⟩
        rcases call_of_changing hscripted hchange.1 hchange.2 with
          ⟨_, _, hother⟩
        rw [hcall] at hother
        cases hother
  · intro i j tx other namespaceId hij hi hj hupgrading
    rw [Bool.eq_false_iff]
    intro hupgradingOther
    rcases upgrading_next horder hconsistent hi hupgrading with
      ⟨old, hold, hbefore⟩ | ⟨hlock, hnone⟩
    · rcases upgrading_next horder hconsistent hj hupgradingOther with
        ⟨oldOther, holdOther, hbeforeOther⟩ | ⟨_, hnone⟩
      · rw [h.upgrade i j old oldOther namespaceId hij hold holdOther
          hbefore] at hbeforeOther
        cases hbeforeOther
      · rw [hnone old (List.mem_of_getElem? hold)] at hbefore
        cases hbefore
    · rcases upgrading_next horder hconsistent hj hupgradingOther with
        ⟨oldOther, holdOther, hbeforeOther⟩ | ⟨hlockOther, _⟩
      · rw [hnone oldOther (List.mem_of_getElem? holdOther)] at hbeforeOther
        cases hbeforeOther
      · rw [hlock] at hlockOther
        cases hlockOther
        exact hij rfl

/-!
## Nobody waits in a circle
-/

/-- A lock keeps others waiting at most at the rank to which it is exposed. -/
theorem rank_le_exposed {a b : RegistryLock}
    (hnames : forall m n, a = .advisory m -> b = .advisory n -> key m = key n ->
      m = n)
    (h : RegistryLock.conflicts key a b = true) : rank a ≤ exposed b := by
  cases b with
  | namespaceRow id exclusive =>
      cases a with
      | namespaceRow other exclusiveOther =>
          simp only [RegistryLock.conflicts, Bool.and_eq_true,
            Bool.or_eq_true] at h
          cases exclusive with
          | true =>
              cases exclusiveOther with
              | true => exact le_of_lt (rank_lt_of_level (by decide))
              | false => exact le_refl _
          | false =>
              have hexclusive : exclusiveOther = true := by simpa using h.2
              rw [hexclusive]
              exact le_refl _
      | packRow => cases h
      | advisory => cases h
      | skillRow => cases h
  | packRow id =>
      cases a with
      | packRow => exact le_refl _
      | namespaceRow => cases h
      | advisory => cases h
      | skillRow => cases h
  | advisory name =>
      cases a with
      | advisory other =>
          rw [hnames other name rfl rfl (of_decide_eq_true h)]
          exact le_refl _
      | namespaceRow => cases h
      | packRow => cases h
      | skillRow => cases h
  | skillRow id exclusive =>
      cases a with
      | skillRow => exact le_refl _
      | namespaceRow => cases h
      | packRow => cases h
      | advisory => cases h

theorem mem_names {call : LockCall} {name : AdvisoryName}
    (h : .advisory name ∈ call.script) : name ∈ call.names := by
  cases call with
  | createPack => simp [LockCall.script] at h
  | changePack namespaceId packId skillIds =>
      simp only [LockCall.script, List.cons_append, List.nil_append,
        List.mem_cons, List.mem_map, reduceCtorEq, false_or,
        RegistryLock.advisory.injEq] at h
      rcases h with rfl | ⟨id, hid, rfl⟩
      · exact List.mem_cons_self
      · exact List.mem_cons_of_mem _ (List.mem_map_of_mem hid)
  | advancePack packId skillId =>
      simpa [LockCall.script, LockCall.names] using h
  | publishSkill skillId namespaceId =>
      simpa [LockCall.script, LockCall.names] using h
  | importSkill namespaceId upstream =>
      cases upstream <;> simp [LockCall.script] at h

/-- A round of the drain that wants the row of its pack has its advisory
lock. -/
theorem advisory_of_advance {tx : Locking LockCall RegistryLock}
    {packId skillId other : Uuid} {rest : List RegistryLock}
    (h : LockTable.Scripted LockCall.script tx)
    (hcall : tx.call = .advancePack packId skillId)
    (hrest : tx.rest = .packRow other :: rest) :
    other = packId ∧ .advisory (.pack packId) ∈ tx.held := by
  have hrow : .packRow other ∈ tx.rest := by
    rw [hrest]
    exact List.mem_cons_self
  have hsame : other = packId := by
    have hmem := mem_script h (.inr hrow)
    rw [hcall] at hmem
    simpa [LockCall.script] using hmem
  have hpairs : (LockCall.script (.advancePack packId skillId)).Pairwise
      fun a _ => a ≠ .packRow packId := by
    simp [LockCall.script]
  have hadvisory : RegistryLock.advisory (.pack packId) ∈ tx.call.script := by
    rw [hcall]
    exact List.mem_cons_self
  refine ⟨hsame, ?_⟩
  rcases mem_of_mem_script h (.inr hrow) hadvisory with hheld | hlater
  · exact hheld
  · rcases h with hscript | ⟨_, hnone⟩
    · rw [← hcall, ← hscript, hrest, hsame] at hpairs
      rw [hrest] at hlater
      rcases List.mem_cons.mp hlater with hhead | htail
      · cases hhead
      · exact absurd rfl ((List.pairwise_cons.mp
          (List.pairwise_append.mp hpairs).2.1).1 _ htail)
    · rw [hnone] at hrest
      cases hrest

/-- Nobody keeps a round of the drain waiting for the row of its pack. -/
theorem Ordered.advance_free (h : Ordered key table) {j k : Nat}
    {other holder : Locking LockCall RegistryLock} {packId : Uuid}
    {rest : List RegistryLock} (hother : table[j]? = some other)
    (hholder : table[k]? = some holder) (hjk : j ≠ k)
    (hadvance : exists pack skill, other.call = .advancePack pack skill)
    (hrest : other.rest = .packRow packId :: rest) :
    .packRow packId ∉ holder.held := by
  intro hheld
  rcases hadvance with ⟨_, skillId, hcall⟩
  have hscripted := h.consistent.scripted other (List.mem_of_getElem? hother)
  have hholderScripted :=
    h.consistent.scripted holder (List.mem_of_getElem? hholder)
  rcases advisory_of_advance hscripted hcall hrest with ⟨rfl, hadvisory⟩
  have hconflict : RegistryLock.conflicts key (.advisory (.pack packId))
      (.advisory (.pack packId)) = true := decide_eq_true rfl
  have hfree : .advisory (.pack packId) ∉ holder.held := by
    intro hboth
    rw [h.consistent.compatible j k other holder _ _ hjk hother hholder
      hadvisory hboth] at hconflict
    cases hconflict
  rcases call_of_packRow (mem_script hholderScripted (.inl hheld)) with
    ⟨namespaceId, skillIds, hchange⟩ | ⟨skill, hround⟩
  · have hscript : RegistryLock.advisory (.pack packId) ∈
        holder.call.script := by
      rw [hchange]
      simp [LockCall.script]
    rcases mem_of_mem_script hholderScripted (.inl hheld) hscript with
      hbefore | hlater
    · exact hfree hbefore
    · have hadvancing : advancing packId other = true :=
        decide_eq_true ⟨hadvisory, by rw [hrest]; exact List.mem_cons_self⟩
      have hchanging : changing packId holder = true :=
        decide_eq_true ⟨hheld, hlater⟩
      rw [h.pack other (List.mem_of_getElem? hother) holder
        (List.mem_of_getElem? hholder) packId hadvancing] at hchanging
      cases hchanging
  · have hscript : RegistryLock.advisory (.pack packId) ∈
        holder.call.script := by
      rw [hround]
      exact List.mem_cons_self
    rcases mem_of_mem_script hholderScripted (.inl hheld) hscript with
      hbefore | hlater
    · exact hfree hbefore
    · exact advance_last hholderScripted hround hheld hlater

/-- An import that wants a namespace for itself shares it already. -/
theorem shared_of_exclusive {tx : Locking LockCall RegistryLock}
    {namespaceId : Uuid} {rest : List RegistryLock}
    (h : LockTable.Scripted LockCall.script tx)
    (hrest : tx.rest = .namespaceRow namespaceId true :: rest) :
    .namespaceRow namespaceId false ∈ tx.held := by
  have hnext : .namespaceRow namespaceId true ∈ tx.rest := by
    rw [hrest]
    exact List.mem_cons_self
  rcases call_of_exclusive (mem_script h (.inr hnext)) with ⟨upstream, hcall⟩
  have hshared : RegistryLock.namespaceRow namespaceId false ∈
      tx.call.script := by
    rw [hcall]
    exact List.mem_cons_self
  rcases mem_of_mem_script h (.inr hnext) hshared with hheld | hlater
  · exact hheld
  · rcases h with hscript | ⟨_, hnone⟩
    · have hpairs := script_pairwise tx.call
      rw [← hscript, hrest] at hpairs
      rw [hrest] at hlater
      rcases List.mem_cons.mp hlater with hhead | htail
      · cases hhead
      · rcases (List.pairwise_cons.mp
          (List.pairwise_append.mp hpairs).2.1).1 _ htail with
          hlt | ⟨_, _, _, hrow⟩ | ⟨_, _, _, _, hexclusive⟩
        · exact absurd hlt (lt_irrefl _)
        · cases hrow
        · cases hexclusive
    · rw [hnone] at hrest
      cases hrest

/-- Whoever is waited for waits at a higher rank. -/
theorem Ordered.rank_lt (h : Ordered key table) {i j k : Nat}
    {a b : RegistryLock}
    (hwait : LockTable.WaitsFor (RegistryLock.conflicts key) table i j)
    (hnext : LockTable.WaitsFor (RegistryLock.conflicts key) table j k)
    (ha : LockTable.Requests table i a) (hb : LockTable.Requests table j b) :
    rank a < rank b := by
  rcases hwait with
    ⟨hij, tx, other, request, rest, lock, htx, hrest, hother, hlock,
      hconflict⟩
  have hrequest := ha.unique ⟨tx, rest, htx, hrest⟩
  subst hrequest
  rcases hb with ⟨again, tail, hagain, htail⟩
  rw [hother] at hagain
  cases hagain
  have hscripted := h.consistent.scripted tx (List.mem_of_getElem? htx)
  have hotherScripted :=
    h.consistent.scripted other (List.mem_of_getElem? hother)
  have hasks : a ∈ tx.rest := by
    rw [hrest]
    exact List.mem_cons_self
  have hneeds : b ∈ other.rest := by
    rw [htail]
    exact List.mem_cons_self
  have hle : rank a ≤ exposed lock := by
    refine rank_le_exposed ?_ hconflict
    rintro m n rfl rfl hkey
    exact h.separate tx (List.mem_of_getElem? htx) other
      (List.mem_of_getElem? hother) m
      (mem_names (mem_script hscripted (.inr hasks))) n
      (mem_names (mem_script hotherScripted (.inl hlock))) hkey
  rcases before_of_scripted hotherScripted hlock hneeds with
    hlt | ⟨packId, skillId, hcall, rfl⟩ | ⟨namespaceId, _, _, rfl, rfl⟩
  · exact lt_of_le_of_lt hle hlt
  · rcases hnext with
      ⟨hjk, waiter, holder, wanted, remaining, blocking, hwaiter, hwanted,
        hholder, hblocking, hblocks⟩
    rw [hother] at hwaiter
    cases hwaiter
    rw [htail] at hwanted
    cases hwanted
    have hrow : blocking = .packRow packId := by
      cases blocking with
      | packRow id => rw [of_decide_eq_true hblocks]
      | namespaceRow => cases hblocks
      | advisory => cases hblocks
      | skillRow => cases hblocks
    rw [hrow] at hblocking
    exact absurd hblocking
      (h.advance_free hother hholder hjk ⟨packId, skillId, hcall⟩ htail)
  · have hexclusive : a = .namespaceRow namespaceId true := by
      cases a with
      | namespaceRow id exclusive =>
          simp only [RegistryLock.conflicts, Bool.or_false, Bool.and_eq_true,
            decide_eq_true_eq] at hconflict
          rw [hconflict.1, hconflict.2]
      | packRow => cases hconflict
      | advisory => cases hconflict
      | skillRow => cases hconflict
    rw [hexclusive] at hrest hasks
    have hupgrading : upgrading namespaceId tx = true :=
      decide_eq_true ⟨shared_of_exclusive hscripted hrest, hasks⟩
    have hupgradingOther : upgrading namespaceId other = true :=
      decide_eq_true ⟨hlock, hneeds⟩
    have hfree :=
      h.upgrade i j tx other namespaceId hij htx hother hupgrading
    rw [hfree] at hupgradingOther
    cases hupgradingOther

end RegistryLocks

namespace Sample

def lockId (n : UInt8) : Uuid :=
  Vector.replicate 16 n

def lockKey : AdvisoryName -> UInt64
  | .pack id => UInt64.ofNat (2 * id[0].toNat)
  | .skill id => UInt64.ofNat (2 * id[0].toNat + 1)

def lockingImport : LockCall :=
  .importSkill (lockId 1) none

def lockingChange : LockCall :=
  .changePack (lockId 1) (lockId 2) [lockId 3]

def lockingRound : LockCall :=
  .advancePack (lockId 2) (lockId 3)

def lockTable (events : List (LockEvent LockCall)) : RegistryLocks :=
  events.foldl (RegistryLocks.next lockKey) []

/-- Two imports share a namespace. -/
def sharingImports : List (LockEvent LockCall) :=
  [.start lockingImport, .start lockingImport, .lock 0, .lock 1]

/-- A change takes the row of a pack, and a round of the drain its advisory
lock. -/
def crossing : List (LockEvent LockCall) :=
  [.start lockingChange, .start lockingRound, .lock 0, .lock 0, .lock 1, .lock 1]

/-- The second import and the round of the drain wait until the others have
ended. -/
def following : List (LockEvent LockCall) :=
  [.start lockingImport, .lock 0, .lock 0, .finish 0, .start lockingImport, .lock 1,
    .start lockingChange, .lock 2, .lock 2, .lock 2, .start lockingRound, .lock 3,
    .lock 2, .finish 2, .lock 3, .lock 3]

end Sample

end Denju
