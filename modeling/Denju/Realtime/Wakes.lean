import Denju.Lib.Broadcast
import Denju.Registry.Schema

/-!
# Wakes and hints

Committed changes wake the clients that watch a resource.  A server reads its
channel of wakes for every connected client, joins what has come in meanwhile
into one hint, and falls back on a hint to look at everything.
-/

namespace Denju

open Lib

inductive RegistryWake where
  | resource (resourceId : Uuid) (generation : Nat)
  | resyncAll
deriving DecidableEq

structure DirtyResource where
  resourceId : Uuid
  generation : Nat
deriving DecidableEq

inductive SyncHint where
  | dirty (resources : List DirtyResource)
  | resyncAll
deriving DecidableEq

def wakeAsSyncHint : RegistryWake -> SyncHint
  | .resource resourceId generation => .dirty [⟨resourceId, generation⟩]
  | .resyncAll => .resyncAll

/-!
## One batch
-/

structure SyncHintBatch where
  hint : SyncHint
  overflowed : Bool
deriving DecidableEq

def maxDirty : Nat :=
  64

/-- Note a resource, with the greatest generation that it was noted with. -/
def markDirty (dirty : List DirtyResource) (resourceId : Uuid)
    (generation : Nat) : List DirtyResource :=
  if dirty.any fun row => row.resourceId = resourceId then
    updateWhere (fun row => row.resourceId = resourceId)
      (fun row => { row with generation := max row.generation generation })
      dirty
  else dirty ++ [⟨resourceId, generation⟩]

/-- A batch in the making: nothing has come, resources have been noted, or it
is finished. -/
inductive Batching where
  | receiving
  | collecting (dirty : List DirtyResource)
  | returned (batch : Option SyncHintBatch)
deriving DecidableEq

def finishBatch (dirty : List DirtyResource) : Option SyncHintBatch :=
  if dirty.isEmpty then none
  else some
    { hint := .dirty
        (sortByKey (fun row : DirtyResource => row.resourceId.toList) dirty)
      overflowed := false }

def resyncBatch (overflowed : Bool) : Option SyncHintBatch :=
  some { hint := .resyncAll, overflowed }

/-- Go on with a batch after something was received. -/
def nextSyncHintBatch (watched : List Uuid) :
    Batching -> Received RegistryWake -> Batching
  | .receiving, .value (.resource resourceId generation) =>
      .collecting
        (if resourceId ∈ watched then [⟨resourceId, generation⟩] else [])
  | .receiving, .value .resyncAll => .returned (resyncBatch false)
  | .receiving, .lagged => .returned (resyncBatch true)
  | .receiving, .empty => .receiving
  | .receiving, .closed => .returned none
  | .collecting dirty, .value (.resource resourceId generation) =>
      if resourceId ∈ watched then
        if maxDirty < (markDirty dirty resourceId generation).length then
          .returned (resyncBatch true)
        else .collecting (markDirty dirty resourceId generation)
      else .collecting dirty
  | .collecting _, .value .resyncAll => .returned (resyncBatch false)
  | .collecting _, .lagged => .returned (resyncBatch true)
  | .collecting dirty, .empty => .returned (finishBatch dirty)
  | .collecting dirty, .closed => .returned (finishBatch dirty)
  | .returned batch, _ => .returned batch

/-!
## The stream of one client
-/

/-- A batch that a client was sent, and how far the channel was read by then. -/
structure SentBatch where
  position : Nat
  batch : SyncHintBatch
deriving DecidableEq

structure WakeStream where
  watched : List Uuid
  position : Nat
  batching : Batching
  batches : List SentBatch
  ended : Bool
deriving DecidableEq

namespace WakeStream

/-- A client that watches these resources begins at the end of the channel. -/
def subscribe (channel : Broadcast RegistryWake) (watched : List Uuid) :
    WakeStream where
  watched
  position := channel.sent.length
  batching := .receiving
  batches := []
  ended := false

/-- Go on with the batch, or send it and begin the next one. -/
def poll (channel : Broadcast RegistryWake) (stream : WakeStream) :
    WakeStream :=
  if stream.ended then stream
  else
    match stream.batching with
    | .returned (some batch) =>
        { stream with
          batching := .receiving
          batches := stream.batches ++ [⟨stream.position, batch⟩] }
    | .returned none =>
        if channel.closed then { stream with ended := true }
        else { stream with batching := .receiving }
    | batching =>
        { stream with
          batching := nextSyncHintBatch stream.watched batching
            (channel.receive stream.position).1
          position := (channel.receive stream.position).2 }

/-- Everything that was sent has been received and passed on. -/
def CaughtUp (channel : Broadcast RegistryWake) (stream : WakeStream) : Prop :=
  stream.batching = .receiving ∧ stream.position = channel.sent.length

end WakeStream

/-!
## What hints stand for
-/

/-- The client learns of the wake. -/
def SyncHint.Covers : SyncHint -> RegistryWake -> Prop
  | .resyncAll, _ => True
  | .dirty _, .resyncAll => False
  | .dirty resources, .resource resourceId generation =>
      exists row, row ∈ resources ∧ row.resourceId = resourceId ∧
        generation ≤ row.generation

/-- A client that watches these resources has to learn of the wake. -/
def RegistryWake.Concerns (watched : List Uuid) : RegistryWake -> Prop
  | .resource resourceId _ => resourceId ∈ watched
  | .resyncAll => True

/-- The noted resources are watched, distinct and not too many, and each has a
generation that it was woken with. -/
structure NotedFrom (watched : List Uuid) (woken : RegistryWake -> Prop)
    (dirty : List DirtyResource) : Prop where
  few : dirty.length ≤ maxDirty
  distinct : (dirty.map DirtyResource.resourceId).Nodup
  noted : forall row, row ∈ dirty -> row.resourceId ∈ watched ∧
    woken (.resource row.resourceId row.generation)

/-- A hint that names resources names some, in order, and only such as it may. -/
def SyncHint.HonestFor (watched : List Uuid) (woken : RegistryWake -> Prop) :
    SyncHint -> Prop
  | .resyncAll => True
  | .dirty resources => resources ≠ [] ∧ NotedFrom watched woken resources ∧
      resources.Pairwise
        (keyLe fun row : DirtyResource => row.resourceId.toList)

section Dirty

variable {dirty : List DirtyResource} {resourceId : Uuid} {generation : Nat}
  {watched : List Uuid} {woken : RegistryWake -> Prop} {wake : RegistryWake}

theorem mem_markDirty {row : DirtyResource}
    (h : row ∈ markDirty dirty resourceId generation) :
    row ∈ dirty ∨ row = ⟨resourceId, generation⟩ := by
  unfold markDirty at h
  split at h
  · rcases mem_updateWhere.mp h with ⟨old, hold, hrow⟩
    split at hrow
    · rename_i hsame
      simp only [decide_eq_true_eq] at hsame
      rcases Nat.le_total old.generation generation with hle | hle
      · right
        rw [← hrow, Nat.max_eq_right hle, hsame]
      · left
        rw [← hrow, Nat.max_eq_left hle]
        exact hold
    · left
      rw [← hrow]
      exact hold
  · rcases List.mem_append.mp h with hold | hlast
    · exact .inl hold
    · exact .inr (List.mem_singleton.mp hlast)

theorem covers_markDirty (h : (SyncHint.dirty dirty).Covers wake) :
    (SyncHint.dirty (markDirty dirty resourceId generation)).Covers wake := by
  cases wake with
  | resyncAll => exact h
  | resource otherId least =>
      rcases h with ⟨row, hrow, hid, hle⟩
      unfold markDirty
      split
      · refine ⟨_, mem_updateWhere.mpr ⟨row, hrow, rfl⟩, ?_, ?_⟩
        · split
          · exact hid
          · exact hid
        · split
          · exact Nat.le_trans hle (Nat.le_max_left _ _)
          · exact hle
      · exact ⟨row, List.mem_append_left _ hrow, hid, hle⟩

theorem markDirty_covers :
    (SyncHint.dirty (markDirty dirty resourceId generation)).Covers
      (.resource resourceId generation) := by
  unfold markDirty
  split
  · rename_i hnoted
    rcases List.any_eq_true.mp hnoted with ⟨row, hrow, hsame⟩
    refine ⟨_, mem_updateWhere.mpr ⟨row, hrow, rfl⟩, ?_, ?_⟩
    · rw [if_pos hsame]
      exact of_decide_eq_true hsame
    · rw [if_pos hsame]
      exact Nat.le_max_right _ _
  · exact ⟨⟨resourceId, generation⟩,
      List.mem_append_right _ (List.mem_singleton_self _), rfl,
      Nat.le_refl _⟩

theorem NotedFrom.nil : NotedFrom watched woken [] :=
  ⟨Nat.zero_le _, List.nodup_nil, fun _ h => absurd h List.not_mem_nil⟩

theorem NotedFrom.single (hwatched : resourceId ∈ watched)
    (hwoken : woken (.resource resourceId generation)) :
    NotedFrom watched woken [⟨resourceId, generation⟩] where
  few := by
    show 1 ≤ maxDirty
    decide
  distinct := List.nodup_singleton _
  noted := by
    intro row hrow
    rw [List.mem_singleton.mp hrow]
    exact ⟨hwatched, hwoken⟩

theorem NotedFrom.mono {woken' : RegistryWake -> Prop}
    (h : NotedFrom watched woken dirty)
    (hwoken : forall wake, woken wake -> woken' wake) :
    NotedFrom watched woken' dirty where
  few := h.few
  distinct := h.distinct
  noted := fun row hrow =>
    ⟨(h.noted row hrow).1, hwoken _ (h.noted row hrow).2⟩

theorem NotedFrom.mark (h : NotedFrom watched woken dirty)
    (hwatched : resourceId ∈ watched)
    (hwoken : woken (.resource resourceId generation))
    (hfew : (markDirty dirty resourceId generation).length ≤ maxDirty) :
    NotedFrom watched woken (markDirty dirty resourceId generation) where
  few := hfew
  distinct := by
    unfold markDirty
    split
    · exact nodup_updateWhere h.distinct fun _ => rfl
    · rename_i hnew
      apply nodup_concat h.distinct
      intro htaken
      rcases List.mem_map.mp htaken with ⟨row, hrow, hsame⟩
      apply hnew
      exact List.any_eq_true.mpr ⟨row, hrow, decide_eq_true hsame⟩
  noted := by
    intro row hrow
    rcases mem_markDirty hrow with hold | hnew
    · exact h.noted row hold
    · rw [hnew]
      exact ⟨hwatched, hwoken⟩

theorem finishBatch_covers {batch : SyncHintBatch}
    (hbatch : finishBatch dirty = some batch)
    (h : (SyncHint.dirty dirty).Covers wake) : batch.hint.Covers wake := by
  unfold finishBatch at hbatch
  split at hbatch
  · cases hbatch
  · cases hbatch
    cases wake with
    | resyncAll => exact h
    | resource otherId least =>
        rcases h with ⟨row, hrow, hid, hle⟩
        exact ⟨row, mem_sortByKey.mpr hrow, hid, hle⟩

theorem finishBatch_honest {batch : SyncHintBatch}
    (hbatch : finishBatch dirty = some batch)
    (h : NotedFrom watched woken dirty) :
    batch.hint.HonestFor watched woken := by
  unfold finishBatch at hbatch
  split at hbatch
  · cases hbatch
  · rename_i hsome
    cases hbatch
    have hperm := sortByKey_perm
      (fun row : DirtyResource => row.resourceId.toList) dirty
    refine ⟨?_, ⟨?_, ?_, ?_⟩, sortByKey_pairwise _ _⟩
    · intro hempty
      rw [hempty] at hperm
      exact hsome (List.isEmpty_iff.mpr hperm.nil_eq.symm)
    · rw [hperm.length_eq]
      exact h.few
    · exact (hperm.map _).nodup_iff.mpr h.distinct
    · intro row hrow
      exact h.noted row (mem_sortByKey.mp hrow)

end Dirty

/-!
## Streams pass everything on
-/

/-- What a batch in the making will tell. -/
def Batching.Holds : Batching -> RegistryWake -> Prop
  | .collecting dirty, wake => (SyncHint.dirty dirty).Covers wake
  | .returned (some batch), wake => batch.hint.Covers wake
  | _, _ => False

def Batching.HonestFor (watched : List Uuid) (woken : RegistryWake -> Prop) :
    Batching -> Prop
  | .collecting dirty => NotedFrom watched woken dirty
  | .returned (some batch) => batch.hint.HonestFor watched woken
  | _ => True

theorem SyncHint.HonestFor.mono {hint : SyncHint} {watched : List Uuid}
    {woken woken' : RegistryWake -> Prop} (h : hint.HonestFor watched woken)
    (hwoken : forall wake, woken wake -> woken' wake) :
    hint.HonestFor watched woken' := by
  cases hint with
  | resyncAll => exact trivial
  | dirty resources => exact ⟨h.1, h.2.1.mono hwoken, h.2.2⟩

theorem Batching.HonestFor.mono {batching : Batching} {watched : List Uuid}
    {woken woken' : RegistryWake -> Prop}
    (h : batching.HonestFor watched woken)
    (hwoken : forall wake, woken wake -> woken' wake) :
    batching.HonestFor watched woken' := by
  cases batching with
  | receiving => exact trivial
  | collecting dirty => exact NotedFrom.mono h hwoken
  | returned batch =>
      cases batch with
      | none => exact trivial
      | some batch => exact SyncHint.HonestFor.mono h hwoken

section Batches

variable {watched : List Uuid} {batching : Batching}
  {received : Received RegistryWake} {wake : RegistryWake}
  {woken : RegistryWake -> Prop}

/-- What was to be told still is. -/
theorem nextSyncHintBatch_keeps (h : batching.Holds wake) :
    (nextSyncHintBatch watched batching received).Holds wake := by
  cases batching with
  | receiving => exact h.elim
  | returned batch => exact h
  | collecting dirty =>
      have hfinish : (Batching.returned (finishBatch dirty)).Holds wake := by
        cases hbatch : finishBatch dirty with
        | some batch => exact finishBatch_covers hbatch h
        | none =>
            unfold finishBatch at hbatch
            split at hbatch
            · rename_i hempty
              rw [List.isEmpty_iff.mp hempty] at h
              cases wake with
              | resyncAll => exact h
              | resource otherId least =>
                  rcases h with ⟨row, hrow, _⟩
                  exact absurd hrow List.not_mem_nil
            · cases hbatch
      cases received with
      | lagged => exact trivial
      | empty => exact hfinish
      | closed => exact hfinish
      | value other =>
          cases other with
          | resyncAll => exact trivial
          | resource resourceId generation =>
              simp only [nextSyncHintBatch]
              split
              · split
                · exact trivial
                · exact covers_markDirty h
              · exact h

/-- A wake of concern is taken into the batch. -/
theorem nextSyncHintBatch_takes (hopen : forall batch,
      batching ≠ .returned batch)
    (hconcerns : wake.Concerns watched) :
    (nextSyncHintBatch watched batching (.value wake)).Holds wake := by
  cases batching with
  | returned batch => exact absurd rfl (hopen batch)
  | receiving =>
      cases wake with
      | resyncAll => exact trivial
      | resource resourceId generation =>
          have hwatched : resourceId ∈ watched := hconcerns
          simp only [nextSyncHintBatch]
          rw [if_pos hwatched]
          exact ⟨_, List.mem_singleton_self _, rfl, Nat.le_refl _⟩
  | collecting dirty =>
      cases wake with
      | resyncAll => exact trivial
      | resource resourceId generation =>
          have hwatched : resourceId ∈ watched := hconcerns
          simp only [nextSyncHintBatch]
          rw [if_pos hwatched]
          split
          · exact trivial
          · exact markDirty_covers

/-- Who has fallen behind is told to look at everything. -/
theorem nextSyncHintBatch_lagged (hopen : forall batch,
      batching ≠ .returned batch) :
    (nextSyncHintBatch watched batching .lagged).Holds wake := by
  cases batching with
  | returned batch => exact absurd rfl (hopen batch)
  | receiving => exact trivial
  | collecting dirty => exact trivial

theorem nextSyncHintBatch_honest (h : batching.HonestFor watched woken)
    (hreceived : forall wake, received = .value wake -> woken wake) :
    (nextSyncHintBatch watched batching received).HonestFor watched woken := by
  cases batching with
  | returned batch => exact h
  | receiving =>
      cases received with
      | lagged => exact trivial
      | empty => exact trivial
      | closed => exact trivial
      | value wake =>
          cases wake with
          | resyncAll => exact trivial
          | resource resourceId generation =>
              simp only [nextSyncHintBatch]
              split
              · rename_i hwatched
                exact NotedFrom.single hwatched (hreceived _ rfl)
              · exact NotedFrom.nil
  | collecting dirty =>
      have hfinish :
          (Batching.returned (finishBatch dirty)).HonestFor watched woken := by
        cases hbatch : finishBatch dirty with
        | some batch => exact finishBatch_honest hbatch h
        | none => exact trivial
      cases received with
      | lagged => exact trivial
      | empty => exact hfinish
      | closed => exact hfinish
      | value wake =>
          cases wake with
          | resyncAll => exact trivial
          | resource resourceId generation =>
              simp only [nextSyncHintBatch]
              split
              · rename_i hwatched
                split
                · exact trivial
                · rename_i hfew
                  exact h.mark hwatched (hreceived _ rfl)
                    (Nat.le_of_not_lt hfew)
              · exact h

end Batches

/-- How many turns a batch in the making may still take at the end of the
channel. -/
def Batching.turns : Batching -> Nat
  | .receiving => 0
  | .returned _ => 1
  | .collecting _ => 2

/-- The wake was sent at one of these positions. -/
def SentWithin (channel : Broadcast RegistryWake) (start stop : Nat)
    (wake : RegistryWake) : Prop :=
  exists index, start ≤ index ∧ index < stop ∧
    channel.sent[index]? = some wake

namespace WakeStream

/-- The stream has told its client, or is about to tell it, of every wake of
concern that it has received since it began. -/
structure Faithful (channel : Broadcast RegistryWake) (start : Nat)
    (stream : WakeStream) : Prop where
  started : start ≤ stream.position
  bounded : stream.position ≤ channel.sent.length
  told : forall index wake, start ≤ index -> index < stream.position ->
    channel.sent[index]? = some wake -> wake.Concerns stream.watched ->
      (exists sent, sent ∈ stream.batches ∧ index < sent.position ∧
        sent.batch.hint.Covers wake) ∨ stream.batching.Holds wake
  honest : forall sent, sent ∈ stream.batches ->
    sent.position ≤ stream.position ∧ sent.batch.hint.HonestFor stream.watched
      (SentWithin channel start sent.position)
  making : stream.batching.HonestFor stream.watched
    (SentWithin channel start stream.position)

variable {channel : Broadcast RegistryWake} {start : Nat} {stream : WakeStream}

theorem subscribe_faithful (channel : Broadcast RegistryWake)
    (watched : List Uuid) :
    (subscribe channel watched).Faithful channel channel.sent.length where
  started := Nat.le_refl _
  bounded := Nat.le_refl _
  told := fun _ _ hstart hstop => absurd hstart (Nat.not_le_of_lt hstop)
  honest := fun _ h => absurd h List.not_mem_nil
  making := trivial

/-- The channel may grow. -/
theorem Faithful.grow (h : stream.Faithful channel start)
    {channel' : Broadcast RegistryWake}
    (hsent : channel.sent <+: channel'.sent) :
    stream.Faithful channel' start := by
  have hsame : forall index, index < channel.sent.length ->
      channel'.sent[index]? = channel.sent[index]? := by
    intro index hindex
    rcases hsent with ⟨more, hmore⟩
    rw [← hmore, List.getElem?_append_left hindex]
  have hwithin : forall stop, stop ≤ stream.position -> forall wake,
      SentWithin channel start stop wake ->
        SentWithin channel' start stop wake := by
    intro stop hstop wake hwake
    rcases hwake with ⟨index, hfrom, hto, hfound⟩
    refine ⟨index, hfrom, hto, ?_⟩
    rw [hsame index (Nat.lt_of_lt_of_le hto (Nat.le_trans hstop h.bounded))]
    exact hfound
  refine ⟨h.started, Nat.le_trans h.bounded hsent.length_le, ?_, ?_, ?_⟩
  · intro index wake hfrom hto hfound
    rw [hsame index (Nat.lt_of_lt_of_le hto h.bounded)] at hfound
    exact h.told index wake hfrom hto hfound
  · intro sent hsent
    rcases h.honest sent hsent with ⟨hle, hhonest⟩
    exact ⟨hle, hhonest.mono (hwithin _ hle)⟩
  · exact h.making.mono (hwithin _ (Nat.le_refl _))

/-- The stream passes its batch on and begins another. -/
theorem Faithful.passOn (h : stream.Faithful channel start)
    {batch : SyncHintBatch} (hbatch : stream.batching = .returned (some batch)) :
    ({ stream with
        batching := .receiving
        batches := stream.batches ++ [⟨stream.position, batch⟩] } :
      WakeStream).Faithful channel start where
  started := h.started
  bounded := h.bounded
  told := by
    intro index wake hfrom hto hfound hconcerns
    left
    rcases h.told index wake hfrom hto hfound hconcerns with htold | hholds
    · rcases htold with ⟨sent, hsent, hbefore, hcovers⟩
      exact ⟨sent, List.mem_append_left _ hsent, hbefore, hcovers⟩
    · rw [hbatch] at hholds
      exact ⟨⟨stream.position, batch⟩,
        List.mem_append_right _ (List.mem_singleton_self _), hto, hholds⟩
  honest := by
    intro sent hsent
    rcases List.mem_append.mp hsent with hold | hlast
    · exact h.honest sent hold
    · rw [List.mem_singleton.mp hlast]
      have hmaking := h.making
      rw [hbatch] at hmaking
      exact ⟨Nat.le_refl _, hmaking⟩
  making := trivial

/-- The stream receives what its batch goes on with. -/
theorem Faithful.receive (h : stream.Faithful channel start)
    (hopen : forall batch, stream.batching ≠ .returned batch) :
    ({ stream with
        batching := nextSyncHintBatch stream.watched stream.batching
          (channel.receive stream.position).1
        position := (channel.receive stream.position).2 } :
      WakeStream).Faithful channel start := by
  have hbounds := Broadcast.receive_bounds h.bounded
  have hheld : forall wake, stream.batching.Holds wake ->
      (nextSyncHintBatch stream.watched stream.batching
        (channel.receive stream.position).1).Holds wake :=
    fun wake hholds => nextSyncHintBatch_keeps hholds
  refine ⟨Nat.le_trans h.started hbounds.1, hbounds.2, ?_, ?_, ?_⟩
  · intro index wake hfrom hto hfound hconcerns
    rcases Nat.lt_or_ge index stream.position with hbefore | hafter
    · rcases h.told index wake hfrom hbefore hfound hconcerns with
        htold | hholds
      · exact .inl htold
      · exact .inr (hheld wake hholds)
    · right
      show (nextSyncHintBatch stream.watched stream.batching
        (channel.receive stream.position).1).Holds wake
      replace hto : index < (channel.receive stream.position).2 := hto
      cases hreceive : channel.receive stream.position with
      | mk received next =>
          rw [hreceive] at hto
          cases received with
          | value other =>
              rcases Broadcast.receive_value hreceive with ⟨hother, hnext⟩
              have hindex : index = stream.position := by
                rw [hnext] at hto
                exact Nat.le_antisymm (Nat.le_of_lt_succ hto) hafter
              rw [hindex, hother] at hfound
              cases hfound
              exact nextSyncHintBatch_takes hopen hconcerns
          | lagged => exact nextSyncHintBatch_lagged hopen
          | empty =>
              rw [(Broadcast.receive_none h.bounded (.inl hreceive)).2] at hto
              exact absurd hto (Nat.not_lt_of_le hafter)
          | closed =>
              rw [(Broadcast.receive_none h.bounded (.inr hreceive)).2] at hto
              exact absurd hto (Nat.not_lt_of_le hafter)
  · intro sent hsent
    rcases h.honest sent hsent with ⟨hle, hhonest⟩
    exact ⟨Nat.le_trans hle hbounds.1, hhonest⟩
  · have hwithin : forall wake,
        SentWithin channel start stream.position wake ->
          SentWithin channel start (channel.receive stream.position).2 wake := by
      intro wake hwake
      rcases hwake with ⟨index, hfrom, hto, hfound⟩
      exact ⟨index, hfrom, Nat.lt_of_lt_of_le hto hbounds.1, hfound⟩
    apply nextSyncHintBatch_honest (h.making.mono hwithin)
    intro wake hwake
    cases hreceive : channel.receive stream.position with
    | mk received next =>
        rw [hreceive] at hwake
        replace hwake : received = .value wake := hwake
        rw [hwake] at hreceive
        rcases Broadcast.receive_value hreceive with ⟨hfound, hnext⟩
        refine ⟨stream.position, h.started, ?_, hfound⟩
        show stream.position < next
        rw [hnext]
        exact Nat.lt_succ_self _

theorem Faithful.poll (h : stream.Faithful channel start) :
    (stream.poll channel).Faithful channel start := by
  unfold WakeStream.poll
  split
  · exact h
  · split
    · rename_i hbatch
      exact h.passOn hbatch
    · rename_i hbatch
      have htold : forall index wake, start ≤ index ->
          index < stream.position -> channel.sent[index]? = some wake ->
            wake.Concerns stream.watched ->
              exists sent, sent ∈ stream.batches ∧ index < sent.position ∧
                sent.batch.hint.Covers wake := by
        intro index wake hfrom hto hfound hconcerns
        rcases h.told index wake hfrom hto hfound hconcerns with
          htold | hholds
        · exact htold
        · rw [hbatch] at hholds
          exact hholds.elim
      split
      · exact ⟨h.started, h.bounded, h.told, h.honest, h.making⟩
      · refine ⟨h.started, h.bounded, ?_, h.honest, trivial⟩
        intro index wake hfrom hto hfound hconcerns
        exact .inl (htold index wake hfrom hto hfound hconcerns)
    · rename_i hsome hnone
      apply h.receive
      intro batch hbatch
      cases batch with
      | none => exact hnone hbatch
      | some batch => exact hsome batch hbatch

theorem poll_watched (channel : Broadcast RegistryWake) (stream : WakeStream) :
    (stream.poll channel).watched = stream.watched := by
  unfold WakeStream.poll
  split
  · rfl
  · split
    · rfl
    · split
      · rfl
      · rfl
    · rfl

theorem poll_batches (channel : Broadcast RegistryWake)
    (stream : WakeStream) :
    stream.batches <+: (stream.poll channel).batches := by
  unfold WakeStream.poll
  split
  · exact List.prefix_refl _
  · split
    · exact List.prefix_append _ _
    · split
      · exact List.prefix_refl _
      · exact List.prefix_refl _
    · exact List.prefix_refl _

/-- While the channel is open a stream goes on. -/
theorem poll_going (hopened : channel.closed = false)
    (hgoing : stream.ended = false) :
    (stream.poll channel).ended = false := by
  unfold WakeStream.poll
  rw [if_neg (by rw [hgoing]; exact Bool.false_ne_true)]
  split
  · exact hgoing
  · rw [if_neg (by rw [hopened]; exact Bool.false_ne_true)]
    exact hgoing
  · exact hgoing

/-- A stream that has caught up has told its client of every wake of concern
since it began. -/
theorem Faithful.caughtUp_told (h : stream.Faithful channel start)
    (hcaught : stream.CaughtUp channel) {index : Nat} {wake : RegistryWake}
    (hfrom : start ≤ index) (hfound : channel.sent[index]? = some wake)
    (hconcerns : wake.Concerns stream.watched) :
    exists sent, sent ∈ stream.batches ∧ index < sent.position ∧
      sent.batch.hint.Covers wake := by
  have hto : index < stream.position := by
    rw [hcaught.2]
    exact (List.getElem?_eq_some_iff.mp hfound).1
  rcases h.told index wake hfrom hto hfound hconcerns with htold | hholds
  · exact htold
  · rw [hcaught.1] at hholds
    exact hholds.elim

/-!
## Catching up
-/

/-- How many turns the stream may take to catch up. -/
def work (channel : Broadcast RegistryWake) (stream : WakeStream) : Nat :=
  3 * (channel.sent.length - stream.position) + stream.batching.turns

/-- At the end of the channel a batch is finished. -/
theorem receive_work_end {received : Received RegistryWake} {next : Nat}
    (hopen : forall batch, stream.batching ≠ .returned batch)
    (hend : stream.position = channel.sent.length ∧ next = stream.position)
    (hreceived : received = .empty ∨ received = .closed) :
    stream.CaughtUp channel ∨
      3 * (channel.sent.length - next) +
        (nextSyncHintBatch stream.watched stream.batching received).turns <
        3 * (channel.sent.length - stream.position) +
          stream.batching.turns := by
  rw [hend.2]
  cases hbatching : stream.batching with
  | receiving => exact .inl ⟨hbatching, hend.1⟩
  | returned batch => exact absurd hbatching (hopen batch)
  | collecting dirty =>
      right
      apply Nat.add_lt_add_left
      rcases hreceived with hempty | hclosed
      · rw [hempty]
        exact Nat.lt_succ_self 1
      · rw [hclosed]
        exact Nat.lt_succ_self 1

theorem receive_work (hbounded : stream.position ≤ channel.sent.length)
    (hopen : forall batch, stream.batching ≠ .returned batch) :
    stream.CaughtUp channel ∨
      work channel { stream with
        batching := nextSyncHintBatch stream.watched stream.batching
          (channel.receive stream.position).1
        position := (channel.receive stream.position).2 } <
        stream.work channel := by
  have hturns : forall batching : Batching, batching.turns ≤ 2 := by
    intro batching
    cases batching with
    | receiving => exact Nat.zero_le _
    | returned batch => exact Nat.le_succ 1
    | collecting dirty => exact Nat.le_refl _
  have hnext := hturns (nextSyncHintBatch stream.watched stream.batching
    (channel.receive stream.position).1)
  unfold work
  cases hreceive : channel.receive stream.position with
  | mk received next =>
      rw [hreceive] at hnext
      cases received with
      | value wake =>
          right
          rcases Broadcast.receive_value hreceive with ⟨hfound, hposition⟩
          have hlt := (List.getElem?_eq_some_iff.mp hfound).1
          simp only at hnext ⊢
          omega
      | lagged =>
          right
          rcases Broadcast.receive_lagged hreceive with ⟨hlt, hle⟩
          simp only at hnext ⊢
          omega
      | empty =>
          exact receive_work_end hopen
            (Broadcast.receive_none hbounded (.inl hreceive)) (.inl rfl)
      | closed =>
          exact receive_work_end hopen
            (Broadcast.receive_none hbounded (.inr hreceive)) (.inr rfl)

/-- Each turn brings the stream nearer to the end of the channel. -/
theorem poll_work (hopened : channel.closed = false)
    (hgoing : stream.ended = false)
    (hbounded : stream.position ≤ channel.sent.length) :
    stream.CaughtUp channel ∨
      (stream.poll channel).work channel < stream.work channel := by
  unfold WakeStream.poll
  rw [if_neg (by rw [hgoing]; exact Bool.false_ne_true)]
  split
  · rename_i hbatch
    right
    unfold work
    rw [hbatch]
    exact Nat.lt_succ_self _
  · rename_i hbatch
    rw [if_neg (by rw [hopened]; exact Bool.false_ne_true)]
    right
    unfold work
    rw [hbatch]
    exact Nat.lt_succ_self _
  · rename_i hsome hnone
    apply receive_work hbounded
    intro batch hbatch
    cases batch with
    | none => exact hnone hbatch
    | some batch => exact hsome batch hbatch

end WakeStream
end Denju
