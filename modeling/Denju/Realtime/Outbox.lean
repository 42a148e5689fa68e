import Denju.Realtime.Wakes
import Denju.Registry.PackHistoryRuns

/-!
# The outbox

A committed event waits until a server takes it up, wakes its own clients and
commits the dispatch, with which the database notifies the servers that listen.
Servers come and go on their own, and so do their clients.
-/

namespace Denju

open Lib

/-!
## One server
-/

/-- The channel of a server, the notifications that its connection has still
to read, where it listens, and its clients. -/
structure WakeServer where
  channel : Broadcast RegistryWake
  inbox : Option (List SyncHint)
  streams : Nat -> Option WakeStream

namespace WakeServer

def channelCapacity : Nat :=
  256

def start : WakeServer where
  channel :=
    { capacity := channelCapacity
      sent := []
      closed := false }
  inbox := none
  streams := fun _ => none

def pending (server : WakeServer) : List SyncHint :=
  server.inbox.getD []

def send (server : WakeServer) (wake : RegistryWake) : WakeServer :=
  { server with channel := server.channel.send wake }

def sendAll (server : WakeServer) (wakes : List RegistryWake) : WakeServer :=
  wakes.foldl send server

def notify (server : WakeServer) (hints : List SyncHint) : WakeServer :=
  { server with inbox := server.inbox.map fun inbox => inbox ++ hints }

def listen (server : WakeServer) : WakeServer :=
  { server with inbox := some (server.inbox.getD []) }

/-- The connection is lost, and what it had to read. -/
def lose (server : WakeServer) : WakeServer :=
  { server with inbox := none }

end WakeServer

/-- The wakes that a notification stands for. -/
def SyncHint.wakes : SyncHint -> List RegistryWake
  | .dirty resources =>
      resources.map fun row => .resource row.resourceId row.generation
  | .resyncAll => [.resyncAll]

namespace WakeServer

/-- Read a notification. -/
def hear (server : WakeServer) : WakeServer :=
  match server.inbox with
  | some (hint :: rest) =>
      { server with inbox := some rest }.sendAll hint.wakes
  | _ => server

def events (server : WakeServer) (client : Nat) (watched : List Uuid) :
    WakeServer :=
  match server.streams client with
  | some _ => server
  | none =>
      { server with
        streams := Function.update server.streams client
          (some (.subscribe server.channel watched)) }

def poll (server : WakeServer) (client : Nat) : WakeServer :=
  { server with
    streams := Function.update server.streams client
      ((server.streams client).map (WakeStream.poll server.channel)) }

def disconnect (server : WakeServer) (client : Nat) : WakeServer :=
  { server with streams := Function.update server.streams client none }

/-- The client has been told of everything that has reached its server. -/
structure UpToDate (server : WakeServer) (stream : WakeStream) : Prop where
  heard : server.pending = []
  caughtUp : stream.CaughtUp server.channel

end WakeServer

/-!
## What a server keeps
-/

namespace WakeServer

/-- The client stays connected, and its stream goes on. -/
structure Keeps (client : Nat) (server server' : WakeServer) : Prop where
  sent : server.channel.sent <+: server'.channel.sent
  stream : forall stream, server.streams client = some stream ->
    exists stream', server'.streams client = some stream' ∧
      stream'.watched = stream.watched ∧
      stream.batches <+: stream'.batches ∧
      forall start, stream.Faithful server.channel start ->
        stream'.Faithful server'.channel start

/-- The wake is on its way to the clients of the server, or has come into its
channel at this position or after it. -/
def Reaches (server : WakeServer) (start : Nat) (wake : RegistryWake) : Prop :=
  wakeAsSyncHint wake ∈ server.pending ∨
    exists index, start ≤ index ∧ server.channel.sent[index]? = some wake

/-- All that goes through the server is of this kind. -/
structure Speaks (said : RegistryWake -> Prop) (server : WakeServer) :
    Prop where
  sent : forall wake, wake ∈ server.channel.sent -> said wake
  pending : forall hint, hint ∈ server.pending ->
    forall wake, wake ∈ hint.wakes -> said wake

variable {server server' server'' : WakeServer} {client start : Nat}
  {wake : RegistryWake} {said : RegistryWake -> Prop}

theorem Keeps.refl (client : Nat) (server : WakeServer) :
    Keeps client server server where
  sent := List.prefix_rfl
  stream := fun stream h =>
    ⟨stream, h, rfl, List.prefix_rfl, fun _ hfaithful => hfaithful⟩

theorem Keeps.trans (h : Keeps client server server')
    (h' : Keeps client server' server'') : Keeps client server server'' where
  sent := h.sent.trans h'.sent
  stream := by
    intro stream hstream
    rcases h.stream stream hstream with
      ⟨stream', hstream', hwatched, hbatches, hfaithful⟩
    rcases h'.stream stream' hstream' with
      ⟨stream'', hstream'', hwatched', hbatches', hfaithful'⟩
    exact ⟨stream'', hstream'', hwatched'.trans hwatched,
      hbatches.trans hbatches', fun start hstart =>
        hfaithful' start (hfaithful start hstart)⟩

/-- The channel grows, and the streams are as they were. -/
theorem Keeps.ofGrowth
    (hsent : server.channel.sent <+: server'.channel.sent)
    (hstreams : server'.streams = server.streams) :
    Keeps client server server' where
  sent := hsent
  stream := by
    intro stream hstream
    rw [hstreams]
    exact ⟨stream, hstream, rfl, List.prefix_rfl,
      fun _ hfaithful => hfaithful.grow hsent⟩

theorem send_keeps : Keeps client server (server.send wake) :=
  .ofGrowth (List.prefix_append _ _) rfl

theorem sendAll_keeps {wakes : List RegistryWake} :
    Keeps client server (server.sendAll wakes) := by
  unfold sendAll
  induction wakes generalizing server with
  | nil => exact .refl client server
  | cons wake rest ih => exact send_keeps.trans ih

theorem hear_keeps : Keeps client server server.hear := by
  unfold hear
  split
  · rename_i hint rest _
    have hread : Keeps client server { server with inbox := some rest } :=
      .ofGrowth List.prefix_rfl rfl
    exact hread.trans sendAll_keeps
  · exact .refl client server

theorem events_keeps {someone : Nat} {watched : List Uuid} :
    Keeps client server (server.events someone watched) := by
  unfold events
  split
  · exact .refl client server
  · rename_i hfree
    refine ⟨List.prefix_rfl, ?_⟩
    intro stream hstream
    refine ⟨stream, ?_, rfl, List.prefix_rfl, fun _ hfaithful => hfaithful⟩
    have hother : client ≠ someone := by
      intro hsame
      rw [hsame, hfree] at hstream
      cases hstream
    show Function.update server.streams someone _ client = some stream
    rw [Function.update_of_ne hother]
    exact hstream

theorem poll_keeps {someone : Nat} :
    Keeps client server (server.poll someone) where
  sent := List.prefix_rfl
  stream := by
    intro stream hstream
    by_cases hsame : client = someone
    · refine ⟨stream.poll server.channel, ?_, stream.poll_watched server.channel,
        stream.poll_batches server.channel, fun _ hfaithful => hfaithful.poll⟩
      show Function.update server.streams someone _ client = _
      rw [← hsame, Function.update_self, hstream]
      rfl
    · refine ⟨stream, ?_, rfl, List.prefix_rfl, fun _ hfaithful => hfaithful⟩
      show Function.update server.streams someone _ client = some stream
      rw [Function.update_of_ne hsame]
      exact hstream

theorem disconnect_keeps {someone : Nat} (hother : client ≠ someone) :
    Keeps client server (server.disconnect someone) where
  sent := List.prefix_rfl
  stream := by
    intro stream hstream
    refine ⟨stream, ?_, rfl, List.prefix_rfl, fun _ hfaithful => hfaithful⟩
    show Function.update server.streams someone _ client = some stream
    rw [Function.update_of_ne hother]
    exact hstream

/-- What was on its way still is, or has come. -/
theorem Reaches.grow (h : server.Reaches start wake)
    (hsent : server.channel.sent <+: server'.channel.sent)
    (hpending : forall hint, hint ∈ server.pending -> hint ∈ server'.pending) :
    server'.Reaches start wake := by
  rcases h with hwaits | hcame
  · exact .inl (hpending _ hwaits)
  · rcases hcame with ⟨index, hfrom, hfound⟩
    rcases hsent with ⟨more, hmore⟩
    right
    refine ⟨index, hfrom, ?_⟩
    rw [← hmore, List.getElem?_append_left
      (List.getElem?_eq_some_iff.mp hfound).1]
    exact hfound

theorem sendAll_sent {wakes : List RegistryWake} :
    (server.sendAll wakes).channel.sent = server.channel.sent ++ wakes := by
  unfold sendAll
  induction wakes generalizing server with
  | nil => exact (List.append_nil _).symm
  | cons wake rest ih =>
      show ((rest.foldl send (server.send wake)).channel.sent) = _
      rw [ih]
      show server.channel.sent ++ [wake] ++ rest = _
      rw [List.append_assoc, List.singleton_append]

theorem sendAll_inbox {wakes : List RegistryWake} :
    (server.sendAll wakes).inbox = server.inbox := by
  unfold sendAll
  induction wakes generalizing server with
  | nil => rfl
  | cons wake rest ih => exact ih

theorem sendAll_streams {wakes : List RegistryWake} :
    (server.sendAll wakes).streams = server.streams := by
  unfold sendAll
  induction wakes generalizing server with
  | nil => rfl
  | cons wake rest ih => exact ih

theorem sendAll_closed {wakes : List RegistryWake} :
    (server.sendAll wakes).channel.closed = server.channel.closed := by
  unfold sendAll
  induction wakes generalizing server with
  | nil => rfl
  | cons wake rest ih => exact ih

theorem mem_wakes : wake ∈ (wakeAsSyncHint wake).wakes := by
  cases wake with
  | resource resourceId generation => exact List.mem_singleton_self _
  | resyncAll => exact List.mem_singleton_self _

theorem hear_reaches (h : server.Reaches start wake)
    (hstart : start ≤ server.channel.sent.length) :
    server.hear.Reaches start wake := by
  unfold hear
  split
  · rename_i hint rest hinbox
    rcases h with hwaits | hcame
    · unfold pending at hwaits
      rw [hinbox] at hwaits
      rcases List.mem_cons.mp hwaits with hfirst | hlater
      · right
        have hwake : wake ∈ hint.wakes := hfirst ▸ mem_wakes
        rcases List.mem_iff_getElem?.mp hwake with ⟨place, hplace⟩
        refine ⟨server.channel.sent.length + place,
          Nat.le_trans hstart (Nat.le_add_right _ _), ?_⟩
        rw [sendAll_sent, List.getElem?_append_right (Nat.le_add_right _ _),
          Nat.add_sub_cancel_left]
        exact hplace
      · left
        unfold pending
        rw [sendAll_inbox]
        exact hlater
    · rcases hcame with ⟨index, hfrom, hfound⟩
      right
      refine ⟨index, hfrom, ?_⟩
      rw [sendAll_sent, List.getElem?_append_left
        (List.getElem?_eq_some_iff.mp hfound).1]
      exact hfound
  · exact h

theorem notify_pending {hints : List SyncHint} {hint : SyncHint} :
    hint ∈ (server.notify hints).pending <->
      hint ∈ server.pending ∨ (server.inbox.isSome ∧ hint ∈ hints) := by
  unfold pending notify
  cases hinbox : server.inbox with
  | none => simp
  | some inbox => simp

theorem send_speaks (h : server.Speaks said) (hwake : said wake) :
    (server.send wake).Speaks said where
  sent := by
    intro other hother
    rcases List.mem_append.mp hother with hold | hlast
    · exact h.sent other hold
    · rw [List.mem_singleton.mp hlast]
      exact hwake
  pending := h.pending

theorem hear_speaks (h : server.Speaks said) : server.hear.Speaks said := by
  unfold hear
  split
  · rename_i hint rest hinbox
    have hpending : server.pending = hint :: rest := by
      unfold pending
      rw [hinbox]
      rfl
    constructor
    · intro wake hwake
      rw [sendAll_sent] at hwake
      rcases List.mem_append.mp hwake with hold | hread
      · exact h.sent wake hold
      · apply h.pending hint _ wake hread
        rw [hpending]
        exact List.mem_cons_self
    · intro other hother
      unfold pending at hother
      rw [sendAll_inbox] at hother
      apply h.pending other
      rw [hpending]
      exact List.mem_cons_of_mem _ hother
  · exact h

theorem events_channel {someone : Nat} {watched : List Uuid} :
    (server.events someone watched).channel = server.channel := by
  unfold events
  split
  · rfl
  · rfl

theorem events_pending {someone : Nat} {watched : List Uuid} :
    (server.events someone watched).pending = server.pending := by
  unfold events
  split
  · rfl
  · rfl

theorem events_speaks {someone : Nat} {watched : List Uuid}
    (h : server.Speaks said) :
    (server.events someone watched).Speaks said where
  sent := by
    rw [events_channel]
    exact h.sent
  pending := by
    rw [events_pending]
    exact h.pending

theorem listen_pending : server.listen.pending = server.pending := by
  unfold listen pending
  rfl

/-- A server has a stream that goes on, or one that begins. -/
theorem events_streams {someone : Nat} {watched : List Uuid}
    {stream : WakeStream}
    (h : (server.events someone watched).streams client = some stream) :
    server.streams client = some stream ∨
      stream = .subscribe server.channel watched := by
  unfold events at h
  split at h
  · exact .inl h
  · by_cases hsame : client = someone
    · right
      replace h : Function.update server.streams someone _ client = _ := h
      rw [hsame, Function.update_self] at h
      cases h
      rfl
    · left
      replace h : Function.update server.streams someone _ client = _ := h
      rw [Function.update_of_ne hsame] at h
      exact h

theorem poll_streams {someone : Nat} {stream : WakeStream}
    (h : (server.poll someone).streams client = some stream) :
    server.streams client = some stream ∨
      exists old, server.streams someone = some old ∧
        old.poll server.channel = stream := by
  replace h : Function.update server.streams someone _ client = _ := h
  by_cases hsame : client = someone
  · right
    rw [hsame, Function.update_self] at h
    exact Option.map_eq_some_iff.mp h
  · left
    rw [Function.update_of_ne hsame] at h
    exact h

theorem disconnect_streams {someone : Nat} {stream : WakeStream}
    (h : (server.disconnect someone).streams client = some stream) :
    server.streams client = some stream := by
  replace h : Function.update server.streams someone none client = _ := h
  by_cases hsame : client = someone
  · rw [hsame, Function.update_self] at h
    cases h
  · rw [Function.update_of_ne hsame] at h
    exact h

end WakeServer

/-!
## The servers and their database
-/

def AuthorityEventRow.wake (row : AuthorityEventRow) : RegistryWake :=
  .resource row.resourceId row.resourceGeneration

/-- A server in the transaction that dispatches these rows. -/
structure Drain where
  server : Nat
  relayed : List AuthorityEventRow
  remaining : List AuthorityEventRow
deriving DecidableEq

def Drain.rows (drain : Drain) : List AuthorityEventRow :=
  drain.relayed ++ drain.remaining

/-- The notifications of its transaction, where equal ones are sent once. -/
def Drain.notifications (drain : Drain) : List SyncHint :=
  (drain.relayed.map fun row => wakeAsSyncHint row.wake).eraseDups

structure Wakes (registry : Registry) where
  publishing : PublishingSite registry
  dispatched : List Drain
  drains : List Drain
  servers : Nat -> WakeServer

inductive WakeStep where
  | publishing (step : PublishingStep)
  | drainOutbox (server limit : Nat)
  | dispatch (index : Nat)
  | commit (index : Nat)
  | abort (index : Nat)
  | resync (server : Nat)
  | announce (server index : Nat)
  | listen (server : Nat)
  | lose (server : Nat)
  | hear (server : Nat)
  | events (server client : Nat) (watched : List Uuid)
  | poll (server client : Nat)
  | disconnect (server client : Nat)

namespace Wakes

variable {registry : Registry}

variable (registry) in
def empty (directory : Directory) : Wakes registry where
  publishing := .empty registry directory
  dispatched := []
  drains := []
  servers := fun _ => .start

def db (s : Wakes registry) : Db :=
  s.publishing.db

def on (s : Wakes registry) (server : Nat) (f : WakeServer -> WakeServer) :
    Wakes registry :=
  { s with
    servers := Function.update s.servers server (f (s.servers server)) }

/-- No transaction has dispatched the row or holds its lock. -/
def awaiting (s : Wakes registry) (row : AuthorityEventRow) : Bool :=
  !(s.dispatched ++ s.drains).any fun drain => decide (row ∈ drain.rows)

/-- The first rows that await their dispatch. -/
def undispatched (s : Wakes registry) (limit : Nat) : List AuthorityEventRow :=
  (sortByKey AuthorityEventRow.id
    (s.db.authorityEvents.filter s.awaiting)).take (max 1 (min limit 256))

def drainOutbox (s : Wakes registry) (server limit : Nat) : Wakes registry :=
  { s with
    drains := s.drains ++
      [{ server
         relayed := []
         remaining := s.undispatched limit }] }

/-- Wake the clients of one's own server for the next row. -/
def dispatch (s : Wakes registry) (index : Nat) : Wakes registry :=
  match s.drains[index]? with
  | some ⟨server, relayed, row :: rest⟩ =>
      { s with
        drains := s.drains.set index ⟨server, relayed ++ [row], rest⟩ }.on
          server fun own => own.send row.wake
  | _ => s

def commit (s : Wakes registry) (index : Nat) : Wakes registry :=
  match s.drains[index]? with
  | some ⟨server, relayed, []⟩ =>
      { s with
        dispatched := s.dispatched ++ [⟨server, relayed, []⟩]
        drains := s.drains.eraseIdx index
        servers := fun other => (s.servers other).notify
          (Drain.notifications ⟨server, relayed, []⟩) }
  | _ => s

def step (s : Wakes registry) : WakeStep -> Wakes registry
  | .publishing step => { s with publishing := s.publishing.step step }
  | .drainOutbox server limit => s.drainOutbox server limit
  | .dispatch index => s.dispatch index
  | .commit index => s.commit index
  | .abort index => { s with drains := s.drains.eraseIdx index }
  | .resync server => s.on server fun own => own.send .resyncAll
  | .announce server index =>
      match s.db.authorityEvents[index]? with
      | none => s
      | some row => s.on server fun own => own.send row.wake
  | .listen server => s.on server WakeServer.listen
  | .lose server => s.on server WakeServer.lose
  | .hear server => s.on server WakeServer.hear
  | .events server client watched =>
      s.on server fun own => own.events client watched
  | .poll server client => s.on server fun own => own.poll client
  | .disconnect server client => s.on server fun own => own.disconnect client

/-- Any step. -/
abbrev Steps : Wakes registry -> WakeStep -> Wakes registry -> Prop :=
  Guarded (fun _ _ => True) step

/-- The client stays connected, and its server hears of what other servers
dispatch. -/
def staysTuned (server client : Nat) (s : Wakes registry) : WakeStep -> Bool
  | .disconnect other someone =>
      !(decide (other = server) && decide (someone = client))
  | .commit index =>
      (s.drains[index]?).all fun drain =>
        decide (drain.server = server) || (s.servers server).inbox.isSome
  | .lose other =>
      decide (other ≠ server) || (s.servers server).pending.isEmpty
  | _ => true

end Wakes
end Denju
