import Denju.Realtime.Outbox

/-!
# Runs of the outbox

Whatever the servers, their drains and their clients do, in whatever order, an
event is dispatched once, hints tell nothing that has not happened, and a
client that stays connected learns of every event that is dispatched.
-/

namespace Denju

open Lib

/-- The wake is for everything, or for an event of the database. -/
def Db.Announced (db : Db) : RegistryWake -> Prop
  | .resyncAll => True
  | .resource resourceId generation =>
      exists row, row ∈ db.authorityEvents ∧ row.resourceId = resourceId ∧
        row.resourceGeneration = generation

theorem Db.Announced.mono {db db' : Db} {wake : RegistryWake}
    (h : db.Announced wake)
    (hevents : db.authorityEvents <+: db'.authorityEvents) :
    db'.Announced wake := by
  cases wake with
  | resyncAll => exact trivial
  | resource resourceId generation =>
      rcases h with ⟨row, hrow, hsame⟩
      exact ⟨row, hevents.subset hrow, hsame⟩

theorem Db.announced_wake {db : Db} {row : AuthorityEventRow}
    (h : row ∈ db.authorityEvents) : db.Announced row.wake :=
  ⟨row, h, rfl, rfl⟩

/-!
## Sound servers
-/

namespace WakeServer

/-- The server says only such things, and its streams are faithful and go
on. -/
structure Sound (said : RegistryWake -> Prop) (server : WakeServer) :
    Prop where
  speaks : server.Speaks said
  opened : server.channel.closed = false
  going : forall client stream, server.streams client = some stream ->
    stream.ended = false
  faithful : forall client stream, server.streams client = some stream ->
    exists start, stream.Faithful server.channel start

variable {server server' : WakeServer} {said said' : RegistryWake -> Prop}
  {client : Nat}

theorem Sound.mono (h : server.Sound said)
    (hsaid : forall wake, said wake -> said' wake) : server.Sound said' where
  speaks :=
    { sent := fun wake hwake => hsaid wake (h.speaks.sent wake hwake)
      pending := fun hint hhint wake hwake =>
        hsaid wake (h.speaks.pending hint hhint wake hwake) }
  opened := h.opened
  going := h.going
  faithful := h.faithful

theorem start_sound : start.Sound said where
  speaks :=
    { sent := fun _ h => absurd h List.not_mem_nil
      pending := fun _ h => absurd h List.not_mem_nil }
  opened := rfl
  going := fun _ _ h => nomatch h
  faithful := fun _ _ h => nomatch h

/-- The channel grows, and the streams are as they were. -/
theorem Sound.grow (h : server.Sound said) (hspeaks : server'.Speaks said)
    (hsent : server.channel.sent <+: server'.channel.sent)
    (hclosed : server'.channel.closed = server.channel.closed)
    (hstreams : server'.streams = server.streams) : server'.Sound said where
  speaks := hspeaks
  opened := hclosed.trans h.opened
  going := by
    rw [hstreams]
    exact h.going
  faithful := by
    intro client stream hstream
    rw [hstreams] at hstream
    rcases h.faithful client stream hstream with ⟨start, hfaithful⟩
    exact ⟨start, hfaithful.grow hsent⟩

theorem send_sound {wake : RegistryWake} (h : server.Sound said)
    (hwake : said wake) : (server.send wake).Sound said :=
  h.grow (send_speaks h.speaks hwake) (List.prefix_append _ _) rfl rfl

theorem notify_sound {hints : List SyncHint} (h : server.Sound said)
    (hhints : forall hint, hint ∈ hints ->
      forall wake, wake ∈ hint.wakes -> said wake) :
    (server.notify hints).Sound said := by
  refine h.grow ⟨h.speaks.sent, ?_⟩ List.prefix_rfl rfl rfl
  intro hint hhint
  rcases notify_pending.mp hhint with hold | hnew
  · exact h.speaks.pending hint hold
  · exact hhints hint hnew.2

theorem hear_sound (h : server.Sound said) : server.hear.Sound said := by
  have hkeeps : Keeps 0 server server.hear := hear_keeps
  refine h.grow (hear_speaks h.speaks) hkeeps.sent ?_ ?_
  · unfold hear
    split
    · exact sendAll_closed
    · rfl
  · unfold hear
    split
    · exact sendAll_streams
    · rfl

theorem listen_sound (h : server.Sound said) : server.listen.Sound said :=
  h.grow ⟨h.speaks.sent, h.speaks.pending⟩ List.prefix_rfl rfl rfl

theorem lose_sound (h : server.Sound said) : server.lose.Sound said :=
  h.grow ⟨h.speaks.sent, fun _ hhint => absurd hhint List.not_mem_nil⟩
    List.prefix_rfl rfl rfl

theorem events_sound {watched : List Uuid} (h : server.Sound said) :
    (server.events client watched).Sound said where
  speaks := events_speaks h.speaks
  opened := by
    rw [events_channel]
    exact h.opened
  going := by
    intro someone stream hstream
    rcases events_streams hstream with hold | hnew
    · exact h.going someone stream hold
    · rw [hnew]
      rfl
  faithful := by
    intro someone stream hstream
    rw [events_channel]
    rcases events_streams hstream with hold | hnew
    · exact h.faithful someone stream hold
    · rw [hnew]
      exact ⟨_, WakeStream.subscribe_faithful server.channel watched⟩

theorem poll_sound (h : server.Sound said) :
    (server.poll client).Sound said where
  speaks := ⟨h.speaks.sent, h.speaks.pending⟩
  opened := h.opened
  going := by
    intro someone stream hstream
    rcases poll_streams hstream with hold | hpolled
    · exact h.going someone stream hold
    · rcases hpolled with ⟨old, hold, hpolled⟩
      rw [← hpolled]
      exact WakeStream.poll_going h.opened (h.going client old hold)
  faithful := by
    intro someone stream hstream
    rcases poll_streams hstream with hold | hpolled
    · exact h.faithful someone stream hold
    · rcases hpolled with ⟨old, hold, hpolled⟩
      rcases h.faithful client old hold with ⟨start, hfaithful⟩
      rw [← hpolled]
      exact ⟨start, hfaithful.poll⟩

theorem disconnect_sound (h : server.Sound said) :
    (server.disconnect client).Sound said where
  speaks := ⟨h.speaks.sent, h.speaks.pending⟩
  opened := h.opened
  going := fun someone stream hstream =>
    h.going someone stream (disconnect_streams hstream)
  faithful := fun someone stream hstream =>
    h.faithful someone stream (disconnect_streams hstream)

end WakeServer

/-!
## Drains
-/

namespace Wakes

variable {registry : Registry} {s : Wakes registry}

theorem on_self {server : Nat} {f : WakeServer -> WakeServer} :
    (s.on server f).servers server = f (s.servers server) :=
  Function.update_self ..

theorem on_other {server other : Nat} {f : WakeServer -> WakeServer}
    (h : other ≠ server) : (s.on server f).servers other = s.servers other :=
  Function.update_of_ne h ..

/-- The rows that each transaction has dispatched or holds. -/
def held (s : Wakes registry) : List (List AuthorityEventRow) :=
  (s.dispatched ++ s.drains).map Drain.rows

theorem dispatch_cases (s : Wakes registry) (index : Nat) :
    s.dispatch index = s ∨
      exists server relayed row rest,
        s.drains[index]? = some ⟨server, relayed, row :: rest⟩ ∧
        s.dispatch index = { s with
          drains := s.drains.set index ⟨server, relayed ++ [row], rest⟩ }.on
            server fun own => own.send row.wake := by
  unfold dispatch
  split
  · rename_i server relayed row rest hdrain
    exact .inr ⟨server, relayed, row, rest, hdrain, rfl⟩
  · exact .inl rfl

theorem commit_cases (s : Wakes registry) (index : Nat) :
    s.commit index = s ∨
      exists server relayed, s.drains[index]? = some ⟨server, relayed, []⟩ ∧
        s.commit index = { s with
          dispatched := s.dispatched ++ [⟨server, relayed, []⟩]
          drains := s.drains.eraseIdx index
          servers := fun other => (s.servers other).notify
            (Drain.notifications ⟨server, relayed, []⟩) } := by
  unfold commit
  split
  · rename_i server relayed hdrain
    exact .inr ⟨server, relayed, hdrain, rfl⟩
  · exact .inl rfl

theorem dispatch_held (s : Wakes registry) (index : Nat) :
    (s.dispatch index).held = s.held := by
  rcases dispatch_cases s index with hsame | hdispatch
  · rw [hsame]
  · rcases hdispatch with ⟨server, relayed, row, rest, hdrain, hresult⟩
    rw [hresult]
    show (s.dispatched ++ s.drains.set index _).map Drain.rows = _
    unfold held
    rw [List.map_append, List.map_append, List.map_set]
    congr 1
    rcases List.getElem?_eq_some_iff.mp hdrain with ⟨hindex, hfound⟩
    have hindex' : index < (s.drains.map Drain.rows).length := by
      rw [List.length_map]
      exact hindex
    have hrows : Drain.rows ⟨server, relayed ++ [row], rest⟩ =
        (s.drains.map Drain.rows)[index] := by
      rw [List.getElem_map, hfound]
      exact List.append_assoc relayed [row] rest
    rw [hrows, List.set_getElem_self]

theorem commit_held (s : Wakes registry) (index : Nat) :
    (s.commit index).held.Perm s.held := by
  rcases commit_cases s index with hsame | hcommit
  · rw [hsame]
  · rcases hcommit with ⟨server, relayed, hdrain, hresult⟩
    rw [hresult]
    unfold held
    apply List.Perm.map
    rw [List.append_assoc]
    apply List.Perm.append_left
    rcases List.getElem?_eq_some_iff.mp hdrain with ⟨hindex, hfound⟩
    rw [← hfound]
    exact List.getElem_cons_eraseIdx_perm hindex

theorem abort_held (s : Wakes registry) (index : Nat) :
    ({ s with drains := s.drains.eraseIdx index } : Wakes registry).held.Sublist
      s.held :=
  ((List.eraseIdx_sublist s.drains index).append_left s.dispatched).map
    Drain.rows

theorem drainOutbox_held (s : Wakes registry) (server limit : Nat) :
    (s.drainOutbox server limit).held = s.held ++ [s.undispatched limit] := by
  unfold held drainOutbox
  rw [← List.append_assoc, List.map_append]
  rfl

/-- A transaction takes rows that no other one has dispatched or holds. -/
theorem mem_undispatched {limit : Nat} {row : AuthorityEventRow}
    (h : row ∈ s.undispatched limit) :
    row ∈ s.db.authorityEvents ∧
      forall rows, rows ∈ s.held -> row ∉ rows := by
  rcases List.mem_filter.mp (mem_sortByKey.mp (List.mem_of_mem_take h)) with
    ⟨hevent, hawaiting⟩
  refine ⟨hevent, ?_⟩
  intro rows hrows hmember
  rcases List.mem_map.mp hrows with ⟨drain, hdrain, hsame⟩
  have hany : (s.dispatched ++ s.drains).any
      (fun drain => decide (row ∈ drain.rows)) = true := by
    apply List.any_eq_true.mpr
    refine ⟨drain, hdrain, ?_⟩
    rw [hsame]
    exact decide_eq_true hmember
  unfold awaiting at hawaiting
  rw [hany] at hawaiting
  cases hawaiting

/-!
## Sound systems
-/

/-- What holds whatever has been done. -/
structure Sound (s : Wakes registry) : Prop where
  recorded : s.publishing.site.Recorded
  servers : forall server, (s.servers server).Sound s.db.Announced
  known : forall rows, rows ∈ s.held ->
    forall row, row ∈ rows -> row ∈ s.db.authorityEvents
  exclusive : s.held.Pairwise List.Disjoint

theorem sound_empty (directory : Directory) :
    (empty registry directory).Sound where
  recorded := PublishingSite.recorded_empty directory
  servers := fun _ => WakeServer.start_sound
  known := fun _ h => absurd h List.not_mem_nil
  exclusive := .nil

theorem on_sound {server : Nat} {f : WakeServer -> WakeServer}
    (h : s.Sound)
    (hf : (s.servers server).Sound s.db.Announced ->
      (f (s.servers server)).Sound s.db.Announced) : (s.on server f).Sound where
  recorded := h.recorded
  servers := by
    intro other
    by_cases hsame : other = server
    · rw [hsame, on_self]
      exact hf (h.servers server)
    · rw [on_other hsame]
      exact h.servers other
  known := h.known
  exclusive := h.exclusive

theorem publishing_sound (step : PublishingStep) (h : s.Sound) :
    (s.step (.publishing step)).Sound := by
  rcases PublishingSite.step_keepsHistory step h.recorded with
    ⟨hrecorded, hkept⟩
  refine ⟨hrecorded, ?_, ?_, h.exclusive⟩
  · intro server
    exact (h.servers server).mono fun _ hwake => hwake.mono hkept.events
  · intro rows hrows row hrow
    exact hkept.events.subset (h.known rows hrows row hrow)

theorem drainOutbox_sound (server limit : Nat) (h : s.Sound) :
    (s.drainOutbox server limit).Sound := by
  refine ⟨h.recorded, h.servers, ?_, ?_⟩
  · intro rows hrows row hrow
    rw [drainOutbox_held] at hrows
    rcases List.mem_append.mp hrows with hold | hlast
    · exact h.known rows hold row hrow
    · rw [List.mem_singleton.mp hlast] at hrow
      exact (mem_undispatched hrow).1
  · rw [drainOutbox_held]
    refine List.pairwise_append.mpr
      ⟨h.exclusive, List.pairwise_singleton _ _, ?_⟩
    intro rows hrows taken htaken row hrow
    rw [List.mem_singleton.mp htaken]
    intro htake
    exact (mem_undispatched htake).2 rows hrows hrow

theorem dispatch_sound (index : Nat) (h : s.Sound) :
    (s.dispatch index).Sound := by
  have hheld := dispatch_held s index
  rcases dispatch_cases s index with hsame | hdispatch
  · rw [hsame]
    exact h
  · rcases hdispatch with ⟨server, relayed, row, rest, hdrain, hresult⟩
    have hrow : row ∈ s.db.authorityEvents := by
      apply h.known (Drain.rows ⟨server, relayed, row :: rest⟩)
      · exact List.mem_map_of_mem (List.mem_append_right _
          (List.mem_of_getElem? hdrain))
      · exact List.mem_append_right _ List.mem_cons_self
    rw [hresult] at hheld ⊢
    refine on_sound (s := { s with
      drains := s.drains.set index ⟨server, relayed ++ [row], rest⟩ })
      ⟨h.recorded, h.servers, ?_, ?_⟩ ?_
    · intro rows hrows
      exact h.known rows (hheld ▸ hrows)
    · exact hheld.symm ▸ h.exclusive
    · intro hserver
      exact WakeServer.send_sound hserver (Db.announced_wake hrow)

theorem commit_sound (index : Nat) (h : s.Sound) : (s.commit index).Sound := by
  have hheld := commit_held s index
  rcases commit_cases s index with hsame | hcommit
  · rw [hsame]
    exact h
  · rcases hcommit with ⟨server, relayed, hdrain, hresult⟩
    rw [hresult] at hheld ⊢
    refine ⟨h.recorded, ?_, ?_, ?_⟩
    · intro other
      apply WakeServer.notify_sound (h.servers other)
      intro hint hhint wake hwake
      rcases List.mem_map.mp (List.mem_eraseDups.mp hhint) with
        ⟨row, hrow, hsame⟩
      rw [← hsame] at hwake
      rw [List.mem_singleton.mp hwake]
      apply Db.announced_wake
      apply h.known (Drain.rows ⟨server, relayed, []⟩)
      · exact List.mem_map_of_mem (List.mem_append_right _
          (List.mem_of_getElem? hdrain))
      · exact List.mem_append_left _ hrow
    · intro rows hrows
      exact h.known rows (hheld.mem_iff.mp hrows)
    · exact hheld.symm.pairwise h.exclusive fun hdisjoint =>
        List.disjoint_symm hdisjoint

theorem step_sound (step : WakeStep) (h : s.Sound) : (s.step step).Sound := by
  cases step with
  | publishing step => exact publishing_sound step h
  | drainOutbox server limit => exact drainOutbox_sound server limit h
  | dispatch index => exact dispatch_sound index h
  | commit index => exact commit_sound index h
  | abort index =>
      refine ⟨h.recorded, h.servers, ?_, ?_⟩
      · intro rows hrows
        exact h.known rows ((abort_held s index).subset hrows)
      · exact h.exclusive.sublist (abort_held s index)
  | resync server =>
      have hresync : s.db.Announced .resyncAll := trivial
      apply on_sound (f := fun own => own.send .resyncAll) h
      intro hserver
      exact WakeServer.send_sound hserver hresync
  | announce server index =>
      simp only [step]
      split
      · exact h
      · rename_i row hrow
        exact on_sound h fun hserver => WakeServer.send_sound hserver
          (Db.announced_wake (List.mem_of_getElem? hrow))
  | listen server => exact on_sound h WakeServer.listen_sound
  | lose server => exact on_sound h WakeServer.lose_sound
  | hear server => exact on_sound h WakeServer.hear_sound
  | events server client watched =>
      exact on_sound (f := fun own => own.events client watched) h
        WakeServer.events_sound
  | poll server client =>
      exact on_sound (f := fun own => own.poll client) h
        WakeServer.poll_sound
  | disconnect server client =>
      exact on_sound (f := fun own => own.disconnect client) h
        WakeServer.disconnect_sound

theorem sound_of_run {directory : Directory} {steps : List WakeStep}
    (hrun : Run Steps (empty registry directory) steps s) : s.Sound :=
  hrun.invariant (sound_empty directory) fun _ step _ hsound hstep =>
    hstep.2 ▸ step_sound step hsound

/-!
## Staying tuned
-/

variable {s0 s' : Wakes registry} {server client : Nat} {action : WakeStep}

/-- What is on its way comes, and the client stays. -/
structure Continues (client : Nat) (server server' : WakeServer) : Prop where
  keeps : WakeServer.Keeps client server server'
  reaches : forall start wake, start ≤ server.channel.sent.length ->
    server.Reaches start wake -> server'.Reaches start wake

theorem Continues.refl (client : Nat) (server : WakeServer) :
    Continues client server server :=
  ⟨.refl client server, fun _ _ _ h => h⟩

/-- The notifications wait as they did. -/
theorem Continues.ofKeeps {own own' : WakeServer}
    (h : WakeServer.Keeps client own own')
    (hpending : forall hint, hint ∈ own.pending -> hint ∈ own'.pending) :
    Continues client own own' :=
  ⟨h, fun _ _ _ hreaches => hreaches.grow h.sent hpending⟩

theorem Continues.send {own : WakeServer} {wake : RegistryWake} :
    Continues client own (own.send wake) :=
  .ofKeeps WakeServer.send_keeps fun _ h => h

theorem Continues.notify {own : WakeServer} {hints : List SyncHint} :
    Continues client own (own.notify hints) :=
  .ofKeeps (.ofGrowth List.prefix_rfl rfl) fun _ h =>
    WakeServer.notify_pending.mpr (.inl h)

theorem on_continues {other : Nat} {f : WakeServer -> WakeServer}
    (hchange : other = server ->
      Continues client (s.servers server) (f (s.servers server))) :
    Continues client (s.servers server) ((s.on other f).servers server) := by
  by_cases hother : server = other
  · rw [← hother, on_self]
    exact hchange hother.symm
  · rw [on_other hother]
    exact .refl client _

theorem step_continues (htuned : staysTuned server client s action = true) :
    Continues client (s.servers server) ((s.step action).servers server) := by
  cases action with
  | publishing step => exact .refl client _
  | drainOutbox other limit => exact .refl client _
  | dispatch index =>
      rcases dispatch_cases s index with hsame | hdispatch
      · rw [show s.step (.dispatch index) = s from hsame]
        exact .refl client _
      · rcases hdispatch with ⟨other, relayed, row, rest, _, hresult⟩
        rw [show s.step (.dispatch index) = _ from hresult]
        exact on_continues (f := fun own => own.send row.wake)
          fun _ => Continues.send
  | commit index =>
      rcases commit_cases s index with hsame | hcommit
      · rw [show s.step (.commit index) = s from hsame]
        exact .refl client _
      · rcases hcommit with ⟨other, relayed, _, hresult⟩
        rw [show s.step (.commit index) = _ from hresult]
        exact .notify
  | abort index => exact .refl client _
  | resync other =>
      exact on_continues (f := fun own => own.send .resyncAll)
        fun _ => Continues.send
  | announce other index =>
      simp only [Wakes.step]
      split
      · exact .refl client _
      · exact on_continues fun _ => Continues.send
  | listen other =>
      apply on_continues (f := WakeServer.listen)
      intro _
      have hkeeps : WakeServer.Keeps client (s.servers server)
          (s.servers server).listen := .ofGrowth List.prefix_rfl rfl
      apply Continues.ofKeeps hkeeps
      intro hint hhint
      rw [WakeServer.listen_pending]
      exact hhint
  | lose other =>
      apply on_continues (f := WakeServer.lose)
      intro hother
      have hkeeps : WakeServer.Keeps client (s.servers server)
          (s.servers server).lose := .ofGrowth List.prefix_rfl rfl
      apply Continues.ofKeeps hkeeps
      intro hint hhint
      have hempty : (s.servers server).pending = [] := by
        simpa [staysTuned, hother] using htuned
      rw [hempty] at hhint
      cases hhint
  | hear other =>
      apply on_continues (f := WakeServer.hear)
      intro _
      exact ⟨WakeServer.hear_keeps, fun _ _ hstart hreaches =>
        WakeServer.hear_reaches hreaches hstart⟩
  | events other someone watched =>
      apply on_continues (f := fun own => own.events someone watched)
      intro _
      apply Continues.ofKeeps WakeServer.events_keeps
      intro hint hhint
      rw [WakeServer.events_pending]
      exact hhint
  | poll other someone =>
      apply on_continues (f := fun own => own.poll someone)
      intro _
      exact .ofKeeps WakeServer.poll_keeps fun _ h => h
  | disconnect other someone =>
      apply on_continues (f := fun own => own.disconnect someone)
      intro hother
      have hstays : client ≠ someone := by
        intro hsame
        simp [staysTuned, hother, hsame] at htuned
      exact .ofKeeps (WakeServer.disconnect_keeps hstays) fun _ h => h

/-- A row is relayed by the transaction that relayed it before, or now. -/
theorem step_relayed {drain : Drain} {row : AuthorityEventRow}
    (hdrain : drain ∈ (s.step action).drains) (hrow : row ∈ drain.relayed) :
    (exists old, old ∈ s.drains ∧ old.server = drain.server ∧
        row ∈ old.relayed) ∨
      (s.step action).servers drain.server =
        (s.servers drain.server).send row.wake := by
  cases action with
  | dispatch index =>
      rcases dispatch_cases s index with hsame | hdispatch
      · rw [show s.step (.dispatch index) = s from hsame] at hdrain
        exact .inl ⟨drain, hdrain, rfl, hrow⟩
      · rcases hdispatch with ⟨other, relayed, next, rest, hheld, hresult⟩
        have hstep : s.step (.dispatch index) = _ := hresult
        rw [hstep] at hdrain ⊢
        rcases List.mem_or_eq_of_mem_set hdrain with hold | hthis
        · exact .inl ⟨drain, hold, rfl, hrow⟩
        · rw [hthis] at hrow ⊢
          rcases List.mem_append.mp hrow with hold | hlast
          · exact .inl ⟨_, List.mem_of_getElem? hheld, rfl, hold⟩
          · right
            rw [List.mem_singleton.mp hlast, on_self]
  | commit index =>
      left
      rcases commit_cases s index with hsame | hcommit
      · rw [show s.step (.commit index) = s from hsame] at hdrain
        exact ⟨drain, hdrain, rfl, hrow⟩
      · rcases hcommit with ⟨other, relayed, _, hresult⟩
        rw [show s.step (.commit index) = _ from hresult] at hdrain
        exact ⟨drain, List.mem_of_mem_eraseIdx hdrain, rfl, hrow⟩
  | abort index =>
      exact .inl ⟨drain, List.mem_of_mem_eraseIdx hdrain, rfl, hrow⟩
  | drainOutbox other limit =>
      left
      rcases List.mem_append.mp hdrain with hold | hlast
      · exact ⟨drain, hold, rfl, hrow⟩
      · rw [List.mem_singleton.mp hlast] at hrow
        cases hrow
  | announce other index =>
      left
      simp only [Wakes.step] at hdrain
      split at hdrain
      · exact ⟨drain, hdrain, rfl, hrow⟩
      · exact ⟨drain, hdrain, rfl, hrow⟩
  | publishing step => exact .inl ⟨drain, hdrain, rfl, hrow⟩
  | resync other => exact .inl ⟨drain, hdrain, rfl, hrow⟩
  | listen other => exact .inl ⟨drain, hdrain, rfl, hrow⟩
  | lose other => exact .inl ⟨drain, hdrain, rfl, hrow⟩
  | hear other => exact .inl ⟨drain, hdrain, rfl, hrow⟩
  | events other someone watched => exact .inl ⟨drain, hdrain, rfl, hrow⟩
  | poll other someone => exact .inl ⟨drain, hdrain, rfl, hrow⟩
  | disconnect other someone => exact .inl ⟨drain, hdrain, rfl, hrow⟩

/-- A dispatch was committed before, or is now, and every server that listens
is notified. -/
theorem step_dispatched {drain : Drain}
    (hdrain : drain ∈ (s.step action).dispatched) :
    drain ∈ s.dispatched ∨ exists index, action = .commit index ∧
      s.drains[index]? = some drain ∧ drain.rows = drain.relayed ∧
      forall other, (s.step action).servers other =
        (s.servers other).notify drain.notifications := by
  cases action with
  | commit index =>
      rcases commit_cases s index with hsame | hcommit
      · rw [show s.step (.commit index) = s from hsame] at hdrain
        exact .inl hdrain
      · rcases hcommit with ⟨other, relayed, hheld, hresult⟩
        have hstep : s.step (.commit index) = _ := hresult
        rw [hstep] at hdrain
        rcases List.mem_append.mp hdrain with hold | hlast
        · exact .inl hold
        · right
          rw [List.mem_singleton.mp hlast]
          refine ⟨index, rfl, hheld, List.append_nil _, ?_⟩
          intro someone
          rw [hstep]
  | dispatch index =>
      left
      rcases dispatch_cases s index with hsame | hdispatch
      · rw [show s.step (.dispatch index) = s from hsame] at hdrain
        exact hdrain
      · rcases hdispatch with ⟨_, _, _, _, _, hresult⟩
        rw [show s.step (.dispatch index) = _ from hresult] at hdrain
        exact hdrain
  | announce other index =>
      left
      simp only [Wakes.step] at hdrain
      split at hdrain
      · exact hdrain
      · exact hdrain
  | publishing step => exact .inl hdrain
  | abort index => exact .inl hdrain
  | drainOutbox other limit => exact .inl hdrain
  | resync other => exact .inl hdrain
  | listen other => exact .inl hdrain
  | lose other => exact .inl hdrain
  | hear other => exact .inl hdrain
  | events other someone watched => exact .inl hdrain
  | poll other someone => exact .inl hdrain
  | disconnect other someone => exact .inl hdrain

/-- Since the first state the server has taken up every later event that it
relays, and every later one whose dispatch has been committed. -/
structure Learns (s0 : Wakes registry) (server client : Nat)
    (s : Wakes registry) : Prop where
  sound : s.Sound
  keeps : WakeServer.Keeps client (s0.servers server) (s.servers server)
  relayed : forall drain, drain ∈ s.drains -> drain.server = server ->
    forall row, row ∈ drain.relayed -> row ∉ s0.db.authorityEvents ->
      (s.servers server).Reaches (s0.servers server).channel.sent.length
        row.wake
  dispatched : forall drain, drain ∈ s.dispatched ->
    forall row, row ∈ drain.rows -> row ∉ s0.db.authorityEvents ->
      (s.servers server).Reaches (s0.servers server).channel.sent.length
        row.wake

theorem Sound.learns (h : s0.Sound) (server client : Nat) :
    s0.Learns server client s0 where
  sound := h
  keeps := .refl client _
  relayed := by
    intro drain hdrain _ row hrow hnew
    refine absurd (h.known drain.rows ?_ row ?_) hnew
    · exact List.mem_map_of_mem (List.mem_append_right _ hdrain)
    · exact List.mem_append_left _ hrow
  dispatched := by
    intro drain hdrain row hrow hnew
    refine absurd (h.known drain.rows ?_ row hrow) hnew
    exact List.mem_map_of_mem (List.mem_append_left _ hdrain)

theorem Learns.step (h : s0.Learns server client s)
    (htuned : staysTuned server client s action = true) :
    s0.Learns server client (s.step action) := by
  have hcontinues := step_continues htuned
  have hstart := h.keeps.sent.length_le
  refine ⟨step_sound action h.sound, h.keeps.trans hcontinues.keeps, ?_, ?_⟩
  · intro drain hdrain hown row hrow hnew
    rcases step_relayed hdrain hrow with hbefore | hnow
    · rcases hbefore with ⟨old, hold, hsame, hrelayed⟩
      exact hcontinues.reaches _ _ hstart
        (h.relayed old hold (hsame.trans hown) row hrelayed hnew)
    · right
      rw [← hown, hnow, hown]
      exact ⟨(s.servers server).channel.sent.length, hstart,
        List.getElem?_concat_length⟩
  · intro drain hdrain row hrow hnew
    rcases step_dispatched hdrain with hbefore | hnow
    · exact hcontinues.reaches _ _ hstart
        (h.dispatched drain hbefore row hrow hnew)
    · rcases hnow with ⟨index, haction, hheld, hrows, hnotified⟩
      rw [hrows] at hrow
      by_cases hown : drain.server = server
      · exact hcontinues.reaches _ _ hstart
          (h.relayed drain (List.mem_of_getElem? hheld) hown row hrow hnew)
      · have hlistens : (s.servers server).inbox.isSome = true := by
          simpa [staysTuned, haction, hheld, hown] using htuned
        left
        rw [hnotified server]
        apply WakeServer.notify_pending.mpr
        exact .inr ⟨hlistens,
          List.mem_eraseDups.mpr (List.mem_map_of_mem hrow)⟩

theorem learns_of_run {directory : Directory} {past steps : List WakeStep}
    (hpast : Run Steps (empty registry directory) past s0)
    (hrun : Run (Guarded (fun s action => staysTuned server client s action)
      Wakes.step) s0 steps s) : s0.Learns server client s := by
  apply hrun.invariant ((sound_of_run hpast).learns server client)
  intro before action after hlearns hstep
  rw [hstep.2]
  exact hlearns.step hstep.1

end Wakes

namespace Sample

/-- A client of the second server watches a skill. -/
def watching : List WakeStep :=
  followingSteps.map .publishing ++
    [.listen 1, .events 1 7 [uuid 32]]

def watchingWakes : Wakes ordering :=
  watching.foldl Wakes.step (.empty ordering directory)

/-- The first server dispatches a release, and the client is told. -/
def telling : List WakeStep :=
  drawing.map .publishing ++
    [.drainOutbox 0 100, .dispatch 0, .dispatch 0, .commit 0, .hear 1,
      .hear 1, .poll 1 7, .poll 1 7, .poll 1 7, .poll 1 7]

def toldWakes : Wakes ordering :=
  telling.foldl Wakes.step watchingWakes

def resyncWakes : Wakes ordering :=
  [.events 1 7 [uuid 32], .resync 1].foldl Wakes.step
    (.empty ordering directory)

def tellsOfRelease (sent : SentBatch) : Bool :=
  decide (sent.batch.hint = .dirty [⟨uuid 32, 2⟩])

end Sample

namespace Wakes

variable {registry : Registry} {s s0 : Wakes registry} {server client : Nat}

/-!
## What clients are told
-/

/-- A client that stays connected, to a server that hears of what the others
dispatch, learns of every later event that it watches and that is dispatched,
as soon as its stream has gone through what reached the server. -/
theorem streams_told {directory : Directory} {past steps : List WakeStep}
    {stream0 : WakeStream}
    (hpast : Run Steps (empty registry directory) past s0)
    (hstream : (s0.servers server).streams client = some stream0)
    (hrun : Run (Guarded (fun s action => staysTuned server client s action)
      Wakes.step) s0 steps s) :
    exists stream, (s.servers server).streams client = some stream ∧
      stream.watched = stream0.watched ∧
      stream0.batches <+: stream.batches ∧
      ((s.servers server).UpToDate stream -> forall drain row,
        drain ∈ s.dispatched -> row ∈ drain.rows ->
        row ∉ s0.db.authorityEvents -> row.resourceId ∈ stream0.watched ->
          exists sent, sent ∈ stream.batches.drop stream0.batches.length ∧
            sent.batch.hint.Covers row.wake) := by
  have hsound := sound_of_run hpast
  have hlearns := learns_of_run hpast hrun
  rcases hlearns.keeps.stream stream0 hstream with
    ⟨stream, hfound, hwatched, hbatches, hkept⟩
  refine ⟨stream, hfound, hwatched, hbatches, ?_⟩
  intro huptodate drain row hdrain hrow hnew hconcerns
  rcases (hsound.servers server).faithful client stream0 hstream with
    ⟨start, hfaithful0⟩
  have hfaithful := hkept start hfaithful0
  rcases hlearns.dispatched drain hdrain row hrow hnew with hwaits | hcame
  · rw [huptodate.heard] at hwaits
    cases hwaits
  · rcases hcame with ⟨index, hfrom, hindex⟩
    have hstart := Nat.le_trans hfaithful0.started hfaithful0.bounded
    rcases hfaithful.caughtUp_told huptodate.caughtUp
        (Nat.le_trans hstart hfrom) hindex (hwatched ▸ hconcerns) with
      ⟨sent, hsent, hlater, hcovers⟩
    refine ⟨sent, ?_, hcovers⟩
    rcases hbatches with ⟨more, hmore⟩
    rw [← hmore] at hsent ⊢
    rw [List.drop_left]
    rcases List.mem_append.mp hsent with hold | hthis
    · have hbefore := (hfaithful0.honest sent hold).1
      have hbound := hfaithful0.bounded
      omega
    · exact hthis

theorem streams_told_release :
    exists stream sent, (Sample.toldWakes.servers 1).streams 7 = some stream ∧
      sent ∈ stream.batches ∧
      sent.batch.hint.Covers (.resource (Sample.uuid 32) 2) := by
  have hpast : Run Steps (empty Sample.ordering Sample.directory)
      Sample.watching Sample.watchingWakes := Run.free _ _
  have hstream : (Sample.watchingWakes.servers 1).streams 7 =
      some ⟨[Sample.uuid 32], 0, .receiving, [], false⟩ := by
    decide +kernel
  have hrun : Run (Guarded (fun s action => staysTuned 1 7 s action)
      Wakes.step) Sample.watchingWakes Sample.telling Sample.toldWakes :=
    Run.guarded_of_all (by decide +kernel)
  rcases streams_told hpast hstream hrun with
    ⟨stream, hfound, _, _, htold⟩
  have hcaught : ((Sample.toldWakes.servers 1).streams 7).all
      (fun stream => decide (stream.batching = .receiving ∧ stream.position =
        (Sample.toldWakes.servers 1).channel.sent.length)) = true := by
    decide +kernel
  rw [hfound] at hcaught
  have hevent : (Sample.toldWakes.dispatched.any fun drain =>
      drain.rows.any fun row =>
        decide (row.wake = .resource (Sample.uuid 32) 2) &&
          decide (row ∉ Sample.watchingWakes.db.authorityEvents)) = true := by
    decide +kernel
  rcases List.any_eq_true.mp hevent with ⟨drain, hdrain, hrows⟩
  rcases List.any_eq_true.mp hrows with ⟨row, hrow, hsame⟩
  rw [Bool.and_eq_true, decide_eq_true_eq, decide_eq_true_eq] at hsame
  have hid : row.resourceId = Sample.uuid 32 :=
    (RegistryWake.resource.inj hsame.1).1
  have hend : stream.batching = .receiving ∧ stream.position =
      (Sample.toldWakes.servers 1).channel.sent.length :=
    of_decide_eq_true hcaught
  rcases htold ⟨by decide +kernel, hend⟩ drain row hdrain hrow hsame.2
      (by rw [hid]; exact List.mem_singleton_self _) with
    ⟨sent, hsent, hcovers⟩
  rw [hsame.1] at hcovers
  exact ⟨stream, sent, hfound, List.mem_of_mem_drop hsent, hcovers⟩

/-!
## Catching up
-/

theorem hear_pending {own : WakeServer} :
    own.hear.pending = own.pending.tail := by
  unfold WakeServer.hear WakeServer.pending
  split
  · rename_i hint rest hinbox
    rw [WakeServer.sendAll_inbox, hinbox]
    rfl
  · rename_i hnone
    cases hinbox : own.inbox with
    | none => rfl
    | some inbox =>
        cases inbox with
        | nil => rfl
        | cons hint rest => exact absurd hinbox (hnone hint rest)

/-- Polling alone brings a stream to the end of its channel. -/
theorem polls_catch_up (hsound : s.Sound) {stream : WakeStream}
    (hstream : (s.servers server).streams client = some stream)
    (hheard : (s.servers server).pending = []) :
    exists more : List WakeStep, (forall action, action ∈ more ->
        action = .poll server client) ∧
      exists stream',
        ((more.foldl Wakes.step s).servers server).streams client =
            some stream' ∧
          ((more.foldl Wakes.step s).servers server).UpToDate stream' := by
  induction hwork : stream.work (s.servers server).channel
    using Nat.strongRecOn generalizing s stream with
  | ind turns ih =>
      have hserver := hsound.servers server
      rcases hserver.faithful client stream hstream with ⟨start, hfaithful⟩
      rcases WakeStream.poll_work hserver.opened
          (hserver.going client stream hstream) hfaithful.bounded with
        hcaught | hless
      · exact ⟨[], fun _ h => absurd h List.not_mem_nil, stream, hstream,
          hheard, hcaught⟩
      · have hpolled : (s.step (.poll server client)).servers server =
            (s.servers server).poll client :=
          on_self (f := fun own => own.poll client)
        have hnext : ((s.step (.poll server client)).servers server).streams
            client = some (stream.poll (s.servers server).channel) := by
          rw [hpolled]
          unfold WakeServer.poll
          rw [hstream]
          exact Function.update_self ..
        rw [hwork] at hless
        have hheard' :
            ((s.step (.poll server client)).servers server).pending = [] := by
          rw [hpolled]
          exact hheard
        have hwork' : (stream.poll (s.servers server).channel).work
            ((s.step (.poll server client)).servers server).channel =
            (stream.poll (s.servers server).channel).work
              (s.servers server).channel := by
          rw [hpolled]
          rfl
        rcases ih _ hless (step_sound _ hsound) hnext hheard' hwork' with
          ⟨more, hmore, hupToDate⟩
        refine ⟨.poll server client :: more, ?_, hupToDate⟩
        intro action haction
        rcases List.mem_cons.mp haction with hfirst | hlater
        · exact hfirst
        · exact hmore action hlater

/-- Reading its notifications and polling alone bring a client up to date. -/
theorem streams_catch_up {directory : Directory} {steps : List WakeStep}
    {stream : WakeStream}
    (hrun : Run Steps (empty registry directory) steps s)
    (hstream : (s.servers server).streams client = some stream) :
    exists more : List WakeStep, (forall action, action ∈ more ->
        action = .hear server ∨ action = .poll server client) ∧
      exists stream',
        ((more.foldl Wakes.step s).servers server).streams client =
            some stream' ∧
          ((more.foldl Wakes.step s).servers server).UpToDate stream' := by
  have hsound := sound_of_run hrun
  clear hrun
  induction hpending : (s.servers server).pending
    generalizing s stream with
  | nil =>
      rcases polls_catch_up hsound hstream hpending with
        ⟨more, hmore, hupToDate⟩
      exact ⟨more, fun action haction => .inr (hmore action haction),
        hupToDate⟩
  | cons hint rest ih =>
      have hheard : (s.step (.hear server)).servers server =
          (s.servers server).hear := on_self
      have hpending' :
          ((s.step (.hear server)).servers server).pending = rest := by
        rw [hheard, hear_pending, hpending]
        rfl
      have hkeeps : WakeServer.Keeps client (s.servers server)
          (s.servers server).hear := WakeServer.hear_keeps
      rcases hkeeps.stream stream hstream with ⟨stream', hstream', _⟩
      rw [← hheard] at hstream'
      rcases ih hstream' (step_sound _ hsound) hpending' with
        ⟨more, hmore, hupToDate⟩
      refine ⟨.hear server :: more, ?_, hupToDate⟩
      intro action haction
      rcases List.mem_cons.mp haction with hfirst | hlater
      · exact .inl hfirst
      · exact hmore action hlater

theorem streams_catch_up_resync :
    exists more : List WakeStep, exists stream',
      ((more.foldl Wakes.step Sample.resyncWakes).servers 1).streams 7 =
          some stream' ∧ stream'.batching = .receiving := by
  have hrun : Run Steps (empty Sample.ordering Sample.directory)
      [.events 1 7 [Sample.uuid 32], .resync 1] Sample.resyncWakes :=
    Run.free _ _
  have hstream : (Sample.resyncWakes.servers 1).streams 7 =
      some ⟨[Sample.uuid 32], 0, .receiving, [], false⟩ := by
    decide +kernel
  rcases streams_catch_up hrun hstream with
    ⟨more, _, stream', hstream', hupToDate⟩
  exact ⟨more, stream', hstream', hupToDate.caughtUp.1⟩

/-- No hint tells of what has not happened. -/
theorem hints_honest {directory : Directory} {steps : List WakeStep}
    (hrun : Run Steps (empty registry directory) steps s) :
    forall server client stream,
      (s.servers server).streams client = some stream ->
        forall sent, sent ∈ stream.batches ->
          sent.batch.hint.HonestFor stream.watched s.db.Announced := by
  intro server client stream hstream sent hsent
  have hserver := (sound_of_run hrun).servers server
  rcases hserver.faithful client stream hstream with ⟨start, hfaithful⟩
  apply (hfaithful.honest sent hsent).2.mono
  intro wake hwake
  rcases hwake with ⟨index, _, _, hfound⟩
  exact hserver.speaks.sent wake (List.mem_of_getElem? hfound)

theorem hints_honest_release :
    exists stream, (Sample.toldWakes.servers 1).streams 7 = some stream ∧
      exists sent, sent ∈ stream.batches ∧
        (sent.batch.hint = .dirty [⟨Sample.uuid 32, 2⟩] ∧
          sent.batch.hint.HonestFor stream.watched
            Sample.toldWakes.db.Announced) := by
  have hrun : Run Steps (empty Sample.ordering Sample.directory)
      (Sample.watching ++ Sample.telling) Sample.toldWakes :=
    (Run.free Sample.watching _).append (Run.free Sample.telling _)
  have htold : ((Sample.toldWakes.servers 1).streams 7).any (fun stream =>
      stream.batches.any Sample.tellsOfRelease) = true := by
    decide +kernel
  cases hstream : (Sample.toldWakes.servers 1).streams 7 with
  | none =>
      rw [hstream] at htold
      cases htold
  | some stream =>
      rw [hstream] at htold
      rcases List.any_eq_true.mp htold with ⟨sent, hsent, hhint⟩
      exact ⟨stream, rfl, sent, hsent, of_decide_eq_true hhint,
        hints_honest hrun 1 7 stream hstream sent hsent⟩

/-- Only events are dispatched, and none by two transactions. -/
theorem dispatched_once {directory : Directory} {steps : List WakeStep}
    (hrun : Run Steps (empty registry directory) steps s) :
    (s.dispatched ++ s.drains).Pairwise
        (fun drain other => List.Disjoint drain.rows other.rows) ∧
      forall drain, drain ∈ s.dispatched -> forall row, row ∈ drain.rows ->
        row ∈ s.db.authorityEvents := by
  have hsound := sound_of_run hrun
  constructor
  · exact List.pairwise_map.mp hsound.exclusive
  · intro drain hdrain row hrow
    refine hsound.known drain.rows ?_ row hrow
    exact List.mem_map_of_mem (List.mem_append_left _ hdrain)

theorem dispatched_once_release :
    exists drain, drain ∈ Sample.toldWakes.dispatched ∧
      exists row, row ∈ drain.rows ∧
        row ∈ Sample.toldWakes.db.authorityEvents := by
  have hrun : Run Steps (empty Sample.ordering Sample.directory)
      (Sample.watching ++ Sample.telling) Sample.toldWakes :=
    (Run.free Sample.watching _).append (Run.free Sample.telling _)
  have hsome : (Sample.toldWakes.dispatched.any fun drain =>
      drain.rows.any fun row => decide (row.wake =
        .resource (Sample.uuid 32) 2)) = true := by
    decide +kernel
  rcases List.any_eq_true.mp hsome with ⟨drain, hdrain, hrows⟩
  rcases List.any_eq_true.mp hrows with ⟨row, hrow, _⟩
  exact ⟨drain, hdrain, row, hrow,
    (dispatched_once hrun).2 drain hdrain row hrow⟩

end Wakes
end Denju
