/-
# Yojimbo: when a send queue overruns

The server of the reliable mode with the send queue of every slot, iteration by
iteration. Which clients connect and disconnect is up to the library, and which
packets are acknowledged to the network and the clients; both are found inside
`AdvanceTime`, where a channel in an error state costs the client its connection.

Each connected client is sent the position of every player in each iteration, so
the queue of a client that acknowledges nothing grows by the number of players.
With all slots taken that is sixty-four in an iteration, and a queue of 1024 is
full after fifteen, before the library gives up on a client that is silent.
-/

import LibBench.Yojimbo.SendCalls

namespace LibBench.Yojimbo

open LibBench.Math

/-- What the library finds to have happened to a slot. -/
inductive SlotEvent
  | connected (clientIndex : ClientID)
  | disconnected (clientIndex : ClientID)
  deriving DecidableEq, Repr

/-- What an iteration of `ServerMain` meets: the random numbers, the messages
that have arrived, the events of the slots, and for each slot the packets that
turn out to be acknowledged, as the messages that went out with them. -/
structure ServerTick where
  draws : ClientID → List (ℕ × ℕ)
  received : List (ClientID × Message) := []
  events : List SlotEvent := []
  acked : ClientID → List (List UInt16) := fun _ => []

/-- The server with its slots and their reliable channels. -/
structure QueuedServer where
  gameState : ServerGameState
  isClientConnected : ClientID → Bool := fun _ => false
  channels : SendChannels := fun _ => {}

/-- The receive phase. -/
def ServerGameState.processMessages (gameState : ServerGameState)
    (received : List (ClientID × Message)) : ServerGameState :=
  received.foldl
    (fun gameState (clientIndex, message) => gameState.processMessage clientIndex message) gameState

@[simp]
theorem ServerGameState.processMessages_connectedPlayers (gameState : ServerGameState)
    (received : List (ClientID × Message)) :
    (gameState.processMessages received).connectedPlayers = gameState.connectedPlayers := by
  induction received generalizing gameState with
  | nil => rfl
  | cons message received ih =>
      exact (ih _).trans (gameState.processMessage_connectedPlayers message.1 message.2)

@[simp]
theorem ServerGameState.processMessages_toGameState (gameState : ServerGameState)
    (received : List (ClientID × Message)) :
    (gameState.processMessages received).toGameState = gameState.toGameState := by
  induction received generalizing gameState with
  | nil => rfl
  | cons message received ih =>
      exact (ih _).trans (gameState.processMessage_toGameState message.1 message.2)

namespace QueuedServer

/-- `ServerMain` before its loop. -/
def start (memory : GameState) : QueuedServer where
  gameState := { memory with }

/-- An event of `netcode_server_update`. The channel of a slot is reset when its
client is disconnected. -/
def applyEvent (server : QueuedServer) : SlotEvent → QueuedServer
  | .connected clientIndex =>
      if clientIndex ∈ clientIndices then
        { server with
          isClientConnected := Function.update server.isClientConnected clientIndex true }
      else server
  | .disconnected clientIndex =>
      { server with
        isClientConnected := Function.update server.isClientConnected clientIndex false
        channels := Function.update server.channels clientIndex {} }

/-- `server.AdvanceTime`: the events, and then for every slot either a disconnect
for the error of its channel or the acknowledgements. -/
def advanceTime (server : QueuedServer) (tick : ServerTick) : QueuedServer :=
  let updated := tick.events.foldl applyEvent server
  { updated with
    isClientConnected := fun i =>
      updated.isClientConnected i && (updated.channels i).errorLevel = .none
    channels := fun i =>
      if (updated.channels i).errorLevel = .none then
        (tick.acked i).foldl ReliableOrderedChannel.processAck (updated.channels i)
      else {} }

/-- The iteration up to `AdvanceTime`: the game state it leads to, and what the
broadcast sends. -/
def phases (gameConfig : GameConfig) (server : QueuedServer) (tick : ServerTick) :
    Except Stop (ServerGameState × List Send) :=
  match server.gameState.handleNewClients gameConfig server.isClientConnected tick.draws with
  | .error stop => .error stop
  | .ok (welcomed, _) =>
      let updated := (welcomed.processMessages tick.received).updatePlayerPositions
      match updated.broadcastPlayerPositions gameConfig server.isClientConnected with
      | .error stop => .error stop
      | .ok sent => .ok (updated, sent)

/-- Every call of `server.SendMessage` in the iteration, in order. The connect
phase makes some even when it does not return; the broadcast always returns. -/
def sendCalls (gameConfig : GameConfig) (server : QueuedServer) (tick : ServerTick) : List Send :=
  ServerGameState.newClientsCalls gameConfig server.isClientConnected tick.draws
      server.gameState clientIndices ++
    match server.phases gameConfig tick with
    | .error _ => []
    | .ok (_, sent) => sent

/-- One iteration of `ServerMain`. -/
def iterate (gameConfig : GameConfig) (server : QueuedServer) (tick : ServerTick) :
    Except Stop QueuedServer :=
  match server.phases gameConfig tick with
  | .error stop => .error stop
  | .ok (gameState, _) =>
      .ok ({ server with
        gameState
        channels := server.channels.sendMessages (server.sendCalls gameConfig tick)
          }.advanceTime tick)

/-- Every call of the iteration comes while `CanSendMessage` is true for its slot
and channel. -/
def CallsCanSend (gameConfig : GameConfig) (server : QueuedServer) (tick : ServerTick) : Prop :=
  server.channels.CanSendAll (server.sendCalls gameConfig tick)

/-- What an iteration sends to a slot: the welcomes, and the positions. -/
def load (server : QueuedServer) (slot : ClientID) : ℕ :=
  server.gameState.connectLoad server.isClientConnected clientIndices slot +
    (ServerGameState.connectedClients server.isClientConnected).length *
      (ServerGameState.connectedClients server.isClientConnected).count slot

/-- Before the iteration, the queue of every slot has room for all that the
iteration is going to send there. -/
def HasRoom (server : QueuedServer) : Prop :=
  ∀ slot ∈ clientIndices,
    (server.channels slot).outstanding + server.load slot ≤ messageSendQueueSize

instance (server : QueuedServer) : Decidable server.HasRoom :=
  inferInstanceAs (Decidable (∀ slot ∈ clientIndices,
    (server.channels slot).outstanding + server.load slot ≤ messageSendQueueSize))

/-- No channel is in an error state, and only slots have players. -/
structure Sound (server : QueuedServer) : Prop where
  ready : server.channels.Ready
  players : ∀ slot : ClientID, slot ∉ clientIndices →
    server.gameState.connectedPlayers[slot]? = none

theorem sound_start (memory : GameState) : (start memory).Sound where
  ready := ⟨fun _ => ReliableOrderedChannel.wellFormed_reset, fun _ => rfl⟩
  players _ _ := Std.TreeMap.getElem?_emptyc

variable {gameConfig : GameConfig} {server next : QueuedServer} {tick : ServerTick}

theorem wellFormed_applyEvents (h : ∀ slot, (server.channels slot).WellFormed)
    (events : List SlotEvent) (slot : ClientID) :
    ((events.foldl applyEvent server).channels slot).WellFormed := by
  induction events generalizing server with
  | nil => exact h slot
  | cons event events ih =>
      apply ih
      intro other
      cases event with
      | connected clientIndex =>
          rw [applyEvent]
          split
          · exact h other
          · exact h other
      | disconnected clientIndex =>
          change (Function.update server.channels clientIndex {} other).WellFormed
          rw [Function.update_apply]
          split
          · exact ReliableOrderedChannel.wellFormed_reset
          · exact h other

theorem gameState_applyEvents (events : List SlotEvent) :
    (events.foldl applyEvent server).gameState = server.gameState := by
  induction events generalizing server with
  | nil => rfl
  | cons event events ih =>
      refine ih.trans ?_
      cases event with
      | connected clientIndex =>
          rw [applyEvent]
          split <;> rfl
      | disconnected clientIndex => rfl

theorem processAcks {channel : ReliableOrderedChannel messageSendQueueSize}
    (h : channel.WellFormed) (packets : List (List UInt16)) :
    (packets.foldl ReliableOrderedChannel.processAck channel).WellFormed ∧
      (packets.foldl ReliableOrderedChannel.processAck channel).errorLevel =
        channel.errorLevel := by
  induction packets generalizing channel with
  | nil => exact ⟨h, rfl⟩
  | cons messageIds packets ih =>
      obtain ⟨hwell, hlevel⟩ := ih (h.processAck messageIds)
      exact ⟨hwell, hlevel.trans (channel.errorLevel_processAck messageIds)⟩

/-- Whatever has happened to the channels, `AdvanceTime` leaves none of them in
an error state. -/
theorem ready_advanceTime (h : ∀ slot, (server.channels slot).WellFormed) (tick : ServerTick) :
    (server.advanceTime tick).channels.Ready := by
  have hwell := wellFormed_applyEvents h tick.events
  constructor
  · intro slot
    dsimp only [advanceTime]
    split
    · exact (processAcks (hwell slot) _).1
    · exact ReliableOrderedChannel.wellFormed_reset
  · intro slot
    dsimp only [advanceTime]
    split
    · next hlevel => exact (processAcks (hwell slot) _).2.trans hlevel
    · rfl

/-- After the connect phase an iteration gets to its end. -/
theorem Sound.exists_phases (h : server.Sound) {welcomed : ServerGameState} {sent : List Send}
    (hwelcomed : server.gameState.handleNewClients gameConfig server.isClientConnected
      tick.draws = .ok (welcomed, sent)) :
    ∃ gameState positions, server.phases gameConfig tick = .ok (gameState, positions) ∧
      gameState.Seats server.isClientConnected ∧
      gameState.broadcastPlayerPositions gameConfig server.isClientConnected =
        .ok positions := by
  have hseats := ServerGameState.seats_of_handleNewClients h.players hwelcomed
  have hreceived : (welcomed.processMessages tick.received).Seats server.isClientConnected := by
    intro slot
    rw [ServerGameState.processMessages_connectedPlayers]
    exact hseats slot
  have hupdated := hreceived.updatePlayerPositions
  obtain ⟨positions, hpositions⟩ := hupdated.exists_broadcastPlayerPositions gameConfig
  refine ⟨_, positions, ?_, hupdated, hpositions⟩
  simp only [phases, hwelcomed, hpositions]

theorem Sound.exists_iterate (h : server.Sound) {progress : ServerGameState × List Send}
    (hwelcomed : server.gameState.handleNewClients gameConfig server.isClientConnected
      tick.draws = .ok progress) : ∃ next, server.iterate gameConfig tick = .ok next := by
  obtain ⟨gameState, positions, hphases, _⟩ := h.exists_phases hwelcomed
  rw [QueuedServer.iterate, hphases]
  exact ⟨_, rfl⟩

/-- An iteration that returns has come to its end. -/
theorem Sound.iterate_eq_ok (h : server.Sound)
    (hnext : server.iterate gameConfig tick = .ok next) :
    ∃ welcomed sent gameState positions,
      server.gameState.handleNewClients gameConfig server.isClientConnected tick.draws =
        .ok (welcomed, sent) ∧
      server.phases gameConfig tick = .ok (gameState, positions) ∧
      gameState.Seats server.isClientConnected ∧
      gameState.broadcastPlayerPositions gameConfig server.isClientConnected = .ok positions ∧
      next = { server with
        gameState
        channels := server.channels.sendMessages (server.sendCalls gameConfig tick)
          }.advanceTime tick := by
  cases hwelcomed : server.gameState.handleNewClients gameConfig server.isClientConnected
      tick.draws with
  | error stop => simp [QueuedServer.iterate, phases, hwelcomed] at hnext
  | ok progress =>
      obtain ⟨welcomed, sent⟩ := progress
      obtain ⟨gameState, positions, hphases, hseats, hpositions⟩ := h.exists_phases hwelcomed
      rw [QueuedServer.iterate, hphases] at hnext
      exact ⟨welcomed, sent, gameState, positions, rfl, hphases, hseats, hpositions,
        (Except.ok.inj hnext).symm⟩

theorem Sound.iterate (h : server.Sound) (hnext : server.iterate gameConfig tick = .ok next) :
    next.Sound := by
  obtain ⟨_, _, gameState, _, _, _, hseats, _, rfl⟩ := h.iterate_eq_ok hnext
  constructor
  · exact ready_advanceTime (SendChannels.wellFormed_sendMessages h.ready.wellFormed _) tick
  · intro slot hslot
    rw [advanceTime, gameState_applyEvents, ← Option.not_isSome_iff_eq_none]
    exact fun hplayer => hslot ((hseats slot).mp hplayer).1

theorem onChannel_sendCalls (h : server.Sound) :
    ServerGameState.OnChannel gameConfig (server.sendCalls gameConfig tick) := by
  apply (ServerGameState.onChannel_newClientsCalls clientIndices).append
  cases hwelcomed : server.gameState.handleNewClients gameConfig server.isClientConnected
      tick.draws with
  | error stop =>
      simp only [phases, hwelcomed]
      exact List.forall_mem_nil _
  | ok progress =>
      obtain ⟨gameState, positions, hphases, _, hpositions⟩ := h.exists_phases hwelcomed
      rw [hphases]
      exact ServerGameState.onChannel_broadcastPlayerPositions hpositions

variable (gameConfig tick) in
/-- No slot is sent more than the load. -/
theorem length_sentTo_sendCalls_le (h : server.Sound) (slot : ClientID) :
    (sentTo slot (server.sendCalls gameConfig tick)).length ≤ server.load slot := by
  rw [sendCalls, sentTo_append, List.length_append, load]
  apply Nat.add_le_add (ServerGameState.length_sentTo_newClientsCalls_le nodup_clientIndices slot)
  cases hwelcomed : server.gameState.handleNewClients gameConfig server.isClientConnected
      tick.draws with
  | error stop =>
      simp only [phases, hwelcomed]
      exact Nat.zero_le _
  | ok progress =>
      obtain ⟨gameState, positions, hphases, _, hpositions⟩ := h.exists_phases hwelcomed
      rw [hphases]
      exact (ServerGameState.length_sentTo_broadcastPlayerPositions hpositions slot).le

/-- An iteration that returns sends every slot its load. -/
theorem length_sentTo_sendCalls (h : server.Sound)
    (hnext : server.iterate gameConfig tick = .ok next) (slot : ClientID) :
    (sentTo slot (server.sendCalls gameConfig tick)).length = server.load slot := by
  obtain ⟨welcomed, sent, gameState, positions, hwelcomed, hphases, _, hpositions, _⟩ :=
    h.iterate_eq_ok hnext
  rw [sendCalls, sentTo_append, List.length_append, load,
    (ServerGameState.length_sentTo_of_run nodup_clientIndices hwelcomed).2, hphases,
    ServerGameState.length_sentTo_broadcastPlayerPositions hpositions]

/-- Only connected slots are sent anything. -/
theorem load_eq_zero {slot : ClientID} (hslot : slot ∉ clientIndices) : server.load slot = 0 := by
  have hconnected : slot ∉ ServerGameState.connectedClients server.isClientConnected :=
    fun hmem => hslot (List.mem_of_mem_filter hmem)
  have hnew : slot ∉ server.gameState.newClients server.isClientConnected clientIndices :=
    fun hmem => hslot (List.mem_of_mem_filter hmem)
  rw [load, ServerGameState.connectLoad, List.count_eq_zero.mpr hconnected,
    List.count_eq_zero.mpr hnew, Nat.mul_zero, Nat.mul_zero, Nat.mul_zero]

/-- With room for the load every call comes in time. -/
theorem HasRoom.callsCanSend (hroom : server.HasRoom) (h : server.Sound)
    (hreliable : gameConfig.reliableMessaging = true) : server.CallsCanSend gameConfig tick := by
  refine (h.ready.canSendAll_iff fun send hsend => ?_).mpr fun slot => ?_
  · rw [onChannel_sendCalls h send hsend, hreliable]
    rfl
  · have hsent := length_sentTo_sendCalls_le gameConfig tick h slot
    by_cases hslot : slot ∈ clientIndices
    · exact (Nat.add_le_add_left hsent _).trans (hroom slot hslot)
    · rw [load_eq_zero hslot] at hsent
      exact (Nat.add_le_add_left hsent _).trans (h.ready.wellFormed slot).bounded

/-- An iteration that returns with all calls in time had room for the load. -/
theorem CallsCanSend.hasRoom (hcan : server.CallsCanSend gameConfig tick) (h : server.Sound)
    (hreliable : gameConfig.reliableMessaging = true)
    (hnext : server.iterate gameConfig tick = .ok next) : server.HasRoom := by
  intro slot _
  rw [← length_sentTo_sendCalls h hnext slot]
  refine (h.ready.canSendAll_iff fun send hsend => ?_).mp hcan slot
  rw [onChannel_sendCalls h send hsend, hreliable]
  rfl

theorem sound_run {memory : GameState} {ticks : List ServerTick}
    (hrun : run (QueuedServer.iterate gameConfig) (start memory) ticks = .ok server) :
    server.Sound :=
  run_invariant_of_step (fun _ _ _ h hnext => Sound.iterate h hnext) (sound_start memory) hrun

/-- **A send queue holds while there is room for the load.** In every run of the
reliable mode in which each iteration begins with room for its load in every
queue, every call of `SendMessage` comes while `CanSendMessage` is true. And a
run that returns has no other way: if all its calls came in time, each of its
iterations began with room for the load. -/
theorem send_queues_hold (hreliable : gameConfig.reliableMessaging = true) (memory : GameState)
    (ticks : List ServerTick) :
    (StepsMeet (QueuedServer.iterate gameConfig) (fun server _ => server.HasRoom) (start memory)
        ticks →
      StepsMeet (QueuedServer.iterate gameConfig) (CallsCanSend gameConfig) (start memory)
        ticks) ∧
      ∀ target, run (QueuedServer.iterate gameConfig) (start memory) ticks = .ok target →
        StepsMeet (QueuedServer.iterate gameConfig) (CallsCanSend gameConfig) (start memory)
          ticks →
        StepsMeet (QueuedServer.iterate gameConfig) (fun server _ => server.HasRoom)
          (start memory) ticks := by
  simp only [stepsMeet_iff]
  constructor
  · intro hroom before tick server hpre hrun
    exact (hroom before tick server hpre hrun).callsCanSend (sound_run hrun) hreliable
  · intro target htarget hcan before tick server hpre hrun
    obtain ⟨rest, rfl⟩ := hpre
    obtain ⟨next, hreached, _⟩ := run_append_eq_ok.mp htarget
    obtain ⟨server', hrun', hnext⟩ := run_concat_eq_ok.mp hreached
    obtain rfl := Except.ok.inj (hrun.symm.trans hrun')
    exact (hcan before tick server (List.prefix_append _ _) hrun).hasRoom (sound_run hrun)
      hreliable hnext

/-- One client connects, is welcomed, and acknowledges what it was sent. -/
theorem send_queues_hold_of_one_client :
    StepsMeet (QueuedServer.iterate { reliableMessaging := true })
      (CallsCanSend { reliableMessaging := true }) (start ⟨0, 0, 0⟩)
      [{ draws := fun _ => [], events := [.connected 0] },
        { draws := fun _ => [(3, 4)], acked := fun _ => [[0, 1], [3]] },
        { draws := fun _ => [] }] :=
  (send_queues_hold rfl ⟨0, 0, 0⟩ _).1 (by decide +kernel)

/-- An iteration in which nothing is acknowledged and no slot changes; players
that are new spawn side by side. -/
def silentTick : ServerTick where
  draws i := [(i.toNat, 0)]

theorem advanceTime_silentTick (hready : server.channels.Ready) :
    server.advanceTime silentTick = server := by
  have hconnected : (fun slot => server.isClientConnected slot &&
      (server.channels slot).errorLevel = .none) = server.isClientConnected := by
    funext slot
    rw [hready.errorLevel slot, decide_eq_true rfl, Bool.and_true]
  have hchannels : (fun slot => if (server.channels slot).errorLevel = .none then
      server.channels slot else {}) = server.channels := by
    funext slot
    rw [if_pos (hready.errorLevel slot)]
  show { server with
    isClientConnected := fun slot => server.isClientConnected slot &&
      (server.channels slot).errorLevel = .none
    channels := fun slot => if (server.channels slot).errorLevel = .none then
      server.channels slot else {} } = server
  rw [hconnected, hchannels]

/-- In such an iteration the queues grow by the load. -/
theorem Sound.iterate_silentTick (h : server.Sound)
    (hreliable : gameConfig.reliableMessaging = true) (hroom : server.HasRoom)
    (hnext : server.iterate gameConfig silentTick = .ok next) :
    next.isClientConnected = server.isClientConnected ∧
      next.gameState.Seats server.isClientConnected ∧ ∀ slot,
        (next.channels slot).outstanding = (server.channels slot).outstanding +
          server.load slot := by
  have hload := length_sentTo_sendCalls h hnext
  obtain ⟨_, _, gameState, _, _, _, hseats, _, rfl⟩ := h.iterate_eq_ok hnext
  obtain ⟨hready, houtstanding⟩ := h.ready.sendMessages (fun send hsend => by
    rw [onChannel_sendCalls h send hsend, hreliable]
    rfl) (hroom.callsCanSend h hreliable)
  rw [advanceTime_silentTick hready]
  exact ⟨rfl, hseats, fun slot => (houtstanding slot).trans (by rw [hload])⟩

/-- All slots are taken by players in the game, and the queues are equally
long. -/
structure Crowded (server : QueuedServer) (count : ℕ) : Prop where
  sound : server.Sound
  connected : ∀ slot ∈ clientIndices, server.isClientConnected slot = true
  seated : ∀ slot ∈ clientIndices, (server.gameState.connectedPlayers[slot]?).isSome
  outstanding : ∀ slot ∈ clientIndices, (server.channels slot).outstanding = count

/-- An iteration of equal load leaves the queues equally long, and a player in
every slot. -/
theorem Sound.crowded_of_silentTick {count more : ℕ} (h : server.Sound)
    (hreliable : gameConfig.reliableMessaging = true)
    (hconnected : ∀ slot ∈ clientIndices, server.isClientConnected slot = true)
    (houtstanding : ∀ slot ∈ clientIndices, (server.channels slot).outstanding = count)
    (hload : ∀ slot ∈ clientIndices, server.load slot = more)
    (hcount : count + more ≤ messageSendQueueSize)
    (hnext : server.iterate gameConfig silentTick = .ok next) : next.Crowded (count + more) := by
  have hroom : server.HasRoom := by
    intro slot hslot
    rw [houtstanding slot hslot, hload slot hslot]
    exact hcount
  obtain ⟨hsame, hseats, hgrown⟩ := h.iterate_silentTick hreliable hroom hnext
  refine ⟨h.iterate hnext, fun slot hslot => ?_, fun slot hslot => ?_, fun slot hslot => ?_⟩
  · rw [hsame]
    exact hconnected slot hslot
  · exact (hseats slot).mpr ⟨hslot, hconnected slot hslot⟩
  · rw [hgrown, houtstanding slot hslot, hload slot hslot]

theorem connectedClients_of_all
    (hconnected : ∀ slot ∈ clientIndices, server.isClientConnected slot = true) :
    ServerGameState.connectedClients server.isClientConnected = clientIndices :=
  List.filter_eq_self.mpr hconnected

theorem Crowded.load {count : ℕ} (h : server.Crowded count) {slot : ClientID}
    (hslot : slot ∈ clientIndices) : server.load slot = maxClients := by
  have hnew : server.gameState.newClients server.isClientConnected clientIndices = [] := by
    apply List.filter_eq_nil_iff.mpr
    intro other hother
    have hplayer := Option.ne_none_iff_isSome.mpr (h.seated other hother)
    simp [hplayer]
  rw [QueuedServer.load, ServerGameState.connectLoad, hnew, connectedClients_of_all h.connected,
    List.count_eq_one_of_mem nodup_clientIndices hslot]
  rfl

variable (gameConfig) in
/-- Without new clients an iteration returns. -/
theorem Crowded.exists_iterate {count : ℕ} (h : server.Crowded count) (tick : ServerTick) :
    ∃ next, server.iterate gameConfig tick = .ok next := by
  cases hhandle : server.gameState.handleNewClients gameConfig server.isClientConnected
      tick.draws with
  | ok progress => exact h.sound.exists_iterate hhandle
  | error stop =>
      obtain ⟨before, i, progress, hpre, hrun, hround⟩ := exists_step_of_run_eq_error hhandle
      have hmem : i ∈ clientIndices := hpre.subset (by simp)
      obtain ⟨hslots, hlast, hdisjoint⟩ := List.nodup_append.mp
        (hpre.sublist.nodup nodup_clientIndices)
      have hfresh : i ∉ before := fun hi => hdisjoint i hi i (List.mem_singleton_self i) rfl
      -- the slots before have left the player alone
      have halone := (ServerGameState.handled_of_run hslots hrun).2.2 i hfresh
      rw [ServerGameState.handleNextClient] at hround
      split at hround
      · next hi =>
          have hplayer := (ServerGameState.handleNewClient_eq_error hi).2
          rw [halone.1] at hplayer
          have hseated := h.seated i hmem
          rw [hplayer] at hseated
          cases hseated
      · cases hround

theorem Crowded.iterate {count : ℕ} (h : server.Crowded count)
    (hreliable : gameConfig.reliableMessaging = true)
    (hcount : count + maxClients ≤ messageSendQueueSize)
    (hnext : server.iterate gameConfig silentTick = .ok next) :
    next.Crowded (count + maxClients) :=
  h.sound.crowded_of_silentTick hreliable h.connected h.outstanding (fun _ => h.load) hcount hnext

/-- The iteration in which as many clients connect as there are slots. -/
def arrivalTick : ServerTick where
  draws _ := []
  events := clientIndices.map .connected

/-- The config of the reliable mode. -/
def reliableConfig : GameConfig := { reliableMessaging := true }

/-- The load of an iteration that welcomes a client in every slot. -/
theorem load_of_all_new
    (hconnected : ∀ slot ∈ clientIndices, server.isClientConnected slot = true)
    (hnew : ∀ slot ∈ clientIndices, server.gameState.connectedPlayers[slot]? = none)
    {slot : ClientID} (hslot : slot ∈ clientIndices) :
    server.load slot = 2 + maxClients + maxClients := by
  have hall : server.gameState.newClients server.isClientConnected clientIndices =
      clientIndices := by
    apply List.filter_eq_self.mpr
    intro other hother
    simp [hconnected other hother, hnew other hother]
  rw [QueuedServer.load, ServerGameState.connectLoad, hall, connectedClients_of_all hconnected,
    List.count_eq_one_of_mem nodup_clientIndices hslot]
  rfl

/-- All slots are taken in one iteration and welcomed in the next. -/
theorem exists_crowded : ∃ server,
    run (QueuedServer.iterate reliableConfig) (start ⟨0, 0, 0⟩) [arrivalTick, silentTick] =
      .ok server ∧ server.Crowded (2 + maxClients + maxClients) := by
  obtain ⟨arrived, harrived, hslots, hreturns⟩ : ∃ arrived,
      run (QueuedServer.iterate reliableConfig) (start ⟨0, 0, 0⟩) [arrivalTick] = .ok arrived ∧
      (∀ slot ∈ clientIndices, arrived.isClientConnected slot = true ∧
        arrived.gameState.connectedPlayers[slot]? = none ∧
        (arrived.channels slot).outstanding = 0) ∧
      (arrived.gameState.handleNewClients reliableConfig arrived.isClientConnected
        silentTick.draws).isOk = true := by
    decide +kernel
  have hsound := sound_run harrived
  have hconnected (slot : ClientID) (hslot : slot ∈ clientIndices) := (hslots slot hslot).1
  have hempty (slot : ClientID) (hslot : slot ∈ clientIndices) :=
    (hslots slot hslot).2.2
  have hload (slot : ClientID) (hslot : slot ∈ clientIndices) :=
    load_of_all_new hconnected (fun other hother => (hslots other hother).2.1) hslot
  cases hwelcomed : arrived.gameState.handleNewClients reliableConfig arrived.isClientConnected
      silentTick.draws with
  | error stop => simp [hwelcomed, Except.isOk, Except.toBool] at hreturns
  | ok progress =>
      obtain ⟨next, hnext⟩ := hsound.exists_iterate hwelcomed
      have hcrowded := hsound.crowded_of_silentTick rfl hconnected hempty hload (by decide) hnext
      rw [Nat.zero_add] at hcrowded
      refine ⟨next, ?_, hcrowded⟩
      have hboth : [arrivalTick, silentTick] = [arrivalTick] ++ [silentTick] := rfl
      rw [hboth, run_concat_eq_ok]
      exact ⟨arrived, harrived, hnext⟩

/-- The queues of a crowd that acknowledges nothing grow on. -/
theorem exists_crowded_later (iterations : ℕ)
    (hcount : 2 + maxClients + maxClients + iterations * maxClients ≤ messageSendQueueSize) :
    ∃ server, run (QueuedServer.iterate reliableConfig) (start ⟨0, 0, 0⟩)
      ([arrivalTick, silentTick] ++ List.replicate iterations silentTick) = .ok server ∧
        server.Crowded (2 + maxClients + maxClients + iterations * maxClients) := by
  induction iterations with
  | zero =>
      obtain ⟨server, hrun, hcrowded⟩ := exists_crowded
      exact ⟨server, hrun, hcrowded⟩
  | succ iterations ih =>
      have hless : iterations * maxClients + maxClients = (iterations + 1) * maxClients :=
        (Nat.succ_mul iterations maxClients).symm
      obtain ⟨server, hrun, hcrowded⟩ := ih (by omega)
      obtain ⟨next, hnext⟩ := hcrowded.exists_iterate reliableConfig silentTick
      have hgrown := hcrowded.iterate rfl (by omega) hnext
      refine ⟨next, ?_, ?_⟩
      · rw [List.replicate_succ', ← List.append_assoc, run_concat_eq_ok]
        exact ⟨server, hrun, hnext⟩
      · rw [← hless, ← Nat.add_assoc]
        exact hgrown

/-- Sixty-four clients connect and acknowledge nothing, and no client is
disconnected. In the fifteenth iteration after that, a call of `SendMessage`
comes when the queue is full; that is in less than the twenty iterations which
make up the timeout. -/
theorem silent_clients_overrun_queues :
    ¬ StepsMeet (QueuedServer.iterate reliableConfig) (CallsCanSend reliableConfig)
      (start ⟨0, 0, 0⟩) (arrivalTick :: List.replicate 15 silentTick) := by
  intro hcan
  obtain ⟨server, hrun, hcrowded⟩ := exists_crowded_later 13 (by decide)
  have hsplit : arrivalTick :: List.replicate 15 silentTick =
      ([arrivalTick, silentTick] ++ List.replicate 13 silentTick) ++ [silentTick] := rfl
  rw [hsplit, StepsMeet.concat] at hcan
  obtain ⟨next, hnext⟩ := hcrowded.exists_iterate reliableConfig silentTick
  have hslot : (0 : ClientID) ∈ clientIndices := by decide
  have hroom := (hcan.2 server hrun).hasRoom hcrowded.sound rfl hnext 0 hslot
  rw [hcrowded.outstanding 0 hslot, hcrowded.load hslot] at hroom
  exact absurd hroom (by decide)

end QueuedServer

end LibBench.Yojimbo
