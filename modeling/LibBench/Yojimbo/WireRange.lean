/-
# Yojimbo: which messages of the server survive the wire

The server builds its messages from three sources: the config, which the command
line fills in with whatever `atoi` makes of it; the number of players in its
game state, which nothing ever assigns; and the positions of the players. A
position was drawn inside the map or was read from a move message, and the reader
has tested that.

So the positions stay in the range that the messages declare if the map does,
and the config message is what decides.
-/

import LibBench.RakNet.CommandLine
import LibBench.Yojimbo.Overrun
import LibBench.Yojimbo.Serialize

namespace LibBench.Yojimbo

open LibBench.Math

/-- What `getopt` returns for "grw:h:", with `optarg`. Everything that it does
not recognise is a question mark. -/
inductive CommandLineOption
  | g
  | r
  | w (optarg : List Char)
  | h (optarg : List Char)
  | unrecognised
  deriving DecidableEq, Repr

/-- `parseCommandLineArguments`, for the part of the config that the server
reads. -/
def parseCommandLineArguments (config : GameConfig) : List CommandLineOption → GameConfig
  | [] => config
  | .g :: options => parseCommandLineArguments config options
  | .r :: options => parseCommandLineArguments { config with reliableMessaging := true } options
  | .w optarg :: options =>
      parseCommandLineArguments { config with mapWidth := UInt16.ofInt (RakNet.atoi optarg) }
        options
  | .h optarg :: options =>
      parseCommandLineArguments { config with mapHeight := UInt16.ofInt (RakNet.atoi optarg) }
        options
  | .unrecognised :: _ => config

/-- The coordinates are in the range that the messages declare. -/
def InWireRange (pos : Position) : Prop :=
  pos.x.toNat ≤ 512 ∧ pos.y.toNat ≤ 512

/-- The sizes in the config message are in the range. -/
structure SizeInWireRange (gameConfig : GameConfig) (size : GameState) : Prop where
  width : gameConfig.mapWidth.toNat ≤ 512
  height : gameConfig.mapHeight.toNat ≤ 512
  numPlayers : size.numPlayers.toNat ≤ 512

/-- Whatever has arrived has been read from a packet. -/
def ServerTick.FromPackets (tick : ServerTick) : Prop :=
  ∀ received ∈ tick.received, ∃ reader next,
    Message.read received.2.getType reader = some (received.2, next)

namespace ServerGameState

/-- The positions of the players and the queued ones are in the range. -/
structure InWireRange (gameState : ServerGameState) : Prop where
  players : ∀ (slot : ClientID) (player : Player),
    gameState.connectedPlayers[slot]? = some player → Yojimbo.InWireRange player.pos
  queue : ∀ update ∈ gameState.updatedPlayerPositions, Yojimbo.InWireRange update.2

variable {gameConfig : GameConfig} {isClientConnected : ClientID → Bool}
  {draws : ClientID → List (ℕ × ℕ)} {gameState next : ServerGameState} {sent : List Send}

/-- A spawn position lies on the map. -/
theorem findSpawnPosition_lt {positions : List (ℕ × ℕ)} {pos : Position}
    (h : gameState.findSpawnPosition gameConfig positions = .ok pos) :
    pos.x < gameConfig.mapWidth ∧ pos.y < gameConfig.mapHeight := by
  induction positions with
  | nil => cases h
  | cons draw positions ih =>
      rw [findSpawnPosition] at h
      split at h
      · cases h
      · next hmap =>
          rw [not_or] at hmap
          dsimp only at h
          split at h
          · exact ih h
          · obtain rfl := Except.ok.inj h
            exact ⟨ofNat_mod_lt draw.1 hmap.1, ofNat_mod_lt draw.2 hmap.2⟩

/-- A new player stands where the spawn loop has put it. -/
theorem addPlayer_of_handleNewClient {i : ClientID} (hconnected : isClientConnected i = true)
    (hnew : gameState.connectedPlayers[i]? = none)
    (h : handleNewClient gameConfig isClientConnected draws gameState i = .ok (next, sent)) :
    ∃ pos, gameState.findSpawnPosition gameConfig (draws i) = .ok pos ∧
      next = gameState.addPlayer i pos := by
  rw [handleNewClient, if_pos hconnected, hnew] at h
  cases hfound : gameState.findSpawnPosition gameConfig (draws i) with
  | error stop => simp [createAndSpawnNewPlayerForClient, hfound] at h
  | ok pos =>
      refine ⟨pos, rfl, ?_⟩
      simp only [createAndSpawnNewPlayerForClient, hfound] at h
      split at h
      · exact (Prod.mk.inj (Except.ok.inj h)).1.symm
      · cases h
      · cases h

/-- One round of the loop leaves the positions in the range, and all that it
sends. -/
theorem InWireRange.handleNewClient (h : gameState.InWireRange)
    (hsize : SizeInWireRange gameConfig gameState.toGameState) {i : ClientID}
    (hnext : handleNewClient gameConfig isClientConnected draws gameState i = .ok (next, sent)) :
    next.InWireRange ∧ next.toGameState = gameState.toGameState ∧
      ∀ send ∈ sent, send.envelope.message.InRange := by
  have hsame := (handled_of_handleNewClient hnext).1
  rcases handleNewClient_eq_ok hnext with ⟨hconnected, hnew, pos, rfl, rfl⟩ |
    ⟨_, _, rfl, rfl⟩ | ⟨_, rfl, rfl⟩
  · obtain ⟨spawned, hspawned, hadded⟩ := addPlayer_of_handleNewClient hconnected hnew hnext
    have hentry := congrArg (fun state : ServerGameState => state.connectedPlayers[i]?) hadded
    simp only [addPlayer_getElem?, if_true, hnew, Option.getD_none, Option.some.injEq,
      Player.mk.injEq] at hentry
    subst hentry
    obtain ⟨hx, hy⟩ := findSpawnPosition_lt hspawned
    rw [UInt16.lt_iff_toNat_lt] at hx hy
    have hpos : Yojimbo.InWireRange pos :=
      ⟨hx.le.trans hsize.width, hy.le.trans hsize.height⟩
    refine ⟨⟨fun slot player hplayer => ?_, h.queue⟩, hsame, ?_⟩
    · rw [addPlayer_getElem?] at hplayer
      split at hplayer
      · rw [hnew, Option.getD_none] at hplayer
        obtain rfl := Option.some_inj.mp hplayer
        exact hpos
      · exact h.players slot player hplayer
    · rintro send (_ | ⟨_, _ | ⟨_, hsend⟩⟩)
      · exact Message.inRange_gameConfig_iff.mpr ⟨hsize.width, hsize.height, hsize.numPlayers⟩
      · exact Message.forall_mem_values_iff.mpr hpos
      · obtain ⟨receiver, _, rfl⟩ := List.mem_map.mp hsend
        exact Message.forall_mem_values_iff.mpr hpos
  · exact ⟨h, rfl, List.forall_mem_nil _⟩
  · refine ⟨⟨fun slot player hplayer => ?_, ?_⟩, hsame, List.forall_mem_nil _⟩
    · rw [removePlayer_getElem?] at hplayer
      split at hplayer
      · cases hplayer
      · exact h.players slot player hplayer
    · rw [removePlayer]
      split <;> exact h.queue

/-- All calls of the loop send messages in the range, also when it does not
return. -/
theorem InWireRange.newClientsCalls (h : gameState.InWireRange)
    (hsize : SizeInWireRange gameConfig gameState.toGameState) (slots : List ClientID) :
    ∀ send ∈ newClientsCalls gameConfig isClientConnected draws gameState slots,
      send.envelope.message.InRange := by
  induction slots generalizing gameState with
  | nil => exact List.forall_mem_nil _
  | cons i slots ih =>
      rw [ServerGameState.newClientsCalls, newClientCalls]
      cases hi : ServerGameState.handleNewClient gameConfig isClientConnected draws gameState
          i with
      | error stop =>
          rw [List.append_nil, List.forall_mem_singleton]
          exact Message.inRange_gameConfig_iff.mpr ⟨hsize.width, hsize.height, hsize.numPlayers⟩
      | ok progress =>
          obtain ⟨hnext, hsame, hsent⟩ := h.handleNewClient hsize hi
          exact List.forall_mem_append.mpr ⟨hsent, ih hnext (hsame ▸ hsize)⟩

theorem InWireRange.handleNewClients (h : gameState.InWireRange)
    (hsize : SizeInWireRange gameConfig gameState.toGameState)
    (hnext : gameState.handleNewClients gameConfig isClientConnected draws = .ok (next, sent)) :
    next.InWireRange := by
  have hround (progress : ServerGameState × List Send) (i : ClientID)
      (after : ServerGameState × List Send)
      (hbefore : progress.1.InWireRange ∧ progress.1.toGameState = gameState.toGameState)
      (hstep : handleNextClient gameConfig isClientConnected draws progress i = .ok after) :
      after.1.InWireRange ∧ after.1.toGameState = gameState.toGameState := by
    rw [handleNextClient] at hstep
    split at hstep
    · cases hstep
    · next middle more hi =>
        obtain rfl := Except.ok.inj hstep
        obtain ⟨hmiddle, hsame, _⟩ := hbefore.1.handleNewClient (hbefore.2 ▸ hsize) hi
        exact ⟨hmiddle, hsame.trans hbefore.2⟩
  exact (run_invariant_of_step hround ⟨h, rfl⟩ hnext).1

theorem InWireRange.processMessage (h : gameState.InWireRange) (clientIndex : ClientID)
    {message : Message}
    (hread : ∃ reader rest, Message.read message.getType reader = some (message, rest)) :
    (gameState.processMessage clientIndex message).InWireRange := by
  cases message with
  | playerMove move =>
      obtain ⟨reader, rest, hread⟩ := hread
      have hmove : Yojimbo.InWireRange ⟨move.x, move.y⟩ := Message.inRange_of_read hread
      exact ⟨h.players, List.forall_mem_append.mpr ⟨h.queue, List.forall_mem_singleton.mpr hmove⟩⟩
  | gameConfig | playerSpawnAndID | newPlayerJoined | playerPosition => exact h

theorem InWireRange.processMessages (h : gameState.InWireRange)
    {received : List (ClientID × Message)}
    (hread : ∀ message ∈ received, ∃ reader rest,
      Message.read message.2.getType reader = some (message.2, rest)) :
    (gameState.processMessages received).InWireRange := by
  induction received generalizing gameState with
  | nil => exact h
  | cons message received ih =>
      obtain ⟨hfirst, hrest⟩ := List.forall_mem_cons.mp hread
      exact ih (h.processMessage message.1 hfirst) hrest

/-- A player is moved to queued positions only. -/
theorem inWireRange_foldl_receiveUpdate {player : Player} {offers : List Position}
    (hplayer : Yojimbo.InWireRange player.pos)
    (hoffers : ∀ offered ∈ offers, Yojimbo.InWireRange offered) :
    Yojimbo.InWireRange (offers.foldl Player.receiveUpdate player).pos := by
  induction offers generalizing player with
  | nil => exact hplayer
  | cons offered offers ih =>
      obtain ⟨hoffered, hrest⟩ := List.forall_mem_cons.mp hoffers
      refine ih ?_ hrest
      rw [Player.receiveUpdate]
      split
      · exact hplayer
      · exact hoffered

theorem InWireRange.updatePlayerPositions (h : gameState.InWireRange) :
    gameState.updatePlayerPositions.InWireRange := by
  refine ⟨fun slot player hplayer => ?_, List.forall_mem_nil _⟩
  rw [ServerGameState.updatePlayerPositions, foldl_updateEntry_getElem?,
    Option.map_eq_some_iff] at hplayer
  obtain ⟨before, hbefore, rfl⟩ := hplayer
  refine inWireRange_foldl_receiveUpdate (h.players slot before hbefore) fun offered hoffered => ?_
  exact h.queue (slot, offered) (mem_ownUpdates.mp hoffered)

theorem InWireRange.broadcastPlayerPositions (h : gameState.InWireRange)
    (hsent : gameState.broadcastPlayerPositions gameConfig isClientConnected = .ok sent) :
    ∀ send ∈ sent, send.envelope.message.InRange := by
  intro send hsend
  obtain ⟨_, slot, player, hplayer, rfl⟩ :=
    positionsOnly_broadcastPlayerPositions hsent send hsend
  exact Message.forall_mem_values_iff.mpr (h.players slot player hplayer)

end ServerGameState

namespace QueuedServer

/-- Between two iterations, for a server that got its sizes from the memory it
started in. -/
structure WireReady (memory : GameState) (server : QueuedServer) : Prop where
  sound : server.Sound
  positions : server.gameState.InWireRange
  size : server.gameState.toGameState = memory

theorem wireReady_start (memory : GameState) : WireReady memory (start memory) where
  sound := sound_start memory
  positions := by
    refine ⟨fun slot player hplayer => ?_, List.forall_mem_nil _⟩
    rw [start, Std.TreeMap.getElem?_emptyc] at hplayer
    cases hplayer
  size := rfl

variable {gameConfig : GameConfig} {memory : GameState} {server next : QueuedServer}
  {tick : ServerTick}

theorem WireReady.phases (h : server.WireReady memory)
    (hsize : SizeInWireRange gameConfig memory) (hread : tick.FromPackets)
    {gameState : ServerGameState} {sent : List Send}
    (hphases : server.phases gameConfig tick = .ok (gameState, sent)) :
    gameState.InWireRange ∧ gameState.toGameState = memory ∧
      ∀ send ∈ sent, send.envelope.message.InRange := by
  rw [QueuedServer.phases] at hphases
  split at hphases
  · cases hphases
  · next welcomed _ hwelcomed =>
      dsimp only at hphases
      split at hphases
      · cases hphases
      · next positions hpositions =>
          obtain ⟨rfl, rfl⟩ := Prod.mk.inj (Except.ok.inj hphases)
          have hrange := h.positions.handleNewClients (h.size ▸ hsize) hwelcomed
          have hupdated := (hrange.processMessages hread).updatePlayerPositions
          refine ⟨hupdated, ?_, hupdated.broadcastPlayerPositions hpositions⟩
          rw [← h.size, ← ServerGameState.toGameState_of_handleNewClients hwelcomed]
          exact ServerGameState.processMessages_toGameState welcomed tick.received

/-- All calls of an iteration send messages in the range. -/
theorem WireReady.sendCalls (h : server.WireReady memory)
    (hsize : SizeInWireRange gameConfig memory) (hread : tick.FromPackets) :
    ∀ send ∈ server.sendCalls gameConfig tick, send.envelope.message.InRange := by
  refine List.forall_mem_append.mpr ⟨h.positions.newClientsCalls (h.size ▸ hsize) _, ?_⟩
  split
  · exact List.forall_mem_nil _
  · next hphases => exact (h.phases hsize hread hphases).2.2

theorem WireReady.iterate (h : server.WireReady memory)
    (hsize : SizeInWireRange gameConfig memory) (hread : tick.FromPackets)
    (hnext : server.iterate gameConfig tick = .ok next) : next.WireReady memory := by
  have hsound := h.sound.iterate hnext
  obtain ⟨_, _, gameState, _, _, hphases, _, _, rfl⟩ := h.sound.iterate_eq_ok hnext
  obtain ⟨hpositions, hmemory, _⟩ := h.phases hsize hread hphases
  refine ⟨hsound, ?_, ?_⟩
  · rw [advanceTime, gameState_applyEvents]
    exact hpositions
  · rw [advanceTime, gameState_applyEvents]
    exact hmemory

/-- The iteration in which one client connects. -/
def arrivalOfOne : ServerTick where
  draws _ := []
  events := [.connected 0]

/-- Whatever the config, the first client is sent the config message, even if it
never gets a spawn position. -/
theorem config_mem_sendCalls (gameConfig : GameConfig) (memory : GameState) : ∃ server,
    run (QueuedServer.iterate gameConfig) (start memory) [arrivalOfOne] = .ok server ∧
      gameConfig.sendMessage 0
        (.gameConfig ⟨gameConfig.mapWidth, gameConfig.mapHeight, memory.numPlayers⟩) ∈
          server.sendCalls gameConfig { draws := fun _ => [] } :=
  ⟨_, rfl, List.mem_of_mem_head? rfl⟩

/-- **The messages survive the wire if the config does.** For every command line,
every message that the server builds, in every run in which what arrives has been
read from packets, survives the wire exactly when the width and the height that
the command line sets are in the range and the number of players that was in
memory is. -/
theorem messages_survive_iff (options : List CommandLineOption) (memory : GameState) :
    (∀ (ticks : List ServerTick) (tick : ServerTick) (server : QueuedServer),
        (∀ arrived ∈ tick :: ticks, arrived.FromPackets) →
        run (QueuedServer.iterate (parseCommandLineArguments {} options)) (start memory) ticks =
          .ok server →
        ∀ send ∈ server.sendCalls (parseCommandLineArguments {} options) tick,
          send.envelope.message.SurvivesWire) ↔
      SizeInWireRange (parseCommandLineArguments {} options) memory := by
  constructor
  · intro hsurvive
    obtain ⟨server, hrun, hconfig⟩ :=
      config_mem_sendCalls (parseCommandLineArguments {} options) memory
    have hread : ∀ arrived ∈ ({ draws := fun _ => [] } : ServerTick) :: [arrivalOfOne],
        arrived.FromPackets := by
      rintro arrived (_ | ⟨_, _ | ⟨_, ⟨⟩⟩⟩) <;> exact List.forall_mem_nil _
    obtain ⟨hwidth, hheight, hplayers⟩ :=
      Message.inRange_gameConfig_iff.mp (hsurvive _ _ server hread hrun _ hconfig).1
    exact ⟨hwidth, hheight, hplayers⟩
  · intro hsize ticks tick server hread hrun send hsend
    obtain ⟨htick, hticks⟩ := List.forall_mem_cons.mp hread
    have hmeet : StepsMeet (QueuedServer.iterate (parseCommandLineArguments {} options))
        (fun _ arrived => arrived.FromPackets) (start memory) ticks := StepsMeet.of_forall hticks
    have hready : server.WireReady memory :=
      run_invariant (fun _ _ _ h hguard hnext => WireReady.iterate h hsize hguard hnext)
        (wireReady_start memory) hmeet hrun
    exact Message.survivesWire_iff.mpr (hready.sendCalls hsize htick send hsend)

/-- With `-w 1000` the first client is sent a width that the reader refuses. -/
theorem wide_map_config_is_refused : ∃ server,
    run (QueuedServer.iterate (parseCommandLineArguments {} [.w ['1', '0', '0', '0']]))
        (start ⟨0, 0, 0⟩) [arrivalOfOne] = .ok server ∧
      ∃ send ∈ server.sendCalls (parseCommandLineArguments {} [.w ['1', '0', '0', '0']])
          { draws := fun _ => [(3, 4)] },
        send.envelope.message = .gameConfig ⟨1000, 100, 0⟩ ∧
        ¬ send.envelope.message.SurvivesWire ∧
        Message.read send.envelope.message.getType
          { data := (send.envelope.message.packet [] []).data
            numBytes := (send.envelope.message.packet [] []).getBytesWritten } = none := by
  refine ⟨_, rfl, ⟨0, .unreliableUnordered, .gameConfig ⟨1000, 100, 0⟩⟩, ?_, rfl, ?_, ?_⟩
  · exact List.mem_of_mem_head? (by decide +kernel)
  · rw [Message.survivesWire_iff]
    decide
  · decide

end QueuedServer

end LibBench.Yojimbo
