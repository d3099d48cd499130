/-
# RakNet: the client

`raknet/client/client.cpp` and `raknet/client/game/client_gamestate.cpp`. A
client waits for the connection and the game configuration, then for its
player's spawn, and then runs its game loop: move, send the move, handle what
has been received. A packet that the current stage does not understand is
freed without effect.

Every remote player owns the object that its list entry points into, so an
entry is modelled by the id and the position together, and the objects that
the client's manager tracks are the local player followed by the entries. Which
object a lookup returns is SLikeNet's affair: the manager is a parameter that
finds an object registered under the id whenever there is one, and never one
for the unassigned id. Nothing is assumed about the choice between two objects
that were registered under one id.
-/

import LibBench.Game.CorrectionsTracker
import LibBench.RakNet.Messages

namespace LibBench.RakNet

/-- The lookup of a `NetworkIDManager`: from the ids of the tracked objects, in
the order of their registration, to the index of the object returned. -/
structure NetworkIDManager where
  getObjectFromID : List NetworkID → NetworkID → Option ℕ
  getElem?_of_getObjectFromID : ∀ {ids : List NetworkID} {id : NetworkID} {object : ℕ},
    getObjectFromID ids id = some object → ids[object]? = some id
  not_mem_of_getObjectFromID : ∀ {ids : List NetworkID} {id : NetworkID},
    id ≠ unassignedNetworkID → getObjectFromID ids id = none → id ∉ ids
  getObjectFromID_unassigned : ∀ ids : List NetworkID,
    getObjectFromID ids unassignedNetworkID = none

/-- The manager that returns the object registered first. -/
def firstRegistered : NetworkIDManager where
  getObjectFromID ids id := if id = unassignedNetworkID then none else ids.idxOf? id
  getElem?_of_getObjectFromID {ids id object} h := by
    split at h
    · cases h
    · obtain ⟨hlt, heq, _⟩ := List.idxOf?_eq_some_iff.mp h
      rw [List.getElem?_eq_getElem hlt]
      simpa using heq
  not_mem_of_getObjectFromID {ids id} hassigned h := by
    rw [if_neg hassigned] at h
    exact List.idxOf?_eq_none_iff.mp h
  getObjectFromID_unassigned ids := if_pos rfl

/-- The local player object. -/
structure LocalPlayer where
  networkID : NetworkID
  pos : Position
  deriving DecidableEq, Repr

/-- `ClientGamestate` once the local player exists. -/
structure ClientGamestate where
  mapWidth : UInt16
  mapHeight : UInt16
  numPlayers : UInt16
  localPlayer : LocalPlayer
  remotePlayerPositions : List (NetworkID × Position) := []
  deriving DecidableEq, Repr

namespace ClientGamestate

/-- The ids of the tracked objects: the local player's, then the remote
players' in the order they were added. -/
def objectIDs (gamestate : ClientGamestate) : List NetworkID :=
  gamestate.localPlayer.networkID :: gamestate.remotePlayerPositions.map Prod.fst

/-- `CreateLocalPlayer`, on a state to which a configuration was applied. -/
def createLocalPlayer (config : GameConfigMessage) (playerID : NetworkID)
    (spawnPos : Position) : ClientGamestate where
  mapWidth := config.mapWidth
  mapHeight := config.mapHeight
  numPlayers := config.playerCount
  localPlayer := ⟨playerID, spawnPos⟩

/-- `AddRemotePlayer`: a new object and a new entry, whether or not the id is
already known. -/
def addRemotePlayer (gamestate : ClientGamestate) (remotePlayerID : NetworkID)
    (pos : Position) : ClientGamestate :=
  { gamestate with
    remotePlayerPositions := gamestate.remotePlayerPositions ++ [(remotePlayerID, pos)] }

/-- The position of a tracked object. -/
def objectPosition (gamestate : ClientGamestate) : ℕ → Option Position
  | 0 => some gamestate.localPlayer.pos
  | entry + 1 => (gamestate.remotePlayerPositions[entry]?).map Prod.snd

/-- Overwrite the position of a tracked object. -/
def setObjectPosition (gamestate : ClientGamestate) (newPos : Position) :
    ℕ → ClientGamestate
  | 0 => { gamestate with localPlayer := { gamestate.localPlayer with pos := newPos } }
  | entry + 1 =>
      { gamestate with
        remotePlayerPositions :=
          gamestate.remotePlayerPositions.modify entry fun remote => (remote.1, newPos) }

/-- `PerformLocalMove`: choose a move that no remote player's position takes and
perform it. -/
def performLocalMove (gamestate : ClientGamestate) (draws : List ℕ) :
    Option (Position × ClientGamestate) :=
  (chooseMove gamestate.mapWidth gamestate.mapHeight gamestate.localPlayer.pos
      (gamestate.remotePlayerPositions.map Prod.snd) draws).map fun chosenMove =>
    (chosenMove,
      { gamestate with localPlayer := { gamestate.localPlayer with pos := chosenMove } })

end ClientGamestate

/-- The client's test for a correction: the known position and the new one are
more than one space apart. -/
def isCorrection (known newPos : Position) : Bool :=
  decide (1 < |Position.difference known.x newPos.x|) ||
    decide (1 < |Position.difference known.y newPos.y|)

/-- `handlePlayerPositionUpdate`, on the game state and the corrections
tracker. There is a tracker exactly when corrections are logged. -/
def handlePlayerPositionUpdate (manager : NetworkIDManager) (gamestate : ClientGamestate)
    (correctionsTracker : Option CorrectionsTracker) (playerID : NetworkID)
    (newPos : Position) : ClientGamestate × Option CorrectionsTracker :=
  match manager.getObjectFromID gamestate.objectIDs playerID with
  | none => (gamestate.addRemotePlayer playerID newPos, correctionsTracker)
  | some player =>
      (gamestate.setObjectPosition newPos player,
        if (gamestate.objectPosition player).any fun known => isCorrection known newPos then
          correctionsTracker.map CorrectionsTracker.correctionMade
        else correctionsTracker)

/-- `Client::handleCustomPacket`. -/
def handleCustomPacket (manager : NetworkIDManager) (gamestate : ClientGamestate)
    (correctionsTracker : Option CorrectionsTracker) :
    Message → ClientGamestate × Option CorrectionsTracker
  | .playerJoin message =>
      if message.playerID ≠ gamestate.localPlayer.networkID then
        (gamestate.addRemotePlayer message.playerID message.spawnPoint, correctionsTracker)
      else (gamestate, correctionsTracker)
  | .playerPosition message =>
      let handled := handlePlayerPositionUpdate manager gamestate correctionsTracker
        message.playerID message.currentPos
      (handled.1, handled.2.map CorrectionsTracker.updatesReceivedInTick)
  | _ => (gamestate, correctionsTracker)

/-- How far a client has come: the two waiting loops, the game loop, or the
exit after a failed connection attempt. -/
inductive ClientStage
  | waitForConnectionAndApplyGameConfiguration
  | waitForPlayerSpawn (config : GameConfigMessage)
  | gameLoop (gamestate : ClientGamestate)
  | exited
  deriving DecidableEq, Repr

/-- A client program. In the game loop a turn starts with the local move and
then processes the server's updates until it ends. -/
structure Client where
  stage : ClientStage := .waitForConnectionAndApplyGameConfiguration
  processing : Bool := false
  serverAddress : Option SystemAddress := none
  correctionsTracker : Option CorrectionsTracker := none
  deriving DecidableEq, Repr

namespace Client

/-- The switch of `WaitForConnectionAndApplyGameConfiguration`. -/
def receiveWaitingForConfiguration (client : Client) (systemAddress : SystemAddress) :
    Packet → Client
  | .library .connectionAttemptFailed => { client with stage := .exited }
  | .library .connectionRequestAccepted => { client with serverAddress := some systemAddress }
  | .custom (.gameConfig configMessage) =>
      { client with stage := .waitForPlayerSpawn configMessage }
  | _ => client

/-- The switch of `WaitForPlayerSpawn`. -/
def receiveWaitingForSpawn (client : Client) (config : GameConfigMessage) : Packet → Client
  | .custom (.playerSpawn playerSpawnMsg) =>
      { client with
        stage := .gameLoop (ClientGamestate.createLocalPlayer config
          playerSpawnMsg.networkID playerSpawnMsg.spawnPoint) }
  | _ => client

/-- The packet handling of the game loop; library packets are only printed. -/
def receiveInGameLoop (manager : NetworkIDManager) (client : Client)
    (gamestate : ClientGamestate) : Packet → Client
  | .custom message =>
      let handled := handleCustomPacket manager gamestate client.correctionsTracker message
      { client with stage := .gameLoop handled.1, correctionsTracker := handled.2 }
  | .library _ => client

/-- One packet returned by `Receive`, in whatever loop the client is. -/
def receive (manager : NetworkIDManager) (client : Client) (systemAddress : SystemAddress)
    (packet : Packet) : Client :=
  match client.stage with
  | .waitForConnectionAndApplyGameConfiguration =>
      client.receiveWaitingForConfiguration systemAddress packet
  | .waitForPlayerSpawn config => client.receiveWaitingForSpawn config packet
  | .gameLoop gamestate => client.receiveInGameLoop manager gamestate packet
  | .exited => client

/-- Whether the program calls `Receive` next. -/
def callsReceive (client : Client) : Bool :=
  match client.stage with
  | .waitForConnectionAndApplyGameConfiguration | .waitForPlayerSpawn _ => true
  | .gameLoop _ => client.processing
  | .exited => false

/-- The start of a turn of the game loop: perform a local move and send it. -/
def performAndSendMove (client : Client) (draws : List ℕ) :
    Option (Client × PlayerMoveMessage) :=
  match client.stage, client.processing with
  | .gameLoop gamestate, false =>
      (gamestate.performLocalMove draws).map fun (newPlayerPos, moved) =>
        ({ client with stage := .gameLoop moved, processing := true },
          ⟨gamestate.localPlayer.networkID, newPlayerPos⟩)
  | _, _ => none

/-- The end of a turn of the game loop. -/
def endTurn (client : Client) : Option Client :=
  match client.stage, client.processing with
  | .gameLoop _, true =>
      some { client with
        processing := false
        correctionsTracker := client.correctionsTracker.map CorrectionsTracker.writeLine }
  | _, _ => none

/-- A client is in the game loop after a message when it was there before, or
when the message is the spawn it waits for. -/
theorem receive_stage_eq_gameLoop {manager : NetworkIDManager} {client : Client}
    {systemAddress : SystemAddress} {message : Message} {gamestate : ClientGamestate}
    (h : (client.receive manager systemAddress (.custom message)).stage = .gameLoop gamestate) :
    (∃ before, client.stage = .gameLoop before ∧
      gamestate =
        (handleCustomPacket manager before client.correctionsTracker message).1) ∨
    (∃ config playerSpawnMsg, client.stage = .waitForPlayerSpawn config ∧
      message = .playerSpawn playerSpawnMsg ∧
      gamestate = ClientGamestate.createLocalPlayer config playerSpawnMsg.networkID
        playerSpawnMsg.spawnPoint) := by
  cases hstage : client.stage with
  | gameLoop before =>
      simp only [receive, hstage, receiveInGameLoop, ClientStage.gameLoop.injEq] at h
      exact Or.inl ⟨before, rfl, h.symm⟩
  | waitForPlayerSpawn config =>
      simp only [receive, hstage] at h
      cases message with
      | playerSpawn playerSpawnMsg =>
          simp only [receiveWaitingForSpawn, ClientStage.gameLoop.injEq] at h
          exact Or.inr ⟨config, playerSpawnMsg, rfl, rfl, h.symm⟩
      | gameConfig | playerJoin | playerLeave | playerMove | playerPosition =>
          simp [receiveWaitingForSpawn, hstage] at h
  | waitForConnectionAndApplyGameConfiguration =>
      simp only [receive, hstage] at h
      cases message <;> simp [receiveWaitingForConfiguration, hstage] at h
  | exited => simp [receive, hstage] at h

/-- A waiting client that is sent no configuration goes on waiting. -/
theorem receive_stage_of_waiting {manager : NetworkIDManager} {client : Client}
    {systemAddress : SystemAddress} {message : Message}
    (hstage : client.stage = .waitForConnectionAndApplyGameConfiguration)
    (hnone : ∀ config, message ≠ .gameConfig config) :
    (client.receive manager systemAddress (.custom message)).stage =
      .waitForConnectionAndApplyGameConfiguration := by
  simp only [receive, hstage]
  cases message with
  | gameConfig config => exact absurd rfl (hnone config)
  | playerSpawn | playerJoin | playerLeave | playerMove | playerPosition =>
      simpa only [receiveWaitingForConfiguration] using hstage

/-- A client that is in the game loop stays there. -/
theorem exists_receive_stage_eq_gameLoop {manager : NetworkIDManager} {client : Client}
    {systemAddress : SystemAddress} {packet : Packet} {gamestate : ClientGamestate}
    (h : client.stage = .gameLoop gamestate) :
    ∃ next, (client.receive manager systemAddress packet).stage = .gameLoop next := by
  simp only [receive, h]
  cases packet with
  | custom message => exact ⟨_, rfl⟩
  | library identifier => exact ⟨gamestate, h⟩

theorem performAndSendMove_eq_some {client moved : Client} {draws : List ℕ}
    {move : PlayerMoveMessage} (h : client.performAndSendMove draws = some (moved, move)) :
    ∃ gamestate, client.stage = .gameLoop gamestate ∧
      gamestate.localPlayer.pos.OneSpace move.newPos ∧
      move.playerID = gamestate.localPlayer.networkID ∧
      moved = { client with
        stage := .gameLoop { gamestate with localPlayer := ⟨move.playerID, move.newPos⟩ }
        processing := true } := by
  obtain ⟨stage, processing, _, _⟩ := client
  cases stage with
  | gameLoop gamestate =>
      cases processing with
      | true => cases h
      | false =>
          simp only [performAndSendMove, ClientGamestate.performLocalMove, Option.map_map,
            Option.map_eq_some_iff] at h
          obtain ⟨chosenMove, hchosen, hresult⟩ := h
          obtain ⟨rfl, rfl⟩ := Prod.mk.inj hresult
          exact ⟨gamestate, rfl, oneSpace_of_chooseMove hchosen, rfl, rfl⟩
  | waitForConnectionAndApplyGameConfiguration | waitForPlayerSpawn | exited => cases h

theorem endTurn_eq_some {client ended : Client} (h : client.endTurn = some ended) :
    ended.stage = client.stage := by
  obtain ⟨stage, processing, _, _⟩ := client
  cases stage with
  | gameLoop gamestate =>
      cases processing with
      | true => exact (Option.some.inj h) ▸ rfl
      | false => cases h
  | waitForConnectionAndApplyGameConfiguration | waitForPlayerSpawn | exited => cases h

end Client

end LibBench.RakNet
