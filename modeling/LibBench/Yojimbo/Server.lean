/-
# Yojimbo: the server's game state and the phases of its loop

`yojimbo/server.cpp`. One iteration of `ServerMain` compares every slot with
`connectedPlayers`, handles the messages that have arrived, performs the queued
updates and broadcasts the positions. This module has the functions that those
phases call; they return what they send next to the new state, as the slot and
the envelope of each `server.SendMessage`.

Which slots are connected is an argument: the library changes it between two
iterations only. A player object is held by value, since `connectedPlayers` is
the only place that points to it.
-/

import Std.Data.TreeMap.Lemmas
import LibBench.Math.Execution
import LibBench.Math.KeyedFold
import LibBench.Yojimbo.Messages

namespace LibBench.Yojimbo

open LibBench.Math

/-- The part of the server's `GameConfig` that it reads. -/
structure GameConfig where
  mapWidth : UInt16 := 100
  mapHeight : UInt16 := 100
  reliableMessaging : Bool := false
  deriving DecidableEq, Repr

/-- `ServerGameState`. Nothing assigns the fields it has from `GameState`. -/
structure ServerGameState extends GameState where
  updatedPlayerPositions : List (ClientID × Position) := []
  connectedPlayers : Std.TreeMap ClientID Player := ∅

/-- One call of `server.SendMessage`. -/
structure Send where
  clientIndex : ClientID
  envelope : Envelope
  deriving DecidableEq, Repr

/-- What is sent to one slot. -/
def sentTo (clientIndex : ClientID) (sent : List Send) : List Envelope :=
  (sent.filter fun send => send.clientIndex = clientIndex).map Send.envelope

@[simp]
theorem sentTo_append (clientIndex : ClientID) (first second : List Send) :
    sentTo clientIndex (first ++ second) =
      sentTo clientIndex first ++ sentTo clientIndex second := by
  simp [sentTo]

theorem sentTo_cons (clientIndex : ClientID) (send : Send) (sent : List Send) :
    sentTo clientIndex (send :: sent) =
      if send.clientIndex = clientIndex then send.envelope :: sentTo clientIndex sent
      else sentTo clientIndex sent := by
  by_cases h : send.clientIndex = clientIndex <;> simp [sentTo, h]

/-- Send on the server's channel. -/
def GameConfig.sendMessage (gameConfig : GameConfig) (clientIndex : ClientID)
    (message : Message) : Send :=
  ⟨clientIndex, channelType gameConfig.reliableMessaging, message⟩

/-- The body of the update loop for a position queued for a player it finds. -/
def Player.receiveUpdate (currentPlayer : Player) (updatedPlayerPos : Position) : Player :=
  if Position.movedMoreThanOneSpace updatedPlayerPos currentPlayer.pos then currentPlayer
  else { currentPlayer with pos := updatedPlayerPos }

theorem Player.receiveUpdate_pos (player : Player) (offered : Position) :
    (player.receiveUpdate offered).pos = stepTo Position.OneSpace player.pos offered := by
  unfold Player.receiveUpdate
  cases h : Position.movedMoreThanOneSpace offered player.pos with
  | true => exact (stepTo_of_not_near (Position.movedMoreThanOneSpace_eq_true_iff.mp h)).symm
  | false => exact (stepTo_of_near (Position.movedMoreThanOneSpace_eq_false_iff.mp h)).symm

/-- Over a list of updates a player's position walks under the one-space
test. -/
theorem Player.foldl_receiveUpdate_pos (player : Player) (offers : List Position) :
    (offers.foldl Player.receiveUpdate player).pos =
      offers.foldl (stepTo Position.OneSpace) player.pos := by
  induction offers generalizing player with
  | nil => rfl
  | cons offered rest ih =>
      rw [List.foldl_cons, ih, Player.receiveUpdate_pos, List.foldl_cons]

/-- The update loop on one entry of the queue: an id without a player is
skipped. -/
def updateEntry (connectedPlayers : Std.TreeMap ClientID Player)
    (updatedPlayerPos : ClientID × Position) : Std.TreeMap ClientID Player :=
  match connectedPlayers[updatedPlayerPos.1]? with
  | none => connectedPlayers
  | some currentPlayer =>
      connectedPlayers.insert updatedPlayerPos.1 (currentPlayer.receiveUpdate updatedPlayerPos.2)

theorem updateEntry_getElem? (connectedPlayers : Std.TreeMap ClientID Player)
    (update : ClientID × Position) (clientIndex : ClientID) :
    (updateEntry connectedPlayers update)[clientIndex]? =
      applyUpdate Player.receiveUpdate (fun slot => connectedPlayers[slot]?) update
        clientIndex := by
  rw [applyUpdate_apply, updateEntry]
  cases hplayer : connectedPlayers[update.1]? with
  | none =>
      by_cases h : update.1 = clientIndex
      · simp [← h, hplayer]
      · simp [h]
  | some player =>
      dsimp only
      rw [Std.TreeMap.getElem?_insert]
      by_cases h : update.1 = clientIndex
      · simp [← h, hplayer]
      · simp [h]

/-- The queue acts on the players entry by entry. -/
theorem foldl_updateEntry_getElem? (connectedPlayers : Std.TreeMap ClientID Player)
    (queue : List (ClientID × Position)) (clientIndex : ClientID) :
    (queue.foldl updateEntry connectedPlayers)[clientIndex]? =
      (connectedPlayers[clientIndex]?).map fun player =>
        (ownUpdates clientIndex queue).foldl Player.receiveUpdate player := by
  rw [← foldl_applyUpdate_apply Player.receiveUpdate (fun slot => connectedPlayers[slot]?)]
  induction queue generalizing connectedPlayers with
  | nil => rfl
  | cons update rest ih =>
      have hnext : (fun slot => (updateEntry connectedPlayers update)[slot]?) =
          applyUpdate Player.receiveUpdate (fun slot => connectedPlayers[slot]?) update :=
        funext (updateEntry_getElem? connectedPlayers update)
      rw [List.foldl_cons, ih, hnext, List.foldl_cons]

namespace ServerGameState

/-- `UpdatePlayerPositions`: apply the queued positions and clear the queue. -/
def updatePlayerPositions (gameState : ServerGameState) : ServerGameState :=
  { gameState with
    connectedPlayers :=
      gameState.updatedPlayerPositions.foldl updateEntry gameState.connectedPlayers
    updatedPlayerPositions := [] }

/-- Updating positions neither adds nor removes players. -/
theorem updatePlayerPositions_isSome (gameState : ServerGameState) (clientIndex : ClientID) :
    (gameState.updatePlayerPositions.connectedPlayers[clientIndex]?).isSome =
      (gameState.connectedPlayers[clientIndex]?).isSome := by
  rw [updatePlayerPositions, foldl_updateEntry_getElem?, Option.isSome_map]

/-- The scan of `connectedPlayers` in the spawn loop. -/
def positionAlreadyOccupied (gameState : ServerGameState) (randomPos : Position) : Bool :=
  gameState.connectedPlayers.toList.any fun connectedPlayer =>
    connectedPlayer.2.pos == randomPos

/-- The spawn loop: draw positions until one is not occupied. -/
def findSpawnPosition (gameState : ServerGameState) (gameConfig : GameConfig) :
    List (ℕ × ℕ) → Except Stop Position
  | [] => .error .drawsExhausted
  | draw :: draws =>
      if gameConfig.mapWidth = 0 ∨ gameConfig.mapHeight = 0 then .error .moduloByZero
      else
        let randomPos : Position :=
          ⟨UInt16.ofNat (draw.1 % gameConfig.mapWidth.toNat),
            UInt16.ofNat (draw.2 % gameConfig.mapHeight.toNat)⟩
        if gameState.positionAlreadyOccupied randomPos then
          gameState.findSpawnPosition gameConfig draws
        else .ok randomPos

/-- Create a player object and add it to the game state. -/
def addPlayer (gameState : ServerGameState) (clientIndex : ClientID) (pos : Position) :
    ServerGameState :=
  { gameState with
    connectedPlayers := gameState.connectedPlayers.insertIfNew clientIndex ⟨pos⟩ }

/-- `CreateAndSpawnNewPlayerForClient`. -/
def createAndSpawnNewPlayerForClient (gameState : ServerGameState) (gameConfig : GameConfig)
    (clientIndex : ClientID) (draws : List (ℕ × ℕ)) : Except Stop ServerGameState :=
  match gameState.findSpawnPosition gameConfig draws with
  | .error stop => .error stop
  | .ok randomPos => .ok (gameState.addPlayer clientIndex randomPos)

/-- `removePlayer`: delete the player of a slot and erase its entry. -/
def removePlayer (gameState : ServerGameState) (playerIndex : ClientID) : ServerGameState :=
  match gameState.connectedPlayers[playerIndex]? with
  | none => gameState
  | some _ =>
      { gameState with connectedPlayers := gameState.connectedPlayers.erase playerIndex }

section Entries

variable (gameState : ServerGameState) (clientIndex other : ClientID) (pos : Position)

theorem addPlayer_getElem? :
    (gameState.addPlayer clientIndex pos).connectedPlayers[other]? =
      if other = clientIndex then
        some ((gameState.connectedPlayers[clientIndex]?).getD ⟨pos⟩)
      else gameState.connectedPlayers[other]? := by
  rw [addPlayer, Std.TreeMap.getElem?_insertIfNew]
  by_cases h : other = clientIndex
  · subst h
    by_cases hmem : other ∈ gameState.connectedPlayers
    · simp [hmem]
    · simp [hmem]
  · simp [h, Ne.symm h]

theorem removePlayer_getElem? :
    (gameState.removePlayer clientIndex).connectedPlayers[other]? =
      if other = clientIndex then none else gameState.connectedPlayers[other]? := by
  unfold removePlayer
  cases hplayer : gameState.connectedPlayers[clientIndex]? with
  | none =>
      by_cases h : other = clientIndex
      · simp [h, hplayer]
      · simp [h]
  | some player =>
      dsimp only
      rw [Std.TreeMap.getElem?_erase]
      by_cases h : other = clientIndex
      · simp [h]
      · simp [h, Ne.symm h]

@[simp]
theorem removePlayer_toGameState :
    (gameState.removePlayer clientIndex).toGameState = gameState.toGameState := by
  unfold removePlayer
  split <;> rfl

end Entries

/-- `sendGameConfigToClient`. The map size is the config's, the number of
players is the one the game state holds. -/
def sendGameConfigToClient (gameState : ServerGameState) (gameConfig : GameConfig)
    (clientIndex : ClientID) : Send :=
  gameConfig.sendMessage clientIndex
    (.gameConfig ⟨gameConfig.mapWidth, gameConfig.mapHeight, gameState.numPlayers⟩)

/-- `sendPlayerSpawnAndIDToClient`. -/
def sendPlayerSpawnAndIDToClient (gameState : ServerGameState) (gameConfig : GameConfig)
    (clientIndex : ClientID) : Except Stop Send :=
  match gameState.connectedPlayers[clientIndex]? with
  | none => .error .nullPlayer
  | some createdPlayer =>
      .ok (gameConfig.sendMessage clientIndex
        (.playerSpawnAndID ⟨createdPlayer.pos.x, createdPlayer.pos.y, clientIndex⟩))

/-- `broadcastNewPlayerJoinedMessage`: to every connected slot, the new one
included. -/
def broadcastNewPlayerJoinedMessage (gameState : ServerGameState) (gameConfig : GameConfig)
    (isClientConnected : ClientID → Bool) (newPlayerIndex : ClientID) :
    Except Stop (List Send) :=
  match gameState.connectedPlayers[newPlayerIndex]? with
  | none => .error .nullPlayer
  | some newPlayer =>
      .ok ((clientIndices.filter isClientConnected).map fun i =>
        gameConfig.sendMessage i
          (.newPlayerJoined ⟨newPlayer.pos.x, newPlayer.pos.y, newPlayerIndex⟩))

/-- The body of the loop that handles new clients, for one slot. -/
def handleNewClient (gameConfig : GameConfig) (isClientConnected : ClientID → Bool)
    (draws : ClientID → List (ℕ × ℕ)) (gameState : ServerGameState) (i : ClientID) :
    Except Stop (ServerGameState × List Send) :=
  if isClientConnected i then
    match gameState.connectedPlayers[i]? with
    | some _ => .ok (gameState, [])
    | none =>
        match gameState.createAndSpawnNewPlayerForClient gameConfig i (draws i) with
        | .error stop => .error stop
        | .ok created =>
            match created.sendPlayerSpawnAndIDToClient gameConfig i,
                created.broadcastNewPlayerJoinedMessage gameConfig isClientConnected i with
            | .ok spawn, .ok joined =>
                .ok (created, gameState.sendGameConfigToClient gameConfig i :: spawn :: joined)
            | .error stop, _ => .error stop
            | .ok _, .error stop => .error stop
  else
    -- client disconnected but still on the board
    match gameState.connectedPlayers[i]? with
    | some _ => .ok (gameState.removePlayer i, [])
    | none => .ok (gameState, [])

/-- One round of that loop, with everything sent so far. -/
def handleNextClient (gameConfig : GameConfig) (isClientConnected : ClientID → Bool)
    (draws : ClientID → List (ℕ × ℕ)) (progress : ServerGameState × List Send) (i : ClientID) :
    Except Stop (ServerGameState × List Send) :=
  match handleNewClient gameConfig isClientConnected draws progress.1 i with
  | .error stop => .error stop
  | .ok (next, sent) => .ok (next, progress.2 ++ sent)

/-- The connect phase: handle the slots in order. The draws of the random
numbers are given for each slot. -/
def handleNewClients (gameState : ServerGameState) (gameConfig : GameConfig)
    (isClientConnected : ClientID → Bool) (draws : ClientID → List (ℕ × ℕ)) :
    Except Stop (ServerGameState × List Send) :=
  run (handleNextClient gameConfig isClientConnected draws) (gameState, []) clientIndices

/-- `ProcessMessage`, with `ProcessPlayerMoveMessage`: queue a move under the id
that the message names. The slot it was received from is printed only. -/
def processMessage (gameState : ServerGameState) (_clientIndex : ClientID) :
    Message → ServerGameState
  | .playerMove message =>
      { gameState with
        updatedPlayerPositions :=
          gameState.updatedPlayerPositions ++ [(message.playerID, ⟨message.x, message.y⟩)] }
  | _ => gameState

@[simp]
theorem processMessage_connectedPlayers (gameState : ServerGameState) (clientIndex : ClientID)
    (message : Message) :
    (gameState.processMessage clientIndex message).connectedPlayers =
      gameState.connectedPlayers := by
  cases message <;> rfl

@[simp]
theorem processMessage_toGameState (gameState : ServerGameState) (clientIndex : ClientID)
    (message : Message) :
    (gameState.processMessage clientIndex message).toGameState = gameState.toGameState := by
  cases message <;> rfl

/-- `broadcastUpdatedPlayerPosition`: the player is looked up again for each
message. -/
def broadcastUpdatedPlayerPosition (gameState : ServerGameState) (gameConfig : GameConfig)
    (isClientConnected : ClientID → Bool) (updatedPlayerId : ClientID) :
    Except Stop (List Send) :=
  match clientIndices.filter isClientConnected, gameState.connectedPlayers[updatedPlayerId]? with
  | [], _ => .ok []
  | _ :: _, none => .error .nullPlayer
  | receivers, some player =>
      .ok (receivers.map fun i =>
        gameConfig.sendMessage i
          (.playerPosition ⟨player.pos.x, player.pos.y, updatedPlayerId⟩))

/-- One round of the broadcast loop, with everything sent so far. -/
def broadcastNextPosition (gameState : ServerGameState) (gameConfig : GameConfig)
    (isClientConnected : ClientID → Bool) (sent : List Send) (i : ClientID) :
    Except Stop (List Send) :=
  match gameState.broadcastUpdatedPlayerPosition gameConfig isClientConnected i with
  | .error stop => .error stop
  | .ok more => .ok (sent ++ more)

/-- The broadcast at the end of an iteration, for every connected slot. -/
def broadcastPlayerPositions (gameState : ServerGameState) (gameConfig : GameConfig)
    (isClientConnected : ClientID → Bool) : Except Stop (List Send) :=
  run (gameState.broadcastNextPosition gameConfig isClientConnected) []
    (clientIndices.filter isClientConnected)

end ServerGameState

end LibBench.Yojimbo
