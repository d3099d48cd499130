/-
# Yojimbo: the server's player pointers

The map of the server holds pointers, and most places read it with `[]`, which
inserts a null pointer for a key that is absent. This module has the server's
functions once more with that in place: an entry is a pointer that may be null,
every read may insert, and what is read is dereferenced.

They are in step with the functions that hold the players by value. Those never
look a player up in vain, because the connect phase leaves exactly the connected
slots with a player and no later phase of the iteration changes that. So every
dereference finds a player, and no null pointer is ever inserted.
-/

import LibBench.Yojimbo.Handshake

namespace LibBench.Yojimbo

open LibBench.Math

/-- `Player*`: null, or the object that it points to. No other pointer points
there. -/
abbrev PlayerPointer := Option Player

/-- `std::map<clientID, Player*>`. -/
abbrev PlayerMap := Std.TreeMap ClientID PlayerPointer

namespace PlayerMap

/-- `operator[]`: a key that is absent is inserted with a null pointer. -/
def subscript (players : PlayerMap) (key : ClientID) : PlayerMap × PlayerPointer :=
  match players[key]? with
  | some pointer => (players, pointer)
  | none => (players.insert key none, none)

/-- `connectedPlayers[key]->pos`. -/
def readPos (players : PlayerMap) (key : ClientID) : Except Stop (PlayerMap × Position) :=
  match subscript players key with
  | (_, none) => .error .nullPlayer
  | (players, some player) => .ok (players, player.pos)

/-- The scan of the spawn loop, up to the first player on the position. -/
def scan (randomPos : Position) : List (ClientID × PlayerPointer) → Except Stop Bool
  | [] => .ok false
  | (_, none) :: _ => .error .nullPlayer
  | (_, some player) :: rest =>
      if player.pos == randomPos then .ok true else scan randomPos rest

/-- The update loop on one entry of the queue. -/
def updateEntry (players : PlayerMap) (updatedPlayerPos : ClientID × Position) :
    Except Stop PlayerMap :=
  if players[updatedPlayerPos.1]? = none then .ok players
  else
    match subscript players updatedPlayerPos.1 with
    | (_, none) => .error .nullPlayer
    | (players, some currentPlayer) =>
        if Position.movedMoreThanOneSpace updatedPlayerPos.2 currentPlayer.pos then .ok players
        else .ok (players.insert updatedPlayerPos.1 (some ⟨updatedPlayerPos.2⟩))

/-- One message of `broadcastUpdatedPlayerPosition`: the player is looked up for
each coordinate. -/
def sendPosition (gameConfig : GameConfig) (updatedPlayerId : ClientID)
    (progress : PlayerMap × List Send) (i : ClientID) : Except Stop (PlayerMap × List Send) :=
  match readPos progress.1 updatedPlayerId with
  | .error stop => .error stop
  | .ok (players, first) =>
      match readPos players updatedPlayerId with
      | .error stop => .error stop
      | .ok (players, second) =>
          .ok (players, progress.2 ++
            [gameConfig.sendMessage i (.playerPosition ⟨first.x, second.y, updatedPlayerId⟩)])

end PlayerMap

/-- `ServerGameState`. -/
structure PointerGameState extends GameState where
  updatedPlayerPositions : List (ClientID × Position) := []
  connectedPlayers : PlayerMap := ∅

namespace PointerGameState

/-- The spawn loop. -/
def findSpawnPosition (gameState : PointerGameState) (gameConfig : GameConfig) :
    List (ℕ × ℕ) → Except Stop Position
  | [] => .error .drawsExhausted
  | draw :: draws =>
      if gameConfig.mapWidth = 0 ∨ gameConfig.mapHeight = 0 then .error .moduloByZero
      else
        let randomPos : Position :=
          ⟨UInt16.ofNat (draw.1 % gameConfig.mapWidth.toNat),
            UInt16.ofNat (draw.2 % gameConfig.mapHeight.toNat)⟩
        match PlayerMap.scan randomPos gameState.connectedPlayers.toList with
        | .error stop => .error stop
        | .ok true => gameState.findSpawnPosition gameConfig draws
        | .ok false => .ok randomPos

/-- `CreateAndSpawnNewPlayerForClient`. -/
def createAndSpawnNewPlayerForClient (gameState : PointerGameState) (gameConfig : GameConfig)
    (clientIndex : ClientID) (draws : List (ℕ × ℕ)) : Except Stop PointerGameState :=
  match gameState.findSpawnPosition gameConfig draws with
  | .error stop => .error stop
  | .ok randomPos =>
      .ok { gameState with
        connectedPlayers :=
          gameState.connectedPlayers.insertIfNew clientIndex (some ⟨randomPos⟩) }

/-- `removePlayer`. -/
def removePlayer (gameState : PointerGameState) (playerIndex : ClientID) : PointerGameState :=
  if gameState.connectedPlayers[playerIndex]? = none then gameState
  else
    { gameState with
      connectedPlayers :=
        (PlayerMap.subscript gameState.connectedPlayers playerIndex).1.erase playerIndex }

/-- `sendPlayerSpawnAndIDToClient`. -/
def sendPlayerSpawnAndIDToClient (gameState : PointerGameState) (gameConfig : GameConfig)
    (clientIndex : ClientID) : Except Stop (PointerGameState × Send) :=
  match PlayerMap.readPos gameState.connectedPlayers clientIndex with
  | .error stop => .error stop
  | .ok (connectedPlayers, pos) =>
      .ok ({ gameState with connectedPlayers },
        gameConfig.sendMessage clientIndex (.playerSpawnAndID ⟨pos.x, pos.y, clientIndex⟩))

/-- `broadcastNewPlayerJoinedMessage`. -/
def broadcastNewPlayerJoinedMessage (gameState : PointerGameState) (gameConfig : GameConfig)
    (isClientConnected : ClientID → Bool) (newPlayerIndex : ClientID) :
    Except Stop (PointerGameState × List Send) :=
  match PlayerMap.readPos gameState.connectedPlayers newPlayerIndex with
  | .error stop => .error stop
  | .ok (connectedPlayers, newPlayerPos) =>
      .ok ({ gameState with connectedPlayers },
        (clientIndices.filter isClientConnected).map fun i =>
          gameConfig.sendMessage i
            (.newPlayerJoined ⟨newPlayerPos.x, newPlayerPos.y, newPlayerIndex⟩))

/-- The body of the loop that handles new clients, for one slot. -/
def handleNewClient (gameConfig : GameConfig) (isClientConnected : ClientID → Bool)
    (draws : ClientID → List (ℕ × ℕ)) (gameState : PointerGameState) (i : ClientID) :
    Except Stop (PointerGameState × List Send) :=
  if isClientConnected i then
    if gameState.connectedPlayers[i]? = none then
      let config := gameConfig.sendMessage i
        (.gameConfig ⟨gameConfig.mapWidth, gameConfig.mapHeight, gameState.numPlayers⟩)
      match gameState.createAndSpawnNewPlayerForClient gameConfig i (draws i) with
      | .error stop => .error stop
      | .ok created =>
          match created.sendPlayerSpawnAndIDToClient gameConfig i with
          | .error stop => .error stop
          | .ok (told, spawn) =>
              match told.broadcastNewPlayerJoinedMessage gameConfig isClientConnected i with
              | .error stop => .error stop
              | .ok (next, joined) => .ok (next, config :: spawn :: joined)
    else .ok (gameState, [])
  else if gameState.connectedPlayers[i]? = none then .ok (gameState, [])
  else .ok (gameState.removePlayer i, [])

/-- One round of that loop, with everything sent so far. -/
def handleNextClient (gameConfig : GameConfig) (isClientConnected : ClientID → Bool)
    (draws : ClientID → List (ℕ × ℕ)) (progress : PointerGameState × List Send) (i : ClientID) :
    Except Stop (PointerGameState × List Send) :=
  match handleNewClient gameConfig isClientConnected draws progress.1 i with
  | .error stop => .error stop
  | .ok (next, sent) => .ok (next, progress.2 ++ sent)

/-- The connect phase. -/
def handleNewClients (gameState : PointerGameState) (gameConfig : GameConfig)
    (isClientConnected : ClientID → Bool) (draws : ClientID → List (ℕ × ℕ)) :
    Except Stop (PointerGameState × List Send) :=
  run (handleNextClient gameConfig isClientConnected draws) (gameState, []) clientIndices

/-- `ProcessMessage`. -/
def processMessage (gameState : PointerGameState) (received : ClientID × Message) :
    PointerGameState :=
  match received.2 with
  | .playerMove message =>
      { gameState with
        updatedPlayerPositions :=
          gameState.updatedPlayerPositions ++ [(message.playerID, ⟨message.x, message.y⟩)] }
  | _ => gameState

/-- `UpdatePlayerPositions`. -/
def updatePlayerPositions (gameState : PointerGameState) : Except Stop PointerGameState :=
  match run PlayerMap.updateEntry gameState.connectedPlayers gameState.updatedPlayerPositions with
  | .error stop => .error stop
  | .ok connectedPlayers =>
      .ok { gameState with connectedPlayers, updatedPlayerPositions := [] }

/-- One round of the broadcast loop: `broadcastUpdatedPlayerPosition`. -/
def broadcastUpdatedPlayerPosition (gameConfig : GameConfig) (isClientConnected : ClientID → Bool)
    (progress : PlayerMap × List Send) (updatedPlayerId : ClientID) :
    Except Stop (PlayerMap × List Send) :=
  run (PlayerMap.sendPosition gameConfig updatedPlayerId) progress
    (clientIndices.filter isClientConnected)

/-- The broadcast at the end of an iteration. -/
def broadcastPlayerPositions (gameState : PointerGameState) (gameConfig : GameConfig)
    (isClientConnected : ClientID → Bool) : Except Stop (PointerGameState × List Send) :=
  match run (broadcastUpdatedPlayerPosition gameConfig isClientConnected)
      (gameState.connectedPlayers, []) (clientIndices.filter isClientConnected) with
  | .error stop => .error stop
  | .ok (connectedPlayers, sent) => .ok ({ gameState with connectedPlayers }, sent)

end PointerGameState

/-! ## In step with the players by value -/

/-- The map has the same keys as one that holds its players by value, and points
to the same players. -/
def PlayerMap.Holds (players : PlayerMap) (held : Std.TreeMap ClientID Player) : Prop :=
  ∀ key : ClientID, players[key]? = (held[key]?).map some

namespace PlayerMap

variable {players : PlayerMap} {held : Std.TreeMap ClientID Player}

theorem Holds.isNone_iff (h : players.Holds held) (key : ClientID) :
    players[key]? = none ↔ held[key]? = none := by
  rw [h key, Option.map_eq_none_iff]

theorem Holds.insert (h : players.Holds held) (key : ClientID) (player : Player) :
    Holds (players.insert key (some player)) (held.insert key player) := by
  intro other
  rw [Std.TreeMap.getElem?_insert, Std.TreeMap.getElem?_insert, h other]
  split <;> rfl

theorem Holds.insertIfNew (h : players.Holds held) (key : ClientID) (player : Player) :
    Holds (players.insertIfNew key (some player)) (held.insertIfNew key player) := by
  intro other
  have hmem : key ∈ players ↔ key ∈ held := by
    rw [Std.TreeMap.mem_iff_isSome_getElem?, Std.TreeMap.mem_iff_isSome_getElem?, h key,
      Option.isSome_map]
  rw [Std.TreeMap.getElem?_insertIfNew, Std.TreeMap.getElem?_insertIfNew, h other]
  simp only [hmem]
  split <;> rfl

theorem Holds.erase (h : players.Holds held) (key : ClientID) :
    Holds (players.erase key) (held.erase key) := by
  intro other
  rw [Std.TreeMap.getElem?_erase, Std.TreeMap.getElem?_erase, h other]
  split <;> rfl

/-- The key of a player is not inserted again. -/
theorem Holds.subscript (h : players.Holds held) {key : ClientID} {player : Player}
    (hplayer : held[key]? = some player) : subscript players key = (players, some player) := by
  rw [PlayerMap.subscript, h key, hplayer, Option.map_some]

theorem Holds.readPos (h : players.Holds held) {key : ClientID} {player : Player}
    (hplayer : held[key]? = some player) : readPos players key = .ok (players, player.pos) := by
  rw [PlayerMap.readPos, h.subscript hplayer]

theorem Holds.readPos_of_none (h : players.Holds held) {key : ClientID}
    (hplayer : held[key]? = none) : PlayerMap.readPos players key = .error .nullPlayer := by
  have hnone := (h.isNone_iff key).mpr hplayer
  rw [PlayerMap.readPos, PlayerMap.subscript, hnone]

/-- A scan of pointers that are not null. -/
theorem scan_eq_ok {entries : List (ClientID × PlayerPointer)} {randomPos : Position}
    (h : ∀ entry ∈ entries, entry.2 ≠ none) :
    scan randomPos entries =
      .ok (entries.any fun entry => entry.2.any fun player => player.pos == randomPos) := by
  induction entries with
  | nil => rfl
  | cons entry rest ih =>
      obtain ⟨key, pointer⟩ := entry
      have hrest := ih fun other hother => h other (List.mem_cons_of_mem _ hother)
      cases pointer with
      | none => exact absurd rfl (h (key, none) List.mem_cons_self)
      | some player =>
          rw [scan, hrest, List.any_cons, Option.any_some]
          cases player.pos == randomPos with
          | true => rfl
          | false => rfl

theorem Holds.scan (h : players.Holds held) (randomPos : Position) :
    scan randomPos players.toList =
      .ok (held.toList.any fun entry => entry.2.pos == randomPos) := by
  have hnonnull : ∀ entry ∈ players.toList, entry.2 ≠ none := by
    rintro ⟨key, pointer⟩ hmem
    rw [Std.TreeMap.mem_toList_iff_getElem?_eq_some, h key, Option.map_eq_some_iff] at hmem
    obtain ⟨player, _, rfl⟩ := hmem
    exact Option.some_ne_none player
  rw [scan_eq_ok hnonnull]
  congr 1
  rw [Bool.eq_iff_iff]
  simp only [List.any_eq_true, Prod.exists, Std.TreeMap.mem_toList_iff_getElem?_eq_some,
    h _, Option.map_eq_some_iff, Option.any_eq_true]
  constructor
  · rintro ⟨key, _, ⟨player, hplayer, rfl⟩, _, hsome, hpos⟩
    obtain rfl := Option.some.inj hsome
    exact ⟨key, player, hplayer, hpos⟩
  · rintro ⟨key, player, hplayer, hpos⟩
    exact ⟨key, _, ⟨player, hplayer, rfl⟩, player, rfl, hpos⟩

/-- One entry of the queue: what is dereferenced was found before. -/
theorem Holds.updateEntry (h : players.Holds held) (update : ClientID × Position) :
    SameOutcome Holds (PlayerMap.updateEntry players update)
      (.ok (Yojimbo.updateEntry held update)) := by
  rw [PlayerMap.updateEntry, Yojimbo.updateEntry]
  cases hplayer : held[update.1]? with
  | none =>
      rw [if_pos ((h.isNone_iff _).mpr hplayer)]
      exact h
  | some player =>
      have hpresent : ¬ players[update.1]? = none := by
        rw [h.isNone_iff, hplayer]
        exact Option.some_ne_none player
      rw [if_neg hpresent, h.subscript hplayer]
      dsimp only
      rw [Player.receiveUpdate]
      cases Position.movedMoreThanOneSpace update.2 player.pos with
      | true =>
          intro key
          rw [h key, Std.TreeMap.getElem?_insert]
          by_cases hkey : compare update.1 key = .eq
          · obtain rfl := Std.LawfulEqCmp.eq_of_compare hkey
            simp [hplayer]
          · simp [hkey]
      | false => exact h.insert _ _

end PlayerMap

/-- The pointers of the one state point to the players of the other. -/
structure PointerGameState.Represents (pointers : PointerGameState)
    (gameState : ServerGameState) : Prop where
  size : pointers.toGameState = gameState.toGameState
  queue : pointers.updatedPlayerPositions = gameState.updatedPlayerPositions
  players : pointers.connectedPlayers.Holds gameState.connectedPlayers

namespace PointerGameState

variable {pointers : PointerGameState} {gameState : ServerGameState} {gameConfig : GameConfig}
  {isClientConnected : ClientID → Bool} {draws : ClientID → List (ℕ × ℕ)}

/-- The states and what was sent on the way to them. -/
abbrev RepresentsSending (first : PointerGameState × List Send)
    (second : ServerGameState × List Send) : Prop :=
  first.1.Represents second.1 ∧ first.2 = second.2

theorem Represents.findSpawnPosition (h : pointers.Represents gameState)
    (draws : List (ℕ × ℕ)) :
    pointers.findSpawnPosition gameConfig draws = gameState.findSpawnPosition gameConfig draws := by
  induction draws with
  | nil => rfl
  | cons draw draws ih =>
      rw [PointerGameState.findSpawnPosition, ServerGameState.findSpawnPosition]
      by_cases hmap : gameConfig.mapWidth = 0 ∨ gameConfig.mapHeight = 0
      · rw [if_pos hmap, if_pos hmap]
      · rw [if_neg hmap, if_neg hmap]
        dsimp only
        rw [h.players.scan, ← ServerGameState.positionAlreadyOccupied]
        cases gameState.positionAlreadyOccupied _ with
        | true => exact ih
        | false => rfl

variable (gameConfig) in
theorem Represents.createAndSpawnNewPlayerForClient (h : pointers.Represents gameState)
    (clientIndex : ClientID) (draws : List (ℕ × ℕ)) :
    SameOutcome Represents
      (pointers.createAndSpawnNewPlayerForClient gameConfig clientIndex draws)
      (gameState.createAndSpawnNewPlayerForClient gameConfig clientIndex draws) := by
  rw [PointerGameState.createAndSpawnNewPlayerForClient,
    ServerGameState.createAndSpawnNewPlayerForClient, h.findSpawnPosition]
  cases gameState.findSpawnPosition gameConfig draws with
  | error stop => exact rfl
  | ok randomPos => exact ⟨h.size, h.queue, h.players.insertIfNew _ _⟩

theorem Represents.removePlayer (h : pointers.Represents gameState) (playerIndex : ClientID) :
    (pointers.removePlayer playerIndex).Represents (gameState.removePlayer playerIndex) := by
  rw [PointerGameState.removePlayer, ServerGameState.removePlayer]
  cases hplayer : gameState.connectedPlayers[playerIndex]? with
  | none =>
      rw [if_pos ((h.players.isNone_iff _).mpr hplayer)]
      exact h
  | some player =>
      have hpresent : ¬ pointers.connectedPlayers[playerIndex]? = none := by
        rw [h.players.isNone_iff, hplayer]
        exact Option.some_ne_none player
      rw [if_neg hpresent, h.players.subscript hplayer]
      exact ⟨h.size, h.queue, h.players.erase playerIndex⟩

variable (gameConfig isClientConnected draws) in
/-- One slot of the connect phase. -/
theorem Represents.handleNewClient (h : pointers.Represents gameState) (i : ClientID) :
    SameOutcome RepresentsSending
      (PointerGameState.handleNewClient gameConfig isClientConnected draws pointers i)
      (ServerGameState.handleNewClient gameConfig isClientConnected draws gameState i) := by
  rw [PointerGameState.handleNewClient, ServerGameState.handleNewClient]
  have hpresence := h.players.isNone_iff i
  cases hconnected : isClientConnected i with
  | false =>
      cases hplayer : gameState.connectedPlayers[i]? with
      | none =>
          have hnone := hpresence.mpr hplayer
          simp only [Bool.false_eq_true, if_false, hnone, if_true]
          exact ⟨h, rfl⟩
      | some player =>
          have hsome : pointers.connectedPlayers[i]? ≠ none := by simp [hpresence, hplayer]
          simp only [Bool.false_eq_true, if_false, hsome]
          exact ⟨h.removePlayer i, rfl⟩
  | true =>
      cases hplayer : gameState.connectedPlayers[i]? with
      | some player =>
          have hsome : pointers.connectedPlayers[i]? ≠ none := by simp [hpresence, hplayer]
          simp only [if_true, hsome, if_false]
          exact ⟨h, rfl⟩
      | none =>
          have hnone := hpresence.mpr hplayer
          simp only [if_true, hnone]
          have hcreate := h.createAndSpawnNewPlayerForClient gameConfig i (draws i)
          cases hcreated : gameState.createAndSpawnNewPlayerForClient gameConfig i (draws i) with
          | error stop =>
              rw [hcreate.eq_error hcreated]
              exact rfl
          | ok created =>
              obtain ⟨next, hnext, hrepresents⟩ := hcreate.exists_eq_ok hcreated
              obtain ⟨pos, rfl⟩ := ServerGameState.createAndSpawnNewPlayerForClient_eq_ok hcreated
              have hentry : (gameState.addPlayer i pos).connectedPlayers[i]? = some ⟨pos⟩ := by
                rw [ServerGameState.addPlayer_getElem?, if_pos rfl, hplayer, Option.getD_none]
              have hread := hrepresents.players.readPos hentry
              rw [hnext]
              simp only [PointerGameState.sendPlayerSpawnAndIDToClient, hread,
                PointerGameState.broadcastNewPlayerJoinedMessage,
                ServerGameState.sendPlayerSpawnAndIDToClient,
                ServerGameState.broadcastNewPlayerJoinedMessage, hentry]
              refine ⟨hrepresents, ?_⟩
              rw [ServerGameState.sendGameConfigToClient, ← h.size]

/-- The connect phase. -/
theorem Represents.handleNewClients (h : pointers.Represents gameState) :
    SameOutcome RepresentsSending
      (pointers.handleNewClients gameConfig isClientConnected draws)
      (gameState.handleNewClients gameConfig isClientConnected draws) := by
  refine sameOutcome_run (fun first second i hrelated => ?_) ⟨h, rfl⟩ clientIndices
  have hslot := hrelated.1.handleNewClient gameConfig isClientConnected draws i
  rw [PointerGameState.handleNextClient, ServerGameState.handleNextClient]
  cases hsecond : ServerGameState.handleNewClient gameConfig isClientConnected draws second.1 i with
  | error stop =>
      rw [hslot.eq_error hsecond]
      exact rfl
  | ok result =>
      obtain ⟨other, hfirst, hrepresents, hsent⟩ := hslot.exists_eq_ok hsecond
      rw [hfirst]
      exact ⟨hrepresents, by rw [hrelated.2, hsent]⟩

/-- One message. -/
theorem Represents.processMessage (h : pointers.Represents gameState)
    (received : ClientID × Message) :
    (pointers.processMessage received).Represents
      (gameState.processMessage received.1 received.2) := by
  obtain ⟨clientIndex, message⟩ := received
  cases message with
  | playerMove message =>
      refine ⟨h.size, ?_, h.players⟩
      show pointers.updatedPlayerPositions ++ _ = gameState.updatedPlayerPositions ++ _
      rw [h.queue]
  | gameConfig | playerSpawnAndID | newPlayerJoined | playerPosition => exact h

/-- The update phase does not stop. -/
theorem Represents.updatePlayerPositions (h : pointers.Represents gameState) :
    ∃ updated, pointers.updatePlayerPositions = .ok updated ∧
      updated.Represents gameState.updatePlayerPositions := by
  have hrun := sameOutcome_run (fun players held update hholds =>
    PlayerMap.Holds.updateEntry hholds update) h.players pointers.updatedPlayerPositions
  obtain ⟨players, hplayers, hholds⟩ := hrun.exists_eq_ok (run_eq_foldl _ _ _)
  rw [PointerGameState.updatePlayerPositions, hplayers]
  refine ⟨_, rfl, h.size, rfl, ?_⟩
  rw [h.queue] at hholds
  exact hholds

/-- The messages about one player: every lookup reads the same player and inserts
nothing. -/
theorem run_sendPosition {players : PlayerMap} {held : Std.TreeMap ClientID Player}
    (h : players.Holds held) {id : ClientID} {player : Player} (hplayer : held[id]? = some player)
    (sent : List Send) (receivers : List ClientID) :
    run (PlayerMap.sendPosition gameConfig id) (players, sent) receivers =
      .ok (players, sent ++ receivers.map fun i =>
        gameConfig.sendMessage i (.playerPosition ⟨player.pos.x, player.pos.y, id⟩)) := by
  induction receivers generalizing sent with
  | nil => simp
  | cons i receivers ih =>
      rw [run, PlayerMap.sendPosition, h.readPos hplayer]
      dsimp only
      rw [h.readPos hplayer]
      dsimp only
      rw [ih]
      simp

/-- The broadcast about one player. The map stays as it is. -/
theorem Represents.broadcastUpdatedPlayerPosition (h : pointers.Represents gameState)
    (sent : List Send) (id : ClientID) :
    SameOutcome (fun first second => first = (pointers.connectedPlayers, second))
      (PointerGameState.broadcastUpdatedPlayerPosition gameConfig isClientConnected
        (pointers.connectedPlayers, sent) id)
      (gameState.broadcastNextPosition gameConfig isClientConnected sent id) := by
  rw [PointerGameState.broadcastUpdatedPlayerPosition, ServerGameState.broadcastNextPosition,
    ServerGameState.broadcastUpdatedPlayerPosition]
  cases hplayer : gameState.connectedPlayers[id]? with
  | some player =>
      rw [run_sendPosition h.players hplayer]
      cases clientIndices.filter isClientConnected with
      | nil => exact rfl
      | cons i receivers => exact rfl
  | none =>
      cases clientIndices.filter isClientConnected with
      | nil => simp [SameOutcome]
      | cons i receivers =>
          rw [run, PlayerMap.sendPosition, h.players.readPos_of_none hplayer]
          exact rfl

variable (gameConfig isClientConnected) in
/-- The broadcast of the positions. -/
theorem Represents.broadcastPlayerPositions (h : pointers.Represents gameState) :
    SameOutcome (fun first second => first = (pointers, second))
      (pointers.broadcastPlayerPositions gameConfig isClientConnected)
      (gameState.broadcastPlayerPositions gameConfig isClientConnected) := by
  have hround (first : PlayerMap × List Send) (second : List Send) (id : ClientID)
      (hrelated : first = (pointers.connectedPlayers, second)) :
      SameOutcome (fun first second => first = (pointers.connectedPlayers, second))
        (PointerGameState.broadcastUpdatedPlayerPosition gameConfig isClientConnected first id)
        (gameState.broadcastNextPosition gameConfig isClientConnected second id) := by
    subst hrelated
    exact h.broadcastUpdatedPlayerPosition second id
  have hstart : (pointers.connectedPlayers, ([] : List Send)) = (pointers.connectedPlayers, []) :=
    rfl
  have hrun := sameOutcome_run hround hstart (clientIndices.filter isClientConnected)
  rw [PointerGameState.broadcastPlayerPositions, ServerGameState.broadcastPlayerPositions]
  cases hsecond : run (gameState.broadcastNextPosition gameConfig isClientConnected) []
      (clientIndices.filter isClientConnected) with
  | error stop =>
      rw [hrun.eq_error hsecond]
      exact rfl
  | ok sent =>
      obtain ⟨_, hfirst, rfl⟩ := hrun.exists_eq_ok hsecond
      rw [hfirst]
      exact rfl

end PointerGameState

/-! ## Nobody is looked up in vain -/

namespace ServerGameState

variable {gameState next : ServerGameState} {gameConfig : GameConfig}
  {isClientConnected : ClientID → Bool} {draws : ClientID → List (ℕ × ℕ)} {sent : List Send}

theorem findSpawnPosition_ne_nullPlayer (positions : List (ℕ × ℕ)) :
    gameState.findSpawnPosition gameConfig positions ≠ .error .nullPlayer := by
  induction positions with
  | nil => exact nofun
  | cons draw positions ih =>
      rw [findSpawnPosition]
      split
      · exact nofun
      · dsimp only
        split
        · exact ih
        · exact nofun

/-- A new player is there when its spawn and its join are sent. -/
theorem handleNewClient_ne_nullPlayer (i : ClientID) :
    handleNewClient gameConfig isClientConnected draws gameState i ≠ .error .nullPlayer := by
  rw [handleNewClient]
  cases hconnected : isClientConnected i with
  | false => cases gameState.connectedPlayers[i]? <;> simp
  | true =>
      cases hplayer : gameState.connectedPlayers[i]? with
      | some player => simp
      | none =>
          simp only [if_true]
          cases hcreated : gameState.createAndSpawnNewPlayerForClient gameConfig i (draws i) with
          | error stop =>
              rw [createAndSpawnNewPlayerForClient] at hcreated
              split at hcreated
              · next other hfound =>
                  obtain rfl := Except.error.inj hcreated
                  intro heq
                  rw [Except.error.inj heq] at hfound
                  exact findSpawnPosition_ne_nullPlayer _ hfound
              · cases hcreated
          | ok created =>
              obtain ⟨pos, rfl⟩ := createAndSpawnNewPlayerForClient_eq_ok hcreated
              have hentry : (gameState.addPlayer i pos).connectedPlayers[i]? = some ⟨pos⟩ := by
                rw [addPlayer_getElem?, if_pos rfl, hplayer, Option.getD_none]
              simp [sendPlayerSpawnAndIDToClient, broadcastNewPlayerJoinedMessage, hentry]

theorem handleNewClients_ne_nullPlayer :
    gameState.handleNewClients gameConfig isClientConnected draws ≠ .error .nullPlayer := by
  intro h
  obtain ⟨_, i, progress, _, _, hround⟩ := exists_step_of_run_eq_error h
  rw [handleNextClient] at hround
  split at hround
  · next stop hslot =>
      rw [Except.error.inj hround] at hslot
      exact handleNewClient_ne_nullPlayer i hslot
  · cases hround

/-- The slots that have a player are the connected ones. -/
def Seats (gameState : ServerGameState) (isClientConnected : ClientID → Bool) : Prop :=
  ∀ slot : ClientID, (gameState.connectedPlayers[slot]?).isSome = true ↔
    slot ∈ clientIndices ∧ isClientConnected slot = true

/-- After the connect phase they are, if no other number has ever had a player. -/
theorem seats_of_handleNewClients
    (hnone : ∀ slot : ClientID, slot ∉ clientIndices → gameState.connectedPlayers[slot]? = none)
    (h : gameState.handleNewClients gameConfig isClientConnected draws = .ok (next, sent)) :
    next.Seats isClientConnected := by
  intro slot
  by_cases hslot : slot ∈ clientIndices
  · cases handled_of_handleNewClients h hslot with
    | welcomed hconnected _ hcreated _ => simp [hslot, hconnected, hcreated]
    | kept hconnected _ hkept _ => simp [hslot, hconnected, hkept]
    | removed hdisconnected hremoved _ => simp [hdisconnected, hremoved]
  · have halone := (leavesAlone_of_handleNewClients h hslot).1
    simp [hslot, halone, hnone slot hslot]

theorem Seats.updatePlayerPositions (h : gameState.Seats isClientConnected) :
    gameState.updatePlayerPositions.Seats isClientConnected := by
  intro slot
  rw [updatePlayerPositions_isSome]
  exact h slot

variable (gameConfig) in
/-- The broadcast finds everybody it is about. -/
theorem Seats.exists_broadcastPlayerPositions (h : gameState.Seats isClientConnected) :
    ∃ sent, gameState.broadcastPlayerPositions gameConfig isClientConnected = .ok sent := by
  cases hbroadcast : gameState.broadcastPlayerPositions gameConfig isClientConnected with
  | ok sent => exact ⟨sent, rfl⟩
  | error stop =>
      obtain ⟨before, i, progress, hpre, _, hround⟩ := exists_step_of_run_eq_error hbroadcast
      have hmem : i ∈ clientIndices.filter isClientConnected := hpre.subset (by simp)
      obtain ⟨player, hplayer⟩ := Option.isSome_iff_exists.mp
        ((h i).mpr (List.mem_filter.mp hmem))
      rw [broadcastNextPosition, broadcastUpdatedPlayerPosition, hplayer] at hround
      cases hreceivers : clientIndices.filter isClientConnected with
      | nil => simp [hreceivers] at hround
      | cons first receivers => simp [hreceivers] at hround

end ServerGameState

/-- What an iteration of `ServerMain` finds: the slots that are connected, which
the library changes between two iterations only, the random numbers, and the
messages that have arrived. -/
structure Iteration where
  isClientConnected : ClientID → Bool
  draws : ClientID → List (ℕ × ℕ)
  received : List (ClientID × Message)

namespace PointerGameState

/-- `ServerMain` before its loop. -/
def start (memory : GameState) : PointerGameState := { memory with }

/-- One iteration of `ServerMain`. -/
def iterate (gameConfig : GameConfig) (gameState : PointerGameState) (iteration : Iteration) :
    Except Stop PointerGameState :=
  match gameState.handleNewClients gameConfig iteration.isClientConnected iteration.draws with
  | .error stop => .error stop
  | .ok (welcomed, _) =>
      match (iteration.received.foldl processMessage welcomed).updatePlayerPositions with
      | .error stop => .error stop
      | .ok updated =>
          match updated.broadcastPlayerPositions gameConfig iteration.isClientConnected with
          | .error stop => .error stop
          | .ok (next, _) => .ok next

/-- The keys of `connectedPlayers` are the connected slots, and no pointer is
null. -/
structure Exactly (gameState : PointerGameState) (isClientConnected : ClientID → Bool) :
    Prop where
  keys : ∀ slot : ClientID, slot ∈ gameState.connectedPlayers ↔
    slot ∈ clientIndices ∧ isClientConnected slot = true
  nonnull : ∀ (slot : ClientID) (pointer : PlayerPointer),
    gameState.connectedPlayers[slot]? = some pointer → pointer ≠ none

variable {pointers welcomed : PointerGameState} {gameState : ServerGameState}
  {gameConfig : GameConfig} {isClientConnected : ClientID → Bool}
  {draws : ClientID → List (ℕ × ℕ)} {sent : List Send}

theorem Represents.exactly (h : pointers.Represents gameState)
    (hseats : gameState.Seats isClientConnected) : pointers.Exactly isClientConnected where
  keys slot := by
    rw [Std.TreeMap.mem_iff_isSome_getElem?, h.players slot, Option.isSome_map]
    exact hseats slot
  nonnull slot pointer hpointer := by
    rw [h.players slot, Option.map_eq_some_iff] at hpointer
    obtain ⟨player, _, rfl⟩ := hpointer
    exact Option.some_ne_none player

theorem Represents.processMessages (h : pointers.Represents gameState)
    (hseats : gameState.Seats isClientConnected) (received : List (ClientID × Message)) :
    ∃ next, (received.foldl PointerGameState.processMessage pointers).Represents next ∧
      next.Seats isClientConnected := by
  induction received generalizing pointers gameState with
  | nil => exact ⟨gameState, h, hseats⟩
  | cons message received ih =>
      refine ih (h.processMessage message) ?_
      intro slot
      rw [ServerGameState.processMessage_connectedPlayers]
      exact hseats slot

variable (gameConfig) in
/-- The phases after the connect phase. -/
theorem Represents.phases (h : pointers.Represents gameState)
    (hseats : gameState.Seats isClientConnected) (received : List (ClientID × Message)) :
    ∃ updated, (received.foldl PointerGameState.processMessage pointers).updatePlayerPositions =
        .ok updated ∧ updated.Exactly isClientConnected ∧
      ∃ sent, updated.broadcastPlayerPositions gameConfig isClientConnected =
          .ok (updated, sent) ∧
        ∃ next, updated.Represents next ∧ next.Seats isClientConnected := by
  obtain ⟨queued, hqueued, hqueuedSeats⟩ := h.processMessages hseats received
  obtain ⟨updated, hupdated, hrepresents⟩ := hqueued.updatePlayerPositions
  have hupdatedSeats := hqueuedSeats.updatePlayerPositions
  obtain ⟨sent, hsent⟩ := hupdatedSeats.exists_broadcastPlayerPositions gameConfig
  obtain ⟨_, hbroadcast, rfl⟩ :=
    (hrepresents.broadcastPlayerPositions gameConfig isClientConnected).exists_eq_ok hsent
  exact ⟨updated, hupdated, hrepresents.exactly hupdatedSeats, sent, hbroadcast, _, hrepresents,
    hupdatedSeats⟩

/-- Between two iterations: no null pointers, and no player but in a slot. -/
def Settled (pointers : PointerGameState) : Prop :=
  ∃ gameState : ServerGameState, pointers.Represents gameState ∧
    ∀ slot : ClientID, slot ∉ clientIndices → gameState.connectedPlayers[slot]? = none

theorem settled_start (memory : GameState) : (start memory).Settled := by
  refine ⟨{ memory with }, ⟨rfl, rfl, fun key => ?_⟩, fun slot _ => Std.TreeMap.getElem?_emptyc⟩
  show (∅ : PlayerMap)[key]? = ((∅ : Std.TreeMap ClientID Player)[key]?).map some
  rw [Std.TreeMap.getElem?_emptyc, Std.TreeMap.getElem?_emptyc, Option.map_none]

theorem Settled.handleNewClients (h : pointers.Settled)
    (hwelcomed : pointers.handleNewClients gameConfig isClientConnected draws =
      .ok (welcomed, sent)) :
    ∃ gameState, welcomed.Represents gameState ∧ gameState.Seats isClientConnected := by
  obtain ⟨gameState, hrepresents, hnone⟩ := h
  obtain ⟨⟨next, _⟩, hnext, hwelcomedRepresents, _⟩ :=
    hrepresents.handleNewClients.exists_related hwelcomed
  exact ⟨next, hwelcomedRepresents, ServerGameState.seats_of_handleNewClients hnone hnext⟩

theorem Settled.iterate {next : PointerGameState} {iteration : Iteration} (h : pointers.Settled)
    (hnext : iterate gameConfig pointers iteration = .ok next) : next.Settled := by
  rw [PointerGameState.iterate] at hnext
  split at hnext
  · cases hnext
  · next welcomed _ hwelcomed =>
      obtain ⟨gameState, hrepresents, hseats⟩ := h.handleNewClients hwelcomed
      obtain ⟨updated, hupdated, _, _, hbroadcast, after, hafter, hafterSeats⟩ :=
        hrepresents.phases gameConfig hseats iteration.received
      simp only [hupdated, hbroadcast, Except.ok.injEq] at hnext
      subst hnext
      refine ⟨after, hafter, fun slot hslot => ?_⟩
      have hnotSeated := mt (hafterSeats slot).mp fun hseated => hslot hseated.1
      simpa using hnotSeated

/-- **Every lookup finds a player.** In every run of the server, whatever slots
connect and disconnect between its iterations and whatever messages arrive: the
connect phase dereferences no null pointer; after it the keys are the connected
slots and all pointers point to a player; and so it is after the update phase and
after the broadcast, which both dereference no null pointer either. -/
theorem every_lookup_finds_a_player {memory : GameState} {iterations : List Iteration}
    (hrun : run (PointerGameState.iterate gameConfig) (start memory) iterations = .ok pointers)
    (iteration : Iteration) :
    pointers.handleNewClients gameConfig iteration.isClientConnected iteration.draws ≠
        .error .nullPlayer ∧
      ∀ welcomed sent,
        pointers.handleNewClients gameConfig iteration.isClientConnected iteration.draws =
          .ok (welcomed, sent) →
        welcomed.Exactly iteration.isClientConnected ∧
        ∃ updated,
          (iteration.received.foldl PointerGameState.processMessage
            welcomed).updatePlayerPositions = .ok updated ∧
          updated.Exactly iteration.isClientConnected ∧
          ∃ next sent,
            updated.broadcastPlayerPositions gameConfig iteration.isClientConnected =
              .ok (next, sent) ∧
            next.Exactly iteration.isClientConnected := by
  have hsettled : pointers.Settled := run_invariant_of_step
    (fun _ _ _ hbefore hstep => hbefore.iterate hstep) (settled_start memory) hrun
  refine ⟨?_, fun welcomed sent hwelcomed => ?_⟩
  · obtain ⟨gameState, hrepresents, _⟩ := hsettled
    exact hrepresents.handleNewClients.ne_error ServerGameState.handleNewClients_ne_nullPlayer
  · obtain ⟨gameState, hrepresents, hseats⟩ := hsettled.handleNewClients hwelcomed
    obtain ⟨updated, hupdated, hexactly, sent, hbroadcast, _⟩ :=
      hrepresents.phases gameConfig hseats iteration.received
    exact ⟨hrepresents.exactly hseats, updated, hupdated, hexactly, updated, sent, hbroadcast,
      hexactly⟩

/-- The second of two clients connects and the first one leaves. The message that
then arrives from the second one names a slot that nobody is in: no entry is made
for it in any phase. -/
theorem lookups_after_slot_change :
    ∃ pointers welcomed sent,
      run (PointerGameState.iterate {}) (start ⟨0, 0, 2⟩)
        [⟨fun i => i == 0, fun _ => [(3, 4)], []⟩] = .ok pointers ∧
      pointers.handleNewClients {} (fun i => i == 1) (fun _ => [(3, 4)]) =
        .ok (welcomed, sent) ∧
      welcomed.Exactly (fun i => i == 1) ∧
      ∃ updated,
        (processMessage welcomed (1, .playerMove ⟨5, 5, 9⟩)).updatePlayerPositions =
          .ok updated ∧
        updated.Exactly (fun i => i == 1) ∧
        ∃ next sent,
          updated.broadcastPlayerPositions {} (fun i => i == 1) = .ok (next, sent) ∧
          next.Exactly (fun i => i == 1) := by
  have hrun : run (PointerGameState.iterate {}) (start ⟨0, 0, 2⟩)
      [⟨fun i => i == 0, fun _ => [(3, 4)], []⟩] = .ok _ := rfl
  obtain ⟨_, hphases⟩ := every_lookup_finds_a_player hrun
    ⟨fun i => i == 1, fun _ => [(3, 4)], [(1, .playerMove ⟨5, 5, 9⟩)]⟩
  obtain ⟨hwelcomed, updated, hupdated, hkeys, next, sent, hbroadcast, hnext⟩ :=
    hphases _ _ rfl
  exact ⟨_, _, _, hrun, rfl, hwelcomed, updated, hupdated, hkeys, next, sent, hbroadcast, hnext⟩

end PointerGameState

end LibBench.Yojimbo
