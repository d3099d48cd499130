/-
# RakNet: the server loop

`raknet/server/server.cpp`. The loop alternates two things: it handles the
packets that `Receive` returns, and when there is none left it performs the
queued position updates, broadcasts the positions and sleeps. An event of the
server is one packet handled or one such end of a tick, so a list of events is
a run of the loop cut at the points where the outside can interfere.

The handlers return the messages they send next to the new state. What the
library contributes to handling a new connection (the assigned network id and
the random numbers drawn) is part of the event.
-/

import LibBench.Math.Execution
import LibBench.RakNet.ServerGamestate

namespace LibBench.RakNet

open LibBench.Math

namespace ServerGamestate

/-- The config goes to the new client alone. -/
def sendGameConfigToClient (gamestate : ServerGamestate) (address : SystemAddress) : Send where
  message := .gameConfig ⟨gamestate.mapWidth, gamestate.mapHeight, gamestate.numPlayers⟩
  orderingChannel := 0
  systemAddress := some address
  broadcast := false

/-- The spawn position and network id of the player that `connectedPlayers`
holds for the address. -/
def sendPlayerSpawnAndIDToClient (gamestate : ServerGamestate) (address : SystemAddress) :
    Except Stop Send :=
  match gamestate.connectedPlayers[address]? with
  | none => .error .nullPlayer
  | some createdPlayer =>
      match gamestate.objects createdPlayer with
      | none => .error .nullPlayer
      | some player =>
          .ok { message := .playerSpawn ⟨player.pos, createdPlayer⟩
                orderingChannel := 0
                systemAddress := some address
                broadcast := false }

/-- The join message goes to every connected peer, the new one included. -/
def broadcastNewPlayerJoinedMessage (gamestate : ServerGamestate) (address : SystemAddress) :
    Except Stop Send :=
  match gamestate.connectedPlayers[address]? with
  | none => .error .nullPlayer
  | some newPlayer =>
      match gamestate.objects newPlayer with
      | none => .error .nullPlayer
      | some player =>
          .ok { message := .playerJoin ⟨player.pos, newPlayer⟩
                orderingChannel := 0
                systemAddress := none
                broadcast := true }

/-- `handleLibraryPacket`: new connections and lost connections; every other
identifier falls through the switch. -/
def handleLibraryPacket (gamestate : ServerGamestate) (systemAddress : SystemAddress)
    (admission : Admission) : LibraryPacket → Except Stop (ServerGamestate × List Send)
  | .newIncomingConnection =>
      match gamestate.createAndSpawnNewPlayerForClient systemAddress admission with
      | .error stop => .error stop
      | .ok created =>
          match created.sendPlayerSpawnAndIDToClient systemAddress,
              created.broadcastNewPlayerJoinedMessage systemAddress with
          | .ok spawn, .ok joined =>
              .ok (created, [gamestate.sendGameConfigToClient systemAddress, spawn, joined])
          | .error stop, _ => .error stop
          | .ok _, .error stop => .error stop
  | .connectionLost => .ok (gamestate.removePlayer systemAddress, [])
  | _ => .ok (gamestate, [])

/-- `handleCustomPacket`: queue a move under the id that the message names. -/
def handleCustomPacket (gamestate : ServerGamestate) : Message → ServerGamestate
  | .playerMove message =>
      { gamestate with
        updatedPlayerPositions :=
          gamestate.updatedPlayerPositions ++ [(message.playerID, message.newPos)] }
  | _ => gamestate

@[simp]
theorem handleCustomPacket_connectedPlayers (gamestate : ServerGamestate) (message : Message) :
    (gamestate.handleCustomPacket message).connectedPlayers = gamestate.connectedPlayers := by
  cases message <;> rfl

@[simp]
theorem handleCustomPacket_objects (gamestate : ServerGamestate) (message : Message) :
    (gamestate.handleCustomPacket message).objects = gamestate.objects := by
  cases message <;> rfl

/-- The message for one entry of `connectedPlayers`: to everybody when the
player is flagged, else to everybody but the player itself. -/
def positionBroadcast (address : SystemAddress) (id : NetworkID) (player : Player) : Send where
  message := .playerPosition ⟨id, player.pos⟩
  orderingChannel := 2
  systemAddress := if player.broadcastLocationToSelf then none else some address
  broadcast := true

/-- The body of the broadcast loop for one entry: send the position and clear
the flag. -/
def broadcastEntry (progress : (NetworkID → Option Player) × List Send)
    (entry : SystemAddress × NetworkID) : (NetworkID → Option Player) × List Send :=
  match progress.1 entry.2 with
  | none => progress
  | some player =>
      (if player.broadcastLocationToSelf then
          Function.update progress.1 entry.2
            (some { player with broadcastLocationToSelf := false })
        else progress.1,
        progress.2 ++ [positionBroadcast entry.1 entry.2 player])

/-- The broadcast at the end of a tick, over `connectedPlayers` in key order. -/
def broadcastPlayerPositions (gamestate : ServerGamestate) : ServerGamestate × List Send :=
  let result := gamestate.connectedPlayers.toList.foldl broadcastEntry (gamestate.objects, [])
  ({ gamestate with objects := result.1 }, result.2)

end ServerGamestate

/-- One step of the server loop: a received packet, or the end of a tick. -/
inductive ServerEvent
  | receive (systemAddress : SystemAddress) (packet : Packet) (admission : Admission)
  | endTick
  deriving DecidableEq, Repr

namespace ServerGamestate

/-- The server loop on one event, with what it sends. -/
def handle (gamestate : ServerGamestate) :
    ServerEvent → Except Stop (ServerGamestate × List Send)
  | .receive systemAddress (.library identifier) admission =>
      gamestate.handleLibraryPacket systemAddress admission identifier
  | .receive _ (.custom message) _ => .ok (gamestate.handleCustomPacket message, [])
  | .endTick =>
      match gamestate.updatePlayerPositions with
      | .error stop => .error stop
      | .ok updated => .ok updated.broadcastPlayerPositions

/-- The server loop on one event, without what it sends. -/
def step (gamestate : ServerGamestate) (event : ServerEvent) : Except Stop ServerGamestate :=
  match gamestate.handle event with
  | .error stop => .error stop
  | .ok (next, _) => .ok next

/-- `ApplyConfig` on a new game state: no players yet. -/
def applyConfig (mapWidth mapHeight numPlayers : UInt16) : ServerGamestate where
  mapWidth
  mapHeight
  numPlayers

theorem step_eq_ok_iff {gamestate next : ServerGamestate} {event : ServerEvent} :
    gamestate.step event = .ok next ↔ ∃ sent, gamestate.handle event = .ok (next, sent) := by
  rw [step]
  cases gamestate.handle event with
  | error stop => simp
  | ok result => simp [Prod.ext_iff]

/-- Handling a new connection: the three messages, all about the entry that
`connectedPlayers` has for the address afterwards. -/
theorem handleLibraryPacket_newIncomingConnection_eq_ok {gamestate next : ServerGamestate}
    {address : SystemAddress} {admission : Admission} {sent : List Send}
    (hwf : gamestate.WellFormed)
    (h : gamestate.handleLibraryPacket address admission .newIncomingConnection =
      .ok (next, sent)) :
    ∃ randomPos id player,
      gamestate.positionAlreadyOccupied randomPos = false ∧
      gamestate.objects admission.networkID = none ∧
      admission.networkID ≠ unassignedNetworkID ∧
      next = gamestate.addPlayer address admission.networkID randomPos ∧
      next.connectedPlayers[address]? = some id ∧ next.objects id = some player ∧
      sent = [gamestate.sendGameConfigToClient address,
        ⟨.playerSpawn ⟨player.pos, id⟩, 0, some address, false⟩,
        ⟨.playerJoin ⟨player.pos, id⟩, 0, none, true⟩] := by
  simp only [handleLibraryPacket] at h
  cases hcreated : gamestate.createAndSpawnNewPlayerForClient address admission with
  | error stop => simp [hcreated] at h
  | ok created =>
      have hcreatedWf := hwf.createAndSpawnNewPlayerForClient hcreated
      obtain ⟨randomPos, hfree, hfresh, hassigned, rfl⟩ :=
        createAndSpawnNewPlayerForClient_eq_ok hcreated
      obtain ⟨id, hid⟩ : ∃ id, (gamestate.addPlayer address admission.networkID
          randomPos).connectedPlayers[address]? = some id :=
        ⟨_, by rw [addPlayer_getElem?, if_pos rfl]⟩
      obtain ⟨player, hplayer⟩ := Option.isSome_iff_exists.mp (hcreatedWf.live address id hid)
      simp only [hcreated, sendPlayerSpawnAndIDToClient, broadcastNewPlayerJoinedMessage, hid,
        hplayer, Except.ok.injEq, Prod.mk.injEq] at h
      obtain ⟨rfl, rfl⟩ := h
      exact ⟨randomPos, id, player, hfree, hfresh, hassigned, rfl, hid, hplayer, rfl⟩

/-- The three messages about a new player. -/
def welcome (gamestate : ServerGamestate) (address : SystemAddress) (id : NetworkID)
    (pos : Position) : List Send :=
  [gamestate.sendGameConfigToClient address,
    ⟨.playerSpawn ⟨pos, id⟩, 0, some address, false⟩,
    ⟨.playerJoin ⟨pos, id⟩, 0, none, true⟩]

/-- All three reach the new client, and the join reaches everybody. -/
theorem welcome_reaching (gamestate : ServerGamestate) (address other : SystemAddress)
    (id : NetworkID) (pos : Position) :
    ((gamestate.welcome address id pos).filter fun send => send.reaches other).map Send.message =
      if address = other then
        [.gameConfig ⟨gamestate.mapWidth, gamestate.mapHeight, gamestate.numPlayers⟩,
          .playerSpawn ⟨pos, id⟩, .playerJoin ⟨pos, id⟩]
      else [.playerJoin ⟨pos, id⟩] := by
  by_cases h : address = other <;>
    simp only [welcome, sendGameConfigToClient, List.filter_cons, List.filter_nil,
      Send.reaches_unicast, Send.reaches_broadcast, h, decide_true, decide_false, if_true,
      Bool.false_eq_true, if_false, List.map_cons, List.map_nil]

theorem ne_playerPosition_of_mem_welcome {gamestate : ServerGamestate}
    {address : SystemAddress} {id : NetworkID} {pos : Position} {send : Send}
    (h : send ∈ gamestate.welcome address id pos) (message : PlayerPositionMessage) :
    send.message ≠ .playerPosition message := by
  simp only [welcome, List.mem_cons, List.not_mem_nil, or_false] at h
  rcases h with rfl | rfl | rfl <;> exact nofun

/-- The spawn message among them goes to the new client only. -/
theorem of_playerSpawn_mem_welcome {gamestate : ServerGamestate}
    {address : SystemAddress} {id : NetworkID} {pos : Position} {send : Send}
    (h : send ∈ gamestate.welcome address id pos) {message : PlayerSpawnAndIDMessage}
    (hmessage : send.message = .playerSpawn message) :
    message = ⟨pos, id⟩ ∧ ∀ other, send.reaches other = true → other = address := by
  simp only [welcome, List.mem_cons, List.not_mem_nil, or_false] at h
  rcases h with rfl | rfl | rfl
  · cases hmessage
  · refine ⟨(Message.playerSpawn.inj hmessage).symm, fun other hreaches => ?_⟩
    rw [Send.reaches_unicast, decide_eq_true_iff] at hreaches
    exact hreaches.symm
  · cases hmessage

/-- For an address without an entry, the three messages are about the new
player. -/
theorem handle_newIncomingConnection_eq_ok {gamestate next : ServerGamestate}
    {address : SystemAddress} {admission : Admission} {sent : List Send}
    (hwf : gamestate.WellFormed) (hfree : gamestate.connectedPlayers[address]? = none)
    (h : gamestate.handle (.receive address (.library .newIncomingConnection) admission) =
      .ok (next, sent)) :
    ∃ randomPos,
      gamestate.positionAlreadyOccupied randomPos = false ∧
      gamestate.objects admission.networkID = none ∧
      admission.networkID ≠ unassignedNetworkID ∧
      next = gamestate.addPlayer address admission.networkID randomPos ∧
      sent = gamestate.welcome address admission.networkID randomPos := by
  obtain ⟨randomPos, id, player, hoccupied, hfresh, hassigned, rfl, hid, hplayer, rfl⟩ :=
    handleLibraryPacket_newIncomingConnection_eq_ok hwf h
  rw [addPlayer_getElem?, if_pos rfl, hfree, Option.getD_none, Option.some.injEq] at hid
  subst hid
  rw [addPlayer_objects, if_pos rfl, Option.some.injEq] at hplayer
  subst hplayer
  exact ⟨randomPos, hoccupied, hfresh, hassigned, rfl, rfl⟩

theorem handle_connectionLost_eq_ok {gamestate next : ServerGamestate}
    {address : SystemAddress} {admission : Admission} {sent : List Send}
    (h : gamestate.handle (.receive address (.library .connectionLost) admission) =
      .ok (next, sent)) : next = gamestate.removePlayer address ∧ sent = [] := by
  simp only [handle, handleLibraryPacket, Except.ok.injEq, Prod.mk.injEq] at h
  exact ⟨h.1.symm, h.2.symm⟩

theorem handle_playerMove_eq_ok {gamestate next : ServerGamestate}
    {address : SystemAddress} {admission : Admission} {move : PlayerMoveMessage}
    {sent : List Send}
    (h : gamestate.handle (.receive address (.custom (.playerMove move)) admission) =
      .ok (next, sent)) :
    next = { gamestate with
      updatedPlayerPositions :=
        gamestate.updatedPlayerPositions ++ [(move.playerID, move.newPos)] } ∧ sent = [] := by
  simp only [handle, handleCustomPacket, Except.ok.injEq, Prod.mk.injEq] at h
  exact ⟨h.1.symm, h.2.symm⟩

theorem broadcastEntry_of_none {progress : (NetworkID → Option Player) × List Send}
    {entry : SystemAddress × NetworkID} (h : progress.1 entry.2 = none) :
    broadcastEntry progress entry = progress := by
  simp only [broadcastEntry, h]

theorem broadcastEntry_of_some {progress : (NetworkID → Option Player) × List Send}
    {entry : SystemAddress × NetworkID} {player : Player}
    (h : progress.1 entry.2 = some player) :
    broadcastEntry progress entry =
      (Function.update progress.1 entry.2
          (some { player with broadcastLocationToSelf := false }),
        progress.2 ++ [positionBroadcast entry.1 entry.2 player]) := by
  obtain ⟨pos, flag⟩ := player
  cases flag with
  | true => simp [broadcastEntry, h]
  | false =>
      have hsame : Function.update progress.1 entry.2 (some { pos }) = progress.1 := by
        rw [← h, Function.update_eq_self]
      simp [broadcastEntry, h, hsame]

/-- The flags after the broadcast: cleared for the entries that were visited. -/
theorem foldl_broadcastEntry_fst (entries : List (SystemAddress × NetworkID))
    (progress : (NetworkID → Option Player) × List Send) (id : NetworkID) :
    (entries.foldl broadcastEntry progress).1 id =
      if id ∈ entries.map Prod.snd then
        (progress.1 id).map fun player => { player with broadcastLocationToSelf := false }
      else progress.1 id := by
  induction entries generalizing progress with
  | nil => simp
  | cons entry rest ih =>
      rw [List.foldl_cons, ih, List.map_cons]
      cases hplayer : progress.1 entry.2 with
      | none =>
          rw [broadcastEntry_of_none hplayer]
          by_cases hid : id = entry.2
          · simp [hid, hplayer]
          · simp only [List.mem_cons, hid, false_or]
      | some player =>
          rw [broadcastEntry_of_some hplayer]
          by_cases hid : id = entry.2
          · simp [hid, hplayer]
          · simp only [List.mem_cons, hid, false_or, ne_eq, not_false_eq_true,
              Function.update_of_ne]

/-- The messages of the broadcast: one for each entry, about the player as it
was when the loop began. The ids of the entries are pairwise different, so no
entry's object is changed by the entries before it. -/
theorem foldl_broadcastEntry_snd {entries : List (SystemAddress × NetworkID)}
    (hnodup : (entries.map Prod.snd).Nodup)
    (progress : (NetworkID → Option Player) × List Send) :
    (entries.foldl broadcastEntry progress).2 =
      progress.2 ++ entries.filterMap fun entry =>
        (progress.1 entry.2).map fun player => positionBroadcast entry.1 entry.2 player := by
  induction entries generalizing progress with
  | nil => simp
  | cons entry rest ih =>
      rw [List.map_cons, List.nodup_cons] at hnodup
      rw [List.foldl_cons, ih hnodup.2, List.filterMap_cons]
      cases hplayer : progress.1 entry.2 with
      | none => rw [broadcastEntry_of_none hplayer, Option.map_none]
      | some player =>
          rw [broadcastEntry_of_some hplayer, Option.map_some, List.append_assoc,
            List.singleton_append]
          congr 2
          apply List.filterMap_congr
          intro other hother
          have hne : other.2 ≠ entry.2 := fun heq =>
            hnodup.1 (heq ▸ List.mem_map_of_mem hother)
          dsimp only
          rw [Function.update_of_ne hne]

theorem WellFormed.nodup_ids {gamestate : ServerGamestate} (hwf : gamestate.WellFormed) :
    (gamestate.connectedPlayers.toList.map Prod.snd).Nodup := by
  rw [List.Nodup, List.pairwise_map]
  refine List.Pairwise.imp_of_mem ?_
    (Std.TreeMap.distinct_keys_toList (t := gamestate.connectedPlayers))
  rintro ⟨first, id⟩ ⟨second, id'⟩ hfirst hsecond hkeys hids
  rw [Std.TreeMap.mem_toList_iff_getElem?_eq_some] at hfirst hsecond
  dsimp only at hids hkeys
  subst hids
  obtain rfl := hwf.distinct first second id hfirst hsecond
  exact hkeys (Std.ReflCmp.compare_self)

/-- The broadcast keeps every object and its position; it clears the flag of
every connected player. -/
theorem broadcastPlayerPositions_objects (gamestate : ServerGamestate) (id : NetworkID) :
    gamestate.broadcastPlayerPositions.1.objects id =
      if id ∈ gamestate.connectedPlayers.toList.map Prod.snd then
        (gamestate.objects id).map fun player => { player with broadcastLocationToSelf := false }
      else gamestate.objects id :=
  foldl_broadcastEntry_fst _ _ _

theorem mem_connectedIDs {gamestate : ServerGamestate} {id : NetworkID} :
    id ∈ gamestate.connectedPlayers.toList.map Prod.snd ↔
      ∃ address : SystemAddress, gamestate.connectedPlayers[address]? = some id := by
  simp [Std.TreeMap.mem_toList_iff_getElem?_eq_some]

/-- What is sent at the end of a tick: for each connected player one message
with its position. -/
theorem mem_broadcastPlayerPositions_sent {gamestate : ServerGamestate}
    (hwf : gamestate.WellFormed) {send : Send} :
    send ∈ gamestate.broadcastPlayerPositions.2 ↔
      ∃ (address : SystemAddress) (id : NetworkID) (player : Player),
        gamestate.connectedPlayers[address]? = some id ∧
          gamestate.objects id = some player ∧ send = positionBroadcast address id player := by
  rw [broadcastPlayerPositions, foldl_broadcastEntry_snd hwf.nodup_ids]
  simp only [List.nil_append, List.mem_filterMap, Prod.exists,
    Std.TreeMap.mem_toList_iff_getElem?_eq_some, Option.map_eq_some_iff]
  constructor
  · rintro ⟨address, id, hconnected, player, hplayer, rfl⟩
    exact ⟨address, id, player, hconnected, hplayer, rfl⟩
  · rintro ⟨address, id, player, hconnected, hplayer, rfl⟩
    exact ⟨address, id, hconnected, player, hplayer, rfl⟩

theorem WellFormed.broadcastPlayerPositions {gamestate : ServerGamestate}
    (hwf : gamestate.WellFormed) : gamestate.broadcastPlayerPositions.1.WellFormed :=
  hwf.of_objects_isSome rfl fun id hlive => by
    rw [broadcastPlayerPositions_objects]
    split
    · rw [Option.isSome_map]
      exact hlive
    · exact hlive

/-! ## The effects of an event

One case for each thing that an event can do to the game state. An invariant of
the server loop is shown by going through these, not through the handlers. -/

/-- The end of a tick whose lookups all find a player. -/
def performTick (gamestate : ServerGamestate) : ServerGamestate :=
  ({ gamestate.midway gamestate.updatedPlayerPositions with
    updatedPlayerPositions := [] } : ServerGamestate).broadcastPlayerPositions.1

/-- The player behind an object after the end of a tick. -/
theorem performTick_objects (gamestate : ServerGamestate) (id : NetworkID) :
    gamestate.performTick.objects id = (gamestate.objects id).map fun player =>
      let moved :=
        (ownUpdates id gamestate.updatedPlayerPositions).foldl Player.receiveUpdate player
      if id ∈ gamestate.connectedPlayers.toList.map Prod.snd then
        { moved with broadcastLocationToSelf := false }
      else moved := by
  apply (broadcastPlayerPositions_objects _ id).trans
  have hmoved := gamestate.midway_objects gamestate.updatedPlayerPositions id
  by_cases h : id ∈ gamestate.connectedPlayers.toList.map Prod.snd
  · apply (if_pos h).trans
    dsimp only
    rw [hmoved, Option.map_map]
    simp only [if_pos h, Function.comp_def]
  · apply (if_neg h).trans
    dsimp only
    rw [hmoved]
    simp only [if_neg h]

/-- What the event does to the game state. -/
inductive Effect (gamestate : ServerGamestate) : ServerEvent → ServerGamestate → Prop
  | join {address : SystemAddress} {admission : Admission} {randomPos : Position}
      (found : gamestate.findSpawnPosition admission.draws = .ok randomPos)
      (fresh : gamestate.objects admission.networkID = none)
      (assigned : admission.networkID ≠ unassignedNetworkID) :
      Effect gamestate (.receive address (.library .newIncomingConnection) admission)
        (gamestate.addPlayer address admission.networkID randomPos)
  | leave {address : SystemAddress} {admission : Admission} :
      Effect gamestate (.receive address (.library .connectionLost) admission)
        (gamestate.removePlayer address)
  | queue {address : SystemAddress} {admission : Admission} {move : PlayerMoveMessage} :
      Effect gamestate (.receive address (.custom (.playerMove move)) admission)
        { gamestate with
          updatedPlayerPositions :=
            gamestate.updatedPlayerPositions ++ [(move.playerID, move.newPos)] }
  | skipLibrary {address : SystemAddress} {admission : Admission} {identifier : LibraryPacket}
      (hnew : identifier ≠ .newIncomingConnection) (hlost : identifier ≠ .connectionLost) :
      Effect gamestate (.receive address (.library identifier) admission) gamestate
  | skipCustom {address : SystemAddress} {admission : Admission} {message : Message}
      (hmove : ∀ move, message ≠ .playerMove move) :
      Effect gamestate (.receive address (.custom message) admission) gamestate
  | tick (found : ∀ update ∈ gamestate.updatedPlayerPositions,
        (gamestate.objects update.1).isSome) :
      Effect gamestate .endTick gamestate.performTick

/-- Every event that is handled has one of the effects. -/
theorem effect_of_handle {gamestate next : ServerGamestate} {event : ServerEvent}
    {sent : List Send} (hhandle : gamestate.handle event = .ok (next, sent)) :
    gamestate.Effect event next := by
  cases event with
  | receive address packet admission =>
      cases packet with
      | custom message =>
          simp only [handle, Except.ok.injEq, Prod.mk.injEq] at hhandle
          obtain ⟨rfl, _⟩ := hhandle
          cases message with
          | playerMove move => exact .queue
          | gameConfig | playerSpawn | playerJoin | playerLeave | playerPosition =>
              exact .skipCustom fun _ heq => by cases heq
      | library identifier =>
          cases identifier with
          | newIncomingConnection =>
              simp only [handle, handleLibraryPacket, createAndSpawnNewPlayerForClient] at hhandle
              cases hfound : gamestate.findSpawnPosition admission.draws with
              | error stop => simp [hfound] at hhandle
              | ok randomPos =>
                  by_cases hfresh : (gamestate.objects admission.networkID).isSome ∨
                      admission.networkID = unassignedNetworkID
                  · simp [hfound, hfresh] at hhandle
                  · simp only [hfound, if_neg hfresh] at hhandle
                    simp only [not_or, Option.not_isSome_iff_eq_none] at hfresh
                    split at hhandle
                    · obtain rfl := (Prod.mk.inj (Except.ok.inj hhandle)).1
                      exact .join hfound hfresh.1 hfresh.2
                    · cases hhandle
                    · cases hhandle
          | connectionLost =>
              obtain ⟨rfl, _⟩ := handle_connectionLost_eq_ok hhandle
              exact .leave
          | connectionRequestAccepted | connectionAttemptFailed | disconnectionNotification
          | other =>
              simp only [handle, handleLibraryPacket, Except.ok.injEq, Prod.mk.injEq] at hhandle
              obtain ⟨rfl, _⟩ := hhandle
              exact .skipLibrary (by decide) (by decide)
  | endTick =>
      simp only [handle] at hhandle
      cases hupdate : gamestate.updatePlayerPositions with
      | error stop => simp [hupdate] at hhandle
      | ok updated =>
          simp only [hupdate, Except.ok.injEq] at hhandle
          obtain ⟨rfl, _⟩ := Prod.ext_iff.mp hhandle
          obtain ⟨hfound, rfl⟩ := updatePlayerPositions_eq_ok_iff.mp hupdate
          exact .tick hfound

theorem effect_of_step {gamestate next : ServerGamestate} {event : ServerEvent}
    (h : gamestate.step event = .ok next) : gamestate.Effect event next := by
  obtain ⟨sent, hhandle⟩ := step_eq_ok_iff.mp h
  exact effect_of_handle hhandle

/-- The end of a tick, seen from the connected players: each one has applied the
updates queued under its own id, and its position is sent. -/
structure Ticked (gamestate next : ServerGamestate) (sent : List Send) : Prop where
  queue : next.updatedPlayerPositions = []
  connectedPlayers : next.connectedPlayers = gamestate.connectedPlayers
  live : ∀ id, (next.objects id).isSome = (gamestate.objects id).isSome
  player : ∀ {address : SystemAddress} {id : NetworkID} {player : Player},
    gamestate.connectedPlayers[address]? = some id → gamestate.objects id = some player →
      next.objects id = some
        { pos := (ownUpdates id gamestate.updatedPlayerPositions).foldl
            (stepTo Position.OneSpace) player.pos }
  mem_sent : ∀ send, send ∈ sent ↔
    ∃ (address : SystemAddress) (id : NetworkID) (player : Player),
      gamestate.connectedPlayers[address]? = some id ∧ gamestate.objects id = some player ∧
        send = positionBroadcast address id
          ((ownUpdates id gamestate.updatedPlayerPositions).foldl Player.receiveUpdate player)

theorem WellFormed.ticked {gamestate next : ServerGamestate} {sent : List Send}
    (hwf : gamestate.WellFormed) (h : gamestate.handle .endTick = .ok (next, sent)) :
    gamestate.Ticked next sent := by
  simp only [ServerGamestate.handle] at h
  cases hupdate : gamestate.updatePlayerPositions with
  | error stop => simp [hupdate] at h
  | ok updated =>
      simp only [hupdate, Except.ok.injEq] at h
      obtain ⟨rfl, rfl⟩ := Prod.ext_iff.mp h
      have hupdated := hwf.updatePlayerPositions hupdate
      obtain ⟨_, rfl⟩ := updatePlayerPositions_eq_ok_iff.mp hupdate
      refine ⟨rfl, rfl, fun id => ?_, fun {address id player} hconnected hplayer => ?_,
        fun send => ?_⟩
      · rw [broadcastPlayerPositions_objects]
        split <;> simp only [Option.isSome_map, foldl_applyUpdate_isSome]
      · have hmem := mem_connectedIDs.mpr ⟨address, hconnected⟩
        rw [broadcastPlayerPositions_objects, if_pos hmem]
        simp only [foldl_applyUpdate_apply, hplayer, Option.map_some,
          Player.foldl_receiveUpdate_pos]
      · rw [mem_broadcastPlayerPositions_sent hupdated]
        simp only [foldl_applyUpdate_apply, Option.map_eq_some_iff]
        constructor
        · rintro ⟨address, id, _, hconnected, ⟨player, hplayer, rfl⟩, rfl⟩
          exact ⟨address, id, player, hconnected, hplayer, rfl⟩
        · rintro ⟨address, id, player, hconnected, hplayer, rfl⟩
          exact ⟨address, id, _, hconnected, ⟨player, hplayer, rfl⟩, rfl⟩

theorem applyConfig_wellFormed (mapWidth mapHeight numPlayers : UInt16) :
    (applyConfig mapWidth mapHeight numPlayers).WellFormed where
  live address id h := by simp [applyConfig] at h
  distinct first second id h := by simp [applyConfig] at h

/-- Well-formedness is an invariant of the server loop. -/
theorem WellFormed.handle {gamestate next : ServerGamestate} {event : ServerEvent}
    {sent : List Send} (hwf : gamestate.WellFormed)
    (h : gamestate.handle event = .ok (next, sent)) : next.WellFormed := by
  cases effect_of_handle h with
  | join _ fresh _ => exact hwf.addPlayer fresh _ _
  | leave => exact hwf.removePlayer _
  | queue => exact hwf.of_objects_isSome rfl fun _ hlive => hlive
  | skipLibrary _ _ => exact hwf
  | skipCustom _ => exact hwf
  | tick found =>
      have hupdate := updatePlayerPositions_eq_ok_iff.mpr ⟨found, rfl⟩
      exact (hwf.updatePlayerPositions hupdate).broadcastPlayerPositions

theorem WellFormed.run {start target : ServerGamestate} {events : List ServerEvent}
    (hwf : start.WellFormed) (h : run step start events = .ok target) : target.WellFormed :=
  run_invariant_of_step
    (fun _ _ _ hwf hstep =>
      let ⟨_, hhandle⟩ := step_eq_ok_iff.mp hstep
      hwf.handle hhandle) hwf h

end ServerGamestate

end LibBench.RakNet
