/-
# The update loops of the RakNet and the Yojimbo server

Both servers decline an update that is more than one space away from the
position the player has, and both take that for a limit on how far a player
moves in a tick. But the position that an update is compared with is the one
that the update before it has just set. What a tick does to a player is a walk
along that player's own updates, and the limit holds exactly when the walk ends
within one space of its start.
-/

import LibBench.RakNet.World
import LibBench.Yojimbo.World

namespace LibBench

open LibBench.Math

instance : Std.Refl Position.OneSpace := ⟨Position.OneSpace.refl⟩

/-- Every player has moved along the positions queued under its own key: in
queue order, the player takes a position if and only if it is at most one space
away on both axes. A player that nothing is queued for stays where it is. -/
def FollowsOwnUpdates {κ : Type*} [DecidableEq κ] (queue : List (κ × Position))
    (before after : κ → Option Position) : Prop :=
  ∀ key, after key = (before key).map fun pos =>
    (ownUpdates key queue).foldl (stepTo Position.OneSpace) pos

/-- Two queues that differ in how the updates of different players interleave. -/
def SameOwnOrder {κ : Type*} [DecidableEq κ] (first second : List (κ × Position)) : Prop :=
  ∀ key, ownUpdates key first = ownUpdates key second

namespace RakNet.ServerGamestate

variable {gamestate updated : ServerGamestate}

/-- Where the player with an id stands. -/
def positions (gamestate : ServerGamestate) (id : NetworkID) : Option Position :=
  (gamestate.objects id).map Player.pos

/-- Every queued id is that of a connected player. -/
def QueueConnected (gamestate : ServerGamestate) : Prop :=
  ∀ update ∈ gamestate.updatedPlayerPositions,
    ∃ address : SystemAddress, gamestate.connectedPlayers[address]? = some update.1

/-- What a call of `UpdatePlayerPositions` does to the players, and that it
leaves the map's entries alone and the queue empty. -/
structure Applies (gamestate updated : ServerGamestate) : Prop where
  follows : FollowsOwnUpdates gamestate.updatedPlayerPositions gamestate.positions
    updated.positions
  connectedPlayers : updated.connectedPlayers = gamestate.connectedPlayers
  queue : updated.updatedPlayerPositions = []

theorem applies_of_eq_ok (h : gamestate.updatePlayerPositions = .ok updated) :
    gamestate.Applies updated := by
  obtain ⟨_, rfl⟩ := updatePlayerPositions_eq_ok_iff.mp h
  refine ⟨fun id => ?_, rfl, rfl⟩
  simp only [positions, foldl_applyUpdate_apply, Option.map_map]
  congr 1
  funext player
  exact Player.foldl_receiveUpdate_pos player _

/-- With connected players only, the loop returns. -/
theorem exists_updatePlayerPositions_eq_ok (hwf : gamestate.WellFormed)
    (hqueue : gamestate.QueueConnected) :
    ∃ updated, gamestate.updatePlayerPositions = .ok updated := by
  refine ⟨_, updatePlayerPositions_eq_ok_iff.mpr ⟨fun update hupdate => ?_, rfl⟩⟩
  obtain ⟨address, hconnected⟩ := hqueue update hupdate
  exact hwf.live address update.1 hconnected

/-- The loop depends on the queue only through each player's own updates. -/
theorem updatePlayerPositions_of_sameOwnOrder {queue : List (NetworkID × Position)}
    (hsame : SameOwnOrder queue gamestate.updatedPlayerPositions)
    (h : gamestate.updatePlayerPositions = .ok updated) :
    { gamestate with updatedPlayerPositions := queue }.updatePlayerPositions = .ok updated := by
  obtain ⟨hlive, rfl⟩ := updatePlayerPositions_eq_ok_iff.mp h
  refine updatePlayerPositions_eq_ok_iff.mpr ⟨fun update hupdate => ?_, ?_⟩
  · have hown : update.2 ∈ ownUpdates update.1 gamestate.updatedPlayerPositions := by
      rw [← hsame update.1]
      exact mem_ownUpdates.mpr hupdate
    exact hlive update (mem_ownUpdates.mp hown)
  · have hobjects := foldl_applyUpdate_congr Player.receiveUpdate gamestate.objects hsame
    simp only [hobjects]

end RakNet.ServerGamestate

namespace Yojimbo.ServerGameState

variable {gameState : ServerGameState}

/-- Where the player of a slot stands. -/
def positions (gameState : ServerGameState) (clientIndex : ClientID) : Option Position :=
  (gameState.connectedPlayers[clientIndex]?).map Player.pos

/-- The same of the Yojimbo loop. Entries are neither added nor removed. -/
structure Applies (gameState updated : ServerGameState) : Prop where
  follows : FollowsOwnUpdates gameState.updatedPlayerPositions gameState.positions
    updated.positions
  connectedPlayers : ∀ clientIndex : ClientID,
    (updated.connectedPlayers[clientIndex]?).isSome =
      (gameState.connectedPlayers[clientIndex]?).isSome
  queue : updated.updatedPlayerPositions = []

theorem applies_updatePlayerPositions (gameState : ServerGameState) :
    gameState.Applies gameState.updatePlayerPositions := by
  refine ⟨fun clientIndex => ?_, updatePlayerPositions_isSome gameState, rfl⟩
  simp only [positions, updatePlayerPositions, foldl_updateEntry_getElem?, Option.map_map]
  congr 1
  funext player
  exact Player.foldl_receiveUpdate_pos player _

/-- The loop depends on the queue only through the own updates of the players
it finds. -/
theorem updatePlayerPositions_getElem?_congr {queue : List (ClientID × Position)}
    (hsame : ∀ clientIndex : ClientID, (gameState.connectedPlayers[clientIndex]?).isSome →
      ownUpdates clientIndex queue = ownUpdates clientIndex gameState.updatedPlayerPositions)
    (clientIndex : ClientID) :
    ({ gameState with
        updatedPlayerPositions := queue }.updatePlayerPositions).connectedPlayers[clientIndex]? =
      gameState.updatePlayerPositions.connectedPlayers[clientIndex]? := by
  simp only [updatePlayerPositions, foldl_updateEntry_getElem?]
  cases hplayer : gameState.connectedPlayers[clientIndex]? with
  | none => rfl
  | some player => rw [hsame clientIndex (by rw [hplayer]; rfl)]

/-- The updates of the queue that find a player. -/
def connectedUpdates (gameState : ServerGameState) : List (ClientID × Position) :=
  gameState.updatedPlayerPositions.filter fun update =>
    (gameState.connectedPlayers[update.1]?).isSome

end Yojimbo.ServerGameState

/-- The two servers hold the same game: the RakNet server knows the player of a
slot under a network id of its own, at the same position, has no other connected
player, and has the same updates in its queue. -/
structure SameGame (name : Yojimbo.ClientID → RakNet.NetworkID)
    (gamestate : RakNet.ServerGamestate) (gameState : Yojimbo.ServerGameState) : Prop where
  injective : Function.Injective name
  positions : ∀ clientIndex, gamestate.positions (name clientIndex) =
    gameState.positions clientIndex
  connected : ∀ id, (∃ address : RakNet.SystemAddress,
      gamestate.connectedPlayers[address]? = some id) ↔
    ∃ clientIndex : Yojimbo.ClientID, id = name clientIndex ∧
      (gameState.connectedPlayers[clientIndex]?).isSome
  queue : gamestate.updatedPlayerPositions =
    gameState.updatedPlayerPositions.map (Prod.map name id)

namespace RakNet.ServerGamestate

/-- One call of `UpdatePlayerPositions`, if it returns, moves each connected
player by at most one space. -/
def KeepsSpeedLimit (gamestate : ServerGamestate) : Prop :=
  ∀ updated, gamestate.updatePlayerPositions = .ok updated →
    ∀ (address : SystemAddress) (id : NetworkID) (before after : Player),
      gamestate.connectedPlayers[address]? = some id → gamestate.objects id = some before →
        updated.objects id = some after → before.pos.OneSpace after.pos

theorem keepsSpeedLimit_iff {gamestate : ServerGamestate} :
    gamestate.KeepsSpeedLimit ↔
      ((∀ update ∈ gamestate.updatedPlayerPositions,
          (gamestate.objects update.1).isSome) →
        ∀ (address : SystemAddress) (id : NetworkID) (player : Player),
          gamestate.connectedPlayers[address]? = some id → gamestate.objects id = some player →
            HopsStayNear Position.OneSpace player.pos
              (ownUpdates id gamestate.updatedPlayerPositions)) := by
  simp only [KeepsSpeedLimit, updatePlayerPositions_eq_ok_iff, hopsStayNear_iff]
  constructor
  · intro h hlive address id player hconnected hplayer
    rw [← Player.foldl_receiveUpdate_pos]
    refine h _ ⟨hlive, rfl⟩ address id player _ hconnected hplayer ?_
    exact (foldl_applyUpdate_apply _ _ _ _).trans (by rw [hplayer, Option.map_some])
  · rintro h updated ⟨hlive, rfl⟩ address id before after hconnected hbefore hafter
    have hwalk := (foldl_applyUpdate_apply _ _ _ _).symm.trans hafter
    rw [hbefore, Option.map_some, Option.some.injEq] at hwalk
    rw [← hwalk, Player.foldl_receiveUpdate_pos]
    exact h hlive address id before hconnected hbefore

end RakNet.ServerGamestate

namespace Yojimbo.ServerGameState

/-- One call of `UpdatePlayerPositions` moves each player by at most one
space. -/
def KeepsSpeedLimit (gameState : ServerGameState) : Prop :=
  ∀ (clientIndex : ClientID) (before after : Player),
    gameState.connectedPlayers[clientIndex]? = some before →
      gameState.updatePlayerPositions.connectedPlayers[clientIndex]? = some after →
        before.pos.OneSpace after.pos

theorem keepsSpeedLimit_iff {gameState : ServerGameState} :
    gameState.KeepsSpeedLimit ↔
      ∀ (clientIndex : ClientID) (player : Player),
        gameState.connectedPlayers[clientIndex]? = some player →
          HopsStayNear Position.OneSpace player.pos
            (ownUpdates clientIndex gameState.updatedPlayerPositions) := by
  simp only [KeepsSpeedLimit, updatePlayerPositions, foldl_updateEntry_getElem?, hopsStayNear_iff]
  constructor
  · intro h clientIndex player hplayer
    rw [← Player.foldl_receiveUpdate_pos]
    exact h clientIndex player _ hplayer (by rw [hplayer, Option.map_some])
  · intro h clientIndex before after hbefore hafter
    rw [hbefore, Option.map_some, Option.some.injEq] at hafter
    rw [← hafter, Player.foldl_receiveUpdate_pos]
    exact h clientIndex before hbefore

end Yojimbo.ServerGameState

/-- In the same game, the same queue leads both servers to the same game. -/
theorem SameGame.updatePlayerPositions {name : Yojimbo.ClientID → RakNet.NetworkID}
    {gamestate updated : RakNet.ServerGamestate} {gameState : Yojimbo.ServerGameState}
    (hsame : SameGame name gamestate gameState)
    (h : gamestate.updatePlayerPositions = .ok updated) :
    SameGame name updated gameState.updatePlayerPositions := by
  have hrakNet := RakNet.ServerGamestate.applies_of_eq_ok h
  have hyojimbo := gameState.applies_updatePlayerPositions
  have hown (clientIndex : Yojimbo.ClientID) :
      ownUpdates (name clientIndex) gamestate.updatedPlayerPositions =
        ownUpdates clientIndex gameState.updatedPlayerPositions := by
    rw [hsame.queue, ownUpdates_map hsame.injective]
  refine ⟨hsame.injective, fun clientIndex => ?_, fun id => ?_, ?_⟩
  · rw [hrakNet.follows, hyojimbo.follows, hown, hsame.positions]
  · simp only [hrakNet.connectedPlayers, hyojimbo.connectedPlayers]
    exact hsame.connected id
  · rw [hrakNet.queue, hyojimbo.queue, List.map_nil]

/-- The two update loops follow one rule. For any connected players and any
queue about them, the RakNet loop returns; each player moves along its own
updates, so that only their order among themselves matters; no entry is added or
removed, and the queue ends empty. The same holds of the Yojimbo loop for any
queue at all: updates that find no player are as good as not there. Two servers
that hold the same game hold the same game afterwards. -/
theorem update_loops_agree :
    (∀ gamestate : RakNet.ServerGamestate, gamestate.WellFormed → gamestate.QueueConnected →
      ∃ updated, gamestate.updatePlayerPositions = .ok updated ∧ gamestate.Applies updated ∧
        ∀ queue, SameOwnOrder queue gamestate.updatedPlayerPositions →
          { gamestate with updatedPlayerPositions := queue }.updatePlayerPositions =
            .ok updated) ∧
    (∀ gameState : Yojimbo.ServerGameState,
      gameState.Applies gameState.updatePlayerPositions ∧
        (∀ queue, SameOwnOrder queue gameState.updatedPlayerPositions ∨
            queue = gameState.connectedUpdates → ∀ clientIndex : Yojimbo.ClientID,
          ({ gameState with
            updatedPlayerPositions := queue
            }.updatePlayerPositions).connectedPlayers[clientIndex]? =
              gameState.updatePlayerPositions.connectedPlayers[clientIndex]?)) ∧
    (∀ name gamestate gameState, SameGame name gamestate gameState →
      ∀ updated, gamestate.updatePlayerPositions = .ok updated →
        SameGame name updated gameState.updatePlayerPositions) := by
  refine ⟨fun gamestate hwf hqueue => ?_, fun gameState => ?_, ?_⟩
  · obtain ⟨updated, hupdated⟩ :=
      RakNet.ServerGamestate.exists_updatePlayerPositions_eq_ok hwf hqueue
    exact ⟨updated, hupdated, RakNet.ServerGamestate.applies_of_eq_ok hupdated, fun _ hsame =>
      RakNet.ServerGamestate.updatePlayerPositions_of_sameOwnOrder hsame hupdated⟩
  · refine ⟨gameState.applies_updatePlayerPositions, ?_⟩
    rintro queue (hsame | rfl)
    · exact Yojimbo.ServerGameState.updatePlayerPositions_getElem?_congr fun slot _ => hsame slot
    · refine Yojimbo.ServerGameState.updatePlayerPositions_getElem?_congr fun slot hslot => ?_
      exact ownUpdates_filter (fun slot => (gameState.connectedPlayers[slot]?).isSome) hslot _
  · exact fun name gamestate gameState hsame updated hupdated =>
      hsame.updatePlayerPositions hupdated

/-- Two players of a RakNet server. Of the three updates of the first one the
second is refused, and the other player's update is between them. -/
def rakNetTwoPlayers : RakNet.ServerGamestate :=
  { ((RakNet.ServerGamestate.applyConfig 10 10 2).addPlayer 20 0 ⟨0, 0⟩).addPlayer 10 1 ⟨5, 5⟩ with
    updatedPlayerPositions := [(0, ⟨1, 0⟩), (1, ⟨5, 6⟩), (0, ⟨3, 0⟩), (0, ⟨2, 1⟩)] }

/-- The same game on a Yojimbo server. -/
def yojimboTwoPlayers : Yojimbo.ServerGameState :=
  { (Yojimbo.ServerGameState.addPlayer ⟨⟨10, 10, 2⟩, [], ∅⟩ 0 ⟨0, 0⟩).addPlayer 1 ⟨5, 5⟩ with
    updatedPlayerPositions := [(0, ⟨1, 0⟩), (1, ⟨5, 6⟩), (0, ⟨3, 0⟩), (0, ⟨2, 1⟩)] }

theorem wellFormed_rakNetTwoPlayers : rakNetTwoPlayers.WellFormed := by
  have hstart := RakNet.ServerGamestate.applyConfig_wellFormed 10 10 2
  have hfresh (id : RakNet.NetworkID) :
      (RakNet.ServerGamestate.applyConfig 10 10 2).objects id = none := rfl
  have hfirst := hstart.addPlayer (hfresh 0) 20 ⟨0, 0⟩
  exact (hfirst.addPlayer rfl 10 ⟨5, 5⟩).of_objects_isSome rfl fun _ hlive => hlive

theorem rakNetTwoPlayers_getElem? (address : RakNet.SystemAddress) :
    rakNetTwoPlayers.connectedPlayers[address]? =
      if address = 10 then some 1 else if address = 20 then some 0 else none := by
  simp [rakNetTwoPlayers, RakNet.ServerGamestate.addPlayer_getElem?,
    RakNet.ServerGamestate.applyConfig]

theorem yojimboTwoPlayers_getElem? (clientIndex : Yojimbo.ClientID) :
    yojimboTwoPlayers.connectedPlayers[clientIndex]? =
      if clientIndex = 1 then some ⟨⟨5, 5⟩⟩
      else if clientIndex = 0 then some ⟨⟨0, 0⟩⟩ else none := by
  simp [yojimboTwoPlayers, Yojimbo.ServerGameState.addPlayer_getElem?]

theorem sameGame_twoPlayers :
    SameGame UInt8.toUInt64 rakNetTwoPlayers yojimboTwoPlayers where
  injective _ _ h := UInt8.toUInt64_inj.mp h
  positions clientIndex := by
    rw [Yojimbo.ServerGameState.positions, yojimboTwoPlayers_getElem?]
    have hone : clientIndex.toUInt64 = 1 ↔ clientIndex = 1 := UInt8.toUInt64_inj (b := 1)
    have hzero : clientIndex.toUInt64 = 0 ↔ clientIndex = 0 := UInt8.toUInt64_inj (b := 0)
    simp only [RakNet.ServerGamestate.positions, rakNetTwoPlayers,
      RakNet.ServerGamestate.addPlayer_objects, hone, hzero]
    split
    · rfl
    · split <;> rfl
  connected id := by
    simp only [rakNetTwoPlayers_getElem?, yojimboTwoPlayers_getElem?]
    constructor
    · rintro ⟨address, hconnected⟩
      split at hconnected
      · exact ⟨1, (Option.some.inj hconnected).symm, rfl⟩
      · split at hconnected
        · exact ⟨0, (Option.some.inj hconnected).symm, rfl⟩
        · cases hconnected
    · rintro ⟨clientIndex, rfl, hconnected⟩
      split at hconnected
      · next heq => exact ⟨10, by rw [heq]; rfl⟩
      · split at hconnected
        · next heq => exact ⟨20, by rw [heq]; rfl⟩
        · cases hconnected
  queue := rfl

/-- Both loops return the same game, in which the first player has made two of
its three steps. -/
theorem update_loops_agree_of_two_players :
    ∃ updated, rakNetTwoPlayers.updatePlayerPositions = .ok updated ∧
      rakNetTwoPlayers.Applies updated ∧
      yojimboTwoPlayers.Applies yojimboTwoPlayers.updatePlayerPositions ∧
      SameGame UInt8.toUInt64 updated yojimboTwoPlayers.updatePlayerPositions ∧
      updated.positions 0 = some ⟨2, 1⟩ := by
  have hqueue : rakNetTwoPlayers.QueueConnected := by
    simp only [RakNet.ServerGamestate.QueueConnected, rakNetTwoPlayers_getElem?]
    intro update hupdate
    simp only [rakNetTwoPlayers, List.mem_cons, List.not_mem_nil, or_false] at hupdate
    rcases hupdate with rfl | rfl | rfl | rfl
    · exact ⟨20, rfl⟩
    · exact ⟨10, rfl⟩
    · exact ⟨20, rfl⟩
    · exact ⟨20, rfl⟩
  obtain ⟨hrakNet, hyojimbo, hboth⟩ := update_loops_agree
  obtain ⟨updated, hupdated, happlies, _⟩ :=
    hrakNet rakNetTwoPlayers wellFormed_rakNetTwoPlayers hqueue
  refine ⟨updated, hupdated, happlies, (hyojimbo yojimboTwoPlayers).1,
    hboth _ _ _ sameGame_twoPlayers updated hupdated, ?_⟩
  rw [happlies.follows]
  rfl

/-- The coordinates are compared as integers: the two ends of an axis are not
next to each other. -/
example : [⟨65535, 0⟩, ⟨0, 1⟩, ⟨0, 65535⟩].foldl (stepTo Position.OneSpace) ⟨0, 0⟩ = ⟨0, 1⟩ := by
  decide

/-- Each server keeps the speed limit in a tick if and only if no player's own
updates lead, hop by hop, to a cell more than one space from its start. For the
RakNet server this is about queues in which every id finds a player; another
queue faults. -/
theorem servers_keep_speed_limit_iff (gamestate : RakNet.ServerGamestate)
    (gameState : Yojimbo.ServerGameState) :
    (gamestate.KeepsSpeedLimit ↔
      ((∀ update ∈ gamestate.updatedPlayerPositions, (gamestate.objects update.1).isSome) →
        ∀ (address : RakNet.SystemAddress) (id : RakNet.NetworkID) (player : RakNet.Player),
          gamestate.connectedPlayers[address]? = some id → gamestate.objects id = some player →
            HopsStayNear Position.OneSpace player.pos
              (ownUpdates id gamestate.updatedPlayerPositions))) ∧
    (gameState.KeepsSpeedLimit ↔
      ∀ (clientIndex : Yojimbo.ClientID) (player : Yojimbo.Player),
        gameState.connectedPlayers[clientIndex]? = some player →
          HopsStayNear Position.OneSpace player.pos
            (ownUpdates clientIndex gameState.updatedPlayerPositions)) :=
  ⟨RakNet.ServerGamestate.keepsSpeedLimit_iff, Yojimbo.ServerGameState.keepsSpeedLimit_iff⟩

/-- A tick with at most one update for each player keeps the limit. -/
theorem servers_keep_speed_limit_of_one_update :
    (∀ gamestate : RakNet.ServerGamestate,
      (∀ id, (ownUpdates id gamestate.updatedPlayerPositions).length ≤ 1) →
        gamestate.KeepsSpeedLimit) ∧
    (∀ gameState : Yojimbo.ServerGameState,
      (∀ id, (ownUpdates id gameState.updatedPlayerPositions).length ≤ 1) →
        gameState.KeepsSpeedLimit) := by
  constructor
  · intro gamestate hone
    apply RakNet.ServerGamestate.keepsSpeedLimit_iff.mpr
    intro _ _ id _ _ _
    exact hopsStayNear_of_length_le_one (hone id)
  · intro gameState hone
    apply Yojimbo.ServerGameState.keepsSpeedLimit_iff.mpr
    intro clientIndex _ _
    exact hopsStayNear_of_length_le_one (hone clientIndex)

/-- A RakNet client that moves to the right and to the right again before the
server's tick. -/
def rakNetTwoMoves : List RakNet.Action :=
  [.link 1 (.connect false), .serverReceive 1 0 ⟨7, [(0, 0)]⟩,
    .link 1 (.receive 0), .link 1 (.receive 0),
    .link 1 (.move [1]), .link 1 .endTurn, .link 1 (.move [2]),
    .serverReceive 1 0 ⟨0, []⟩, .serverReceive 1 0 ⟨0, []⟩]

/-- A Yojimbo client that does the same. -/
def yojimboTwoMoves : List Yojimbo.Action :=
  [.handleNewClients fun _ => []] ++
    Yojimbo.serverIteration [.connectionResponse { clientId := 0xAB00 }] (fun _ => [(0, 0)]) ++
    Yojimbo.serverIteration [] (fun _ => []) ++
    [.peer 0 (.iterate [0, 0] [1]), .peer 0 (.iterate [] [2])] ++
    Yojimbo.serverIteration [] (fun _ => []) ++
    [.receiveMessage 0 0, .receiveMessage 0 0]

/-- Both updates pass the test, and the player ends two spaces from where it
was at the start of the tick. -/
theorem two_moves_in_one_tick :
    (∃ world,
      run (RakNet.World.step RakNet.firstRegistered) (RakNet.World.start 100 100 2)
        rakNetTwoMoves = .ok world ∧ ¬ world.server.KeepsSpeedLimit) ∧
    (∃ world,
      run Yojimbo.World.step (Yojimbo.World.start {} ⟨0, 0, 0⟩) yojimboTwoMoves = .ok world ∧
        ¬ world.gameState.KeepsSpeedLimit) := by
  constructor
  · obtain ⟨world, hrun, hqueue, hconnected, hplayer⟩ : ∃ world,
        run (RakNet.World.step RakNet.firstRegistered) (RakNet.World.start 100 100 2)
          rakNetTwoMoves = .ok world ∧
        world.server.updatedPlayerPositions = [(7, ⟨1, 0⟩), (7, ⟨2, 0⟩)] ∧
        world.server.connectedPlayers[(1 : RakNet.SystemAddress)]? = some 7 ∧
        world.server.objects 7 = some { pos := ⟨0, 0⟩ } := by
      decide +kernel
    refine ⟨world, hrun, fun hlimit => ?_⟩
    have hnear := RakNet.ServerGamestate.keepsSpeedLimit_iff.mp hlimit
      (by simp [hqueue, hplayer]) 1 7 _ hconnected hplayer
    rw [hopsStayNear_iff, hqueue] at hnear
    exact absurd hnear (by decide)
  · obtain ⟨world, hrun, hqueue, hplayer⟩ : ∃ world,
        run Yojimbo.World.step (Yojimbo.World.start {} ⟨0, 0, 0⟩) yojimboTwoMoves = .ok world ∧
        world.gameState.updatedPlayerPositions = [(0, ⟨1, 0⟩), (0, ⟨2, 0⟩)] ∧
        world.gameState.connectedPlayers[(0 : Yojimbo.ClientID)]? = some ⟨⟨0, 0⟩⟩ := by
      decide +kernel
    refine ⟨world, hrun, fun hlimit => ?_⟩
    have hnear := Yojimbo.ServerGameState.keepsSpeedLimit_iff.mp hlimit 0 _ hplayer
    rw [hopsStayNear_iff, hqueue] at hnear
    exact absurd hnear (by decide)

end LibBench
