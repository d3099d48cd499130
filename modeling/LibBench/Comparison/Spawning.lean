/-
# Spawning on the first free cell

The RakNet and the Yojimbo server place a new player with the same loop: draw a
pair of random numbers, reduce it to a cell of the map, and draw again while a
connected player stands there. The loop looks at all of `connectedPlayers`, in
the map's order, but what it looks for does not depend on the order.

So the outcome is decided by the stream of the pairs: the new player goes to the
first of their cells that is free, and when none is, the loop never ends.
-/

import LibBench.Math.Redraw
import LibBench.RakNet.Occupancy
import LibBench.Yojimbo.Server

namespace LibBench

open LibBench.Math

/-- The cell of the map that a pair of random numbers is reduced to. -/
def drawnCell (mapWidth mapHeight : UInt16) (draw : ℕ × ℕ) : Position :=
  ⟨UInt16.ofNat (draw.1 % mapWidth.toNat), UInt16.ofNat (draw.2 % mapHeight.toNat)⟩

/-- What the spawn loop makes of one pair: its cell, if nobody stands on it. -/
def freeCell (mapWidth mapHeight : UInt16) (positionAlreadyOccupied : Position → Bool)
    (draw : ℕ × ℕ) : Option Position :=
  if positionAlreadyOccupied (drawnCell mapWidth mapHeight draw) then none
  else some (drawnCell mapWidth mapHeight draw)

section FreeCell

variable {mapWidth mapHeight : UInt16} {positionAlreadyOccupied : Position → Bool} {draw : ℕ × ℕ}

theorem freeCell_eq_some_iff {pos : Position} :
    freeCell mapWidth mapHeight positionAlreadyOccupied draw = some pos ↔
      positionAlreadyOccupied (drawnCell mapWidth mapHeight draw) = false ∧
        pos = drawnCell mapWidth mapHeight draw := by
  rw [freeCell]
  split
  · next h => simp [h]
  · next h => simp [h, eq_comm]

theorem freeCell_eq_none_iff :
    freeCell mapWidth mapHeight positionAlreadyOccupied draw = none ↔
      positionAlreadyOccupied (drawnCell mapWidth mapHeight draw) = true := by
  rw [freeCell]
  split
  · next h => simp [h]
  · next h => simp [h]

theorem freeCell_isSome_iff :
    (freeCell mapWidth mapHeight positionAlreadyOccupied draw).isSome ↔
      positionAlreadyOccupied (drawnCell mapWidth mapHeight draw) = false := by
  rw [freeCell]
  split
  · next h => simp [h]
  · next h => simp [h]

/-- A loop that takes free cells and goes on past the others is a search. -/
theorem toOption_eq_findSome?_freeCell {ε : Type*} {loop : List (ℕ × ℕ) → Except ε Position}
    {stop : ε} (hnil : loop [] = .error stop)
    (hcons : ∀ draw draws, loop (draw :: draws) =
      if positionAlreadyOccupied (drawnCell mapWidth mapHeight draw) then loop draws
      else .ok (drawnCell mapWidth mapHeight draw)) (draws : List (ℕ × ℕ)) :
    (loop draws).toOption =
      draws.findSome? (freeCell mapWidth mapHeight positionAlreadyOccupied) := by
  induction draws with
  | nil =>
      rw [hnil, List.findSome?_nil]
      rfl
  | cons draw draws ih =>
      rw [hcons, List.findSome?_cons]
      split
      · next hoccupied => rw [ih, freeCell_eq_none_iff.mpr hoccupied]
      · next hfree =>
          rw [freeCell_eq_some_iff.mpr ⟨Bool.eq_false_iff.mpr hfree, rfl⟩]
          rfl

end FreeCell

/-- A server's players, by the keys of its `connectedPlayers`: who is connected,
and on which cell they stand. -/
structure Board (σ κ : Type*) where
  connected : σ → κ → Prop
  cell : σ → κ → Option Position

namespace Board

variable {σ κ : Type*} (board : Board σ κ)

/-- No connected player stands on the cell. -/
def Free (state : σ) (pos : Position) : Prop := ∀ key, board.cell state key ≠ some pos

/-- No two connected players stand on one cell. -/
def CellsDistinct (state : σ) : Prop :=
  ∀ first second pos, board.cell state first = some pos → board.cell state second = some pos →
    first = second

/-- Spawning a player for a client on a stream of pairs. It ends when one of the
pairs gives a free cell. The client is then connected, nobody else joins or
leaves, and it stands on the first free cell, unless it was connected before: an
entry that is there is kept, and so are all the others. -/
structure SpawnsOnFirstFree (mapWidth mapHeight : UInt16) (state : σ) (client : κ)
    (spawn : List (ℕ × ℕ) → Option σ) (draws : ℕ → ℕ × ℕ) : Prop where
  ends_iff : (∃ created, EndsWith spawn draws created) ↔
    ∃ index, board.Free state (drawnCell mapWidth mapHeight (draws index))
  connected_iff : ∀ created, EndsWith spawn draws created → ∀ key,
    board.connected created key ↔ board.connected state key ∨ key = client
  onFirstFree : ∀ created, EndsWith spawn draws created → ∃ index,
    board.Free state (drawnCell mapWidth mapHeight (draws index)) ∧
    (∀ earlier < index, ¬ board.Free state (drawnCell mapWidth mapHeight (draws earlier))) ∧
    board.cell created client = some ((board.cell state client).getD
      (drawnCell mapWidth mapHeight (draws index)))
  othersStay : ∀ created, EndsWith spawn draws created → ∀ key ≠ client,
    board.cell created key = board.cell state key
  distinct : board.CellsDistinct state → ∀ created, EndsWith spawn draws created →
    board.CellsDistinct created

variable {board} {mapWidth mapHeight : UInt16} {state : σ} {client : κ}
  {spawn : List (ℕ × ℕ) → Option σ} {positionAlreadyOccupied : Position → Bool}
  {addPlayer : Position → σ}

/-- Distinct cells stay distinct when one more player is added on a free one. -/
theorem CellsDistinct.of_added (h : board.CellsDistinct state) {created : σ} {pos : Position}
    (hfree : board.Free state pos)
    (hclient : board.cell created client = some ((board.cell state client).getD pos))
    (hothers : ∀ key ≠ client, board.cell created key = board.cell state key) :
    board.CellsDistinct created := by
  -- a cell of the new state is an old one, or the added player's
  have hcell {key : κ} {there : Position} (hthere : board.cell created key = some there) :
      board.cell state key = some there ∨ (key = client ∧ there = pos) := by
    by_cases hkey : key = client
    · subst hkey
      rw [hclient, Option.some.injEq] at hthere
      cases hold : board.cell state key with
      | none =>
          rw [hold, Option.getD_none] at hthere
          exact Or.inr ⟨rfl, hthere.symm⟩
      | some old =>
          rw [hold, Option.getD_some] at hthere
          exact Or.inl (hthere ▸ rfl)
    · exact Or.inl (hothers key hkey ▸ hthere)
  intro first second there hfirst hsecond
  rcases hcell hfirst with hold | ⟨rfl, hpos⟩ <;> rcases hcell hsecond with hold' | ⟨rfl, hpos'⟩
  · exact h first second there hold hold'
  · exact absurd (hpos' ▸ hold) (hfree first)
  · exact absurd (hpos ▸ hold') (hfree second)
  · rfl

/-- A program that searches its draws for a free cell and adds the player there
spawns on the first free cell. -/
theorem spawnsOnFirstFree
    (hspawn : ∀ read, spawn read =
      (read.findSome? (freeCell mapWidth mapHeight positionAlreadyOccupied)).map addPlayer)
    (hoccupied : ∀ pos, positionAlreadyOccupied pos = false ↔ board.Free state pos)
    (hconnected : ∀ pos key,
      board.connected (addPlayer pos) key ↔ board.connected state key ∨ key = client)
    (hclient : ∀ pos, board.cell (addPlayer pos) client =
      some ((board.cell state client).getD pos))
    (hothers : ∀ pos, ∀ key ≠ client, board.cell (addPlayer pos) key = board.cell state key)
    (draws : ℕ → ℕ × ℕ) :
    board.SpawnsOnFirstFree mapWidth mapHeight state client spawn draws := by
  have hends_iff (created : σ) : EndsWith spawn draws created ↔
      ∃ pos, EndsWith (List.findSome? (freeCell mapWidth mapHeight positionAlreadyOccupied))
        draws pos ∧ addPlayer pos = created := by
    rw [show spawn = _ from funext hspawn]
    exact endsWith_map_iff
  have hcreated {created : σ} (hends : EndsWith spawn draws created) :
      ∃ index, board.Free state (drawnCell mapWidth mapHeight (draws index)) ∧
        (∀ earlier < index,
          ¬ board.Free state (drawnCell mapWidth mapHeight (draws earlier))) ∧
        created = addPlayer (drawnCell mapWidth mapHeight (draws index)) := by
    obtain ⟨pos, hfound, rfl⟩ := (hends_iff created).mp hends
    obtain ⟨index, hyield, hearlier⟩ := endsWith_findSome?_iff.mp hfound
    obtain ⟨hfree, rfl⟩ := freeCell_eq_some_iff.mp hyield
    refine ⟨index, (hoccupied _).mp hfree, fun earlier hlt hfreeEarlier => ?_, rfl⟩
    have htaken := freeCell_eq_none_iff.mp (hearlier earlier hlt)
    rw [(hoccupied _).mpr hfreeEarlier] at htaken
    cases htaken
  constructor
  case ends_iff =>
    simp only [hends_iff, ← hoccupied, ← freeCell_isSome_iff]
    rw [← exists_endsWith_findSome?_iff]
    constructor
    · rintro ⟨created, pos, hfound, _⟩
      exact ⟨pos, hfound⟩
    · rintro ⟨pos, hfound⟩
      exact ⟨addPlayer pos, pos, hfound, rfl⟩
  case connected_iff =>
    intro created hends key
    obtain ⟨index, _, _, rfl⟩ := hcreated hends
    exact hconnected _ key
  case onFirstFree =>
    intro created hends
    obtain ⟨index, hfree, hearlier, rfl⟩ := hcreated hends
    exact ⟨index, hfree, hearlier, hclient _⟩
  case othersStay =>
    intro created hends key hkey
    obtain ⟨index, _, _, rfl⟩ := hcreated hends
    exact hothers _ key hkey
  case distinct =>
    intro hdistinct created hends
    obtain ⟨index, hfree, _, rfl⟩ := hcreated hends
    exact hdistinct.of_added hfree (hclient _) (hothers _)

end Board

/-- The RakNet server. -/
def rakNetServer : Board RakNet.ServerGamestate RakNet.SystemAddress where
  connected gamestate address := address ∈ gamestate.connectedPlayers
  cell := RakNet.ServerGamestate.cell

/-- The Yojimbo server. -/
def yojimboServer : Board Yojimbo.ServerGameState Yojimbo.ClientID where
  connected gameState clientIndex := clientIndex ∈ gameState.connectedPlayers
  cell gameState clientIndex :=
    (gameState.connectedPlayers[clientIndex]?).map Yojimbo.Player.pos

/-- `CreateAndSpawnNewPlayerForClient` of the RakNet server, by the pairs it has
drawn. The manager gives the new object the id. -/
def spawnRakNet (gamestate : RakNet.ServerGamestate) (clientAddress : RakNet.SystemAddress)
    (networkID : RakNet.NetworkID) (draws : List (ℕ × ℕ)) : Option RakNet.ServerGamestate :=
  (gamestate.createAndSpawnNewPlayerForClient clientAddress ⟨networkID, draws⟩).toOption

/-- `CreateAndSpawnNewPlayerForClient` of the Yojimbo server. -/
def spawnYojimbo (gameState : Yojimbo.ServerGameState) (gameConfig : Yojimbo.GameConfig)
    (clientIndex : Yojimbo.ClientID) (draws : List (ℕ × ℕ)) : Option Yojimbo.ServerGameState :=
  (gameState.createAndSpawnNewPlayerForClient gameConfig clientIndex draws).toOption

namespace RakNet.ServerGamestate

variable {gamestate : ServerGamestate} {clientAddress : SystemAddress} {networkID : NetworkID}

/-- Adding a player gives its address a cell, unless it has one. -/
theorem cell_addPlayer (hwf : gamestate.WellFormed) (hfresh : gamestate.objects networkID = none)
    (pos : Position) (address : SystemAddress) :
    (gamestate.addPlayer clientAddress networkID pos).cell address =
      if address = clientAddress then some ((gamestate.cell clientAddress).getD pos)
      else gamestate.cell address := by
  have hobject {address : SystemAddress} {id : NetworkID}
      (h : gamestate.connectedPlayers[address]? = some id) :
      (gamestate.addPlayer clientAddress networkID pos).objects id = gamestate.objects id := by
    rw [addPlayer_objects, if_neg (hwf.ne_of_fresh hfresh h)]
  rw [cell, addPlayer_getElem?]
  split
  · cases hconnected : gamestate.connectedPlayers[clientAddress]? with
    | none => simp [cell, hconnected, addPlayer_objects]
    | some id =>
        obtain ⟨player, hplayer⟩ :=
          Option.isSome_iff_exists.mp (hwf.live clientAddress id hconnected)
        simp [cell, hconnected, hobject hconnected, hplayer]
  · cases hconnected : gamestate.connectedPlayers[address]? with
    | none => simp [cell, hconnected]
    | some id => simp [cell, hconnected, hobject hconnected]

theorem toOption_findSpawnPosition (hwidth : gamestate.mapWidth ≠ 0)
    (hheight : gamestate.mapHeight ≠ 0) (draws : List (ℕ × ℕ)) :
    (gamestate.findSpawnPosition draws).toOption = draws.findSome?
      (freeCell gamestate.mapWidth gamestate.mapHeight gamestate.positionAlreadyOccupied) := by
  have hnil : gamestate.findSpawnPosition [] = .error .drawsExhausted := rfl
  apply toOption_eq_findSome?_freeCell hnil
  intro draw draws
  rw [findSpawnPosition, if_neg (not_or.mpr ⟨hwidth, hheight⟩)]
  rfl

/-- With an id that the manager may assign, the spawn loop is all there is. -/
theorem spawnRakNet_eq (hwidth : gamestate.mapWidth ≠ 0) (hheight : gamestate.mapHeight ≠ 0)
    (hfresh : gamestate.objects networkID = none) (hassigned : networkID ≠ unassignedNetworkID)
    (clientAddress : SystemAddress) (read : List (ℕ × ℕ)) :
    spawnRakNet gamestate clientAddress networkID read =
      (read.findSome? (freeCell gamestate.mapWidth gamestate.mapHeight
        gamestate.positionAlreadyOccupied)).map
          (gamestate.addPlayer clientAddress networkID) := by
  have hadmitted : ¬ ((gamestate.objects networkID).isSome = true ∨
      networkID = unassignedNetworkID) := by
    simp [hfresh, hassigned]
  rw [← toOption_findSpawnPosition hwidth hheight, spawnRakNet, createAndSpawnNewPlayerForClient]
  cases gamestate.findSpawnPosition read with
  | error stop => rfl
  | ok randomPos =>
      dsimp only
      rw [if_neg hadmitted]
      rfl

theorem spawnsOnFirstFree (hwf : gamestate.WellFormed) (hwidth : gamestate.mapWidth ≠ 0)
    (hheight : gamestate.mapHeight ≠ 0) (hfresh : gamestate.objects networkID = none)
    (hassigned : networkID ≠ unassignedNetworkID) (clientAddress : SystemAddress)
    (draws : ℕ → ℕ × ℕ) :
    rakNetServer.SpawnsOnFirstFree gamestate.mapWidth gamestate.mapHeight gamestate clientAddress
      (spawnRakNet gamestate clientAddress networkID) draws := by
  apply Board.spawnsOnFirstFree (spawnRakNet_eq hwidth hheight hfresh hassigned clientAddress)
  · exact fun pos => positionAlreadyOccupied_eq_false_iff
  · intro pos address
    show address ∈ gamestate.connectedPlayers.insertIfNew clientAddress networkID ↔ _
    rw [Std.TreeMap.mem_insertIfNew, or_comm, Std.LawfulEqCmp.compare_eq_iff_eq, eq_comm]
    rfl
  · exact fun pos => (cell_addPlayer hwf hfresh pos clientAddress).trans (if_pos rfl)
  · exact fun pos address hne => (cell_addPlayer hwf hfresh pos address).trans (if_neg hne)

end RakNet.ServerGamestate

namespace Yojimbo.ServerGameState

variable {gameState : ServerGameState} {gameConfig : GameConfig} {clientIndex : ClientID}

theorem positionAlreadyOccupied_eq_false_iff {pos : Position} :
    gameState.positionAlreadyOccupied pos = false ↔ yojimboServer.Free gameState pos := by
  simp only [positionAlreadyOccupied, List.any_eq_false, Prod.forall,
    Std.TreeMap.mem_toList_iff_getElem?_eq_some, beq_iff_eq, Board.Free, yojimboServer, ne_eq,
    Option.map_eq_some_iff, not_exists, not_and]

theorem toOption_findSpawnPosition (hwidth : gameConfig.mapWidth ≠ 0)
    (hheight : gameConfig.mapHeight ≠ 0) (draws : List (ℕ × ℕ)) :
    (gameState.findSpawnPosition gameConfig draws).toOption = draws.findSome?
      (freeCell gameConfig.mapWidth gameConfig.mapHeight gameState.positionAlreadyOccupied) := by
  have hnil : gameState.findSpawnPosition gameConfig [] = .error .drawsExhausted := rfl
  apply toOption_eq_findSome?_freeCell hnil
  intro draw draws
  rw [findSpawnPosition, if_neg (not_or.mpr ⟨hwidth, hheight⟩)]
  rfl

theorem spawnYojimbo_eq (hwidth : gameConfig.mapWidth ≠ 0) (hheight : gameConfig.mapHeight ≠ 0)
    (clientIndex : ClientID) (read : List (ℕ × ℕ)) :
    spawnYojimbo gameState gameConfig clientIndex read =
      (read.findSome? (freeCell gameConfig.mapWidth gameConfig.mapHeight
        gameState.positionAlreadyOccupied)).map (gameState.addPlayer clientIndex) := by
  rw [← toOption_findSpawnPosition hwidth hheight, spawnYojimbo, createAndSpawnNewPlayerForClient]
  cases gameState.findSpawnPosition gameConfig read <;> rfl

theorem spawnsOnFirstFree (hwidth : gameConfig.mapWidth ≠ 0) (hheight : gameConfig.mapHeight ≠ 0)
    (clientIndex : ClientID) (draws : ℕ → ℕ × ℕ) :
    yojimboServer.SpawnsOnFirstFree gameConfig.mapWidth gameConfig.mapHeight gameState clientIndex
      (spawnYojimbo gameState gameConfig clientIndex) draws := by
  apply Board.spawnsOnFirstFree (spawnYojimbo_eq hwidth hheight clientIndex)
  · exact fun pos => positionAlreadyOccupied_eq_false_iff
  · intro pos other
    show other ∈ gameState.connectedPlayers.insertIfNew clientIndex ⟨pos⟩ ↔ _
    rw [Std.TreeMap.mem_insertIfNew, or_comm, Std.LawfulEqCmp.compare_eq_iff_eq, eq_comm]
    rfl
  · intro pos
    show ((gameState.addPlayer clientIndex pos).connectedPlayers[clientIndex]?).map Player.pos = _
    rw [addPlayer_getElem?, if_pos rfl]
    cases h : gameState.connectedPlayers[clientIndex]? <;> simp [yojimboServer, h]
  · intro pos other hne
    show ((gameState.addPlayer clientIndex pos).connectedPlayers[other]?).map Player.pos = _
    rw [addPlayer_getElem?, if_neg hne]
    rfl

end Yojimbo.ServerGameState

/-- Both servers spawn a player on the first cell drawn that is free. -/
theorem spawning_takes_first_free_cell (draws : ℕ → ℕ × ℕ) :
    (∀ (gamestate : RakNet.ServerGamestate) (clientAddress : RakNet.SystemAddress)
        (networkID : RakNet.NetworkID), gamestate.WellFormed →
      gamestate.mapWidth ≠ 0 → gamestate.mapHeight ≠ 0 → gamestate.objects networkID = none →
      networkID ≠ RakNet.unassignedNetworkID →
        rakNetServer.SpawnsOnFirstFree gamestate.mapWidth gamestate.mapHeight gamestate
          clientAddress (spawnRakNet gamestate clientAddress networkID) draws) ∧
    (∀ (gameState : Yojimbo.ServerGameState) (gameConfig : Yojimbo.GameConfig)
        (clientIndex : Yojimbo.ClientID), gameConfig.mapWidth ≠ 0 → gameConfig.mapHeight ≠ 0 →
      yojimboServer.SpawnsOnFirstFree gameConfig.mapWidth gameConfig.mapHeight gameState
        clientIndex (spawnYojimbo gameState gameConfig clientIndex) draws) := by
  constructor
  · intro gamestate clientAddress networkID hwf hwidth hheight hfresh hassigned
    exact RakNet.ServerGamestate.spawnsOnFirstFree hwf hwidth hheight hfresh hassigned
      clientAddress draws
  · intro gameState gameConfig clientIndex hwidth hheight
    exact Yojimbo.ServerGameState.spawnsOnFirstFree hwidth hheight clientIndex draws

/-- A RakNet server with one player, on the map's first cell. -/
def onePlayer : RakNet.ServerGamestate :=
  (RakNet.ServerGamestate.applyConfig 10 10 2).addPlayer 1 7 ⟨0, 0⟩

/-- The first two pairs give that cell, the third gives the next one. -/
theorem spawning_beside_one_player :
    EndsWith (spawnRakNet onePlayer 2 8) (fun turn => (turn / 2, 0))
        (onePlayer.addPlayer 2 8 ⟨1, 0⟩) ∧
      (onePlayer.addPlayer 2 8 ⟨1, 0⟩).cell 1 = onePlayer.cell 1 := by
  have hends : EndsWith (spawnRakNet onePlayer 2 8) (fun turn => (turn / 2, 0))
      (onePlayer.addPlayer 2 8 ⟨1, 0⟩) := ⟨3, rfl⟩
  have hwf : onePlayer.WellFormed :=
    (RakNet.ServerGamestate.applyConfig_wellFormed 10 10 2).addPlayer rfl 1 ⟨0, 0⟩
  have hspawn := (spawning_takes_first_free_cell fun turn => (turn / 2, 0)).1 onePlayer 2 8 hwf
    (by decide) (by decide) rfl (by decide)
  exact ⟨hends, hspawn.othersStay _ hends 1 (by decide)⟩

end LibBench
