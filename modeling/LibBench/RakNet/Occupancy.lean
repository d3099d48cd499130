/-
# RakNet: one player per cell

The spawner looks for a cell that no connected player stands on. The update
loop does not look: it accepts any position that is one space away. So two
players that head for one free cell in the same tick both arrive there, each
move being fine in the view that its client had.

What keeps the players apart is therefore a condition on the updates: as long
as every accepted one leads to a cell that is free when the loop gets to it, by
the very test that the spawner makes, the players stand on different cells in
every state of every run.
-/

import LibBench.RakNet.World

namespace LibBench.RakNet

open LibBench.Math

namespace ServerGamestate

variable {gamestate next : ServerGamestate}

/-- Where the player of an address stands. -/
def cell (gamestate : ServerGamestate) (address : SystemAddress) : Option Position :=
  (gamestate.connectedPlayers[address]?).bind fun id => (gamestate.objects id).map Player.pos

/-- No two players of `connectedPlayers` stand on one cell. -/
def CellsDistinct (gamestate : ServerGamestate) : Prop :=
  ∀ first second pos, gamestate.cell first = some pos → gamestate.cell second = some pos →
    first = second

/-- An update that the loop accepts moves the player to a cell that nobody
occupies, or leaves it where it is. -/
def LeadsToFreeCell (gamestate : ServerGamestate) (update : NetworkID × Position) : Prop :=
  ∀ player ∈ gamestate.objects update.1,
    Position.movedMoreThanOneSpace update.2 player.pos = false →
      update.2 = player.pos ∨ gamestate.positionAlreadyOccupied update.2 = false

/-- At every point of the update loop the next update leads to a free cell. -/
def UpdatesLeadToFreeCells (gamestate : ServerGamestate) : Prop :=
  ∀ (applied : ℕ) (h : applied < gamestate.updatedPlayerPositions.length),
    (gamestate.midway (gamestate.updatedPlayerPositions.take applied)).LeadsToFreeCell
      gamestate.updatedPlayerPositions[applied]

instance (update : NetworkID × Position) : Decidable (gamestate.LeadsToFreeCell update) := by
  unfold LeadsToFreeCell
  infer_instance

instance : Decidable gamestate.UpdatesLeadToFreeCells := by
  unfold UpdatesLeadToFreeCells
  infer_instance

theorem cell_eq_some_iff {address : SystemAddress} {pos : Position} :
    gamestate.cell address = some pos ↔ ∃ id player,
      gamestate.connectedPlayers[address]? = some id ∧ gamestate.objects id = some player ∧
        player.pos = pos := by
  simp only [cell, Option.bind_eq_some_iff, Option.map_eq_some_iff]
  constructor
  · rintro ⟨id, hconnected, player, hplayer, hpos⟩
    exact ⟨id, player, hconnected, hplayer, hpos⟩
  · rintro ⟨id, player, hconnected, hplayer, hpos⟩
    exact ⟨id, hconnected, player, hplayer, hpos⟩

/-- The spawner's test says whether somebody stands on the cell. -/
theorem positionAlreadyOccupied_eq_false_iff {pos : Position} :
    gamestate.positionAlreadyOccupied pos = false ↔
      ∀ address, gamestate.cell address ≠ some pos := by
  rw [← Bool.not_eq_true, positionAlreadyOccupied_eq_true_iff]
  simp only [ne_eq, cell_eq_some_iff, not_exists]

/-- Entries that stay, of players that stay where they are, keep the cells
distinct. -/
theorem CellsDistinct.of_cell (h : gamestate.CellsDistinct)
    (hcell : ∀ address pos, next.cell address = some pos → gamestate.cell address = some pos) :
    next.CellsDistinct :=
  fun first second pos hfirst hsecond =>
    h first second pos (hcell first pos hfirst) (hcell second pos hsecond)

theorem CellsDistinct.addPlayer (hwf : gamestate.WellFormed) (h : gamestate.CellsDistinct)
    {networkID : NetworkID} {pos : Position} (hfresh : gamestate.objects networkID = none)
    (hfree : gamestate.positionAlreadyOccupied pos = false) (clientAddress : SystemAddress) :
    (gamestate.addPlayer clientAddress networkID pos).CellsDistinct := by
  rw [positionAlreadyOccupied_eq_false_iff] at hfree
  have hcell {address : SystemAddress} {there : Position}
      (hthere : (gamestate.addPlayer clientAddress networkID pos).cell address = some there) :
      gamestate.cell address = some there ∨ (address = clientAddress ∧ there = pos) := by
    obtain ⟨id, player, hconnected, hplayer, rfl⟩ := cell_eq_some_iff.mp hthere
    rw [addPlayer_objects] at hplayer
    rcases getElem?_of_addPlayer hconnected with hold | ⟨haddress, rfl⟩
    · rw [if_neg (hwf.ne_of_fresh hfresh hold)] at hplayer
      exact Or.inl (cell_eq_some_iff.mpr ⟨id, player, hold, hplayer, rfl⟩)
    · rw [if_pos rfl, Option.some.injEq] at hplayer
      exact Or.inr ⟨haddress, hplayer ▸ rfl⟩
  intro first second there hfirst hsecond
  rcases hcell hfirst with hold | ⟨haddress, hpos⟩ <;>
    rcases hcell hsecond with hold' | ⟨haddress', hpos'⟩
  · exact h first second there hold hold'
  · exact absurd (hpos' ▸ hold) (hfree first)
  · exact absurd (hpos ▸ hold') (hfree second)
  · exact haddress.trans haddress'.symm

theorem CellsDistinct.removePlayer (h : gamestate.CellsDistinct)
    (clientAddress : SystemAddress) : (gamestate.removePlayer clientAddress).CellsDistinct := by
  apply h.of_cell
  intro address pos hcell
  obtain ⟨id, player, hconnected, hplayer, hpos⟩ := cell_eq_some_iff.mp hcell
  rw [removePlayer_getElem?] at hconnected
  rw [removePlayer_objects] at hplayer
  split at hconnected
  · cases hconnected
  · split at hplayer
    · cases hplayer
    · exact cell_eq_some_iff.mpr ⟨id, player, hconnected, hplayer, hpos⟩

/-- One turn of the update loop, seen from the cells. -/
theorem cell_applyUpdate (update : NetworkID × Position) (address : SystemAddress) :
    (gamestate.midway [update]).cell address =
      if gamestate.connectedPlayers[address]? = some update.1 then
        (gamestate.cell address).map fun pos => stepTo Position.OneSpace pos update.2
      else gamestate.cell address := by
  unfold cell midway
  cases hconnected : gamestate.connectedPlayers[address]? with
  | none => simp
  | some id =>
      simp only [Option.bind_some, List.foldl_cons, List.foldl_nil, applyUpdate_apply,
        Option.some.injEq, eq_comm (a := id)]
      split
      · simp [Function.comp_def, Player.receiveUpdate_pos]
      · rfl

theorem CellsDistinct.applyUpdate (hwf : gamestate.WellFormed) (h : gamestate.CellsDistinct)
    {update : NetworkID × Position} (hfree : gamestate.LeadsToFreeCell update) :
    (gamestate.midway [update]).CellsDistinct := by
  -- the updated player meets nobody: it stayed, or its new cell was free
  have hmeet {mover other : SystemAddress} {pos : Position}
      (hmover : gamestate.connectedPlayers[mover]? = some update.1)
      (hpos : (gamestate.cell mover).map (fun pos => stepTo Position.OneSpace pos update.2) =
        some pos)
      (hother : gamestate.cell other = some pos) : mover = other := by
    obtain ⟨before, hbefore, rfl⟩ := Option.map_eq_some_iff.mp hpos
    obtain ⟨id, player, hid, hplayer, rfl⟩ := cell_eq_some_iff.mp hbefore
    obtain rfl := Option.some.inj (hmover.symm.trans hid)
    by_cases hnear : Position.OneSpace player.pos update.2
    · rw [stepTo_of_near hnear] at hother
      rcases hfree player hplayer (Position.movedMoreThanOneSpace_eq_false_iff.mpr hnear)
        with hstay | hunoccupied
      · exact h mover other _ hbefore (hstay ▸ hother)
      · exact absurd hother (positionAlreadyOccupied_eq_false_iff.mp hunoccupied other)
    · rw [stepTo_of_not_near hnear] at hother
      exact h mover other _ hbefore hother
  intro first second pos hfirst hsecond
  rw [cell_applyUpdate] at hfirst hsecond
  split at hfirst <;> split at hsecond
  · next hmover hmover' => exact hwf.distinct first second _ hmover hmover'
  · next hmover _ => exact hmeet hmover hfirst hsecond
  · next _ hmover => exact (hmeet hmover hsecond hfirst).symm
  · exact h first second pos hfirst hsecond

theorem midway_wellFormed (hwf : gamestate.WellFormed) (applied : List (NetworkID × Position)) :
    (gamestate.midway applied).WellFormed :=
  hwf.of_objects_isSome rfl fun id hlive => by
    rw [midway, foldl_applyUpdate_isSome]
    exact hlive

/-- Along the update loop, update by update. -/
theorem CellsDistinct.midway (hwf : gamestate.WellFormed) (h : gamestate.CellsDistinct)
    (hfree : gamestate.UpdatesLeadToFreeCells) (applied : ℕ) :
    (gamestate.midway (gamestate.updatedPlayerPositions.take applied)).CellsDistinct := by
  induction applied with
  | zero => exact h
  | succ applied ih =>
      by_cases hlt : applied < gamestate.updatedPlayerPositions.length
      · have hnext : gamestate.midway (gamestate.updatedPlayerPositions.take (applied + 1)) =
            (gamestate.midway (gamestate.updatedPlayerPositions.take applied)).midway
              [gamestate.updatedPlayerPositions[applied]] := by
          rw [ServerGamestate.midway, List.take_succ_eq_append_getElem hlt, List.foldl_append]
          rfl
        rw [hnext]
        exact ih.applyUpdate (midway_wellFormed hwf _) (hfree applied hlt)
      · rw [List.take_of_length_le (by omega)]
        rwa [List.take_of_length_le (by omega)] at ih

theorem cell_broadcastPlayerPositions (address : SystemAddress) :
    gamestate.broadcastPlayerPositions.1.cell address = gamestate.cell address := by
  unfold cell
  congr 1
  funext id
  rw [broadcastPlayerPositions_objects]
  split
  · simp [Function.comp_def]
  · rfl

/-- Every event keeps the players apart, but for a tick with an update to an
occupied cell. -/
theorem CellsDistinct.handle {event : ServerEvent} {sent : List Send}
    (hwf : gamestate.WellFormed) (h : gamestate.CellsDistinct)
    (hfree : event = .endTick → gamestate.UpdatesLeadToFreeCells)
    (hhandle : gamestate.handle event = .ok (next, sent)) : next.CellsDistinct := by
  cases effect_of_handle hhandle with
  | join found fresh _ => exact h.addPlayer hwf fresh (findSpawnPosition_free found) _
  | leave => exact h.removePlayer _
  | queue => exact h
  | skipLibrary _ _ => exact h
  | skipCustom _ => exact h
  | tick _ =>
      have hupdated := h.midway hwf (hfree rfl) gamestate.updatedPlayerPositions.length
      rw [List.take_length] at hupdated
      apply hupdated.of_cell
      intro address pos hcell
      rw [performTick, cell_broadcastPlayerPositions] at hcell
      exact hcell

end ServerGamestate

/-- The tick about to be made leads every player to a free cell. -/
def TickLeadsToFreeCells (world : World) (action : Action) : Prop :=
  action = .serverTick → world.server.UpdatesLeadToFreeCells

instance (world : World) (action : Action) : Decidable (TickLeadsToFreeCells world action) := by
  unfold TickLeadsToFreeCells
  infer_instance

theorem World.cellsDistinct_step {manager : NetworkIDManager} {world next : World}
    {action : Action} (hwf : world.server.WellFormed) (h : world.server.CellsDistinct)
    (hfree : TickLeadsToFreeCells world action)
    (hstep : world.step manager action = .ok next) : next.server.CellsDistinct := by
  cases action with
  | link address action =>
      obtain ⟨link, _, rfl⟩ := step_link_eq_ok hstep
      exact h
  | serverReceive address index admission =>
      obtain ⟨packet, server, sent, _, _, hhandle, rfl⟩ := step_serverReceive_eq_ok hstep
      exact h.handle hwf (fun heq => by cases heq) hhandle
  | serverTick =>
      obtain ⟨server, sent, hhandle, rfl⟩ := step_serverTick_eq_ok hstep
      exact h.handle hwf (fun _ => hfree rfl) hhandle

/-- In every run whose ticks lead the players to free cells, no two players
stand on one cell. -/
theorem World.cellsDistinct_run {manager : NetworkIDManager}
    {mapWidth mapHeight numPlayers : UInt16} {actions : List Action} {world : World}
    (hrun : run (step manager) (start mapWidth mapHeight numPlayers) actions = .ok world)
    (hfree : StepsMeet (step manager) TickLeadsToFreeCells
      (start mapWidth mapHeight numPlayers) actions) : world.server.CellsDistinct := by
  have hstart : (start mapWidth mapHeight numPlayers).server.WellFormed ∧
      (start mapWidth mapHeight numPlayers).server.CellsDistinct := by
    refine ⟨ServerGamestate.applyConfig_wellFormed _ _ _, fun first second pos hfirst => ?_⟩
    simp [ServerGamestate.cell, start, ServerGamestate.applyConfig] at hfirst
  have hpreserved (world : World) (action : Action) (next : World)
      (h : world.server.WellFormed ∧ world.server.CellsDistinct)
      (hguard : TickLeadsToFreeCells world action) (hstep : step manager world action = .ok next) :
      next.server.WellFormed ∧ next.server.CellsDistinct :=
    ⟨wellFormed_step h.1 hstep, cellsDistinct_step h.1 h.2 hguard hstep⟩
  exact (run_invariant hpreserved hstart hfree hrun).2

/-- Two players, two spaces apart, before either of them has moved. -/
def twoClientsInGame : List Action :=
  [.link 1 (.connect false), .serverReceive 1 0 ⟨7, [(0, 0)]⟩,
    .link 2 (.connect false), .serverReceive 2 0 ⟨8, [(2, 0)]⟩,
    .link 1 (.receive 0), .link 1 (.receive 0), .link 2 (.receive 0), .link 2 (.receive 0)]

/-- Only one of them moves to the cell between them. -/
theorem World.cellsDistinct_after_one_move :
    ∃ world, run (step firstRegistered) (start 10 10 2) (twoClientsInGame ++
        [.link 1 (.move [1]), .serverReceive 1 0 ⟨0, []⟩, .serverTick]) = .ok world ∧
      world.server.cell 1 = some ⟨1, 0⟩ ∧ world.server.CellsDistinct := by
  obtain ⟨world, hrun, hcell⟩ : ∃ world, run (step firstRegistered) (start 10 10 2)
      (twoClientsInGame ++ [.link 1 (.move [1]), .serverReceive 1 0 ⟨0, []⟩, .serverTick]) =
        .ok world ∧ world.server.cell 1 = some ⟨1, 0⟩ := by
    decide +kernel
  exact ⟨world, hrun, hcell, cellsDistinct_run hrun (by decide +kernel)⟩

/-- Both move there within one tick. -/
theorem World.two_players_meet_on_one_cell :
    ∃ world, run (step firstRegistered) (start 10 10 2) (twoClientsInGame ++
        [.link 1 (.move [1]), .link 2 (.move [1]), .serverReceive 1 0 ⟨0, []⟩,
          .serverReceive 2 0 ⟨0, []⟩, .serverTick]) = .ok world ∧
      ¬ world.server.CellsDistinct := by
  obtain ⟨world, hrun, hfirst, hsecond⟩ : ∃ world, run (step firstRegistered) (start 10 10 2)
      (twoClientsInGame ++ [.link 1 (.move [1]), .link 2 (.move [1]),
        .serverReceive 1 0 ⟨0, []⟩, .serverReceive 2 0 ⟨0, []⟩, .serverTick]) = .ok world ∧
      world.server.cell 1 = some ⟨1, 0⟩ ∧ world.server.cell 2 = some ⟨1, 0⟩ := by
    decide +kernel
  exact ⟨world, hrun, fun hdistinct => absurd (hdistinct 1 2 ⟨1, 0⟩ hfirst hsecond) (by decide)⟩

end LibBench.RakNet
