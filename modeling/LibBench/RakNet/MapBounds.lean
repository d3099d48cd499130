/-
# RakNet: where the server lets a player go

The server spawns a player on a cell of the map and then accepts every update
that is not more than one space away from where the player is. It does not look
at the map again: the width and the height are there for the spawner and for the
clients, which choose their moves by them.

So what the server does guarantee about a position is how it came about. The
player was spawned on a cell of the map, and from there it has followed the
positions that were offered for it, each of them that was one space away and no
other; it is on the map when those are.
-/

import LibBench.RakNet.Server

namespace LibBench.RakNet

open LibBench.Math

/-- A cell of the map, as the spawner draws them. -/
def InMap (mapWidth mapHeight : UInt16) (pos : Position) : Prop :=
  pos.x < mapWidth ∧ pos.y < mapHeight

instance (mapWidth mapHeight : UInt16) (pos : Position) :
    Decidable (InMap mapWidth mapHeight pos) :=
  inferInstanceAs (Decidable (_ ∧ _))

/-- The position update that a packet carries, whoever sent it. -/
def ServerEvent.offer : ServerEvent → Option (NetworkID × Position)
  | .receive _ (.custom (.playerMove move)) _ => some (move.playerID, move.newPos)
  | _ => none

/-- The positions that packets have offered for a player, in the order received. -/
def offersTo (id : NetworkID) (events : List ServerEvent) : List Position :=
  ownUpdates id (events.filterMap ServerEvent.offer)

theorem offersTo_append (id : NetworkID) (first second : List ServerEvent) :
    offersTo id (first ++ second) = offersTo id first ++ offersTo id second := by
  rw [offersTo, List.filterMap_append, ownUpdates_append, offersTo, offersTo]

theorem offersTo_singleton_of_none {event : ServerEvent} (h : event.offer = none)
    (id : NetworkID) : offersTo id [event] = [] := by
  rw [offersTo, List.filterMap_cons_none h]
  rfl

/-- What a walk over the offers leads to holds of the start or of an offer. -/
theorem inMap_foldl_stepTo {mapWidth mapHeight : UInt16} {spawn : Position}
    {offers : List Position} (hspawn : InMap mapWidth mapHeight spawn)
    (hoffers : ∀ offered ∈ offers, InMap mapWidth mapHeight offered) :
    InMap mapWidth mapHeight (offers.foldl (stepTo Position.OneSpace) spawn) := by
  obtain ⟨path, hsub, hpath⟩ := exists_leadsTo_foldl_stepTo Position.OneSpace spawn offers
  obtain heq | hmem := hpath.mem
  · rwa [heq]
  · exact hoffers _ (hsub.subset hmem)

namespace ServerGamestate

/-- The spawner finds cells of the map. -/
theorem findSpawnPosition_inMap {gamestate : ServerGamestate} {draws : List (ℕ × ℕ)}
    {pos : Position} (h : gamestate.findSpawnPosition draws = .ok pos) :
    InMap gamestate.mapWidth gamestate.mapHeight pos := by
  induction draws with
  | nil => cases h
  | cons draw draws ih =>
      rw [findSpawnPosition] at h
      split at h
      · cases h
      · next hmap =>
          rw [not_or] at hmap
          dsimp only at h
          split at h
          · exact ih h
          · obtain rfl := Except.ok.inj h
            exact ⟨ofNat_mod_lt draw.1 hmap.1, ofNat_mod_lt draw.2 hmap.2⟩

variable {start gamestate next : ServerGamestate} {mapWidth mapHeight : UInt16}
  {events : List ServerEvent} {event : ServerEvent} {address : SystemAddress} {id : NetworkID}
  {spawn : Position} {offers : List Position}

/-- The size of the map is the one of the config. -/
theorem mapSize_of_run (hrun : run ServerGamestate.step start events = .ok gamestate) :
    gamestate.mapWidth = start.mapWidth ∧ gamestate.mapHeight = start.mapHeight := by
  have hkept : ∀ (before : ServerGamestate) (event : ServerEvent) (after : ServerGamestate),
      before.mapWidth = start.mapWidth ∧ before.mapHeight = start.mapHeight →
        before.step event = .ok after →
          after.mapWidth = start.mapWidth ∧ after.mapHeight = start.mapHeight := by
    intro before event after hsize hstep
    cases effect_of_step hstep with
    | join _ _ _ | queue | skipLibrary _ _ | skipCustom _ | tick _ => exact hsize
    | leave =>
        rw [removePlayer]
        split <;> exact hsize
  exact run_invariant_of_step hkept ⟨rfl, rfl⟩ hrun

/-- How the player of an entry has come into the game: by the connection of its address
with which the entry began and has lasted to the end of these events. The cell is the one
that was drawn for the player. The offers are the positions that were queued for its id,
and those that have been received since. -/
def EnteredAt (start : ServerGamestate) (events : List ServerEvent) (address : SystemAddress)
    (id : NetworkID) (spawn : Position) (offers : List Position) : Prop :=
  ∃ before admission after joined,
    events = before ++ .receive address (.library .newIncomingConnection) admission :: after ∧
    run ServerGamestate.step start before = .ok joined ∧
    admission.networkID = id ∧ joined.findSpawnPosition admission.draws = .ok spawn ∧
    offers = ownUpdates id joined.updatedPlayerPositions ++ offersTo id after ∧
    ∀ later state, later <+: after →
      run ServerGamestate.step start
          (before ++ .receive address (.library .newIncomingConnection) admission :: later) =
        .ok state →
      state.connectedPlayers[address]? = some id

/-- A player that has just been added. -/
theorem enteredAt_join {admission : Admission}
    (hrun : run ServerGamestate.step start events = .ok gamestate)
    (hfound : gamestate.findSpawnPosition admission.draws = .ok spawn)
    (hjoin : run ServerGamestate.step start
      (events ++ [.receive address (.library .newIncomingConnection) admission]) = .ok next)
    (hconnected : next.connectedPlayers[address]? = some admission.networkID) :
    EnteredAt start (events ++ [.receive address (.library .newIncomingConnection) admission])
      address admission.networkID spawn
      (ownUpdates admission.networkID gamestate.updatedPlayerPositions) := by
  refine ⟨events, admission, [], gamestate, rfl, hrun, rfl, hfound, (List.append_nil _).symm,
    fun later state hlater hstate => ?_⟩
  obtain rfl := List.prefix_nil.mp hlater
  obtain rfl := Except.ok.inj (hjoin.symm.trans hstate)
  exact hconnected

/-- One more event, after which the entry is still there. -/
theorem EnteredAt.concat (h : EnteredAt start events address id spawn offers)
    (hrun : run ServerGamestate.step start (events ++ [event]) = .ok next)
    (hconnected : next.connectedPlayers[address]? = some id) :
    EnteredAt start (events ++ [event]) address id spawn (offers ++ offersTo id [event]) := by
  obtain ⟨before, admission, after, joined, rfl, hjoined, hid, hfound, rfl, hlasting⟩ := h
  refine ⟨before, admission, after ++ [event], joined, by simp, hjoined, hid, hfound,
    by rw [offersTo_append, List.append_assoc], fun later state hlater hstate => ?_⟩
  obtain rfl | hbefore := List.prefix_concat_iff.mp hlater
  · rw [List.append_assoc, List.cons_append, hstate] at hrun
    rw [Except.ok.inj hrun]
    exact hconnected
  · exact hlasting later state hbefore hstate

/-- The player stands where its offers have led it from the cell on which it was spawned,
all but those that are still queued: an offer that is at most one space away is accepted,
and any other leaves the player where it is. -/
def LedFromSpawn (start : ServerGamestate) (events : List ServerEvent)
    (gamestate : ServerGamestate) (address : SystemAddress) (id : NetworkID) (player : Player) :
    Prop :=
  ∃ spawn applied,
    EnteredAt start events address id spawn
      (applied ++ ownUpdates id gamestate.updatedPlayerPositions) ∧
    player.pos = applied.foldl (stepTo Position.OneSpace) spawn

/-- An event that neither concerns the player nor applies what is queued. -/
theorem LedFromSpawn.concat {player : Player}
    (h : LedFromSpawn start events gamestate address id player)
    (hrun : run ServerGamestate.step start (events ++ [event]) = .ok next)
    (hconnected : next.connectedPlayers[address]? = some id)
    (hqueue : ownUpdates id next.updatedPlayerPositions =
      ownUpdates id gamestate.updatedPlayerPositions ++ offersTo id [event]) :
    LedFromSpawn start (events ++ [event]) next address id player := by
  obtain ⟨spawn, applied, hentered, hpos⟩ := h
  refine ⟨spawn, applied, ?_, hpos⟩
  rw [hqueue, ← List.append_assoc]
  exact hentered.concat hrun hconnected

/-- The end of a tick applies what is queued. -/
theorem LedFromSpawn.performTick {player : Player}
    (h : LedFromSpawn start events gamestate address id player)
    (hrun : run ServerGamestate.step start (events ++ [.endTick]) = .ok gamestate.performTick)
    (hconnected : gamestate.connectedPlayers[address]? = some id)
    (hplayer : gamestate.objects id = some player) :
    ∃ moved, gamestate.performTick.objects id = some moved ∧
      LedFromSpawn start (events ++ [.endTick]) gamestate.performTick address id moved := by
  obtain ⟨spawn, applied, hentered, hpos⟩ := h
  have hafter := hentered.concat hrun hconnected
  rw [offersTo_singleton_of_none rfl, List.append_nil] at hafter
  rw [performTick_objects, hplayer, Option.map_some]
  refine ⟨_, rfl, spawn, applied ++ ownUpdates id gamestate.updatedPlayerPositions, ?_, ?_⟩
  · exact (List.append_nil _).symm ▸ hafter
  · rw [List.foldl_append, ← hpos, ← Player.foldl_receiveUpdate_pos]
    split <;> rfl

/-- Every entry has a player that its offers have led from where it was spawned. -/
theorem exists_ledFromSpawn (hwf : start.WellFormed)
    (hempty : ∀ address : SystemAddress, start.connectedPlayers[address]? = none)
    (hrun : run ServerGamestate.step start events = .ok gamestate)
    (hconnected : gamestate.connectedPlayers[address]? = some id) :
    ∃ player, gamestate.objects id = some player ∧
      LedFromSpawn start events gamestate address id player := by
  let invariant (events : List ServerEvent) (gamestate : ServerGamestate) : Prop :=
    run ServerGamestate.step start events = .ok gamestate ∧
      ∀ (address : SystemAddress) (id : NetworkID),
        gamestate.connectedPlayers[address]? = some id →
          ∃ player, gamestate.objects id = some player ∧
            LedFromSpawn start events gamestate address id player
  have hstart : invariant [] start := ⟨rfl, fun address id hentry => by
    rw [hempty address] at hentry
    cases hentry⟩
  refine (run_history invariant hstart (fun events event gamestate next _ hbefore hled hstep => ?_)
    hrun).2 address id hconnected
  have hafter : run ServerGamestate.step start (events ++ [event]) = .ok next :=
    run_concat_eq_ok.mpr ⟨gamestate, hbefore, hstep⟩
  have hbeforeWf := hwf.run hbefore
  refine ⟨hafter, fun address id hentry => ?_⟩
  -- an event that leaves the player and its entry as they were
  have hkeep (hold : gamestate.connectedPlayers[address]? = some id)
      (hobjects : next.objects id = gamestate.objects id)
      (hqueue : ownUpdates id next.updatedPlayerPositions =
        ownUpdates id gamestate.updatedPlayerPositions ++ offersTo id [event]) :
      ∃ player, next.objects id = some player ∧
        LedFromSpawn start (events ++ [event]) next address id player := by
    obtain ⟨player, hplayer, hplayerLed⟩ := hled.2 address id hold
    exact ⟨player, hobjects.trans hplayer, hplayerLed.concat hafter hentry hqueue⟩
  cases effect_of_step hstep with
  | join found fresh assigned =>
      obtain hold | ⟨rfl, rfl⟩ := getElem?_of_addPlayer hentry
      · have hne := hbeforeWf.ne_of_fresh fresh hold
        refine hkeep hold ?_ ?_
        · rw [addPlayer_objects, if_neg hne]
        · rw [offersTo_singleton_of_none rfl, List.append_nil]
          rfl
      · refine ⟨_, by rw [addPlayer_objects, if_pos rfl], _, [], ?_, rfl⟩
        have hentered := enteredAt_join hbefore found hafter hentry
        exact hentered
  | @leave leaving admission =>
      rw [removePlayer_getElem?] at hentry
      split at hentry
      · cases hentry
      · next hne =>
          refine hkeep hentry ?_ ?_
          · rw [removePlayer_objects, if_neg]
            exact fun hid => hne (hbeforeWf.distinct address leaving id hentry hid)
          · rw [removePlayer_updatedPlayerPositions, offersTo_singleton_of_none rfl,
              List.append_nil]
  | @queue sender admission move =>
      exact hkeep hentry rfl (ownUpdates_append _ _ _)
  | skipLibrary _ _ =>
      refine hkeep hentry rfl ?_
      rw [offersTo_singleton_of_none rfl, List.append_nil]
  | @skipCustom _ _ message hmove =>
      refine hkeep hentry rfl ?_
      rw [offersTo_singleton_of_none, List.append_nil]
      cases message with
      | playerMove move => exact absurd rfl (hmove move)
      | gameConfig | playerSpawn | playerJoin | playerLeave | playerPosition => rfl
  | tick found =>
      obtain ⟨player, hplayer, hplayerLed⟩ := hled.2 address id hentry
      exact hplayerLed.performTick hafter hentry hplayer

/-- What is queued for a player has been offered. -/
theorem queue_subset_offersTo (hempty : start.updatedPlayerPositions = [])
    (hrun : run ServerGamestate.step start events = .ok gamestate) :
    ownUpdates id gamestate.updatedPlayerPositions ⊆ offersTo id events := by
  let invariant (events : List ServerEvent) (gamestate : ServerGamestate) : Prop :=
    ownUpdates id gamestate.updatedPlayerPositions ⊆ offersTo id events
  have hstart : invariant [] start := by
    simp [invariant, hempty]
  refine run_history invariant hstart (fun events event gamestate next _ _ hsubset hstep => ?_) hrun
  have hmore : offersTo id events ⊆ offersTo id (events ++ [event]) := by
    rw [offersTo_append]
    exact List.subset_append_left _ _
  cases effect_of_step hstep with
  | join _ _ _ | skipLibrary _ _ | skipCustom _ => exact List.Subset.trans hsubset hmore
  | leave =>
      change ownUpdates id (removePlayer _ _).updatedPlayerPositions ⊆ _
      rw [removePlayer_updatedPlayerPositions]
      exact List.Subset.trans hsubset hmore
  | queue =>
      change ownUpdates id (_ ++ _) ⊆ _
      rw [ownUpdates_append, offersTo_append]
      exact List.append_subset.mpr ⟨List.Subset.trans hsubset (List.subset_append_left _ _),
        List.subset_append_right _ _⟩
  | tick _ => exact List.nil_subset _

/-- The offers of a player have all been received. -/
theorem EnteredAt.subset (h : EnteredAt start events address id spawn offers)
    (hempty : start.updatedPlayerPositions = []) : offers ⊆ offersTo id events := by
  obtain ⟨before, admission, after, joined, rfl, hjoined, _, _, rfl, _⟩ := h
  have hqueue : ownUpdates id joined.updatedPlayerPositions ⊆ offersTo id before :=
    queue_subset_offersTo hempty hjoined
  rw [offersTo_append, ← List.singleton_append, offersTo_append]
  exact List.append_subset.mpr ⟨List.Subset.trans hqueue (List.subset_append_left _ _),
    List.Subset.trans (List.subset_append_right _ _) (List.subset_append_right _ _)⟩

/-- **What the server guarantees.** In every state of every run, each entry of
`connectedPlayers` has a player that was spawned on a cell of the map when its address
connected, and that stands where the positions offered for it since then have led it, those
not yet applied left out: it has accepted each of them that was at most one space from where
it stood, and no other. So it is on the map when all positions offered for it are. -/
theorem connectedPlayers_ledFromSpawn {numPlayers : UInt16}
    (hrun : run ServerGamestate.step (applyConfig mapWidth mapHeight numPlayers) events =
      .ok gamestate) (address : SystemAddress) (id : NetworkID)
    (hconnected : gamestate.connectedPlayers[address]? = some id) :
    ∃ player spawn applied, gamestate.objects id = some player ∧
      InMap mapWidth mapHeight spawn ∧
      EnteredAt (applyConfig mapWidth mapHeight numPlayers) events address id spawn
        (applied ++ ownUpdates id gamestate.updatedPlayerPositions) ∧
      player.pos = applied.foldl (stepTo Position.OneSpace) spawn ∧
      ((∀ offered ∈ offersTo id events, InMap mapWidth mapHeight offered) →
        InMap mapWidth mapHeight player.pos) := by
  obtain ⟨player, hplayer, spawn, applied, hentered, hpos⟩ := exists_ledFromSpawn
    (applyConfig_wellFormed mapWidth mapHeight numPlayers) (fun _ => rfl) hrun hconnected
  have hspawn : InMap mapWidth mapHeight spawn := by
    obtain ⟨_, _, _, joined, _, hjoined, _, hfound, _⟩ := hentered
    obtain ⟨hwidth, hheight⟩ := mapSize_of_run hjoined
    have hinMap := findSpawnPosition_inMap hfound
    rwa [hwidth, hheight] at hinMap
  refine ⟨player, spawn, applied, hplayer, hspawn, hentered, hpos, fun hoffers => ?_⟩
  rw [hpos]
  exact inMap_foldl_stepTo hspawn fun offered hmem =>
    hoffers offered (hentered.subset rfl (List.mem_append_left _ hmem))

/-- A player that is offered two single steps, and a longer one between them. -/
def twoSteps : List ServerEvent :=
  [.receive 1 (.library .newIncomingConnection) ⟨7, [(3, 4)]⟩,
    .receive 1 (.custom (.playerMove ⟨7, ⟨4, 4⟩⟩)) ⟨0, []⟩,
    .receive 2 (.custom (.playerMove ⟨7, ⟨9, 9⟩⟩)) ⟨0, []⟩, .endTick,
    .receive 1 (.custom (.playerMove ⟨7, ⟨5, 5⟩⟩)) ⟨0, []⟩, .endTick]

theorem twoSteps_ledFromSpawn :
    ∃ gamestate player spawn applied,
      run ServerGamestate.step (applyConfig 100 100 2) twoSteps = .ok gamestate ∧
      gamestate.objects 7 = some player ∧ player.pos = ⟨5, 5⟩ ∧ InMap 100 100 spawn ∧
      EnteredAt (applyConfig 100 100 2) twoSteps 1 7 spawn
        (applied ++ ownUpdates 7 gamestate.updatedPlayerPositions) ∧
      player.pos = applied.foldl (stepTo Position.OneSpace) spawn ∧
      ((∀ offered ∈ offersTo 7 twoSteps, InMap 100 100 offered) → InMap 100 100 player.pos) := by
  have hrun : run ServerGamestate.step (applyConfig 100 100 2) twoSteps = .ok _ := rfl
  obtain ⟨player, spawn, applied, hplayer, hled⟩ := connectedPlayers_ledFromSpawn hrun 1 7 rfl
  have hpos : player.pos = ⟨5, 5⟩ := by
    obtain rfl : _ = player := Option.some.inj hplayer
    rfl
  obtain ⟨hspawn, hentered, hfold, hinMap⟩ := hled
  exact ⟨_, player, spawn, applied, hrun, hplayer, hpos, hspawn, hentered, hfold, hinMap⟩

/-- A player on the last column is let through to the column after it. -/
theorem accepted_move_leaves_map :
    ∃ gamestate player, run ServerGamestate.step (applyConfig 100 100 2)
        [.receive 1 (.library .newIncomingConnection) ⟨7, [(99, 0)]⟩,
          .receive 1 (.custom (.playerMove ⟨7, ⟨100, 0⟩⟩)) ⟨0, []⟩, .endTick] = .ok gamestate ∧
      gamestate.connectedPlayers[(1 : SystemAddress)]? = some 7 ∧
      gamestate.objects 7 = some player ∧ ¬ InMap 100 100 player.pos :=
  ⟨_, _, rfl, rfl, rfl, by decide⟩

end ServerGamestate

end LibBench.RakNet
