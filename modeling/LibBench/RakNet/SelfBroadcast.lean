/-
# RakNet: a player hears of itself when it was rejected

A position is broadcast to everybody but the player it is about, who knows it
already. When the server declines one of the player's updates, the two no longer
agree, so the update loop raises a flag and the broadcast at the end of the tick
includes the player.

The flag is raised in one loop and cleared in another. It says what it should
because it is down at the beginning of every tick: the broadcast visits every
entry of `connectedPlayers`, and a new entry's object is a new one.
-/

import Mathlib.Data.List.Nodup
import LibBench.RakNet.Server

namespace LibBench.RakNet

open LibBench.Math

namespace ServerGamestate

variable {gamestate next : ServerGamestate} {sent : List Send} {id : NetworkID} {player : Player}

/-- The update loop, in this state, declines the update. -/
def Declines (gamestate : ServerGamestate) (update : NetworkID × Position) : Prop :=
  ∃ player, gamestate.objects update.1 = some player ∧
    Position.movedMoreThanOneSpace update.2 player.pos = true

/-- At some point of the update loop a queued update of the player is
declined. -/
def DeclinesSome (gamestate : ServerGamestate) (id : NetworkID) : Prop :=
  ∃ applied offered rest, gamestate.updatedPlayerPositions = applied ++ (id, offered) :: rest ∧
    (gamestate.midway applied).Declines (id, offered)

theorem midway_append (gamestate : ServerGamestate) (first second : List (NetworkID × Position)) :
    gamestate.midway (first ++ second) = (gamestate.midway first).midway second := by
  rw [midway, List.foldl_append]
  rfl

/-- One turn of the loop raises the flag when it declines the player's update, and
otherwise leaves the flag as it is. -/
theorem midway_singleton_flag {moved : Player} (update : NetworkID × Position)
    (hplayer : gamestate.objects id = some player)
    (hmoved : (gamestate.midway [update]).objects id = some moved) :
    moved.broadcastLocationToSelf = true ↔
      player.broadcastLocationToSelf = true ∨ (update.1 = id ∧ gamestate.Declines update) := by
  rw [midway_objects, hplayer, Option.map_some, Option.some.injEq, ownUpdates_cons] at hmoved
  by_cases hid : update.1 = id
  · subst hid
    rw [if_pos rfl, ownUpdates_nil, List.foldl_cons, List.foldl_nil, Player.receiveUpdate] at hmoved
    have hdeclines : gamestate.Declines update ↔
        Position.movedMoreThanOneSpace update.2 player.pos = true := by
      simp [Declines, hplayer]
    rw [hdeclines]
    split at hmoved
    · next hfar =>
        subst hmoved
        simp [hfar]
    · next hnear =>
        subst hmoved
        simp [hnear]
  · rw [if_neg hid, ownUpdates_nil, List.foldl_nil] at hmoved
    subst hmoved
    simp [hid]

/-- Over a whole queue, the flag is raised by the declined updates of the player
and by nothing else. The induction is on the queue from its end. -/
theorem midway_flag {moved : Player} (hplayer : gamestate.objects id = some player)
    (queue : List (NetworkID × Position))
    (hmoved : (gamestate.midway queue).objects id = some moved) :
    moved.broadcastLocationToSelf = true ↔
      player.broadcastLocationToSelf = true ∨ ∃ applied offered rest,
        queue = applied ++ (id, offered) :: rest ∧
          (gamestate.midway applied).Declines (id, offered) := by
  induction queue using List.reverseRecOn generalizing moved with
  | nil =>
      rw [midway, List.foldl_nil, hplayer, Option.some.injEq] at hmoved
      subst hmoved
      simp
  | append_singleton queue update ih =>
      rw [midway_append] at hmoved
      obtain ⟨before, hbefore⟩ : ∃ before, (gamestate.midway queue).objects id = some before := by
        rw [midway_objects, hplayer]
        exact ⟨_, rfl⟩
      rw [midway_singleton_flag update hbefore hmoved, ih hbefore, or_assoc]
      apply or_congr_right
      constructor
      · rintro (⟨applied, offered, rest, rfl, hdeclines⟩ | ⟨rfl, hdeclines⟩)
        · exact ⟨applied, offered, rest ++ [update], by simp, hdeclines⟩
        · exact ⟨queue, update.2, [], rfl, hdeclines⟩
      · rintro ⟨applied, offered, rest, hqueue, hdeclines⟩
        rcases rest.eq_nil_or_concat with rfl | ⟨rest, last, rfl⟩
        · obtain ⟨rfl, hlast⟩ := List.append_inj' hqueue rfl
          obtain rfl := List.singleton_inj.mp hlast
          exact Or.inr ⟨rfl, hdeclines⟩
        · rw [List.concat_eq_append, ← List.cons_append, ← List.append_assoc] at hqueue
          obtain ⟨rfl, _⟩ := List.append_inj' hqueue rfl
          exact Or.inl ⟨applied, offered, rest, rfl, hdeclines⟩

/-- No connected player is flagged. -/
def FlagsDown (gamestate : ServerGamestate) : Prop :=
  ∀ (address : SystemAddress) (id : NetworkID) (player : Player),
    gamestate.connectedPlayers[address]? = some id → gamestate.objects id = some player →
      player.broadcastLocationToSelf = false

/-- No object is flagged, connected or not. -/
def AllFlagsDown (gamestate : ServerGamestate) : Prop :=
  ∀ (id : NetworkID) (player : Player), gamestate.objects id = some player →
    player.broadcastLocationToSelf = false

/-- Every queued update names a connected player. -/
def QueueFromConnected (gamestate : ServerGamestate) : Prop :=
  ∀ update ∈ gamestate.updatedPlayerPositions, ∃ address : SystemAddress,
    gamestate.connectedPlayers[address]? = some update.1

theorem performTick_flagsDown (gamestate : ServerGamestate) : gamestate.performTick.FlagsDown := by
  intro address id player hconnected hplayer
  have hmem : id ∈ gamestate.connectedPlayers.toList.map Prod.snd :=
    mem_connectedIDs.mpr ⟨address, hconnected⟩
  rw [performTick_objects] at hplayer
  obtain ⟨before, _, rfl⟩ := Option.map_eq_some_iff.mp hplayer
  rw [if_pos hmem]

/-- An object that no update names keeps its flag. -/
theorem AllFlagsDown.performTick (h : gamestate.AllFlagsDown)
    (hqueue : gamestate.QueueFromConnected) : gamestate.performTick.AllFlagsDown := by
  intro id player hplayer
  rw [performTick_objects] at hplayer
  obtain ⟨before, hbefore, rfl⟩ := Option.map_eq_some_iff.mp hplayer
  by_cases hmem : id ∈ gamestate.connectedPlayers.toList.map Prod.snd
  · rw [if_pos hmem]
  · have hnone : ownUpdates id gamestate.updatedPlayerPositions = [] := by
      rw [List.eq_nil_iff_forall_not_mem]
      intro offered hoffered
      exact hmem (mem_connectedIDs.mpr (hqueue _ (mem_ownUpdates.mp hoffered)))
    rw [if_neg hmem, hnone]
    exact h id before hbefore

theorem FlagsDown.step (h : gamestate.FlagsDown) {event : ServerEvent}
    (hstep : gamestate.step event = .ok next) : next.FlagsDown := by
  cases effect_of_step hstep with
  | join _ fresh _ =>
      intro address id player hconnected hplayer
      rw [addPlayer_objects] at hplayer
      split at hplayer
      · obtain rfl := Option.some.inj hplayer
        rfl
      · next hne =>
          rcases getElem?_of_addPlayer hconnected with hold | ⟨_, hid⟩
          · exact h address id player hold hplayer
          · exact absurd hid hne
  | leave =>
      intro address id player hconnected hplayer
      rw [removePlayer_getElem?] at hconnected
      rw [removePlayer_objects] at hplayer
      split at hconnected
      · cases hconnected
      · split at hplayer
        · cases hplayer
        · exact h address id player hconnected hplayer
  | queue => exact h
  | skipLibrary _ _ => exact h
  | skipCustom _ => exact h
  | tick _ => exact performTick_flagsDown gamestate

theorem AllFlagsDown.step (h : gamestate.AllFlagsDown) {event : ServerEvent}
    (hqueue : event = .endTick → gamestate.QueueFromConnected)
    (hstep : gamestate.step event = .ok next) : next.AllFlagsDown := by
  cases effect_of_step hstep with
  | join _ _ _ =>
      intro id player hplayer
      rw [addPlayer_objects] at hplayer
      split at hplayer
      · obtain rfl := Option.some.inj hplayer
        rfl
      · exact h id player hplayer
  | leave =>
      intro id player hplayer
      rw [removePlayer_objects] at hplayer
      split at hplayer
      · cases hplayer
      · exact h id player hplayer
  | queue => exact h
  | skipLibrary _ _ => exact h
  | skipCustom _ => exact h
  | tick _ => exact h.performTick (hqueue rfl)

/-- The message is about the position of the player. -/
def isPositionOf (id : NetworkID) (send : Send) : Bool :=
  match send.message with
  | .playerPosition message => message.playerID = id
  | _ => false

/-- Of the entries, only the player's own contributes a message about it. -/
theorem filter_broadcastEntries {entries : List (SystemAddress × NetworkID)}
    (hnodup : (entries.map Prod.snd).Nodup) {address : SystemAddress}
    (hmem : (address, id) ∈ entries) {objects : NetworkID → Option Player}
    (hplayer : objects id = some player) :
    (entries.filterMap fun entry =>
        (objects entry.2).map fun player => positionBroadcast entry.1 entry.2 player).filter
      (isPositionOf id) = [positionBroadcast address id player] := by
  have hothers {others : List (SystemAddress × NetworkID)} (hnot : id ∉ others.map Prod.snd) :
      (others.filterMap fun entry =>
          (objects entry.2).map fun player => positionBroadcast entry.1 entry.2 player).filter
        (isPositionOf id) = [] := by
    simp only [List.filter_eq_nil_iff, List.mem_filterMap, Option.map_eq_some_iff,
      forall_exists_index, and_imp]
    rintro _ entry hentry other _ rfl
    have hne : entry.2 ≠ id := fun heq => hnot (heq ▸ List.mem_map_of_mem hentry)
    simpa [isPositionOf, positionBroadcast] using hne
  obtain ⟨before, after, rfl⟩ := List.append_of_mem hmem
  rw [List.map_append, List.map_cons, List.nodup_middle, List.nodup_cons, List.mem_append,
    not_or] at hnodup
  rw [List.filterMap_append, List.filter_append, hothers hnodup.1.1, List.filterMap_cons, hplayer,
    Option.map_some, List.nil_append, List.filter_cons, hothers hnodup.1.2]
  simp [isPositionOf, positionBroadcast]

/-- The broadcast sends one message about each connected player. -/
theorem filter_broadcastPlayerPositions
    (hnodup : (gamestate.connectedPlayers.toList.map Prod.snd).Nodup) {address : SystemAddress}
    (hconnected : gamestate.connectedPlayers[address]? = some id)
    (hplayer : gamestate.objects id = some player) :
    gamestate.broadcastPlayerPositions.2.filter (isPositionOf id) =
      [positionBroadcast address id player] := by
  rw [broadcastPlayerPositions, foldl_broadcastEntry_snd hnodup, List.nil_append]
  exact filter_broadcastEntries hnodup
    (Std.TreeMap.mem_toList_iff_getElem?_eq_some.mpr hconnected) hplayer

/-- What the broadcast of a tick tells the clients about the connected players.
Each is the subject of one message, with the position to which its own updates
have led it in the tick and at which it stands now. The message reaches every
other client, and the player itself when an update of its was declined. No
connected player is flagged any longer. -/
structure TellsPositions (gamestate next : ServerGamestate) (sent : List Send) : Prop where
  told : ∀ (address : SystemAddress) (id : NetworkID),
    gamestate.connectedPlayers[address]? = some id → ∃ before pos send,
      gamestate.objects id = some before ∧
      pos = (ownUpdates id gamestate.updatedPlayerPositions).foldl (stepTo Position.OneSpace)
        before.pos ∧
      next.objects id = some { pos } ∧ sent.filter (isPositionOf id) = [send] ∧
      send.message = .playerPosition ⟨id, pos⟩ ∧
      (send.reaches address = true ↔ gamestate.DeclinesSome id) ∧
      ∀ other ≠ address, send.reaches other = true
  flagsDown : next.FlagsDown

/-- Before the broadcast, the players are where the update loop has left them. -/
theorem handle_endTick_eq_ok (hhandle : gamestate.handle .endTick = .ok (next, sent)) :
    next = gamestate.performTick ∧
      sent = ({ gamestate.midway gamestate.updatedPlayerPositions with
        updatedPlayerPositions := [] } : ServerGamestate).broadcastPlayerPositions.2 := by
  simp only [handle] at hhandle
  cases hupdate : gamestate.updatePlayerPositions with
  | error stop => simp [hupdate] at hhandle
  | ok updated =>
      simp only [hupdate, Except.ok.injEq] at hhandle
      obtain ⟨rfl, rfl⟩ := Prod.ext_iff.mp hhandle
      obtain ⟨_, rfl⟩ := updatePlayerPositions_eq_ok_iff.mp hupdate
      exact ⟨rfl, rfl⟩

theorem tellsPositions (hwf : gamestate.WellFormed) (hflags : gamestate.FlagsDown)
    (hhandle : gamestate.handle .endTick = .ok (next, sent)) :
    gamestate.TellsPositions next sent := by
  obtain ⟨rfl, rfl⟩ := handle_endTick_eq_ok hhandle
  refine ⟨fun address id hconnected => ?_, performTick_flagsDown gamestate⟩
  obtain ⟨before, hbefore⟩ := Option.isSome_iff_exists.mp (hwf.live address id hconnected)
  obtain ⟨moved, hmoved, hpos⟩ : ∃ moved,
      (gamestate.midway gamestate.updatedPlayerPositions).objects id = some moved ∧
        moved.pos = (ownUpdates id gamestate.updatedPlayerPositions).foldl
          (stepTo Position.OneSpace) before.pos := by
    rw [midway_objects, hbefore]
    exact ⟨_, rfl, Player.foldl_receiveUpdate_pos ..⟩
  have hflag : moved.broadcastLocationToSelf = true ↔ gamestate.DeclinesSome id := by
    rw [midway_flag hbefore _ hmoved, hflags address id before hconnected hbefore]
    simp [DeclinesSome]
  refine ⟨before, moved.pos, positionBroadcast address id moved, hbefore, hpos, ?_, ?_, rfl, ?_,
    fun other hother => ?_⟩
  · apply (broadcastPlayerPositions_objects _ id).trans
    apply (if_pos (mem_connectedIDs.mpr ⟨address, hconnected⟩)).trans
    show ((gamestate.midway gamestate.updatedPlayerPositions).objects id).map _ = _
    rw [hmoved, Option.map_some]
  · apply filter_broadcastPlayerPositions
    · exact hwf.nodup_ids
    · exact hconnected
    · exact hmoved
  · rw [← hflag]
    cases h : moved.broadcastLocationToSelf <;> simp [positionBroadcast, Send.reaches, h]
  · cases h : moved.broadcastLocationToSelf <;>
      simp [positionBroadcast, Send.reaches, h, Ne.symm hother]

theorem flagsDown_run {mapWidth mapHeight numPlayers : UInt16} {events : List ServerEvent}
    (hrun : run step (applyConfig mapWidth mapHeight numPlayers) events = .ok gamestate) :
    gamestate.FlagsDown := by
  have hstart : (applyConfig mapWidth mapHeight numPlayers).FlagsDown :=
    fun address id player hconnected => by simp [applyConfig] at hconnected
  exact run_invariant_of_step (fun _ _ _ hflags => hflags.step) hstart hrun

/-- A tick whose queue names connected players only. -/
def TickFromConnected (gamestate : ServerGamestate) (event : ServerEvent) : Prop :=
  event = .endTick → gamestate.QueueFromConnected

theorem allFlagsDown_run {mapWidth mapHeight numPlayers : UInt16} {events : List ServerEvent}
    (hrun : run step (applyConfig mapWidth mapHeight numPlayers) events = .ok gamestate)
    (hqueues : StepsMeet step TickFromConnected (applyConfig mapWidth mapHeight numPlayers)
      events) : gamestate.AllFlagsDown := by
  have hstart : (applyConfig mapWidth mapHeight numPlayers).AllFlagsDown :=
    fun id player hplayer => by simp [applyConfig] at hplayer
  exact run_invariant (fun _ _ _ hflags hqueue => hflags.step hqueue) hstart hqueues hrun

/-- In every reachable state and for every queue of updates from connected
players, the tick tells the positions as it should. When the queues of the ticks
before named connected players too, no object at all is flagged afterwards. -/
theorem rejected_players_are_told {mapWidth mapHeight numPlayers : UInt16}
    {events : List ServerEvent} {gamestate : ServerGamestate}
    (hrun : run step (applyConfig mapWidth mapHeight numPlayers) events = .ok gamestate)
    (queue : List (NetworkID × Position))
    (hqueue : ∀ update ∈ queue, ∃ address : SystemAddress,
      gamestate.connectedPlayers[address]? = some update.1) :
    ∃ next sent,
      { gamestate with updatedPlayerPositions := queue }.handle .endTick = .ok (next, sent) ∧
      { gamestate with updatedPlayerPositions := queue }.TellsPositions next sent ∧
      (StepsMeet step TickFromConnected (applyConfig mapWidth mapHeight numPlayers) events →
        next.AllFlagsDown) := by
  have hwf := (applyConfig_wellFormed mapWidth mapHeight numPlayers).run hrun
  have hwfQueue : { gamestate with updatedPlayerPositions := queue }.WellFormed :=
    hwf.of_objects_isSome rfl fun _ hlive => hlive
  have hflags := flagsDown_run hrun
  have hupdate := updatePlayerPositions_eq_ok_iff.mpr
    ⟨fun update hmem =>
      let ⟨address, hconnected⟩ := hqueue update hmem
      hwfQueue.live address update.1 hconnected, rfl⟩
  obtain ⟨next, sent, hhandle⟩ : ∃ next sent,
      { gamestate with updatedPlayerPositions := queue }.handle .endTick = .ok (next, sent) := by
    simp only [handle, hupdate]
    exact ⟨_, _, rfl⟩
  refine ⟨next, sent, hhandle, tellsPositions hwfQueue hflags hhandle, fun hqueues => ?_⟩
  have hall := allFlagsDown_run hrun hqueues
  obtain ⟨rfl, _⟩ := handle_endTick_eq_ok hhandle
  exact AllFlagsDown.performTick hall hqueue

/-- Two players join. -/
def twoPlayersJoin : List ServerEvent :=
  [.receive 1 (.library .newIncomingConnection) ⟨7, [(0, 0)]⟩,
    .receive 2 (.library .newIncomingConnection) ⟨8, [(5, 5)]⟩]

/-- Of three updates of the first player the second one is declined. The player is
told of the position to which the other two have led it. -/
theorem rejected_player_is_told :
    ∃ gamestate, run step (applyConfig 10 10 2) twoPlayersJoin = .ok gamestate ∧
      ∃ next sent send, { gamestate with
          updatedPlayerPositions := [(7, ⟨1, 0⟩), (7, ⟨9, 9⟩), (7, ⟨2, 0⟩)] }.handle .endTick =
            .ok (next, sent) ∧
        sent.filter (isPositionOf 7) = [send] ∧ send.message = .playerPosition ⟨7, ⟨2, 0⟩⟩ ∧
        send.reaches 1 = true ∧ next.AllFlagsDown := by
  obtain ⟨gamestate, hrun, hconnected, hplayer⟩ : ∃ gamestate,
      run step (applyConfig 10 10 2) twoPlayersJoin = .ok gamestate ∧
      gamestate.connectedPlayers[(1 : SystemAddress)]? = some 7 ∧
      gamestate.objects 7 = some ⟨⟨0, 0⟩, false⟩ := ⟨_, rfl, rfl, rfl⟩
  obtain ⟨next, sent, hhandle, htells, hall⟩ := rejected_players_are_told hrun
    [(7, ⟨1, 0⟩), (7, ⟨9, 9⟩), (7, ⟨2, 0⟩)] (by simpa using ⟨1, hconnected⟩)
  obtain ⟨before, pos, send, hbefore, hpos, _, hsend, hmessage, hself, _⟩ :=
    htells.told 1 7 hconnected
  obtain rfl := Option.some.inj (hplayer.symm.trans hbefore)
  obtain rfl : pos = ⟨2, 0⟩ := hpos.trans rfl
  have hdeclines : { gamestate with
      updatedPlayerPositions := [(7, ⟨1, 0⟩), (7, ⟨9, 9⟩), (7, ⟨2, 0⟩)] }.DeclinesSome 7 := by
    refine ⟨[(7, ⟨1, 0⟩)], ⟨9, 9⟩, [(7, ⟨2, 0⟩)], rfl, ⟨⟨1, 0⟩, false⟩, ?_, rfl⟩
    rw [midway_objects, hplayer]
    rfl
  have hnoTick : ∀ event ∈ twoPlayersJoin, event ≠ .endTick := by decide
  have hqueues : StepsMeet step TickFromConnected (applyConfig 10 10 2) twoPlayersJoin :=
    stepsMeet_iff.mpr fun _ event _ hpre _ htick =>
      absurd htick (hnoTick event (hpre.subset (by simp)))
  exact ⟨gamestate, hrun, next, sent, send, hhandle, hsend, hmessage, hself.mpr hdeclines,
    hall hqueues⟩

end ServerGamestate

end LibBench.RakNet
