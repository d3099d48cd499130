/-
# RakNet: who is in the game

The server's connection handling seen without positions. A roster says which
player each address has an entry for and which player objects are live; it
changes with library packets alone. The server's state projects to a roster,
and every event of the server loop acts on the projection as the roster's own
transition says, so a question about entries or about null lookups is answered
by the packets.

Two such questions are settled here. A queued move is dereferenced without a
null check, so a tick faults exactly when some move of that tick names a player
that is not live by the tick's end. And `connectedPlayers` follows the sessions
that the library announces exactly as long as no session ends with
`ID_DISCONNECTION_NOTIFICATION`, which the packet switch does not handle.
-/

import LibBench.RakNet.Server

namespace LibBench.RakNet

open LibBench.Math

/-- The entry of each address, and the player objects that are live. -/
@[ext]
structure Roster where
  entry : SystemAddress → Option NetworkID
  live : NetworkID → Bool

namespace Roster

/-- Nobody is in the game. -/
def empty : Roster where
  entry _ := none
  live _ := false

/-- A player is created for an address. An address that has an entry keeps it,
and the new object is live all the same. -/
def join (roster : Roster) (address : SystemAddress) (id : NetworkID) : Roster where
  entry := Function.update roster.entry address (some ((roster.entry address).getD id))
  live := Function.update roster.live id true

/-- The player of an address is deleted and its entry erased. -/
def leave (roster : Roster) (address : SystemAddress) : Roster where
  entry := Function.update roster.entry address none
  live id := roster.live id && roster.entry address != some id

/-- The transition of the roster on one event of the server loop. -/
def observe (roster : Roster) : ServerEvent → Roster
  | .receive address (.library .newIncomingConnection) admission =>
      roster.join address admission.networkID
  | .receive address (.library .connectionLost) _ => roster.leave address
  | _ => roster

/-- The roster after a list of events. -/
def after (events : List ServerEvent) : Roster := events.foldl observe empty

end Roster

namespace ServerGamestate

/-- The roster of a server state. -/
def roster (gamestate : ServerGamestate) : Roster where
  entry address := gamestate.connectedPlayers[address]?
  live id := (gamestate.objects id).isSome

theorem roster_eq {first second : ServerGamestate}
    (hentry : ∀ address : SystemAddress,
      first.connectedPlayers[address]? = second.connectedPlayers[address]?)
    (hlive : ∀ id, (first.objects id).isSome = (second.objects id).isSome) :
    first.roster = second.roster :=
  Roster.ext (funext hentry) (funext hlive)

theorem roster_addPlayer (gamestate : ServerGamestate) (address : SystemAddress)
    (id : NetworkID) (pos : Position) :
    (gamestate.addPlayer address id pos).roster = gamestate.roster.join address id := by
  refine Roster.ext (funext fun other => ?_) (funext fun other => ?_)
  · simp only [roster, Roster.join, addPlayer_getElem?, Function.update_apply]
  · simp only [roster, Roster.join, addPlayer_objects, Function.update_apply]
    split <;> simp

theorem roster_removePlayer (gamestate : ServerGamestate) (address : SystemAddress) :
    (gamestate.removePlayer address).roster = gamestate.roster.leave address := by
  refine Roster.ext (funext fun other => ?_) (funext fun other => ?_)
  · simp only [roster, Roster.leave, removePlayer_getElem?, Function.update_apply]
  · simp only [roster, Roster.leave, removePlayer_objects]
    by_cases h : gamestate.connectedPlayers[address]? = some other
    · simp [h]
    · simp [h]

theorem roster_updatePlayerPositions {gamestate updated : ServerGamestate}
    (h : gamestate.updatePlayerPositions = .ok updated) :
    updated.roster = gamestate.roster := by
  obtain ⟨_, rfl⟩ := updatePlayerPositions_eq_ok_iff.mp h
  exact roster_eq (fun _ => rfl) fun id => foldl_applyUpdate_isSome _ _ _ id

theorem roster_broadcastPlayerPositions (gamestate : ServerGamestate) :
    gamestate.broadcastPlayerPositions.1.roster = gamestate.roster := by
  refine roster_eq (fun _ => rfl) fun id => ?_
  rw [broadcastPlayerPositions_objects]
  split
  · rw [Option.isSome_map]
  · rfl

/-- The server's events act on its roster as the roster's transitions say. -/
theorem roster_step {gamestate next : ServerGamestate} {event : ServerEvent}
    (h : gamestate.step event = .ok next) : next.roster = gamestate.roster.observe event := by
  cases effect_of_step h with
  | join _ _ _ => exact roster_addPlayer ..
  | leave => exact roster_removePlayer gamestate _
  | queue => rfl
  | @skipLibrary _ _ identifier hnew hlost =>
      cases identifier with
      | newIncomingConnection => exact absurd rfl hnew
      | connectionLost => exact absurd rfl hlost
      | connectionRequestAccepted | connectionAttemptFailed | disconnectionNotification
      | other => rfl
  | skipCustom _ => rfl
  | tick found =>
      have hupdate := updatePlayerPositions_eq_ok_iff.mpr ⟨found, rfl⟩
      exact (roster_broadcastPlayerPositions _).trans (roster_updatePlayerPositions hupdate)

/-- Along every run of the server loop the roster is the one that the events
determine. -/
theorem roster_run {mapWidth mapHeight numPlayers : UInt16} {events : List ServerEvent}
    {gamestate : ServerGamestate}
    (h : run step (applyConfig mapWidth mapHeight numPlayers) events = .ok gamestate) :
    gamestate.roster = Roster.after events := by
  have hstart : (applyConfig mapWidth mapHeight numPlayers).roster = Roster.empty := by
    refine Roster.ext (funext fun address => ?_) (funext fun id => rfl)
    simp [roster, applyConfig, Roster.empty]
  rw [Roster.after, ← hstart]
  have hpreserved (state : ServerGamestate) (event : ServerEvent) (next : ServerGamestate)
      (hwf : state.WellFormed) (hstep : step state event = .ok next) : next.WellFormed := by
    obtain ⟨_, hhandle⟩ := step_eq_ok_iff.mp hstep
    exact hwf.handle hhandle
  exact run_simulation hpreserved (fun _ _ _ _ hstep => roster_step hstep)
    (applyConfig_wellFormed mapWidth mapHeight numPlayers) h

end ServerGamestate

/-- The moves received since the last end of a tick. -/
def pendingMoves (moves : List PlayerMoveMessage) : ServerEvent → List PlayerMoveMessage
  | .receive _ (.custom (.playerMove message)) _ => moves ++ [message]
  | .endTick => []
  | _ => moves

/-- The moves that the next end of a tick performs, read off the events. -/
def movesSinceTick (events : List ServerEvent) : List PlayerMoveMessage :=
  events.foldl pendingMoves []

namespace ServerGamestate

theorem queue_step {gamestate next : ServerGamestate} {event : ServerEvent}
    {moves : List PlayerMoveMessage}
    (hqueue : gamestate.updatedPlayerPositions =
      moves.map fun move => (move.playerID, move.newPos))
    (h : gamestate.step event = .ok next) :
    next.updatedPlayerPositions =
      (pendingMoves moves event).map fun move => (move.playerID, move.newPos) := by
  cases effect_of_step h with
  | join _ _ _ => exact hqueue
  | leave =>
      unfold removePlayer
      split <;> exact hqueue
  | queue => simp [pendingMoves, hqueue]
  | skipLibrary _ _ => exact hqueue
  | @skipCustom _ _ message hmove =>
      cases message with
      | playerMove move => exact absurd rfl (hmove move)
      | gameConfig | playerSpawn | playerJoin | playerLeave | playerPosition => exact hqueue
  | tick _ => rfl

/-- The queue holds the moves received since the last end of a tick. -/
theorem queue_run {mapWidth mapHeight numPlayers : UInt16} {events : List ServerEvent}
    {gamestate : ServerGamestate}
    (h : run step (applyConfig mapWidth mapHeight numPlayers) events = .ok gamestate) :
    gamestate.updatedPlayerPositions =
      (movesSinceTick events).map fun move => (move.playerID, move.newPos) := by
  let invariant (events : List ServerEvent) (gamestate : ServerGamestate) : Prop :=
    gamestate.updatedPlayerPositions =
      (movesSinceTick events).map fun move => (move.playerID, move.newPos)
  have hstart : invariant [] (applyConfig mapWidth mapHeight numPlayers) := rfl
  refine run_history invariant hstart (fun before event state next _ _ hqueue hstep => ?_) h
  show next.updatedPlayerPositions = _
  rw [movesSinceTick, List.foldl_concat]
  exact queue_step hqueue hstep

/-- A tick dereferences a null player exactly when one of its moves names a
player that is not live at the end of the tick's packets. -/
theorem updatePlayerPositions_eq_nullPlayer_iff_of_run {mapWidth mapHeight numPlayers : UInt16}
    {events : List ServerEvent} {gamestate : ServerGamestate}
    (h : run step (applyConfig mapWidth mapHeight numPlayers) events = .ok gamestate) :
    gamestate.updatePlayerPositions = .error .nullPlayer ↔
      ∃ move ∈ movesSinceTick events, (Roster.after events).live move.playerID = false := by
  rw [updatePlayerPositions_eq_nullPlayer_iff, queue_run h, ← roster_run h]
  simp [roster, getObjectFromID]

/-- Every tick that the server gets to finds a player for each queued update,
if and only if in each such tick every move that was received names a player
that was created before the tick's end and not removed by then. -/
theorem ticks_find_players_iff (mapWidth mapHeight numPlayers : UInt16)
    (events : List ServerEvent) :
    (∀ packets gamestate, packets ++ [.endTick] <+: events →
        run step (applyConfig mapWidth mapHeight numPlayers) packets = .ok gamestate →
        gamestate.updatePlayerPositions ≠ .error .nullPlayer) ↔
      ∀ packets gamestate, packets ++ [.endTick] <+: events →
        run step (applyConfig mapWidth mapHeight numPlayers) packets = .ok gamestate →
        ∀ move ∈ movesSinceTick packets, (Roster.after packets).live move.playerID = true := by
  refine forall_congr' fun packets => forall_congr' fun gamestate => forall_congr' fun _ =>
    forall_congr' fun hrun => ?_
  rw [ne_eq, updatePlayerPositions_eq_nullPlayer_iff_of_run hrun]
  simp

/-- The move of a client that is removed before the tick is dereferenced. -/
theorem removed_player_move_dereferences_null :
    ∃ gamestate,
      run step (applyConfig 100 100 2)
        [.receive 1 (.library .newIncomingConnection) ⟨7, [(3, 4)]⟩,
          .receive 1 (.custom (.playerMove ⟨7, ⟨3, 5⟩⟩)) ⟨0, []⟩,
          .receive 1 (.library .connectionLost) ⟨0, []⟩] = .ok gamestate ∧
      gamestate.updatePlayerPositions = .error .nullPlayer :=
  ⟨_, rfl, rfl⟩

end ServerGamestate

/-- The player id given to the session that an address has, if it has one. -/
abbrev Ledger := SystemAddress → Option NetworkID

/-- The library's announcements: a session starts, or ends in one of its two
ways. -/
def Ledger.observe (ledger : Ledger) : ServerEvent → Ledger
  | .receive address (.library .newIncomingConnection) admission =>
      Function.update ledger address (some admission.networkID)
  | .receive address (.library .connectionLost) _
  | .receive address (.library .disconnectionNotification) _ =>
      Function.update ledger address none
  | _ => ledger

/-- The live sessions after a list of events. -/
def Ledger.after (events : List ServerEvent) : Ledger := events.foldl Ledger.observe fun _ => none

/-- The library announces a start only where no session is live, and an end
only where one is. -/
def Ledger.Admits (ledger : Ledger) : ServerEvent → Prop
  | .receive address (.library .newIncomingConnection) _ => ledger address = none
  | .receive address (.library .connectionLost) _
  | .receive address (.library .disconnectionNotification) _ => ledger address ≠ none
  | _ => True

/-- Events whose library packets announce sessions properly. -/
def Announced (events : List ServerEvent) : Prop :=
  StepsMeet (ε := Empty) (fun ledger event => .ok (Ledger.observe ledger event)) Ledger.Admits
    (fun _ => none) events

/-- The end of a session by a graceful close. -/
def ServerEvent.IsGracefulClose : ServerEvent → Prop
  | .receive _ (.library .disconnectionNotification) _ => True
  | _ => False

theorem Announced.admits {events before : List ServerEvent} {event : ServerEvent}
    (h : Announced events) (hpre : before ++ [event] <+: events) :
    (Ledger.after before).Admits event :=
  stepsMeet_iff.mp h before event _ hpre (run_eq_foldl _ _ _)

/-- One more event is announced properly when the sessions so far admit it. -/
theorem Announced.concat {events : List ServerEvent} {event : ServerEvent}
    (h : Announced events) (hadmits : (Ledger.after events).Admits event) :
    Announced (events ++ [event]) := by
  refine StepsMeet.append.mpr ⟨h, fun middle hrun => ?_⟩
  rw [run_eq_foldl] at hrun
  obtain rfl := Except.ok.inj hrun
  exact ⟨hadmits, fun _ _ => trivial⟩

/-- Without graceful closes the roster's entries are the live sessions: an
announced start finds no entry that `emplace` would keep. -/
theorem Roster.entry_observe {roster : Roster} {ledger : Ledger} {event : ServerEvent}
    (hentry : roster.entry = ledger) (hadmits : ledger.Admits event)
    (hclose : ¬ event.IsGracefulClose) :
    (roster.observe event).entry = ledger.observe event := by
  subst hentry
  cases event with
  | endTick => rfl
  | receive address packet admission =>
      cases packet with
      | custom message => cases message <;> rfl
      | library identifier =>
          cases identifier with
          | newIncomingConnection =>
              have hnone : roster.entry address = none := hadmits
              simp only [Roster.observe, Roster.join, Ledger.observe, hnone, Option.getD_none]
          | disconnectionNotification => exact absurd trivial hclose
          | connectionLost | connectionRequestAccepted | connectionAttemptFailed | other => rfl

namespace ServerGamestate

/-- `connectedPlayers` is exactly the live sessions, each with a live player:
the one created under the id that the session's own start was given. -/
def MembershipIs (gamestate : ServerGamestate) (ledger : Ledger) : Prop :=
  (∀ address : SystemAddress, gamestate.connectedPlayers[address]? = ledger address) ∧
    ∀ address id, ledger address = some id → ∃ player, gamestate.objects id = some player

theorem membershipIs_iff {gamestate : ServerGamestate} (hwf : gamestate.WellFormed)
    (ledger : Ledger) : gamestate.MembershipIs ledger ↔ gamestate.roster.entry = ledger := by
  constructor
  · exact fun h => funext h.1
  · rintro rfl
    exact ⟨fun _ => rfl, fun address id h => Option.isSome_iff_exists.mp (hwf.live address id h)⟩

/-- As long as no session is closed gracefully, the entries of a run are the live
sessions. -/
theorem roster_entry_of_run {mapWidth mapHeight numPlayers : UInt16} {events : List ServerEvent}
    {gamestate : ServerGamestate} (hannounced : Announced events)
    (hclose : StepsMeet step (fun _ event => ¬ event.IsGracefulClose)
      (applyConfig mapWidth mapHeight numPlayers) events)
    (hrun : run step (applyConfig mapWidth mapHeight numPlayers) events = .ok gamestate) :
    gamestate.roster.entry = Ledger.after events := by
  let invariant (events : List ServerEvent) (gamestate : ServerGamestate) : Prop :=
    gamestate.roster.entry = Ledger.after events
  have hstart : invariant [] (applyConfig mapWidth mapHeight numPlayers) := by
    show (applyConfig mapWidth mapHeight numPlayers).roster.entry = _
    rw [roster_run (run_nil _)]
    rfl
  refine run_history invariant hstart
    (fun before event state next hpre hbefore hentry hstep => ?_) hrun
  show next.roster.entry = _
  rw [roster_step hstep, Ledger.after, List.foldl_concat]
  exact Roster.entry_observe hentry (hannounced.admits hpre)
    (stepsMeet_iff.mp hclose before event state hpre hbefore)

/-- For announced sessions, `connectedPlayers` follows them after every packet
that the server gets to, if and only if none of these packets is a graceful
close. -/
theorem membership_follows_sessions_iff (mapWidth mapHeight numPlayers : UInt16)
    {events : List ServerEvent} (hannounced : Announced events) :
    (∀ packets gamestate, packets <+: events →
        run step (applyConfig mapWidth mapHeight numPlayers) packets = .ok gamestate →
        gamestate.MembershipIs (Ledger.after packets)) ↔
      StepsMeet step (fun _ event => ¬ event.IsGracefulClose)
        (applyConfig mapWidth mapHeight numPlayers) events := by
  have hwf {packets : List ServerEvent} {gamestate : ServerGamestate}
      (hrun : run step (applyConfig mapWidth mapHeight numPlayers) packets = .ok gamestate) :
      gamestate.WellFormed :=
    (applyConfig_wellFormed mapWidth mapHeight numPlayers).run hrun
  rw [stepsMeet_iff]
  constructor
  · -- a graceful close empties the ledger's entry and leaves the map's
    intro hmember packets event gamestate hpre hrun hclose
    match event, hclose with
    | .receive address (.library .disconnectionNotification) admission, _ =>
        have hlive : Ledger.after packets address ≠ none := hannounced.admits hpre
        have hbefore := (hmember packets gamestate
          ((List.prefix_append _ _).trans hpre) hrun).1 address
        have hafter := (hmember _ gamestate hpre
          (run_concat_eq_ok.mpr ⟨gamestate, hrun, rfl⟩)).1 address
        rw [Ledger.after, List.foldl_concat, hbefore] at hafter
        simp only [Ledger.observe, Function.update_self] at hafter
        exact hlive hafter
  · intro hguard packets gamestate hpre hrun
    obtain ⟨rest, rfl⟩ := hpre
    rw [membershipIs_iff (hwf hrun)]
    exact roster_entry_of_run (StepsMeet.append.mp hannounced).1
      (StepsMeet.append.mp (stepsMeet_iff.mpr hguard)).1 hrun

/-- Both sides hold along a session that loses its connection and starts
again. -/
theorem membership_follows_reconnection :
    Announced [.receive 1 (.library .newIncomingConnection) ⟨7, [(3, 4)]⟩,
        .receive 1 (.library .connectionLost) ⟨0, []⟩,
        .receive 1 (.library .newIncomingConnection) ⟨8, [(5, 6)]⟩] ∧
      ∀ packets gamestate,
        packets <+: [.receive 1 (.library .newIncomingConnection) ⟨7, [(3, 4)]⟩,
          .receive 1 (.library .connectionLost) ⟨0, []⟩,
          .receive 1 (.library .newIncomingConnection) ⟨8, [(5, 6)]⟩] →
        run step (applyConfig 100 100 2) packets = .ok gamestate →
        gamestate.MembershipIs (Ledger.after packets) := by
  have hannounced : Announced [.receive 1 (.library .newIncomingConnection) ⟨7, [(3, 4)]⟩,
      .receive 1 (.library .connectionLost) ⟨0, []⟩,
      .receive 1 (.library .newIncomingConnection) ⟨8, [(5, 6)]⟩] := by
    simp [Announced, StepsMeet, Ledger.Admits, Ledger.observe]
  refine ⟨hannounced, (membership_follows_sessions_iff 100 100 2 hannounced).mpr ?_⟩
  simp [StepsMeet, ServerEvent.IsGracefulClose]

/-- After a graceful close the player is still in the map, although no session
of its address is live. -/
theorem gracefully_closed_player_stays :
    Announced [.receive 1 (.library .newIncomingConnection) ⟨7, [(3, 4)]⟩,
        .receive 1 (.library .disconnectionNotification) ⟨0, []⟩] ∧
      ∃ gamestate,
        run step (applyConfig 100 100 2)
          [.receive 1 (.library .newIncomingConnection) ⟨7, [(3, 4)]⟩,
            .receive 1 (.library .disconnectionNotification) ⟨0, []⟩] = .ok gamestate ∧
        ¬ gamestate.MembershipIs
          (Ledger.after [.receive 1 (.library .newIncomingConnection) ⟨7, [(3, 4)]⟩,
            .receive 1 (.library .disconnectionNotification) ⟨0, []⟩]) := by
  refine ⟨by simp [Announced, StepsMeet, Ledger.Admits, Ledger.observe], _, rfl, fun h => ?_⟩
  have hentry := h.1 1
  revert hentry
  decide

end ServerGamestate

end LibBench.RakNet
