/-
# Yojimbo: what a client does with messages about itself

The server tells every client about every player, so a client hears of its own
player too: it is sent its own join, and its own position in every iteration. A
client keeps no record of which id is its own. It files both kinds of message
under the remote players, and it never corrects the position that it believes
itself to be at.

The client's own entry among the remote players is there from the first such
message on. Until then, and only until then, the server is obeyed.
-/

import LibBench.Yojimbo.Client

namespace LibBench.Yojimbo

open LibBench.Math

/-- What the loop of `ClientMain` does, one thing at a time. How messages are
spread over the iterations does not matter here. -/
inductive LoopAction
  | receive (message : Message)
  | move (draws : List ℕ)
  | writeLine
  deriving DecidableEq, Repr

/-- The message adds an entry for the player: its join, or its position. -/
def LoopAction.IsAbout (id : ClientID) : LoopAction → Prop
  | .receive (.newPlayerJoined message) => message.playerID = id
  | .receive (.playerPosition message) => message.playerID = id
  | _ => False

instance LoopAction.decidableIsAbout (id : ClientID) :
    ∀ action : LoopAction, Decidable (action.IsAbout id)
  | .receive (.newPlayerJoined message) => inferInstanceAs (Decidable (message.playerID = id))
  | .receive (.playerPosition message) => inferInstanceAs (Decidable (message.playerID = id))
  | .receive (.gameConfig _) | .receive (.playerSpawnAndID _) | .receive (.playerMove _) =>
      isFalse not_false
  | .move _ | .writeLine => isFalse not_false

namespace Client

/-- One action of the loop, without what it sends. -/
def perform (client : Client) : LoopAction → Except Stop Client
  | .receive message => client.receiveMessage message
  | .move draws =>
      match client.move draws with
      | .error stop => .error stop
      | .ok (moved, _) => .ok moved
  | .writeLine => client.writeLine

variable {client next : Client} {message : Message}

/-- An iteration of the loop is a run of such actions. -/
theorem run_of_iterate {messages : List Message} {draws : List ℕ} {sent : List Envelope}
    (h : client.iterate messages draws = .ok (next, sent)) :
    run perform client (messages.map .receive ++ [.move draws, .writeLine]) = .ok next := by
  obtain ⟨received, moved, hreceived, hmoved, hwritten⟩ := phases_of_iterate h
  have hmove : received.perform (.move draws) = .ok moved := by rw [perform, hmoved]
  have hlast : run perform received [.move draws, .writeLine] = .ok next :=
    run_cons_eq_ok.mpr ⟨moved, hmove, run_cons_eq_ok.mpr ⟨next, hwritten, rfl⟩⟩
  rw [receiveMessages_eq_run] at hreceived
  refine run_append_eq_ok.mpr ⟨received, ?_, hlast⟩
  rw [run_map]
  exact hreceived

/-- A move changes the local player only. -/
theorem perform_move_eq_ok {draws : List ℕ} (h : client.perform (.move draws) = .ok next) :
    ∃ localPlayer, next = { client with gameState := { client.gameState with localPlayer } } := by
  rw [perform] at h
  split at h
  · cases h
  · next hmove =>
      obtain rfl := Except.ok.inj h
      obtain ⟨_, rfl, _⟩ | ⟨_, chosenMove, _, rfl, _⟩ := move_cases hmove
      · exact ⟨_, rfl⟩
      · exact ⟨⟨chosenMove⟩, rfl⟩

/-- The client tracks corrections, and knows nobody before its spawn. -/
structure Sound (client : Client) : Prop where
  tracker : client.correctionsTracker.isSome
  nobody : client.playerSpawnAndIdReceived = false →
    client.gameState.remotePlayerPositions = ∅

theorem Sound.perform (h : client.Sound) {action : LoopAction}
    (hperform : client.perform action = .ok next) : next.Sound := by
  cases action with
  | receive message =>
      cases reception_of_receiveMessage hperform with
      | beforeConfig _ _ => exact h
      | config _ => exact ⟨h.tracker, h.nobody⟩
      | beforeSpawn _ _ _ => exact h
      | spawn _ _ => exact ⟨h.tracker, nofun⟩
      | play _ spawn process =>
          refine ⟨isSome_tracker_of_processMessage h.tracker process, fun hfalse => ?_⟩
          exact absurd (spawn.symm.trans hfalse) nofun
  | move draws =>
      obtain ⟨_, rfl⟩ := perform_move_eq_ok hperform
      exact ⟨h.tracker, h.nobody⟩
  | writeLine =>
      obtain ⟨_, rfl⟩ := writeLine_eq_some hperform
      exact ⟨rfl, h.nobody⟩

/-- A client that has accepted its spawn. -/
structure Playing (client : Client) : Prop where
  config : client.configReceived = true
  spawn : client.playerSpawnAndIdReceived = true
  tracker : client.correctionsTracker.isSome

theorem Playing.perform (h : client.Playing) {action : LoopAction}
    (hperform : client.perform action = .ok next) : next.Playing := by
  cases action with
  | receive message =>
      cases reception_of_receiveMessage hperform with
      | beforeConfig config _ => exact absurd (h.config.symm.trans config) nofun
      | config config => exact absurd (h.config.symm.trans config) nofun
      | beforeSpawn _ spawn _ => exact absurd (h.spawn.symm.trans spawn) nofun
      | spawn _ spawn => exact absurd (h.spawn.symm.trans spawn) nofun
      | play _ _ process =>
          exact ⟨h.config, h.spawn, isSome_tracker_of_processMessage h.tracker process⟩
  | move draws =>
      obtain ⟨_, rfl⟩ := perform_move_eq_ok hperform
      exact ⟨h.config, h.spawn, h.tracker⟩
  | writeLine =>
      obtain ⟨_, rfl⟩ := writeLine_eq_some hperform
      exact ⟨h.config, h.spawn, rfl⟩

/-- Only messages about a player add its entry. -/
theorem entry_of_processMessage {gameState changed : ClientGameState}
    {tracker kept : Option CorrectionsTracker} {id : ClientID}
    (habout : ¬ (LoopAction.receive message).IsAbout id)
    (h : processMessage gameState tracker message = .ok (changed, kept)) :
    changed.remotePlayerPositions[id]? = gameState.remotePlayerPositions[id]? := by
  cases message with
  | newPlayerJoined message =>
      obtain ⟨rfl, _⟩ := Prod.mk.inj (Except.ok.inj h)
      have hne : message.playerID ≠ id := habout
      rw [ClientGameState.addRemotePlayer, Std.TreeMap.getElem?_insert]
      simp [hne]
  | playerPosition message =>
      obtain ⟨rfl, _⟩ := processMessage_playerPosition_eq_ok h
      have hne : message.playerID ≠ id := habout
      rw [ClientGameState.addRemotePlayer, Std.TreeMap.getElem?_insert]
      simp [hne]
  | gameConfig | playerSpawnAndID | playerMove =>
      obtain ⟨rfl, _⟩ := Prod.mk.inj (Except.ok.inj h)
      rfl

theorem entry_of_perform {id : ClientID} {action : LoopAction} (habout : ¬ action.IsAbout id)
    (h : client.perform action = .ok next) :
    next.gameState.remotePlayerPositions[id]? = client.gameState.remotePlayerPositions[id]? := by
  cases action with
  | receive message =>
      cases reception_of_receiveMessage h with
      | beforeConfig _ _ | config _ | beforeSpawn _ _ _ | spawn _ _ => rfl
      | play _ _ process => exact entry_of_processMessage habout process
  | move draws =>
      obtain ⟨_, rfl⟩ := perform_move_eq_ok h
      rfl
  | writeLine =>
      obtain ⟨_, rfl⟩ := writeLine_eq_some h
      rfl

/-- A client that plays takes every message about a player, and has an entry for
it then. -/
theorem Playing.exists_entry (h : client.Playing) {id : ClientID} {action : LoopAction}
    (habout : action.IsAbout id) :
    ∃ next pos, client.perform action = .ok next ∧
      next.gameState.remotePlayerPositions[id]? = some pos := by
  have hplay (message : Message) : client.receiveMessage message = client.process message := by
    unfold Client.receiveMessage
    simp [h.config, h.spawn]
  match action, habout with
  | .receive (.newPlayerJoined message), habout =>
      obtain rfl : message.playerID = id := habout
      exact ⟨_, _, hplay _, Std.TreeMap.getElem?_insert_self⟩
  | .receive (.playerPosition message), habout =>
      obtain rfl : message.playerID = id := habout
      obtain ⟨kept, hprocess⟩ :=
        exists_processPlayerPositionMessage client.gameState h.tracker message
      refine ⟨{ client with
        gameState := client.gameState.addRemotePlayer message.playerID ⟨message.x, message.y⟩
        correctionsTracker := some kept }, _, ?_, Std.TreeMap.getElem?_insert_self⟩
      rw [Client.perform, hplay, process, processMessage, hprocess]

/-- After an action the client does not count itself among the remote players,
and it is where the server has just said that it is. -/
def ObeysAbout (next : Client) (id : ClientID) (action : LoopAction) : Prop :=
  next.gameState.remotePlayerPositions[id]? = none ∧
    ∀ message : PlayerPositionMessage, action = .receive (.playerPosition message) →
      message.playerID = id → next.gameState.localPlayer.pos = ⟨message.x, message.y⟩

/-- **Obeying the server.** A client that has accepted the spawn of its player
obeys the server about it in the whole run that follows, if and only if none of
the messages that it gets to process is the join or the position of its own
player. -/
theorem obeys_server_iff {connecting : ConnectingClient} {earlier : List LoopAction}
    {waiting accepted : Client} {spawn : PlayerSpawnAndIDMessage}
    (hrun : run perform connecting.client earlier = .ok waiting)
    (hconfig : waiting.configReceived = true)
    (hspawn : waiting.playerSpawnAndIdReceived = false)
    (haccept : waiting.receiveMessage (.playerSpawnAndID spawn) = .ok accepted)
    (actions : List LoopAction) :
    (∀ before action client next, before ++ [action] <+: actions →
        run perform accepted before = .ok client → client.perform action = .ok next →
        next.ObeysAbout spawn.playerID action) ↔
      StepsMeet perform (fun _ action => ¬ action.IsAbout spawn.playerID) accepted actions := by
  have hsound : waiting.Sound := run_invariant_of_step
    (fun _ _ _ hbefore hstep => hbefore.perform hstep)
    (⟨rfl, fun _ => rfl⟩ : connecting.client.Sound) hrun
  obtain ⟨hplaying, hunknown⟩ : accepted.Playing ∧
      accepted.gameState.remotePlayerPositions[spawn.playerID]? = none := by
    cases reception_of_receiveMessage haccept with
    | beforeConfig config _ => exact absurd (hconfig.symm.trans config) nofun
    | beforeSpawn _ _ other => exact absurd rfl (other spawn)
    | play _ played _ => exact absurd (hspawn.symm.trans played) nofun
    | spawn _ _ =>
        refine ⟨⟨hconfig, rfl, hsound.tracker⟩, ?_⟩
        show waiting.gameState.remotePlayerPositions[spawn.playerID]? = none
        rw [hsound.nobody hspawn]
        exact Std.TreeMap.getElem?_emptyc
  constructor
  · rw [stepsMeet_iff]
    intro hobeys before action client hpre hbefore habout
    have hclient : client.Playing := run_invariant_of_step
      (fun _ _ _ hplays hstep => hplays.perform hstep) hplaying hbefore
    obtain ⟨next, pos, hnext, hentry⟩ := hclient.exists_entry habout
    have hnone := (hobeys before action client next hpre hbefore hnext).1
    rw [hentry] at hnone
    cases hnone
  · intro hguard before action client next hpre hbefore hnext
    have habout := stepsMeet_iff.mp hguard before action client hpre hbefore
    have hmeets := hguard.of_isPrefix ((List.prefix_append _ _).trans hpre)
    let absent (client : Client) : Prop :=
      client.gameState.remotePlayerPositions[spawn.playerID]? = none
    have hpreserved : ∀ state other next, absent state → ¬ other.IsAbout spawn.playerID →
        perform state other = .ok next → absent next :=
      fun _ _ _ hnone hother hstep => (entry_of_perform hother hstep).trans hnone
    have hclient : absent client := run_invariant hpreserved hunknown hmeets hbefore
    refine ⟨(entry_of_perform habout hnext).trans hclient, ?_⟩
    rintro message rfl hid
    exact absurd hid habout

/-- A client with a config, about to be given the slot 0. -/
def waitingForSpawn : Client :=
  { ConnectingClient.client { clientId := 7 } with
    configReceived := true
    gameState := { mapWidth := 100, mapHeight := 100, numPlayers := 64, localPlayer := ⟨⟨0, 0⟩⟩ } }

/-- The same client at the start of its game. -/
def justSpawned : Client :=
  { waitingForSpawn with
    playerSpawnAndIdReceived := true
    gameState := waitingForSpawn.gameState.createLocalPlayer 0 ⟨50, 50⟩ }

/-- It hears of another player only. -/
theorem obeys_server_about_others : ∃ client next,
    run perform justSpawned [.receive (.newPlayerJoined ⟨60, 60, 1⟩), .move [0]] = .ok client ∧
    client.perform (.receive (.playerPosition ⟨60, 61, 1⟩)) = .ok next ∧
    next.ObeysAbout 0 (.receive (.playerPosition ⟨60, 61, 1⟩)) := by
  have hrun : run perform (ConnectingClient.client { clientId := 7 })
      [.receive (.gameConfig ⟨100, 100, 64⟩)] = .ok waitingForSpawn := rfl
  have haccept : waitingForSpawn.receiveMessage (.playerSpawnAndID ⟨50, 50, 0⟩) =
      .ok justSpawned := rfl
  have hobeys := (obeys_server_iff hrun rfl rfl haccept [.receive (.newPlayerJoined ⟨60, 60, 1⟩),
    .move [0], .receive (.playerPosition ⟨60, 61, 1⟩)]).mpr (by decide +kernel)
  have hbefore : run perform justSpawned [.receive (.newPlayerJoined ⟨60, 60, 1⟩), .move [0]] =
    .ok _ := rfl
  exact ⟨_, _, hbefore, rfl, hobeys _ _ _ _ List.prefix_rfl hbefore rfl⟩

/-- Its own join makes it a remote player to itself, and the position that the
server sends it does not undo its move. -/
theorem own_echo_ignored : ∃ client moved next,
    waitingForSpawn.receiveMessage (.playerSpawnAndID ⟨50, 50, 0⟩) = .ok justSpawned ∧
    justSpawned.perform (.receive (.newPlayerJoined ⟨50, 50, 0⟩)) = .ok client ∧
    client.gameState.remotePlayerPositions[(0 : ClientID)]? = some ⟨50, 50⟩ ∧
    client.perform (.move [0]) = .ok moved ∧
    moved.perform (.receive (.playerPosition ⟨50, 50, 0⟩)) = .ok next ∧
    next.gameState.localPlayer.pos = ⟨50, 49⟩ :=
  ⟨_, _, _, rfl, rfl, by decide +kernel, rfl, rfl, by decide +kernel⟩

end Client

end LibBench.Yojimbo
