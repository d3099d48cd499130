/-
# RakNet: the order of the handshake

A client needs two packets before it can play, the config and its spawn. It
waits for them one after the other, and while it waits for one it frees every
packet of another kind. The server sends them one after the other too, but in
its default mode nothing makes them arrive so.

How far the handshake has come can be read off the packets alone. A config and a
spawn in this order complete it, whatever else is delivered and whatever the
client does in between; in the other order the spawn is gone, and the client goes
on waiting for it.
-/

import Mathlib.Data.List.Permutation
import LibBench.Math.Execution
import LibBench.RakNet.World

namespace LibBench.RakNet

open LibBench.Math

/-- What a client does while it is connected: take the next game packet, start a
turn or end it. -/
inductive ClientAction
  | receive (message : Message)
  | move (draws : List ℕ)
  | endTurn
  deriving DecidableEq, Repr

namespace Client

/-- One action of the client, without what it sends. -/
def perform (manager : NetworkIDManager) (client : Client) : ClientAction → Except Stop Client
  | .receive message =>
      if client.callsReceive then
        .ok (client.receive manager RakNet.serverAddress (.custom message))
      else .error .notEnabled
  | .move draws =>
      match client.performAndSendMove draws with
      | none => .error .notEnabled
      | some (moved, _) => .ok moved
  | .endTurn =>
      match client.endTurn with
      | none => .error .notEnabled
      | some ended => .ok ended

/-- A client right after `ID_CONNECTION_REQUEST_ACCEPTED`. -/
def justConnected (manager : NetworkIDManager) (correctionsTracker : Option CorrectionsTracker) :
    Client :=
  Client.receive manager { correctionsTracker } RakNet.serverAddress
    (.library .connectionRequestAccepted)

end Client

/-- The packets that only a new client is sent. -/
def Message.isHandshake : Message → Bool
  | .gameConfig _ | .playerSpawn _ => true
  | .playerJoin _ | .playerLeave _ | .playerMove _ | .playerPosition _ => false

/-- The handshake packet that an action delivers. -/
def ClientAction.handshake? : ClientAction → Option Message
  | .receive message => if message.isHandshake then some message else none
  | .move _ | .endTurn => none

/-- The handshake packets in the order of their delivery. -/
def handshakes (actions : List ClientAction) : List Message :=
  actions.filterMap ClientAction.handshake?

@[simp]
theorem handshakes_nil : handshakes [] = [] := rfl

@[simp]
theorem handshakes_append (first second : List ClientAction) :
    handshakes (first ++ second) = handshakes first ++ handshakes second :=
  List.filterMap_append

theorem handshakes_receive {message : Message} (h : message.isHandshake = true) :
    handshakes [.receive message] = [message] := by
  simp [handshakes, ClientAction.handshake?, h]

/-- Where the last handshake packet is delivered. -/
theorem exists_delivery {actions : List ClientAction} {earlier : List Message} {message : Message}
    (h : handshakes actions = earlier ++ [message]) :
    ∃ before later, actions = before ++ .receive message :: later ∧
      handshakes before = earlier := by
  obtain ⟨first, second, rfl, hfirst, hsecond⟩ := List.filterMap_eq_append_iff.mp h
  obtain ⟨others, action, later, rfl, hothers, haction, _⟩ := List.filterMap_eq_cons_iff.mp hsecond
  have hreceive : action = .receive message := by
    cases action with
    | receive other =>
        rw [ClientAction.handshake?, Option.ite_none_right_eq_some] at haction
        rw [Option.some.inj haction.2]
    | move | endTurn => cases haction
  have hnone : handshakes others = [] := List.filterMap_eq_nil_iff.mpr hothers
  refine ⟨first ++ others, later, by rw [hreceive, List.append_assoc], ?_⟩
  rw [handshakes_append, hnone, List.append_nil]
  exact hfirst

/-- The waiting loop that the client is in, or the config and the id that it
plays with. -/
inductive Handshake
  | nothing
  | configured (config : GameConfigMessage)
  | complete (config : GameConfigMessage) (networkID : NetworkID)
  | failed
  deriving DecidableEq, Repr

/-- What a packet does to the handshake. -/
def Handshake.take : Handshake → Message → Handshake
  | .nothing, .gameConfig config => .configured config
  | .configured config, .playerSpawn spawn => .complete config spawn.networkID
  | handshake, _ => handshake

/-- The config that was applied. -/
def ClientGamestate.appliedConfig (gamestate : ClientGamestate) : GameConfigMessage :=
  ⟨gamestate.mapWidth, gamestate.mapHeight, gamestate.numPlayers⟩

/-- The handshake of a client, as its stage has it. -/
def ClientStage.handshake : ClientStage → Handshake
  | .waitForConnectionAndApplyGameConfiguration => .nothing
  | .waitForPlayerSpawn config => .configured config
  | .gameLoop gamestate => .complete gamestate.appliedConfig gamestate.localPlayer.networkID
  | .exited => .failed

/-- An action matters to the handshake if it delivers a packet. -/
def Handshake.after (handshake : Handshake) : ClientAction → Handshake
  | .receive message => handshake.take message
  | .move _ | .endTurn => handshake

theorem Handshake.take_of_isHandshake_eq_false {message : Message}
    (h : message.isHandshake = false) (handshake : Handshake) :
    handshake.take message = handshake := by
  cases message with
  | gameConfig | playerSpawn => cases h
  | playerJoin | playerLeave | playerMove | playerPosition => cases handshake <;> rfl

/-- Only the handshake packets matter, and their order. -/
theorem Handshake.foldl_after (handshake : Handshake) (actions : List ClientAction) :
    actions.foldl Handshake.after handshake =
      (handshakes actions).foldl Handshake.take handshake := by
  induction actions generalizing handshake with
  | nil => rfl
  | cons action actions ih =>
      rw [List.foldl_cons, ih]
      cases action with
      | receive message =>
          cases hmessage : message.isHandshake with
          | true => simp [handshakes, ClientAction.handshake?, hmessage, Handshake.after]
          | false =>
              rw [Handshake.after, Handshake.take_of_isHandshake_eq_false hmessage]
              simp [handshakes, ClientAction.handshake?, hmessage]
      | move draws => rfl
      | endTurn => rfl

/-- A handshake that is complete stays so. -/
theorem Handshake.foldl_after_complete (config : GameConfigMessage) (networkID : NetworkID)
    (actions : List ClientAction) :
    actions.foldl Handshake.after (.complete config networkID) = .complete config networkID := by
  induction actions with
  | nil => rfl
  | cons action actions ih =>
      rw [List.foldl_cons]
      cases action with
      | receive message => cases message <;> exact ih
      | move draws => exact ih
      | endTurn => exact ih

section Follows

variable {manager : NetworkIDManager} {client next : Client} {gamestate : ClientGamestate}

theorem setObjectPosition_appliedConfig (newPos : Position) (object : ℕ) :
    (gamestate.setObjectPosition newPos object).appliedConfig = gamestate.appliedConfig := by
  cases object <;> rfl

theorem handleCustomPacket_appliedConfig (tracker : Option CorrectionsTracker)
    (message : Message) :
    (handleCustomPacket manager gamestate tracker message).1.appliedConfig =
      gamestate.appliedConfig := by
  cases message with
  | playerJoin message =>
      rw [handleCustomPacket]
      split <;> rfl
  | playerPosition message =>
      simp only [handleCustomPacket, handlePlayerPositionUpdate]
      split
      · rfl
      · exact setObjectPosition_appliedConfig _ _
  | gameConfig | playerSpawn | playerLeave | playerMove => rfl

/-- A packet does to the client's handshake what it does to the handshake. -/
theorem handshake_receive (client : Client) (systemAddress : SystemAddress) (message : Message) :
    (client.receive manager systemAddress (.custom message)).stage.handshake =
      client.stage.handshake.take message := by
  cases hstage : client.stage with
  | waitForConnectionAndApplyGameConfiguration =>
      simp only [Client.receive, hstage]
      cases message with
      | gameConfig => rfl
      | playerSpawn | playerJoin | playerLeave | playerMove | playerPosition =>
          simp [Client.receiveWaitingForConfiguration, hstage, ClientStage.handshake,
            Handshake.take]
  | waitForPlayerSpawn config =>
      simp only [Client.receive, hstage]
      cases message with
      | playerSpawn => rfl
      | gameConfig | playerJoin | playerLeave | playerMove | playerPosition =>
          simp [Client.receiveWaitingForSpawn, hstage, ClientStage.handshake, Handshake.take]
  | gameLoop gamestate =>
      simp only [Client.receive, hstage, Client.receiveInGameLoop, ClientStage.handshake,
        Handshake.take, handleCustomPacket_appliedConfig, handleCustomPacket_networkID]
  | exited => simp [Client.receive, hstage, ClientStage.handshake, Handshake.take]

theorem handshake_perform {action : ClientAction} (h : client.perform manager action = .ok next) :
    next.stage.handshake = client.stage.handshake.after action := by
  cases action with
  | receive message =>
      rw [Client.perform] at h
      split at h
      · obtain rfl := Except.ok.inj h
        exact handshake_receive client _ message
      · cases h
  | move draws =>
      rw [Client.perform] at h
      split at h
      · cases h
      · next hmove =>
          obtain rfl := Except.ok.inj h
          obtain ⟨gamestate, hstage, _, hid, rfl⟩ := Client.performAndSendMove_eq_some hmove
          rw [hstage, Handshake.after, ClientStage.handshake, ClientStage.handshake, hid]
          rfl
  | endTurn =>
      rw [Client.perform] at h
      split at h
      · cases h
      · next hended =>
          obtain rfl := Except.ok.inj h
          rw [Client.endTurn_eq_some hended, Handshake.after]

/-- The handshake of the client is what the packets make of it. -/
theorem handshake_run {actions : List ClientAction}
    (hrun : run (Client.perform manager) client actions = .ok next) :
    next.stage.handshake = (handshakes actions).foldl Handshake.take client.stage.handshake := by
  let always : Client → Prop := fun _ => True
  have hpreserved : ∀ state action after, always state →
      Client.perform manager state action = .ok after → always after := fun _ _ _ _ _ => trivial
  rw [← Handshake.foldl_after]
  exact run_simulation hpreserved (fun _ _ _ _ hstep => handshake_perform hstep) trivial hrun

/-- A move is made in the game only. -/
theorem not_mem_move_of_run {actions : List ClientAction} {config : GameConfigMessage}
    (hrun : run (Client.perform manager) client actions = .ok next)
    (hwaiting : next.stage = .waitForPlayerSpawn config) (draws : List ℕ) :
    ClientAction.move draws ∉ actions := by
  intro hmem
  obtain ⟨before, later, rfl⟩ := List.append_of_mem hmem
  obtain ⟨middle, _, hrest⟩ := run_append_eq_ok.mp hrun
  obtain ⟨moved, hmove, hlater⟩ := run_cons_eq_ok.mp hrest
  have hcomplete : ∃ gamestate, moved.stage = .gameLoop gamestate := by
    rw [Client.perform] at hmove
    split at hmove
    · cases hmove
    · next hperformed =>
        obtain rfl := Except.ok.inj hmove
        obtain ⟨gamestate, _, _, _, rfl⟩ := Client.performAndSendMove_eq_some hperformed
        exact ⟨_, rfl⟩
  obtain ⟨gamestate, hgame⟩ := hcomplete
  have hend := handshake_run hlater
  rw [hgame, hwaiting, ClientStage.handshake, ← Handshake.foldl_after,
    ClientStage.handshake, Handshake.foldl_after_complete] at hend
  cases hend

end Follows

/-- The settings of the game are those of the two packets. -/
structure ClientGamestate.IsSetBy (gamestate : ClientGamestate) (config : GameConfigMessage)
    (spawn : PlayerSpawnAndIDMessage) : Prop where
  mapWidth : gamestate.mapWidth = config.mapWidth
  mapHeight : gamestate.mapHeight = config.mapHeight
  numPlayers : gamestate.numPlayers = config.playerCount
  networkID : gamestate.localPlayer.networkID = spawn.networkID

/-- At the end of a run the handshake is done: the client has left both waiting
loops with the settings of the two packets, it entered the game on its spawn
point before it made a move, and neither packet was taken without effect. -/
structure HandshakeDone (manager : NetworkIDManager) (start client : Client)
    (actions : List ClientAction) (config : GameConfigMessage) (spawn : PlayerSpawnAndIDMessage) :
    Prop where
  left : ∃ gamestate, client.stage = .gameLoop gamestate ∧ gamestate.IsSetBy config spawn
  spawned : ∃ before entered gamestate, before <+: actions ∧
    (∀ draws, ClientAction.move draws ∉ before) ∧
    run (Client.perform manager) start before = .ok entered ∧
    entered.stage = .gameLoop gamestate ∧ gamestate.IsSetBy config spawn ∧
    gamestate.localPlayer.pos = spawn.spawnPoint
  effect : ∀ before message state after, before ++ [.receive message] <+: actions →
    message.isHandshake = true → run (Client.perform manager) start before = .ok state →
    state.perform manager (.receive message) = .ok after → after ≠ state

variable {manager : NetworkIDManager} {tracker : Option CorrectionsTracker} {client : Client}
  {actions : List ClientAction} {config : GameConfigMessage} {spawn : PlayerSpawnAndIDMessage}

theorem exists_gameLoop_of_handshake {stage : ClientStage}
    (h : stage.handshake = .complete config spawn.networkID) :
    ∃ gamestate, stage = .gameLoop gamestate ∧ gamestate.IsSetBy config spawn := by
  cases stage with
  | gameLoop gamestate =>
      obtain ⟨rfl, hid⟩ := Handshake.complete.inj h
      exact ⟨gamestate, rfl, ⟨rfl, rfl, rfl, hid⟩⟩
  | waitForConnectionAndApplyGameConfiguration | waitForPlayerSpawn | exited => cases h

theorem stage_of_handshake_eq_configured {stage : ClientStage}
    (h : stage.handshake = .configured config) : stage = .waitForPlayerSpawn config := by
  cases stage with
  | waitForPlayerSpawn other => rw [Handshake.configured.inj h]
  | waitForConnectionAndApplyGameConfiguration | gameLoop | exited => cases h

/-- The spawn that a client waits for starts the game on its spawn point. -/
theorem HandshakeDone.exists_spawned
    (hrun : run (Client.perform manager) (Client.justConnected manager tracker) actions =
      .ok client)
    (horder : handshakes actions = [.gameConfig config, .playerSpawn spawn]) :
    ∃ before entered gamestate, before <+: actions ∧
      (∀ draws, ClientAction.move draws ∉ before) ∧
      run (Client.perform manager) (Client.justConnected manager tracker) before = .ok entered ∧
      entered.stage = .gameLoop gamestate ∧ gamestate.IsSetBy config spawn ∧
      gamestate.localPlayer.pos = spawn.spawnPoint := by
  have hlast : handshakes actions = [.gameConfig config] ++ [.playerSpawn spawn] := horder
  obtain ⟨before, later, rfl, hbefore⟩ := exists_delivery hlast
  obtain ⟨waiting, hwaiting, hrest⟩ := run_append_eq_ok.mp hrun
  obtain ⟨entered, hentered, _⟩ := run_cons_eq_ok.mp hrest
  have hstage : waiting.stage = .waitForPlayerSpawn config := by
    apply stage_of_handshake_eq_configured
    rw [handshake_run hwaiting, hbefore]
    rfl
  have hgame : entered.stage =
      .gameLoop (.createLocalPlayer config spawn.networkID spawn.spawnPoint) := by
    simp only [Client.perform, Client.callsReceive, hstage, if_true, Except.ok.injEq] at hentered
    rw [← hentered, Client.receive, hstage]
    rfl
  refine ⟨before ++ [.receive (.playerSpawn spawn)], entered, _, ?_, fun draws hmem => ?_,
    run_concat_eq_ok.mpr ⟨waiting, hwaiting, hentered⟩, hgame, ⟨rfl, rfl, rfl, rfl⟩, rfl⟩
  · exact ⟨later, by simp⟩
  · have hmoved : ClientAction.move draws ∈ before := by simpa using hmem
    exact not_mem_move_of_run hwaiting hstage draws hmoved

/-- Each of the two packets takes the handshake a step further. -/
theorem HandshakeDone.ne_of_perform
    (horder : handshakes actions = [.gameConfig config, .playerSpawn spawn])
    {before : List ClientAction} {message : Message} {state after : Client}
    (hpre : before ++ [.receive message] <+: actions) (hmessage : message.isHandshake = true)
    (hrun : run (Client.perform manager) (Client.justConnected manager tracker) before =
      .ok state)
    (hafter : state.perform manager (.receive message) = .ok after) : after ≠ state := by
  have hdelivered : handshakes before ++ [message] <+:
      [.gameConfig config, .playerSpawn spawn] := by
    obtain ⟨rest, rfl⟩ := hpre
    rw [← handshakes_receive hmessage, ← handshakes_append, ← horder, handshakes_append _ rest]
    exact List.prefix_append _ _
  have hstate := handshake_run hrun
  have hstep := handshake_perform hafter
  intro heq
  rw [heq, hstate] at hstep
  match hbefore : handshakes before, hdelivered with
  | [], hdelivered =>
      obtain ⟨rfl, _⟩ := List.cons_prefix_cons.mp hdelivered
      rw [hbefore] at hstep
      cases hstep
  | first :: [], hdelivered =>
      obtain ⟨rfl, hsecond⟩ := List.cons_prefix_cons.mp hdelivered
      obtain ⟨rfl, _⟩ := List.cons_prefix_cons.mp hsecond
      rw [hbefore] at hstep
      cases hstep
  | first :: second :: rest, hdelivered =>
      have hlength := hdelivered.length_le
      simp at hlength

/-- **The order decides.** When a client has taken one config and one spawn, with
any other packets and whatever it did in between, its handshake is done if and
only if the spawn was delivered after the config. -/
theorem handshakeDone_iff
    (hrun : run (Client.perform manager) (Client.justConnected manager tracker) actions =
      .ok client)
    (hdelivered : (handshakes actions).Perm [.gameConfig config, .playerSpawn spawn]) :
    HandshakeDone manager (Client.justConnected manager tracker) client actions config spawn ↔
      handshakes actions = [.gameConfig config, .playerSpawn spawn] := by
  have hend := handshake_run hrun
  constructor
  · intro hdone
    rcases List.perm_pair.mp hdelivered with horder | horder
    · exact horder
    · -- the spawn is freed in the first loop, and the second never ends
      obtain ⟨gamestate, hgame, _⟩ := hdone.left
      rw [horder, hgame] at hend
      cases hend
  · intro horder
    rw [horder] at hend
    exact {
      left := exists_gameLoop_of_handshake hend
      spawned := HandshakeDone.exists_spawned hrun horder
      effect := fun _ _ _ _ hpre hmessage hbefore hafter =>
        HandshakeDone.ne_of_perform horder hpre hmessage hbefore hafter }

/-- A config and a spawn among other packets, and a turn of the game. -/
def inOrder : List ClientAction :=
  [.receive (.playerPosition ⟨4, ⟨1, 1⟩⟩), .receive (.gameConfig ⟨100, 100, 2⟩),
    .receive (.playerJoin ⟨⟨3, 3⟩, 9⟩), .receive (.playerSpawn ⟨⟨3, 3⟩, 9⟩), .move [0],
    .receive (.playerPosition ⟨4, ⟨1, 2⟩⟩), .endTurn]

theorem handshakeDone_inOrder : ∃ client,
    run (Client.perform firstRegistered) (Client.justConnected firstRegistered none) inOrder =
      .ok client ∧
    HandshakeDone firstRegistered (Client.justConnected firstRegistered none) client inOrder
      ⟨100, 100, 2⟩ ⟨⟨3, 3⟩, 9⟩ := by
  have hrun : run (Client.perform firstRegistered) (Client.justConnected firstRegistered none)
      inOrder = .ok _ := rfl
  exact ⟨_, hrun, (handshakeDone_iff hrun (.refl _)).mpr rfl⟩

/-- The same two packets, the other way round. -/
def spawnFirst : List ClientAction :=
  [.receive (.playerSpawn ⟨⟨3, 3⟩, 9⟩), .receive (.gameConfig ⟨100, 100, 2⟩)]

/-- The spawn changes nothing, and the client waits for another one. -/
theorem spawn_freed_in_first_loop : ∃ client,
    (Client.justConnected firstRegistered none).perform firstRegistered
      (.receive (.playerSpawn ⟨⟨3, 3⟩, 9⟩)) = .ok (Client.justConnected firstRegistered none) ∧
    run (Client.perform firstRegistered) (Client.justConnected firstRegistered none) spawnFirst =
      .ok client ∧
    client.stage = .waitForPlayerSpawn ⟨100, 100, 2⟩ ∧
    ¬ HandshakeDone firstRegistered (Client.justConnected firstRegistered none) client spawnFirst
      ⟨100, 100, 2⟩ ⟨⟨3, 3⟩, 9⟩ := by
  refine ⟨_, rfl, rfl, rfl, fun hdone => ?_⟩
  obtain ⟨gamestate, hgame, _⟩ := hdone.left
  cases hgame

end LibBench.RakNet
