/-
# Yojimbo: the client

`yojimbo/client.cpp`. One iteration of `ClientMain` handles the messages that
have arrived, moves and sends the move once the config was received, and writes
a row of the corrections log. Until the config and then the spawn message have
come, every other message is dropped.

The game state is uninitialised memory until messages fill it in, and the
client moves before its player has spawned; so what that memory holds is an
argument of the initial state. The tracker exists only when corrections are
counted, but two places use it without a test.
-/

import Std.Data.TreeMap.Lemmas
import LibBench.Game.CorrectionsTracker
import LibBench.Math.Execution
import LibBench.Yojimbo.Messages

namespace LibBench.Yojimbo

open LibBench.Math

/-- `ClientGameState`. -/
structure ClientGameState extends GameState where
  localPlayer : Player
  remotePlayerPositions : Std.TreeMap ClientID Position := ∅

namespace ClientGameState

/-- `AddRemotePlayer`: add an entry or overwrite it, whoever the player is. -/
def addRemotePlayer (gameState : ClientGameState) (remotePlayerID : ClientID)
    (pos : Position) : ClientGameState :=
  { gameState with
    remotePlayerPositions := gameState.remotePlayerPositions.insert remotePlayerID pos }

/-- `CreateLocalPlayer`. The slot it is given is not kept. -/
def createLocalPlayer (gameState : ClientGameState) (_clientIndex : ClientID)
    (spawnPosition : Position) : ClientGameState :=
  { gameState with localPlayer := ⟨spawnPosition⟩ }

/-- `PerformLocalMove`: choose a move that no remote player's position takes and
perform it. -/
def performLocalMove (gameState : ClientGameState) (draws : List ℕ) :
    Option (Position × ClientGameState) :=
  (chooseMove gameState.mapWidth gameState.mapHeight gameState.localPlayer.pos
      (gameState.remotePlayerPositions.toList.map Prod.snd) draws).map fun chosenMove =>
    (chosenMove, { gameState with localPlayer := ⟨chosenMove⟩ })

end ClientGameState

/-- The client's test for a correction: the known position and the message's
are more than one space apart. -/
def isCorrection (remotePlayerPosition : Position) (message : PlayerPositionMessage) : Bool :=
  decide (1 < |Position.difference remotePlayerPosition.x message.x|) ||
    decide (1 < |Position.difference remotePlayerPosition.y message.y|)

/-- The game state and the corrections tracker, which there is exactly when
corrections are tracked. -/
abbrev Handling := ClientGameState × Option CorrectionsTracker

/-- `ProcessGameConfigMessage`. -/
def processGameConfigMessage (gameState : ClientGameState) (message : GameConfigMessage) :
    ClientGameState :=
  { gameState with
    mapHeight := message.mapHeight
    mapWidth := message.mapWidth
    numPlayers := message.numPlayers }

/-- `ProcessPlayerPositionMessage`. The tracker is told of the update whether or
not there is one. -/
def processPlayerPositionMessage (gameState : ClientGameState)
    (correctionsTracker : Option CorrectionsTracker) (message : PlayerPositionMessage) :
    Except Stop Handling :=
  let known := gameState.remotePlayerPositions[message.playerID]?
  let counted :=
    if known.any fun remotePlayerPosition => isCorrection remotePlayerPosition message then
      correctionsTracker.map CorrectionsTracker.correctionMade
    else correctionsTracker
  match counted with
  | none => .error .nullTracker
  | some tracker =>
      .ok (gameState.addRemotePlayer message.playerID ⟨message.x, message.y⟩,
        some tracker.updatesReceivedInTick)

/-- `ProcessMessage`. -/
def processMessage (gameState : ClientGameState)
    (correctionsTracker : Option CorrectionsTracker) : Message → Except Stop Handling
  | .gameConfig message => .ok (processGameConfigMessage gameState message, correctionsTracker)
  | .playerSpawnAndID message =>
      .ok (gameState.createLocalPlayer message.playerID ⟨message.x, message.y⟩,
        correctionsTracker)
  | .newPlayerJoined message =>
      .ok (gameState.addRemotePlayer message.playerID ⟨message.x, message.y⟩,
        correctionsTracker)
  | .playerPosition message => processPlayerPositionMessage gameState correctionsTracker message
  | .playerMove _ => .ok (gameState, correctionsTracker)

/-- `sendLocalPlayerMove`. -/
def sendLocalPlayerMove (clientIndex : ClientID) (newPos : Position) (channel : ChannelType) :
    Envelope :=
  ⟨channel, .playerMove ⟨newPos.x, newPos.y, clientIndex⟩⟩

/-- The variables of `ClientMain`. -/
structure Client where
  clientId : UInt64
  reliableMessaging : Bool := false
  gameState : ClientGameState
  configReceived : Bool := false
  playerSpawnAndIdReceived : Bool := false
  correctionsTracker : Option CorrectionsTracker := none

namespace Client

/-- Process a message and keep what comes of it. -/
def process (client : Client) (message : Message) : Except Stop Client :=
  match processMessage client.gameState client.correctionsTracker message with
  | .error stop => .error stop
  | .ok (gameState, correctionsTracker) => .ok { client with gameState, correctionsTracker }

/-- The body of the message loop: first the config, then the spawn message, then
everything. -/
def receiveMessage (client : Client) (message : Message) : Except Stop Client :=
  if !client.configReceived then
    match message with
    | .gameConfig _ => { client with configReceived := true }.process message
    | _ => .ok client
  else if !client.playerSpawnAndIdReceived then
    match message with
    | .playerSpawnAndID _ => { client with playerSpawnAndIdReceived := true }.process message
    | _ => .ok client
  else client.process message

/-- The message loop. -/
def receiveMessages : Client → List Message → Except Stop Client
  | client, [] => .ok client
  | client, message :: messages =>
      match client.receiveMessage message with
      | .error stop => .error stop
      | .ok next => next.receiveMessages messages

/-- Move and push the action to the server, once the config was received. The
64-bit client id is passed as the 8-bit index. -/
def move (client : Client) (draws : List ℕ) : Except Stop (Client × List Envelope) :=
  if client.configReceived then
    match client.gameState.performLocalMove draws with
    | none => .error .drawsExhausted
    | some (newPlayerPos, gameState) =>
        .ok ({ client with gameState },
          [sendLocalPlayerMove client.clientId.toUInt8 newPlayerPos
            (channelType client.reliableMessaging)])
  else .ok (client, [])

/-- `correctionsTracker->writeLine()`. -/
def writeLine (client : Client) : Except Stop Client :=
  match client.correctionsTracker with
  | none => .error .nullTracker
  | some tracker => .ok { client with correctionsTracker := some tracker.writeLine }

/-- One iteration of `ClientMain` with the messages that have arrived: what it
sends and how it goes on. -/
def iterate (client : Client) (messages : List Message) (draws : List ℕ) :
    Except Stop (Client × List Envelope) :=
  match client.receiveMessages messages with
  | .error stop => .error stop
  | .ok received =>
      match received.move draws with
      | .error stop => .error stop
      | .ok (moved, sent) =>
          match moved.writeLine with
          | .error stop => .error stop
          | .ok next => .ok (next, sent)

/-- The cases of the message loop: a message is dropped, completes the first or
the second half of the handshake, or is processed by a client in the game. -/
inductive Reception (client : Client) : Message → Client → Prop
  | beforeConfig {message : Message} (config : client.configReceived = false)
      (other : ∀ configMessage, message ≠ .gameConfig configMessage) :
      Reception client message client
  | config {message : GameConfigMessage} (config : client.configReceived = false) :
      Reception client (.gameConfig message)
        { client with
          configReceived := true
          gameState := processGameConfigMessage client.gameState message }
  | beforeSpawn {message : Message} (config : client.configReceived = true)
      (spawn : client.playerSpawnAndIdReceived = false)
      (other : ∀ spawnMessage, message ≠ .playerSpawnAndID spawnMessage) :
      Reception client message client
  | spawn {message : PlayerSpawnAndIDMessage} (config : client.configReceived = true)
      (spawn : client.playerSpawnAndIdReceived = false) :
      Reception client (.playerSpawnAndID message)
        { client with
          playerSpawnAndIdReceived := true
          gameState :=
            client.gameState.createLocalPlayer message.playerID ⟨message.x, message.y⟩ }
  | play {message : Message} {gameState : ClientGameState}
      {correctionsTracker : Option CorrectionsTracker} (config : client.configReceived = true)
      (spawn : client.playerSpawnAndIdReceived = true)
      (process : processMessage client.gameState client.correctionsTracker message =
        .ok (gameState, correctionsTracker)) :
      Reception client message { client with gameState, correctionsTracker }

theorem reception_of_receiveMessage {client next : Client} {message : Message}
    (h : client.receiveMessage message = .ok next) : client.Reception message next := by
  obtain ⟨_, _, gameState, configReceived, playerSpawnAndIdReceived, _⟩ := client
  cases configReceived with
  | false =>
      cases message with
      | gameConfig message =>
          obtain rfl := Except.ok.inj h
          exact .config rfl
      | playerSpawnAndID | newPlayerJoined | playerMove | playerPosition =>
          obtain rfl := Except.ok.inj h
          exact .beforeConfig rfl nofun
  | true =>
      cases playerSpawnAndIdReceived with
      | false =>
          cases message with
          | playerSpawnAndID message =>
              obtain rfl := Except.ok.inj h
              exact .spawn rfl rfl
          | gameConfig | newPlayerJoined | playerMove | playerPosition =>
              obtain rfl := Except.ok.inj h
              exact .beforeSpawn rfl rfl nofun
      | true =>
          simp only [receiveMessage, Bool.not_true, Bool.false_eq_true, if_false, process] at h
          split at h
          · cases h
          · next hprocess =>
              obtain rfl := Except.ok.inj h
              exact .play rfl rfl hprocess

/-- The message loop, as a run. -/
theorem receiveMessages_eq_run (client : Client) (messages : List Message) :
    client.receiveMessages messages = run Client.receiveMessage client messages := by
  induction messages generalizing client with
  | nil => rfl
  | cons message messages ih =>
      rw [receiveMessages, run]
      cases client.receiveMessage message with
      | error stop => rfl
      | ok received => exact ih received

/-- Before the config there is no move. After it a finished choice is performed
and sent. -/
theorem move_cases {client moved : Client} {draws : List ℕ} {sent : List Envelope}
    (h : client.move draws = .ok (moved, sent)) :
    (client.configReceived = false ∧ moved = client ∧ sent = []) ∨
      (client.configReceived = true ∧ ∃ chosenMove,
        chooseMove client.gameState.mapWidth client.gameState.mapHeight
          client.gameState.localPlayer.pos
          (client.gameState.remotePlayerPositions.toList.map Prod.snd) draws = some chosenMove ∧
        moved =
          { client with gameState := { client.gameState with localPlayer := ⟨chosenMove⟩ } } ∧
        sent = [sendLocalPlayerMove client.clientId.toUInt8 chosenMove
          (channelType client.reliableMessaging)]) := by
  rw [move] at h
  split at h
  · next hconfig =>
      split at h
      · cases h
      · next hmove =>
          rw [ClientGameState.performLocalMove, Option.map_eq_some_iff] at hmove
          obtain ⟨chosenMove, hchosen, hresult⟩ := hmove
          obtain ⟨rfl, rfl⟩ := Prod.mk.inj hresult
          obtain ⟨rfl, rfl⟩ := Prod.mk.inj (Except.ok.inj h)
          exact Or.inr ⟨hconfig, chosenMove, hchosen, rfl, rfl⟩
  · next hconfig =>
      obtain ⟨rfl, rfl⟩ := Prod.mk.inj (Except.ok.inj h)
      exact Or.inl ⟨Bool.eq_false_iff.mpr hconfig, rfl, rfl⟩

theorem writeLine_eq_some {client next : Client} (h : client.writeLine = .ok next) :
    ∃ tracker, next = { client with correctionsTracker := some tracker } := by
  rw [writeLine] at h
  split at h
  · cases h
  · exact ⟨_, (Except.ok.inj h).symm⟩

theorem phases_of_iterate {client next : Client} {messages : List Message} {draws : List ℕ}
    {sent : List Envelope} (h : client.iterate messages draws = .ok (next, sent)) :
    ∃ received moved, client.receiveMessages messages = .ok received ∧
      received.move draws = .ok (moved, sent) ∧ moved.writeLine = .ok next := by
  rw [iterate] at h
  split at h
  · cases h
  · next received hreceived =>
      split at h
      · cases h
      · next moved more hmoved =>
          split at h
          · cases h
          · next ended hended =>
              obtain ⟨rfl, rfl⟩ := Prod.mk.inj (Except.ok.inj h)
              exact ⟨received, moved, hreceived, hmoved, hended⟩

/-- A position is filed under the remote players, whoever's it is. -/
theorem exists_processPlayerPositionMessage (gameState : ClientGameState)
    {tracker : Option CorrectionsTracker} (htracker : tracker.isSome)
    (message : PlayerPositionMessage) :
    ∃ kept, processPlayerPositionMessage gameState tracker message =
      .ok (gameState.addRemotePlayer message.playerID ⟨message.x, message.y⟩, some kept) := by
  obtain ⟨before, rfl⟩ := Option.isSome_iff_exists.mp htracker
  rw [processPlayerPositionMessage]
  cases (gameState.remotePlayerPositions[message.playerID]?).any fun remotePlayerPosition =>
      isCorrection remotePlayerPosition message with
  | true => exact ⟨_, rfl⟩
  | false => exact ⟨_, rfl⟩

theorem processMessage_playerPosition_eq_ok {gameState changed : ClientGameState}
    {tracker kept : Option CorrectionsTracker} {message : PlayerPositionMessage}
    (h : processMessage gameState tracker (.playerPosition message) = .ok (changed, kept)) :
    changed = gameState.addRemotePlayer message.playerID ⟨message.x, message.y⟩ ∧ kept.isSome := by
  simp only [processMessage, processPlayerPositionMessage] at h
  split at h
  · cases h
  · obtain ⟨rfl, rfl⟩ := Prod.mk.inj (Except.ok.inj h)
    exact ⟨rfl, rfl⟩

/-- A tracker stays. -/
theorem isSome_tracker_of_processMessage {gameState changed : ClientGameState}
    {tracker kept : Option CorrectionsTracker} {message : Message} (htracker : tracker.isSome)
    (h : processMessage gameState tracker message = .ok (changed, kept)) : kept.isSome := by
  cases message with
  | playerPosition message => exact (processMessage_playerPosition_eq_ok h).2
  | gameConfig | playerSpawnAndID | newPlayerJoined | playerMove =>
      obtain ⟨_, rfl⟩ := Prod.mk.inj (Except.ok.inj h)
      exact htracker

theorem clientId_of_receiveMessage {client next : Client} {message : Message}
    (h : client.receiveMessage message = .ok next) : next.clientId = client.clientId := by
  cases reception_of_receiveMessage h with
  | beforeConfig | config | beforeSpawn | spawn | play => rfl

theorem clientId_of_receiveMessages {client next : Client} {messages : List Message}
    (h : client.receiveMessages messages = .ok next) : next.clientId = client.clientId := by
  induction messages generalizing client with
  | nil => exact (Except.ok.inj h) ▸ rfl
  | cons message messages ih =>
      rw [receiveMessages] at h
      split at h
      · cases h
      · next received hreceived => exact (ih h).trans (clientId_of_receiveMessage hreceived)

theorem move_eq_ok {client moved : Client} {draws : List ℕ} {sent : List Envelope}
    (h : client.move draws = .ok (moved, sent)) :
    moved.clientId = client.clientId ∧ ∀ envelope ∈ sent, ∃ newPos : Position,
      envelope.message = .playerMove ⟨newPos.x, newPos.y, client.clientId.toUInt8⟩ := by
  obtain ⟨_, rfl, rfl⟩ | ⟨_, chosenMove, _, rfl, rfl⟩ := move_cases h
  · exact ⟨rfl, by simp⟩
  · refine ⟨rfl, fun envelope henvelope => ⟨chosenMove, ?_⟩⟩
    rw [List.mem_singleton.mp henvelope, sendLocalPlayerMove]

/-- All that a client sends is moves under the low eight bits of its id. -/
theorem iterate_eq_ok {client next : Client} {messages : List Message} {draws : List ℕ}
    {sent : List Envelope} (h : client.iterate messages draws = .ok (next, sent)) :
    next.clientId = client.clientId ∧ ∀ envelope ∈ sent, ∃ newPos : Position,
      envelope.message = .playerMove ⟨newPos.x, newPos.y, client.clientId.toUInt8⟩ := by
  obtain ⟨received, moved, hreceived, hmoved, hwritten⟩ := phases_of_iterate h
  obtain ⟨hmovedId, hsent⟩ := move_eq_ok hmoved
  rw [clientId_of_receiveMessages hreceived] at hmovedId hsent
  obtain ⟨_, rfl⟩ := writeLine_eq_some hwritten
  exact ⟨hmovedId, hsent⟩

end Client

/-- What a client brings along when it connects. Without a tracker a client
faults in its first iteration, before it has advanced the connection at all. -/
structure ConnectingClient where
  clientId : UInt64
  reliableMessaging : Bool := false
  memory : GameState := ⟨0, 0, 0⟩
  localPlayer : Player := ⟨⟨0, 0⟩⟩
  correctionsTracker : CorrectionsTracker := {}
  deriving DecidableEq, Repr

/-- The client program at that point: no message has reached it yet. -/
def ConnectingClient.client (connecting : ConnectingClient) : Client where
  clientId := connecting.clientId
  reliableMessaging := connecting.reliableMessaging
  gameState := { connecting.memory with localPlayer := connecting.localPlayer }
  correctionsTracker := some connecting.correctionsTracker

end LibBench.Yojimbo
