/-
# Yojimbo: sessions, slots and the server's iterations

The server, the sessions in its slots and what is on its way between the two.
The library accepts and disconnects clients inside `AdvanceTime` and nowhere
else, so between two calls of it the slots stand still; a session that ends
takes with it everything that was on its way.

A session starts with the acceptance of a client into a free slot and ends with
a disconnect. Nothing in the server tells two sessions of one slot apart; the
serial number here does, and so does the record of what was sent to a session.
Both are for stating what should hold and no function of the server reads them.

The server's phases come in the order of `ServerMain`. The messages of one
iteration may arrive in any order, and the network may lose any message; what
the channels promise beyond that is not used. A session's peer is a client
program, but any other message may be put on its uplink too: a run in which that
happens is one with a client that is not honest.
-/

import LibBench.Yojimbo.Client
import LibBench.Yojimbo.Handshake

namespace LibBench.Yojimbo

open LibBench.Math

/-- The record of a session: its serial number, and everything the server has
sent in it so far. -/
structure SessionRecord where
  serial : ℕ
  sent : List Envelope := []
  deriving DecidableEq, Repr

/-- A session: its record, the client program, and what is on its way in both
directions. -/
structure Session extends SessionRecord where
  client : Client
  uplink : List Envelope := []
  downlink : List Envelope := []

/-- What a session's peer does, or the network to its messages. -/
inductive PeerAction
  | iterate (received : List ℕ) (draws : List ℕ)
  | forge (envelope : Envelope)
  | loseUplink (index : ℕ)
  | loseDownlink (index : ℕ)
  deriving DecidableEq, Repr

/-- Take messages one after the other, each by its index among those left. -/
def takeMessages : List Envelope → List ℕ → Option (List Message × List Envelope)
  | pending, [] => some ([], pending)
  | pending, index :: received =>
      match pending[index]? with
      | none => none
      | some envelope =>
          (takeMessages (pending.eraseIdx index) received).map fun (messages, left) =>
            (envelope.message :: messages, left)

namespace Session

/-- Perform an action of the peer, if it is enabled. -/
def act (session : Session) : PeerAction → Except Stop Session
  | .iterate received draws =>
      match takeMessages session.downlink received with
      | none => .error .notEnabled
      | some (messages, left) =>
          match session.client.iterate messages draws with
          | .error stop => .error stop
          | .ok (client, sent) =>
              .ok { session with client, uplink := session.uplink ++ sent, downlink := left }
  | .forge envelope => .ok { session with uplink := session.uplink ++ [envelope] }
  | .loseUplink index => .ok { session with uplink := session.uplink.eraseIdx index }
  | .loseDownlink index => .ok { session with downlink := session.downlink.eraseIdx index }

/-- Put what the server sends on the downlink, and on record. -/
def deliver (session : Session) (envelopes : List Envelope) : Session :=
  { session with
    downlink := session.downlink ++ envelopes
    sent := session.sent ++ envelopes }

/-- Take one message off the uplink. -/
def dropUplink (session : Session) (index : ℕ) : Session :=
  { session with uplink := session.uplink.eraseIdx index }

/-- The peer does not write the record. -/
theorem toSessionRecord_of_act {session next : Session} {action : PeerAction}
    (h : session.act action = .ok next) : next.toSessionRecord = session.toSessionRecord := by
  cases action with
  | iterate received draws =>
      rw [act] at h
      split at h
      · cases h
      · split at h
        · cases h
        · exact (Except.ok.inj h) ▸ rfl
  | forge | loseUplink | loseDownlink => exact (Except.ok.inj h) ▸ rfl

end Session

/-- What happens to the slots inside `AdvanceTime`: the response of a client
that wants to connect, or a disconnect for whatever reason. -/
inductive NetworkEvent
  | connectionResponse (connecting : ConnectingClient)
  | disconnect (clientIndex : ClientID)
  deriving DecidableEq, Repr

/-- The slots and the number of sessions so far. -/
structure Network where
  session : ClientID → Option Session := fun _ => none
  sessions : ℕ := 0

namespace Network

/-- `netcode_server_client_connected`. -/
def isClientConnected (network : Network) (clientIndex : ClientID) : Bool :=
  (network.session clientIndex).isSome

/-- `netcode_server_find_client_index_by_id`. -/
def findClientIndexById (network : Network) (clientId : UInt64) : Option ClientID :=
  clientIndices.find? fun i =>
    (network.session i).any fun session => session.client.clientId = clientId

/-- `netcode_server_find_free_client_index`. -/
def findFreeClientIndex (network : Network) : Option ClientID :=
  clientIndices.find? fun i => !network.isClientConnected i

/-- Put a new session into a slot. -/
def connectClient (network : Network) (clientIndex : ClientID) (connecting : ConnectingClient) :
    Network where
  session := Function.update network.session clientIndex
    (some { serial := network.sessions, client := connecting.client })
  sessions := network.sessions + 1

/-- One event. A response is ignored while a client with its id is connected,
and denied when the server is full. -/
def apply (network : Network) : NetworkEvent → Network
  | .connectionResponse connecting =>
      match network.findClientIndexById connecting.clientId with
      | some _ => network
      | none =>
          match network.findFreeClientIndex with
          | none => network
          | some clientIndex => network.connectClient clientIndex connecting
  | .disconnect clientIndex =>
      { network with session := Function.update network.session clientIndex none }

/-- `server.AdvanceTime`: the events that the library finds to have happened. -/
def advanceTime (network : Network) (events : List NetworkEvent) : Network :=
  events.foldl apply network

/-- Change the session in a slot. -/
def setSession (network : Network) (clientIndex : ClientID) (session : Session) : Network :=
  { network with session := Function.update network.session clientIndex (some session) }

/-- Send to every slot what is for it. -/
def deliver (network : Network) (sent : List Send) : Network :=
  { network with
    session := fun slot => (network.session slot).map fun session =>
      session.deliver (sentTo slot sent) }

/-- The record of the session in a slot. -/
def record (network : Network) (slot : ClientID) : Option SessionRecord :=
  (network.session slot).map Session.toSessionRecord

theorem isClientConnected_eq_record_isSome (network : Network) (slot : ClientID) :
    network.isClientConnected slot = (network.record slot).isSome := by
  rw [record, Option.isSome_map, isClientConnected]

/-- A session that goes on under its record leaves all records as they are. -/
theorem record_setSession {network : Network} {clientIndex : ClientID} {session next : Session}
    (hsession : network.session clientIndex = some session)
    (hnext : next.toSessionRecord = session.toSessionRecord) :
    (network.setSession clientIndex next).record = network.record := by
  funext slot
  by_cases hslot : slot = clientIndex
  · subst hslot
    simp [record, setSession, hsession, hnext]
  · simp [record, setSession, hslot]

theorem record_deliver (network : Network) (sent : List Send) (slot : ClientID) :
    (network.deliver sent).record slot = (network.record slot).map fun record =>
      { record with sent := record.sent ++ sentTo slot sent } := by
  simp [record, deliver, Session.deliver, Function.comp_def]

end Network

/-- Where the server is in its iteration: before the connect phase, before or in
the receive phase, or before `AdvanceTime`. -/
inductive ServerPhase
  | connect
  | receive
  | advanceTime
  deriving DecidableEq, Repr

/-- The server and its slots. For each player object, `createdFor` is the serial
number of the session that was in the slot when the object was created. -/
structure World where
  gameConfig : GameConfig
  gameState : ServerGameState
  phase : ServerPhase := .connect
  network : Network := {}
  createdFor : ClientID → Option ℕ := fun _ => none

/-- One step of a run. -/
inductive Action
  | handleNewClients (draws : ClientID → List (ℕ × ℕ))
  | receiveMessage (clientIndex : ClientID) (index : ℕ)
  | updateAndBroadcast
  | advanceTime (events : List NetworkEvent)
  | peer (clientIndex : ClientID) (action : PeerAction)

/-- An iteration of the server without messages, from one receive phase to the
next. -/
def serverIteration (events : List NetworkEvent) (draws : ClientID → List (ℕ × ℕ)) :
    List Action :=
  [.updateAndBroadcast, .advanceTime events, .handleNewClients draws]

namespace World

/-- `ServerMain` before its loop. -/
def start (gameConfig : GameConfig) (memory : GameState) : World where
  gameConfig
  gameState := { memory with }

/-- The sessions that the player objects were created for, after a connect
phase that leads from one game state to another. -/
def creators (world : World) (next : ServerGameState) (slot : ClientID) : Option ℕ :=
  match world.gameState.connectedPlayers[slot]?, next.connectedPlayers[slot]? with
  | _, none => none
  | none, some _ => (world.network.record slot).map SessionRecord.serial
  | some _, some _ => world.createdFor slot

/-- The connect phase. -/
def handleNewClients (world : World) (draws : ClientID → List (ℕ × ℕ)) : Except Stop World :=
  match world.gameState.handleNewClients world.gameConfig world.network.isClientConnected
      draws with
  | .error stop => .error stop
  | .ok (gameState, sent) =>
      .ok { world with
        gameState
        phase := .receive
        network := world.network.deliver sent
        createdFor := world.creators gameState }

/-- One message of the receive phase. -/
def receiveMessage (world : World) (clientIndex : ClientID) (index : ℕ) : Except Stop World :=
  match world.network.session clientIndex with
  | none => .error .notEnabled
  | some session =>
      match session.uplink[index]? with
      | none => .error .notEnabled
      | some envelope =>
          .ok { world with
            gameState := world.gameState.processMessage clientIndex envelope.message
            network := world.network.setSession clientIndex (session.dropUplink index) }

/-- The end of the iteration up to `AdvanceTime`. -/
def updateAndBroadcast (world : World) : Except Stop World :=
  match world.gameState.updatePlayerPositions.broadcastPlayerPositions world.gameConfig
      world.network.isClientConnected with
  | .error stop => .error stop
  | .ok sent =>
      .ok { world with
        gameState := world.gameState.updatePlayerPositions
        phase := .advanceTime
        network := world.network.deliver sent }

/-- Perform a step, if it is enabled and the program does not fault. -/
def step (world : World) : Action → Except Stop World
  | .handleNewClients draws =>
      if world.phase = .connect then world.handleNewClients draws else .error .notEnabled
  | .receiveMessage clientIndex index =>
      if world.phase = .receive then world.receiveMessage clientIndex index
      else .error .notEnabled
  | .updateAndBroadcast =>
      if world.phase = .receive then world.updateAndBroadcast else .error .notEnabled
  | .advanceTime events =>
      if world.phase = .advanceTime then
        .ok { world with phase := .connect, network := world.network.advanceTime events }
      else .error .notEnabled
  | .peer clientIndex action =>
      match world.network.session clientIndex with
      | none => .error .notEnabled
      | some session =>
          match session.act action with
          | .error stop => .error stop
          | .ok next =>
              .ok { world with network := world.network.setSession clientIndex next }

variable {world next : World}

theorem step_handleNewClients_eq_ok {draws : ClientID → List (ℕ × ℕ)}
    (h : world.step (.handleNewClients draws) = .ok next) :
    world.phase = .connect ∧ ∃ gameState sent,
      world.gameState.handleNewClients world.gameConfig world.network.isClientConnected draws =
        .ok (gameState, sent) ∧
      next = { world with
        gameState
        phase := .receive
        network := world.network.deliver sent
        createdFor := world.creators gameState } := by
  rw [step] at h
  split at h
  · next hphase =>
      rw [handleNewClients] at h
      split at h
      · cases h
      · next gameState sent hhandle =>
          exact ⟨hphase, gameState, sent, hhandle, (Except.ok.inj h).symm⟩
  · cases h

theorem step_receiveMessage_eq_ok {clientIndex : ClientID} {index : ℕ}
    (h : world.step (.receiveMessage clientIndex index) = .ok next) :
    world.phase = .receive ∧ ∃ session envelope,
      world.network.session clientIndex = some session ∧
      session.uplink[index]? = some envelope ∧
      next = { world with
        gameState := world.gameState.processMessage clientIndex envelope.message
        network := world.network.setSession clientIndex (session.dropUplink index) } := by
  rw [step] at h
  split at h
  · next hphase =>
      rw [receiveMessage] at h
      split at h
      · cases h
      · next session hsession =>
          split at h
          · cases h
          · next envelope henvelope =>
              exact ⟨hphase, session, envelope, hsession, henvelope, (Except.ok.inj h).symm⟩
  · cases h

/-- Any message on the uplink can be received. -/
theorem exists_step_receiveMessage (hphase : world.phase = .receive) {clientIndex : ClientID}
    {session : Session} (hsession : world.network.session clientIndex = some session) {index : ℕ}
    (hlt : index < session.uplink.length) :
    ∃ next, world.step (.receiveMessage clientIndex index) = .ok next := by
  have henvelope := List.getElem?_eq_getElem hlt
  simp only [step, if_pos hphase, receiveMessage, hsession, henvelope, Except.ok.injEq,
    exists_eq']

theorem step_updateAndBroadcast_eq_ok (h : world.step .updateAndBroadcast = .ok next) :
    world.phase = .receive ∧ ∃ sent,
      world.gameState.updatePlayerPositions.broadcastPlayerPositions world.gameConfig
        world.network.isClientConnected = .ok sent ∧
      next = { world with
        gameState := world.gameState.updatePlayerPositions
        phase := .advanceTime
        network := world.network.deliver sent } := by
  rw [step] at h
  split at h
  · next hphase =>
      rw [updateAndBroadcast] at h
      split at h
      · cases h
      · next sent hsent => exact ⟨hphase, sent, hsent, (Except.ok.inj h).symm⟩
  · cases h

theorem step_advanceTime_eq_ok {events : List NetworkEvent}
    (h : world.step (.advanceTime events) = .ok next) :
    world.phase = .advanceTime ∧
      next = { world with
        phase := .connect
        network := world.network.advanceTime events } := by
  rw [step] at h
  split at h
  · next hphase => exact ⟨hphase, (Except.ok.inj h).symm⟩
  · cases h

theorem step_peer_eq_ok {clientIndex : ClientID} {action : PeerAction}
    (h : world.step (.peer clientIndex action) = .ok next) :
    ∃ session acted, world.network.session clientIndex = some session ∧
      session.act action = .ok acted ∧
      next = { world with network := world.network.setSession clientIndex acted } := by
  rw [step] at h
  split at h
  · cases h
  · next session hsession =>
      split at h
      · cases h
      · next acted hacted =>
          exact ⟨session, acted, hsession, hacted, (Except.ok.inj h).symm⟩

end World

end LibBench.Yojimbo
