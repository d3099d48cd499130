/-
# Yojimbo: the walk of a client

A client that has a config moves in every iteration and sends where it has moved
to. It is the spawn message that says where it starts, and that one is accepted
only after the config. What lies between the two decides: when they are handled
in one iteration, all that the client ever sends is a walk of single steps from
its spawn; when an iteration ends between them, the client has already moved
from wherever its memory says that it is.
-/

import Mathlib.Data.List.TakeWhile
import LibBench.Yojimbo.Client
import LibBench.Yojimbo.Handshake

namespace LibBench.Yojimbo

open LibBench.Math

def Message.isGameConfig : Message → Bool
  | .gameConfig _ => true
  | .playerSpawnAndID _ | .newPlayerJoined _ | .playerMove _ | .playerPosition _ => false

def Message.spawn? : Message → Option PlayerSpawnAndIDMessage
  | .playerSpawnAndID message => some message
  | .gameConfig _ | .newPlayerJoined _ | .playerMove _ | .playerPosition _ => none

theorem Message.isGameConfig_of_ne {message : Message}
    (h : ∀ config, message ≠ .gameConfig config) : message.isGameConfig = false := by
  cases message with
  | gameConfig config => exact absurd rfl (h config)
  | playerSpawnAndID | newPlayerJoined | playerMove | playerPosition => rfl

theorem Message.spawn?_of_ne {message : Message}
    (h : ∀ spawn, message ≠ .playerSpawnAndID spawn) : message.spawn? = none := by
  cases message with
  | playerSpawnAndID spawn => exact absurd rfl (h spawn)
  | gameConfig | newPlayerJoined | playerMove | playerPosition => rfl

/-- The position that a move announces. -/
def Message.newPos? : Message → Option Position
  | .playerMove message => some ⟨message.x, message.y⟩
  | .gameConfig _ | .playerSpawnAndID _ | .newPlayerJoined _ | .playerPosition _ => none

def PlayerSpawnAndIDMessage.pos (message : PlayerSpawnAndIDMessage) : Position :=
  ⟨message.x, message.y⟩

/-- The spawn message that a client accepts: the first one after the first
config. -/
def acceptedSpawn (stream : List Message) : Option PlayerSpawnAndIDMessage :=
  (stream.dropWhile fun message => !message.isGameConfig).findSome? Message.spawn?

/-- The positions in the moves that were sent. -/
def sentPositions (sent : List Envelope) : List Position :=
  sent.filterMap fun envelope => envelope.message.newPos?

/-- What is sent is a walk of single steps from the accepted spawn, and nothing
as long as none was accepted. -/
def WalksFromSpawn (accepted : Option PlayerSpawnAndIDMessage) (positions : List Position) :
    Prop :=
  (accepted = none → positions = []) ∧
    ∀ spawn ∈ accepted, List.IsChain Position.UnitStep (spawn.pos :: positions)

instance (accepted : Option PlayerSpawnAndIDMessage) (positions : List Position) :
    Decidable (WalksFromSpawn accepted positions) :=
  inferInstanceAs (Decidable (_ ∧ _))

theorem acceptedSpawn_append (first second : List Message) :
    acceptedSpawn (first ++ second) =
      if first.any Message.isGameConfig then
        (acceptedSpawn first).or (second.findSome? Message.spawn?)
      else acceptedSpawn second := by
  rw [acceptedSpawn, acceptedSpawn, acceptedSpawn]
  by_cases h : first.any Message.isGameConfig
  · have hconfig : ¬ (first.dropWhile fun message => !message.isGameConfig).isEmpty = true := by
      rw [List.isEmpty_iff, List.dropWhile_eq_nil_iff]
      simpa using h
    rw [if_pos h, List.dropWhile_append, if_neg hconfig, List.findSome?_append]
  · have hnone : ∀ message ∈ first, (!message.isGameConfig) = true := by
      simpa using h
    rw [if_neg h, List.dropWhile_append_of_pos hnone]

theorem acceptedSpawn_eq_none {stream : List Message}
    (h : stream.any Message.isGameConfig = false) : acceptedSpawn stream = none := by
  have happend := acceptedSpawn_append stream []
  rw [List.append_nil, h] at happend
  exact happend

/-- One message more: it is accepted when it is a spawn, there was a config, and
none was accepted before. -/
theorem acceptedSpawn_concat (stream : List Message) (message : Message) :
    acceptedSpawn (stream ++ [message]) =
      if stream.any Message.isGameConfig then (acceptedSpawn stream).or message.spawn?
      else none := by
  have hsingle : acceptedSpawn [message] = none := by
    cases message <;> rfl
  rw [acceptedSpawn_append, hsingle, List.findSome?_singleton]

@[simp]
theorem sentPositions_append (first second : List Envelope) :
    sentPositions (first ++ second) = sentPositions first ++ sentPositions second :=
  List.filterMap_append

/-- The messages of one session: the spawn message comes at most once, and the
maps of the configs are not empty. -/
structure FromServer (stream : List Message) : Prop where
  spawn : (stream.filterMap Message.spawn?).length ≤ 1
  map : ∀ config : GameConfigMessage, .gameConfig config ∈ stream →
    config.mapWidth ≠ 0 ∨ config.mapHeight ≠ 0

/-- Messages that are lost or that come in another order do not change that. -/
theorem FromServer.of_subperm {stream sent : List Message} (h : FromServer sent)
    (hstream : List.Subperm stream sent) : FromServer stream where
  spawn := by
    obtain ⟨kept, hperm, hsub⟩ := hstream
    rw [← (hperm.filterMap Message.spawn?).length_eq]
    exact (hsub.filterMap Message.spawn?).length_le.trans h.spawn
  map config hconfig := h.map config (hstream.subset hconfig)

theorem FromServer.of_isPrefix {stream sent : List Message} (h : FromServer sent)
    (hstream : stream <+: sent) : FromServer stream :=
  h.of_subperm hstream.sublist.subperm

/-- A second spawn message is none that a server sends. -/
theorem FromServer.spawn?_eq_none {stream : List Message} {message : Message}
    {spawn : PlayerSpawnAndIDMessage}
    (h : FromServer (stream ++ [message])) (hspawn : acceptedSpawn stream = some spawn) :
    message.spawn? = none := by
  obtain ⟨accepted, haccepted, hmem⟩ := List.exists_of_findSome?_eq_some hspawn
  have hstream : accepted ∈ stream := (List.dropWhile_sublist _).subset haccepted
  have hlength := h.spawn
  have hpositive : 0 < (stream.filterMap Message.spawn?).length :=
    List.length_pos_of_mem (List.mem_filterMap.mpr ⟨accepted, hstream, hmem⟩)
  cases hmessage : message.spawn? with
  | none => rfl
  | some second =>
      rw [List.filterMap_append, List.length_append, List.filterMap_cons_some hmessage] at hlength
      simp only [List.filterMap_nil, List.length_singleton] at hlength
      omega

theorem fromServer_of_handshakes {gameConfig : GameConfig} {numPlayers : UInt16}
    {slot : ClientID} {pos : Position} {sent : List Envelope} (hmap : gameConfig.mapWidth ≠ 0)
    (hhandshake : handshakes sent = gameConfig.handshake numPlayers slot pos) :
    FromServer (sent.map Envelope.message) where
  spawn := by
    have hspawns : (sent.map Envelope.message).filterMap Message.spawn? =
        (handshakes sent).filterMap Message.spawn? := by
      rw [handshakes, List.filterMap_filter]
      apply List.filterMap_congr
      intro message _
      cases message <;> rfl
    rw [hspawns, hhandshake]
    exact le_rfl
  map config hconfig := by
    have hmem : Message.gameConfig config ∈ handshakes sent := List.mem_filter.mpr ⟨hconfig, rfl⟩
    rw [hhandshake, GameConfig.handshake] at hmem
    obtain rfl : config = ⟨gameConfig.mapWidth, gameConfig.mapHeight, numPlayers⟩ := by
      simpa using hmem
    exact Or.inl hmap

namespace ServerGameState

variable {gameState next : ServerGameState} {gameConfig : GameConfig}
  {isClientConnected : ClientID → Bool} {draws : ClientID → List (ℕ × ℕ)} {sent : List Send}

/-- A server with an empty map fails before it sends a new client anything. -/
theorem mapWidth_ne_zero_of_handleNewClient {i : ClientID}
    (h : handleNewClient gameConfig isClientConnected draws gameState i = .ok (next, sent))
    (hconnected : isClientConnected i = true) (hnew : gameState.connectedPlayers[i]? = none) :
    gameConfig.mapWidth ≠ 0 := by
  simp only [handleNewClient, hconnected, if_true, hnew] at h
  split at h
  · cases h
  · next created hcreated =>
      rw [createAndSpawnNewPlayerForClient] at hcreated
      split at hcreated
      · cases hcreated
      · next pos hfound =>
          cases hdraws : draws i with
          | nil =>
              rw [hdraws] at hfound
              cases hfound
          | cons draw rest =>
              rw [hdraws, findSpawnPosition] at hfound
              split at hfound
              · cases hfound
              · next hmap => exact (not_or.mp hmap).1

/-- What a new client is sent when it is welcomed, with anything but handshakes
afterwards. -/
theorem fromServer_of_handleNewClient {i : ClientID}
    (h : handleNewClient gameConfig isClientConnected draws gameState i = .ok (next, sent))
    (hconnected : isClientConnected i = true) (hnew : gameState.connectedPlayers[i]? = none)
    {later : List Envelope} (hlater : handshakes later = []) :
    FromServer ((sentTo i sent ++ later).map Envelope.message) := by
  have hmap := mapWidth_ne_zero_of_handleNewClient h hconnected hnew
  cases (handled_of_handleNewClient h).2.1 with
  | @welcomed pos _ _ _ hsent =>
      have hhandshake : handshakes (sentTo i sent ++ later) =
          gameConfig.handshake gameState.numPlayers i pos := by
        rw [handshakes_append, hsent, hlater, List.append_nil]
      exact fromServer_of_handshakes hmap hhandshake
  | kept _ hold _ _ => rw [hnew] at hold; cases hold
  | removed hdisconnected _ _ => rw [hconnected] at hdisconnected; cases hdisconnected

end ServerGameState

/-! ## The loop of the client -/

/-- What an iteration of `ClientMain` finds: the messages that have arrived and
the random numbers. -/
structure ClientIteration where
  messages : List Message
  draws : List ℕ
  deriving DecidableEq, Repr

/-- All the messages of some iterations. -/
def heard (iterations : List ClientIteration) : List Message :=
  iterations.flatMap ClientIteration.messages

theorem heard_concat (before : List ClientIteration) (iteration : ClientIteration) :
    heard (before ++ [iteration]) = heard before ++ iteration.messages := by
  simp [heard]

theorem heard_isPrefix {before iterations : List ClientIteration} (h : before <+: iterations) :
    heard before <+: heard iterations := by
  obtain ⟨rest, rfl⟩ := h
  exact ⟨heard rest, List.flatMap_append.symm⟩

namespace Client

/-- The loop, with everything that the client has sent so far. -/
def loop (progress : Client × List Envelope) (iteration : ClientIteration) :
    Except Stop (Client × List Envelope) :=
  match progress.1.iterate iteration.messages iteration.draws with
  | .error stop => .error stop
  | .ok (next, sent) => .ok (next, progress.2 ++ sent)

/-- `PerformLocalMove` is called, and reads `localPlayer.pos`. -/
def ReadsPosition (client : Client) : Prop := client.configReceived = true

/-- The client at the end of a stream of messages and with what it has sent. -/
structure Walking (stream : List Message) (client : Client) (sent : List Envelope) : Prop where
  tracker : client.correctionsTracker.isSome
  config : client.configReceived = stream.any Message.isGameConfig
  spawn : client.playerSpawnAndIdReceived = (acceptedSpawn stream).isSome
  map : client.configReceived = true →
    client.gameState.mapWidth ≠ 0 ∨ client.gameState.mapHeight ≠ 0
  silent : acceptedSpawn stream = none → sentPositions sent = []
  walk : ∀ spawn ∈ acceptedSpawn stream,
    LeadsTo Position.UnitStep spawn.pos (sentPositions sent) client.gameState.localPlayer.pos

variable {stream : List Message} {client next : Client} {sent more : List Envelope}

theorem Walking.walksFromSpawn (h : Walking stream client sent) :
    WalksFromSpawn (acceptedSpawn stream) (sentPositions sent) :=
  ⟨h.silent, fun spawn hspawn => (leadsTo_iff_isChain.mp (h.walk spawn hspawn)).1⟩

theorem Walking.acceptedSpawn_of_false (h : Walking stream client sent)
    (hspawn : client.playerSpawnAndIdReceived = false) : acceptedSpawn stream = none :=
  Option.not_isSome_iff_eq_none.mp (Bool.eq_false_iff.mp (h.spawn.symm.trans hspawn))

theorem localPlayer_of_processMessage {gameState changed : ClientGameState}
    {tracker kept : Option CorrectionsTracker} {message : Message}
    (hmessage : message.spawn? = none)
    (h : processMessage gameState tracker message = .ok (changed, kept)) :
    changed.localPlayer = gameState.localPlayer := by
  cases message with
  | playerSpawnAndID message => cases hmessage
  | playerPosition message =>
      obtain ⟨rfl, _⟩ := processMessage_playerPosition_eq_ok h
      rfl
  | gameConfig | newPlayerJoined | playerMove =>
      obtain ⟨rfl, _⟩ := Prod.mk.inj (Except.ok.inj h)
      rfl

/-- A map that is not empty stays so. -/
theorem map_of_processMessage {gameState changed : ClientGameState}
    {tracker kept : Option CorrectionsTracker} {message : Message}
    (hmessage : ∀ config : GameConfigMessage, message = .gameConfig config →
      config.mapWidth ≠ 0 ∨ config.mapHeight ≠ 0)
    (hmap : gameState.mapWidth ≠ 0 ∨ gameState.mapHeight ≠ 0)
    (h : processMessage gameState tracker message = .ok (changed, kept)) :
    changed.mapWidth ≠ 0 ∨ changed.mapHeight ≠ 0 := by
  cases message with
  | gameConfig config =>
      obtain ⟨rfl, _⟩ := Prod.mk.inj (Except.ok.inj h)
      exact hmessage config rfl
  | playerPosition message =>
      obtain ⟨rfl, _⟩ := processMessage_playerPosition_eq_ok h
      exact hmap
  | playerSpawnAndID | newPlayerJoined | playerMove =>
      obtain ⟨rfl, _⟩ := Prod.mk.inj (Except.ok.inj h)
      exact hmap

theorem any_isGameConfig_concat (stream : List Message) (message : Message) :
    (stream ++ [message]).any Message.isGameConfig =
      (stream.any Message.isGameConfig || message.isGameConfig) := by
  rw [List.any_append, List.any_cons, List.any_nil, Bool.or_false]

/-- As long as no spawn is accepted nothing is sent. -/
theorem Walking.unspawned {longer : List Message} (h : Walking stream client sent)
    (hbefore : acceptedSpawn stream = none) (hafter : acceptedSpawn longer = none)
    (htracker : next.correctionsTracker.isSome)
    (hconfig : next.configReceived = longer.any Message.isGameConfig)
    (hspawn : next.playerSpawnAndIdReceived = client.playerSpawnAndIdReceived)
    (hmap : next.configReceived = true →
      next.gameState.mapWidth ≠ 0 ∨ next.gameState.mapHeight ≠ 0) :
    Walking longer next sent where
  tracker := htracker
  config := hconfig
  spawn := by rw [hspawn, h.spawn, hbefore, hafter]
  map := hmap
  silent _ := h.silent hbefore
  walk spawn haccepted := by
    rw [hafter] at haccepted
    cases haccepted

/-- The client takes a message of the stream. -/
theorem Walking.receiveMessage {message : Message} (h : Walking stream client sent)
    (hserver : FromServer (stream ++ [message]))
    (hreceive : client.receiveMessage message = .ok next) :
    Walking (stream ++ [message]) next sent := by
  have hconcat := acceptedSpawn_concat stream message
  have hany := any_isGameConfig_concat stream message
  cases reception_of_receiveMessage hreceive with
  | beforeConfig config other =>
      have hmessage := Message.isGameConfig_of_ne other
      have hstream := h.config.symm.trans config
      rw [hstream] at hconcat hany
      rw [hmessage] at hany
      exact h.unspawned (acceptedSpawn_eq_none hstream) hconcat h.tracker (config.trans hany.symm)
        rfl h.map
  | @config configMessage config =>
      have hstream := h.config.symm.trans config
      rw [hstream] at hconcat hany
      exact h.unspawned (acceptedSpawn_eq_none hstream) hconcat h.tracker hany.symm rfl
        fun _ => hserver.map configMessage (by simp)
  | beforeSpawn config spawn other =>
      have hmessage := Message.spawn?_of_ne other
      have hbefore := h.acceptedSpawn_of_false spawn
      rw [← h.config, config] at hconcat hany
      rw [if_pos rfl, hbefore, hmessage] at hconcat
      exact h.unspawned hbefore hconcat h.tracker (config.trans hany.symm) rfl h.map
  | @spawn spawnMessage config spawn =>
      have hbefore := h.acceptedSpawn_of_false spawn
      rw [← h.config, config] at hconcat hany
      rw [if_pos rfl, hbefore] at hconcat
      exact {
        tracker := h.tracker
        config := config.trans hany.symm
        spawn := by rw [hconcat]; rfl
        map := h.map
        silent := fun _ => h.silent hbefore
        walk := fun accepted haccepted => by
          rw [hconcat] at haccepted
          obtain rfl := Option.some.inj haccepted
          rw [h.silent hbefore]
          rfl }
  | play config spawn process =>
      obtain ⟨accepted, hbefore⟩ := Option.isSome_iff_exists.mp (h.spawn.symm.trans spawn)
      have hmessage := hserver.spawn?_eq_none hbefore
      rw [← h.config, config] at hconcat hany
      rw [if_pos rfl, hbefore, hmessage] at hconcat
      exact {
        tracker := isSome_tracker_of_processMessage h.tracker process
        config := config.trans hany.symm
        spawn := by rw [hconcat]; exact spawn
        map := fun _ => map_of_processMessage
          (fun other hother => hserver.map other (by simp [hother])) (h.map config) process
        silent := fun hnone => by rw [hconcat] at hnone; cases hnone
        walk := fun other hother => by
          rw [hconcat] at hother
          rw [localPlayer_of_processMessage hmessage process]
          exact h.walk other (hbefore.trans hother) }

theorem Walking.receiveMessages {messages : List Message} (h : Walking stream client sent)
    (hserver : FromServer (stream ++ messages))
    (hreceive : client.receiveMessages messages = .ok next) :
    Walking (stream ++ messages) next sent := by
  rw [receiveMessages_eq_run] at hreceive
  let invariant (before : List Message) (state : Client) : Prop :=
    Walking (stream ++ before) state sent
  have hstart : invariant [] client := by
    show Walking (stream ++ []) client sent
    rw [List.append_nil]
    exact h
  have hpreserved : ∀ before message state next, before ++ [message] <+: messages →
      run Client.receiveMessage client before = .ok state → invariant before state →
      state.receiveMessage message = .ok next → invariant (before ++ [message]) next := by
    intro before message state next hpre _ hbefore hstep
    have hheard : stream ++ before ++ [message] <+: stream ++ messages := by
      rw [List.append_assoc]
      exact (List.prefix_append_right_inj stream).mpr hpre
    have hnext := Walking.receiveMessage hbefore (hserver.of_isPrefix hheard) hstep
    rwa [List.append_assoc] at hnext
  exact run_history invariant hstart hpreserved hreceive

/-- A client that moves only after its spawn takes a step. -/
theorem Walking.move {draws : List ℕ} (h : Walking stream client sent)
    (hready : client.ReadsPosition → client.playerSpawnAndIdReceived = true)
    (hmove : client.move draws = .ok (next, more)) : Walking stream next (sent ++ more) := by
  obtain ⟨_, rfl, rfl⟩ | ⟨hconfig, chosenMove, hchosen, rfl, rfl⟩ := move_cases hmove
  · rw [List.append_nil]
    exact h
  · obtain ⟨accepted, haccepted⟩ :=
      Option.isSome_iff_exists.mp (h.spawn.symm.trans (hready hconfig))
    exact {
      tracker := h.tracker
      config := h.config
      spawn := h.spawn
      map := h.map
      silent := fun hnone => by rw [haccepted] at hnone; cases hnone
      walk := fun other hother => by
        rw [sentPositions_append]
        exact leadsTo_append.mpr ⟨_, h.walk other hother,
          unitStep_of_chooseMove (h.map hconfig) hchosen, rfl⟩ }

/-- Every message is taken: a client with a tracker does not fail. -/
theorem exists_process (htracker : client.correctionsTracker.isSome) (message : Message) :
    ∃ next, client.process message = .ok next := by
  cases message with
  | playerPosition message =>
      obtain ⟨kept, hprocess⟩ :=
        exists_processPlayerPositionMessage client.gameState htracker message
      exact ⟨_, by rw [process, processMessage, hprocess]⟩
  | gameConfig | playerSpawnAndID | newPlayerJoined | playerMove => exact ⟨_, rfl⟩

theorem exists_receiveMessage (htracker : client.correctionsTracker.isSome) (message : Message) :
    ∃ next, client.receiveMessage message = .ok next := by
  unfold Client.receiveMessage
  split
  · split
    · exact ⟨_, rfl⟩
    · exact ⟨_, rfl⟩
  · split
    · split
      · exact ⟨_, rfl⟩
      · exact ⟨_, rfl⟩
    · exact exists_process htracker message

theorem Walking.exists_receiveMessages {messages : List Message} (h : Walking stream client sent)
    (hserver : FromServer (stream ++ messages)) :
    ∃ received, client.receiveMessages messages = .ok received := by
  cases hreceive : client.receiveMessages messages with
  | ok received => exact ⟨received, rfl⟩
  | error stop =>
      rw [receiveMessages_eq_run] at hreceive
      obtain ⟨before, message, state, hpre, hbefore, hstop⟩ :=
        exists_step_of_run_eq_error hreceive
      rw [← receiveMessages_eq_run] at hbefore
      have hheard : stream ++ before <+: stream ++ messages :=
        (List.prefix_append_right_inj stream).mpr ((List.prefix_append _ _).trans hpre)
      have hstate := h.receiveMessages (hserver.of_isPrefix hheard) hbefore
      obtain ⟨next, hnext⟩ := exists_receiveMessage hstate.tracker message
      rw [hnext] at hstop
      cases hstop

/-- When the messages of the iteration are handled, the client has accepted a
spawn or does not move. -/
def ReadyToMove (progress : Client × List Envelope) (iteration : ClientIteration) : Prop :=
  ∀ received, progress.1.receiveMessages iteration.messages = .ok received →
    received.ReadsPosition → received.playerSpawnAndIdReceived = true

/-- The config that a client takes is followed by a spawn in the same iteration. -/
def HandshakeTogether (progress : Client × List Envelope) (iteration : ClientIteration) : Prop :=
  progress.1.configReceived = false → iteration.messages.any Message.isGameConfig = true →
    (acceptedSpawn iteration.messages).isSome = true

instance (progress : Client × List Envelope) (iteration : ClientIteration) :
    Decidable (HandshakeTogether progress iteration) :=
  inferInstanceAs (Decidable (_ → _ → _))

variable {iterations : List ClientIteration} {iteration : ClientIteration}
  {progress after : Client × List Envelope} {connecting : ConnectingClient}

theorem phases_of_loop (h : loop progress iteration = .ok after) :
    ∃ received moved sent, progress.1.receiveMessages iteration.messages = .ok received ∧
      received.move iteration.draws = .ok (moved, sent) ∧ moved.writeLine = .ok after.1 ∧
      after.2 = progress.2 ++ sent := by
  rw [loop] at h
  split at h
  · cases h
  · next sent hiterate =>
      obtain rfl := Except.ok.inj h
      obtain ⟨received, moved, hreceived, hmoved, hwritten⟩ := phases_of_iterate hiterate
      exact ⟨received, moved, sent, hreceived, hmoved, hwritten, rfl⟩

/-- A client between two iterations, when it was ready in all iterations so
far. -/
structure Settled (iterations : List ClientIteration) (progress : Client × List Envelope) :
    Prop where
  walking : Walking (heard iterations) progress.1 progress.2
  ready : progress.1.ReadsPosition → progress.1.playerSpawnAndIdReceived = true

theorem settled_start (connecting : ConnectingClient) : Settled [] (connecting.client, []) where
  walking := {
    tracker := rfl
    config := rfl
    spawn := rfl
    map := nofun
    silent := fun _ => rfl
    walk := nofun }
  ready := nofun

/-- One iteration. -/
theorem Settled.loop (h : Settled iterations progress)
    (hserver : FromServer (heard (iterations ++ [iteration])))
    (hready : ReadyToMove progress iteration) (hloop : loop progress iteration = .ok after) :
    Settled (iterations ++ [iteration]) after := by
  obtain ⟨received, moved, sent, hreceived, hmoved, hwritten, hsent⟩ := phases_of_loop hloop
  rw [heard_concat] at hserver
  have hwalking : Walking (heard (iterations ++ [iteration])) moved after.2 := by
    rw [heard_concat, hsent]
    exact (h.walking.receiveMessages hserver hreceived).move (hready received hreceived) hmoved
  have hflags : moved.ReadsPosition → moved.playerSpawnAndIdReceived = true := by
    obtain ⟨_, rfl, _⟩ | ⟨_, _, _, rfl, _⟩ := move_cases hmoved
    · exact hready moved hreceived
    · exact hready received hreceived
  obtain ⟨tracker, hafter⟩ := writeLine_eq_some hwritten
  constructor
  · rw [hafter]
    exact { hwalking with tracker := rfl }
  · rw [hafter]
    exact hflags

theorem settled_run (hserver : FromServer (heard iterations))
    (hready : StepsMeet loop ReadyToMove (connecting.client, []) iterations)
    (hrun : run loop (connecting.client, []) iterations = .ok progress) :
    Settled iterations progress := by
  refine run_history Settled (settled_start connecting)
    (fun before iteration state next hpre hbefore hsettled hstep => ?_) hrun
  exact hsettled.loop (hserver.of_isPrefix (heard_isPrefix hpre))
    (stepsMeet_iff.mp hready before iteration state hpre hbefore) hstep

/-- Between a config and the move of its iteration a spawn has to come. -/
theorem Settled.readyToMove_iff (h : Settled iterations progress)
    (hserver : FromServer (heard (iterations ++ [iteration]))) :
    ReadyToMove progress iteration ↔ HandshakeTogether progress iteration := by
  rw [heard_concat] at hserver
  have happend := acceptedSpawn_append (heard iterations) iteration.messages
  constructor
  · intro hready hconfig hany
    obtain ⟨received, hreceived⟩ := h.walking.exists_receiveMessages hserver
    have hwalking := h.walking.receiveMessages hserver hreceived
    have hreads : received.ReadsPosition := by
      rw [ReadsPosition, hwalking.config, List.any_append, hany, Bool.or_true]
    have hspawn := hwalking.spawn.symm.trans (hready received hreceived hreads)
    rwa [happend, ← h.walking.config, hconfig] at hspawn
  · intro htogether received hreceived hreads
    have hwalking := h.walking.receiveMessages hserver hreceived
    rw [hwalking.spawn, happend, ← h.walking.config]
    rw [ReadsPosition, hwalking.config, List.any_append, ← h.walking.config] at hreads
    cases hconfig : progress.1.configReceived with
    | false =>
        rw [hconfig, Bool.false_or] at hreads
        exact htogether hconfig hreads
    | true =>
        have hspawn := h.walking.spawn.symm.trans (h.ready hconfig)
        rw [if_pos rfl, Option.isSome_or, hspawn, Bool.true_or]

theorem stepsMeet_readyToMove_iff (hserver : FromServer (heard iterations)) :
    StepsMeet loop ReadyToMove (connecting.client, []) iterations ↔
      StepsMeet loop HandshakeTogether (connecting.client, []) iterations := by
  induction iterations using List.reverseRecOn with
  | nil => exact Iff.rfl
  | append_singleton before iteration ih =>
      have hbefore := hserver.of_isPrefix (heard_isPrefix (List.prefix_append before [iteration]))
      rw [StepsMeet.concat, StepsMeet.concat, ← ih hbefore]
      refine and_congr_right fun hready => forall₂_congr fun progress hrun => ?_
      exact (settled_run hbefore hready hrun).readyToMove_iff hserver

/-- **The walk of a client.** In every run, whatever comes with which iteration
and in which order: the client reads its position and sends moves only after it
has accepted a spawn, and all it has sent is a walk of single steps from there,
if and only if no iteration ends between the config and the spawn that it
takes. -/
theorem walks_from_spawn_iff (connecting : ConnectingClient)
    {iterations : List ClientIteration} (hserver : FromServer (heard iterations)) :
    (∀ before iteration progress, before ++ [iteration] <+: iterations →
        run loop (connecting.client, []) before = .ok progress →
        ReadyToMove progress iteration ∧
          ∀ next, loop progress iteration = .ok next →
            WalksFromSpawn (acceptedSpawn (heard (before ++ [iteration])))
              (sentPositions next.2)) ↔
      StepsMeet loop HandshakeTogether (connecting.client, []) iterations := by
  rw [← stepsMeet_readyToMove_iff hserver]
  constructor
  · intro h
    exact stepsMeet_iff.mpr fun before iteration progress hpre hrun =>
      (h before iteration progress hpre hrun).1
  · intro hready before iteration progress hpre hrun
    refine ⟨stepsMeet_iff.mp hready before iteration progress hpre hrun, fun next hloop => ?_⟩
    have hsettled := settled_run (hserver.of_isPrefix (heard_isPrefix hpre))
      (hready.of_isPrefix hpre) (run_concat_eq_ok.mpr ⟨progress, hrun, hloop⟩)
    exact hsettled.walking.walksFromSpawn

/-- A client whose handshake comes with one iteration. -/
def handshakeInOne : List ClientIteration :=
  [⟨[.newPlayerJoined ⟨60, 60, 1⟩], []⟩,
    ⟨[.gameConfig ⟨100, 100, 64⟩, .playerSpawnAndID ⟨50, 50, 0⟩], [0]⟩, ⟨[], [3]⟩]

theorem fromServer_handshakeInOne : FromServer (heard handshakeInOne) where
  spawn := by decide
  map config hconfig := by
    obtain rfl : config = ⟨100, 100, 64⟩ := by simpa [heard, handshakeInOne] using hconfig
    decide

theorem walks_from_spawn_in_one : ∃ next : Client × List Envelope,
    sentPositions next.2 = [⟨50, 49⟩, ⟨51, 49⟩] ∧
      WalksFromSpawn (acceptedSpawn (heard handshakeInOne)) (sentPositions next.2) := by
  obtain ⟨progress, hrun, next, hnext, hsent⟩ : ∃ progress,
      run loop (ConnectingClient.client { clientId := 7 }, []) (handshakeInOne.take 2) =
        .ok progress ∧
      ∃ next, run loop progress [⟨[], [3]⟩] = .ok next ∧
        sentPositions next.2 = [⟨50, 49⟩, ⟨51, 49⟩] := by
    decide +kernel
  obtain ⟨_, hloop, hend⟩ := run_cons_eq_ok.mp hnext
  obtain rfl := Except.ok.inj hend
  have hwalks := (walks_from_spawn_iff { clientId := 7 } fromServer_handshakeInOne).mpr
    (by decide +kernel)
  exact ⟨_, hsent, (hwalks _ ⟨[], [3]⟩ progress List.prefix_rfl hrun).2 _ hloop⟩

/-- A client whose spawn comes an iteration after its config. -/
def handshakeInTwo : List ClientIteration :=
  [⟨[.gameConfig ⟨100, 100, 64⟩], [0]⟩, ⟨[.playerSpawnAndID ⟨50, 50, 0⟩], [0]⟩]

/-- It starts at the 7 by 7 that its memory happens to hold. -/
theorem moves_before_spawn :
    (∃ first, run loop
        (ConnectingClient.client { clientId := 7, localPlayer := ⟨⟨7, 7⟩⟩ }, [])
        (handshakeInTwo.take 1) = .ok first ∧
      acceptedSpawn (heard (handshakeInTwo.take 1)) = none ∧ sentPositions first.2 = [⟨7, 6⟩]) ∧
    ∃ second, run loop
        (ConnectingClient.client { clientId := 7, localPlayer := ⟨⟨7, 7⟩⟩ }, [])
        handshakeInTwo = .ok second ∧
      acceptedSpawn (heard handshakeInTwo) = some ⟨50, 50, 0⟩ ∧
      ¬ WalksFromSpawn (acceptedSpawn (heard handshakeInTwo)) (sentPositions second.2) :=
  ⟨by decide +kernel, by decide +kernel⟩

end Client

end LibBench.Yojimbo
