/-
# Yojimbo: the client with and without its tracker

Corrections are counted on request. The counting should make no difference to the
game: this is said here by a client that has no tracker in it at all, which the
client that counts keeps in step with.

The client that was not asked to count has a null tracker. It tests for it where
it would count a correction and does not test for it in two other places, one of
them at the end of every iteration. So it stops in its first iteration, unless
that iteration does not come to an end.
-/

import LibBench.Yojimbo.Client

namespace LibBench.Yojimbo

open LibBench.Math

/-- What a message makes of the game state. -/
def ClientGameState.receive (gameState : ClientGameState) : Message → ClientGameState
  | .gameConfig message => processGameConfigMessage gameState message
  | .playerSpawnAndID message =>
      gameState.createLocalPlayer message.playerID ⟨message.x, message.y⟩
  | .newPlayerJoined message => gameState.addRemotePlayer message.playerID ⟨message.x, message.y⟩
  | .playerPosition message => gameState.addRemotePlayer message.playerID ⟨message.x, message.y⟩
  | .playerMove _ => gameState

/-- The variables of `ClientMain` but for the tracker. -/
structure PlainClient where
  clientId : UInt64
  reliableMessaging : Bool
  gameState : ClientGameState
  configReceived : Bool := false
  playerSpawnAndIdReceived : Bool := false

namespace PlainClient

/-- The body of the message loop. -/
def receiveMessage (client : PlainClient) (message : Message) : PlainClient :=
  if !client.configReceived then
    match message with
    | .gameConfig _ =>
        { client with configReceived := true, gameState := client.gameState.receive message }
    | _ => client
  else if !client.playerSpawnAndIdReceived then
    match message with
    | .playerSpawnAndID _ =>
        { client with
          playerSpawnAndIdReceived := true
          gameState := client.gameState.receive message }
    | _ => client
  else { client with gameState := client.gameState.receive message }

/-- The handshake is done. -/
def InGame (client : PlainClient) : Prop :=
  client.configReceived = true ∧ client.playerSpawnAndIdReceived = true

/-- The message loop. -/
def receiveMessages (client : PlainClient) (messages : List Message) : PlainClient :=
  messages.foldl receiveMessage client

/-- Among the messages is a position that comes after the handshake is done. -/
def ReadsPosition (client : PlainClient) (messages : List Message) : Prop :=
  ∃ before position after, messages = before ++ .playerPosition position :: after ∧
    (client.receiveMessages before).InGame

/-- Move and send the move, once the config was received. -/
def move (client : PlainClient) (draws : List ℕ) : Option (PlainClient × List Envelope) :=
  if client.configReceived then
    match client.gameState.performLocalMove draws with
    | none => none
    | some (newPlayerPos, gameState) =>
        some ({ client with gameState },
          [sendLocalPlayerMove client.clientId.toUInt8 newPlayerPos
            (channelType client.reliableMessaging)])
  else some (client, [])

/-- An iteration that does not get to a place where the tracker is used: it reads no
position after the handshake, and then does not finish choosing its move. -/
def EndsEarly (client : PlainClient) (messages : List Message) (draws : List ℕ) : Prop :=
  ¬ client.ReadsPosition messages ∧ (client.receiveMessages messages).move draws = none

/-- One iteration, with all that was sent before it. -/
def play (progress : PlainClient × List (List Envelope)) (iteration : List Message × List ℕ) :
    Except Stop (PlainClient × List (List Envelope)) :=
  match (progress.1.receiveMessages iteration.1).move iteration.2 with
  | none => .error .drawsExhausted
  | some (next, sent) => .ok (next, progress.2 ++ [sent])

end PlainClient

namespace Client

/-- One iteration, with all that was sent before it. -/
def play (progress : Client × List (List Envelope)) (iteration : List Message × List ℕ) :
    Except Stop (Client × List (List Envelope)) :=
  match progress.1.iterate iteration.1 iteration.2 with
  | .error stop => .error stop
  | .ok (next, sent) => .ok (next, progress.2 ++ [sent])

/-- What there is of a client beside the tracker. -/
def plain (client : Client) : PlainClient where
  clientId := client.clientId
  reliableMessaging := client.reliableMessaging
  gameState := client.gameState
  configReceived := client.configReceived
  playerSpawnAndIdReceived := client.playerSpawnAndIdReceived

/-- Two clients in the same game state that have sent the same messages. -/
def LookAlike (first second : Client × List (List Envelope)) : Prop :=
  first.1.gameState = second.1.gameState ∧ first.2 = second.2

/-- The two clients cannot be told apart after any iteration, and neither of them
dereferences a null tracker. -/
structure Transparent (silent tracked : Client) (iterations : List (List Message × List ℕ)) :
    Prop where
  alike : ∀ before, before <+: iterations →
    SameOutcome LookAlike (run play (silent, []) before) (run play (tracked, []) before)
  silentRuns : run play (silent, []) iterations ≠ .error .nullTracker
  trackedRuns : run play (tracked, []) iterations ≠ .error .nullTracker

section Messages

variable {client : Client} {message : Message}

/-- Until the handshake is done the tracker is not used. -/
theorem receiveMessage_of_not_inGame (h : ¬ client.plain.InGame) :
    ∃ next, client.receiveMessage message = .ok next ∧
      next.plain = client.plain.receiveMessage message ∧
      next.correctionsTracker = client.correctionsTracker := by
  obtain ⟨_, _, gameState, configReceived, playerSpawnAndIdReceived, _⟩ := client
  cases configReceived with
  | false => cases message <;> exact ⟨_, rfl, rfl, rfl⟩
  | true =>
      cases playerSpawnAndIdReceived with
      | false => cases message <;> exact ⟨_, rfl, rfl, rfl⟩
      | true => exact absurd ⟨rfl, rfl⟩ h

/-- After it a message is received as it is processed. -/
theorem receiveMessage_of_inGame (h : client.plain.InGame) {kept : Option CorrectionsTracker}
    (hprocess : processMessage client.gameState client.correctionsTracker message =
      .ok (client.gameState.receive message, kept)) :
    ∃ next, client.receiveMessage message = .ok next ∧
      next.plain = client.plain.receiveMessage message ∧ next.correctionsTracker = kept := by
  have hconfig : client.configReceived = true := h.1
  have hspawn : client.playerSpawnAndIdReceived = true := h.2
  refine ⟨{ client with
    gameState := client.gameState.receive message, correctionsTracker := kept }, ?_, ?_, rfl⟩
  · simp [receiveMessage, process, hconfig, hspawn, hprocess]
  · simp [PlainClient.receiveMessage, plain, hconfig, hspawn]

theorem receiveMessage_of_isSome (htracker : client.correctionsTracker.isSome) :
    ∃ next, client.receiveMessage message = .ok next ∧
      next.plain = client.plain.receiveMessage message ∧ next.correctionsTracker.isSome := by
  by_cases hplaying : client.plain.InGame
  · obtain ⟨kept, hkept, hprocess⟩ : ∃ kept : Option CorrectionsTracker, kept.isSome ∧
        processMessage client.gameState client.correctionsTracker message =
          .ok (client.gameState.receive message, kept) := by
      cases message with
      | playerPosition message =>
          obtain ⟨kept, hprocess⟩ :=
            exists_processPlayerPositionMessage client.gameState htracker message
          exact ⟨some kept, rfl, hprocess⟩
      | gameConfig | playerSpawnAndID | newPlayerJoined | playerMove => exact ⟨_, htracker, rfl⟩
    obtain ⟨next, hnext, hplain, rfl⟩ := receiveMessage_of_inGame hplaying hprocess
    exact ⟨next, hnext, hplain, hkept⟩
  · obtain ⟨next, hnext, hplain, hsame⟩ := receiveMessage_of_not_inGame hplaying
    exact ⟨next, hnext, hplain, hsame ▸ htracker⟩

/-- Without a tracker, a position in the game is the one message that does not get
through. -/
theorem receiveMessage_of_none (message : Message) (htracker : client.correctionsTracker = none) :
    ((∃ position, message = .playerPosition position) ∧ client.plain.InGame ∧
        client.receiveMessage message = .error .nullTracker) ∨
      (¬ ((∃ position, message = .playerPosition position) ∧ client.plain.InGame) ∧
        ∃ next, client.receiveMessage message = .ok next ∧
          next.plain = client.plain.receiveMessage message ∧ next.correctionsTracker = none) := by
  by_cases hplaying : client.plain.InGame
  · cases message with
    | playerPosition position =>
        refine Or.inl ⟨⟨position, rfl⟩, hplaying, ?_⟩
        have hconfig : client.configReceived = true := hplaying.1
        have hspawn : client.playerSpawnAndIdReceived = true := hplaying.2
        simp [receiveMessage, process, processMessage, processPlayerPositionMessage, hconfig,
          hspawn, htracker]
    | gameConfig | playerSpawnAndID | newPlayerJoined | playerMove =>
        refine Or.inr ⟨fun h => ?_, receiveMessage_of_inGame hplaying (htracker ▸ rfl)⟩
        obtain ⟨⟨_, heq⟩, _⟩ := h
        cases heq
  · obtain ⟨next, hnext, hplain, hsame⟩ := receiveMessage_of_not_inGame hplaying
    exact Or.inr ⟨fun h => hplaying h.2, next, hnext, hplain, hsame.trans htracker⟩

end Messages

theorem receiveMessages_of_isSome {client : Client} (htracker : client.correctionsTracker.isSome)
    (messages : List Message) :
    ∃ next, client.receiveMessages messages = .ok next ∧
      next.plain = client.plain.receiveMessages messages ∧ next.correctionsTracker.isSome := by
  induction messages generalizing client with
  | nil => exact ⟨client, rfl, rfl, htracker⟩
  | cons message messages ih =>
      obtain ⟨received, hreceived, hplain, hkept⟩ := receiveMessage_of_isSome htracker
      obtain ⟨next, hnext, hnextPlain, hnextKept⟩ := ih hkept
      refine ⟨next, ?_, ?_, hnextKept⟩
      · rw [receiveMessages, hreceived]
        exact hnext
      · rw [hnextPlain, hplain]
        rfl

theorem readsPosition_cons {client : PlainClient} {message : Message} {messages : List Message} :
    client.ReadsPosition (message :: messages) ↔
      ((∃ position, message = .playerPosition position) ∧ client.InGame) ∨
        (client.receiveMessage message).ReadsPosition messages := by
  constructor
  · rintro ⟨before, position, after, heq, hplaying⟩
    cases before with
    | nil =>
        obtain ⟨rfl, _⟩ := List.cons.inj heq
        exact Or.inl ⟨⟨position, rfl⟩, hplaying⟩
    | cons first before =>
        obtain ⟨rfl, rfl⟩ := List.cons.inj heq
        exact Or.inr ⟨before, position, after, rfl, hplaying⟩
  · rintro (⟨⟨position, rfl⟩, hplaying⟩ | ⟨before, position, after, rfl, hplaying⟩)
    · exact ⟨[], position, messages, rfl, hplaying⟩
    · exact ⟨message :: before, position, after, rfl, hplaying⟩

theorem receiveMessages_of_none {client : Client} (htracker : client.correctionsTracker = none)
    (messages : List Message) :
    (client.plain.ReadsPosition messages ∧
        client.receiveMessages messages = .error .nullTracker) ∨
      (¬ client.plain.ReadsPosition messages ∧
        ∃ next, client.receiveMessages messages = .ok next ∧
          next.plain = client.plain.receiveMessages messages ∧
          next.correctionsTracker = none) := by
  induction messages generalizing client with
  | nil =>
      refine Or.inr ⟨?_, client, rfl, rfl, htracker⟩
      rintro ⟨before, position, after, heq, _⟩
      simp at heq
  | cons message messages ih =>
      rw [readsPosition_cons, receiveMessages]
      obtain ⟨hposition, hplaying, hstop⟩ | ⟨hnot, received, hreceived, hplain, hnone⟩ :=
        receiveMessage_of_none message htracker
      · rw [hstop]
        exact Or.inl ⟨Or.inl ⟨hposition, hplaying⟩, rfl⟩
      · rw [hreceived, ← hplain, or_iff_right hnot]
        obtain ⟨hreads, hstop⟩ | ⟨hreads, next, hnext, hnextPlain, hnextNone⟩ := ih hnone
        · exact Or.inl ⟨hreads, hstop⟩
        · refine Or.inr ⟨hreads, next, hnext, hnextPlain.trans ?_, hnextNone⟩
          rw [hplain]
          rfl

theorem move_plain (client : Client) (draws : List ℕ) :
    (client.plain.move draws = none ∧ client.move draws = .error .drawsExhausted) ∨
      ∃ moved sent, client.plain.move draws = some (moved.plain, sent) ∧
        client.move draws = .ok (moved, sent) ∧
        moved.correctionsTracker = client.correctionsTracker := by
  rw [move, PlainClient.move]
  by_cases hconfig : client.configReceived = true
  · have hplain : client.plain.configReceived = true := hconfig
    rw [if_pos hconfig, if_pos hplain]
    rw [show client.plain.gameState = client.gameState from rfl]
    cases client.gameState.performLocalMove draws with
    | none => exact Or.inl ⟨rfl, rfl⟩
    | some chosen => exact Or.inr ⟨{ client with gameState := chosen.2 }, _, rfl, rfl, rfl⟩
  · have hplain : ¬ client.plain.configReceived = true := hconfig
    rw [if_neg hconfig, if_neg hplain]
    exact Or.inr ⟨client, [], rfl, rfl, rfl⟩

/-- The client that counts keeps in step with the one that has no tracker in
it. -/
theorem play_of_isSome {client : Client} (htracker : client.correctionsTracker.isSome)
    (sentBefore : List (List Envelope)) (iteration : List Message × List ℕ) :
    SameOutcome (fun tracked plain => tracked.1.correctionsTracker.isSome ∧
        tracked.1.plain = plain.1 ∧ tracked.2 = plain.2)
      (play (client, sentBefore) iteration)
      (PlainClient.play (client.plain, sentBefore) iteration) := by
  obtain ⟨received, hreceived, hplain, hkept⟩ := receiveMessages_of_isSome htracker iteration.1
  rw [play, PlainClient.play, iterate, hreceived]
  dsimp only
  rw [← hplain]
  obtain ⟨hnone, hstop⟩ | ⟨moved, sent, hsome, hmoved, hsame⟩ := move_plain received iteration.2
  · rw [hnone, hstop]
    rfl
  · obtain ⟨tracker, htracker⟩ := Option.isSome_iff_exists.mp (hsame ▸ hkept)
    rw [hsome, hmoved]
    dsimp only
    rw [writeLine, htracker]
    exact ⟨rfl, rfl, rfl⟩

/-- The client that does not count never gets through an iteration. It stops at the
null tracker, or it is still looking for a move. -/
theorem play_of_none {client : Client} (htracker : client.correctionsTracker = none)
    (sentBefore : List (List Envelope)) (messages : List Message) (draws : List ℕ) :
    (client.plain.EndsEarly messages draws ∧
        play (client, sentBefore) (messages, draws) = .error .drawsExhausted) ∨
      (¬ client.plain.EndsEarly messages draws ∧
        play (client, sentBefore) (messages, draws) = .error .nullTracker) := by
  rw [play, iterate, PlainClient.EndsEarly]
  dsimp only
  obtain ⟨hreads, hstop⟩ | ⟨hreads, received, hreceived, hplain, hnone⟩ :=
    receiveMessages_of_none htracker messages
  · rw [hstop]
    exact Or.inr ⟨fun h => h.1 hreads, rfl⟩
  · rw [hreceived, ← hplain]
    dsimp only
    obtain ⟨hunmoved, hstop⟩ | ⟨moved, sent, hsome, hmoved, hsame⟩ := move_plain received draws
    · rw [hstop]
      exact Or.inl ⟨⟨hreads, hunmoved⟩, rfl⟩
    · rw [hmoved, hsome]
      dsimp only
      rw [writeLine, hsame, hnone]
      exact Or.inr ⟨fun h => Option.some_ne_none _ h.2, rfl⟩

/-- The plain client dereferences nothing. -/
theorem run_plain_ne_nullTracker (client : PlainClient)
    (iterations : List (List Message × List ℕ)) :
    run PlainClient.play (client, []) iterations ≠ .error .nullTracker := by
  intro hrun
  obtain ⟨before, iteration, progress, _, _, hstop⟩ := exists_step_of_run_eq_error hrun
  rw [PlainClient.play] at hstop
  split at hstop
  · cases hstop
  · cases hstop

theorem run_of_isSome {client : Client} (htracker : client.correctionsTracker.isSome)
    (iterations : List (List Message × List ℕ)) :
    SameOutcome (fun tracked plain => tracked.1.correctionsTracker.isSome ∧
        tracked.1.plain = plain.1 ∧ tracked.2 = plain.2)
      (run play (client, []) iterations) (run PlainClient.play (client.plain, []) iterations) := by
  apply sameOutcome_run _ ⟨htracker, rfl, rfl⟩
  rintro ⟨tracked, sent⟩ ⟨plain, _⟩ iteration ⟨hkept, rfl, rfl⟩
  exact play_of_isSome hkept sent iteration

/-- Two such clients are alike exactly when the one without a tracker does not get
to it in the first iteration. -/
theorem transparent_iff {silent tracked : Client} (hsilent : silent.correctionsTracker = none)
    (htracked : tracked.correctionsTracker.isSome) (hplain : silent.plain = tracked.plain)
    (iterations : List (List Message × List ℕ)) :
    Transparent silent tracked iterations ↔
      ∀ messages draws rest, iterations = (messages, draws) :: rest →
        tracked.plain.EndsEarly messages draws := by
  have htrackedRuns := (run_of_isSome htracked iterations).ne_error
    (run_plain_ne_nullTracker tracked.plain iterations)
  cases iterations with
  | nil =>
      refine iff_of_true ⟨fun before hpre => ?_, fun hstop => ?_, htrackedRuns⟩
        fun _ _ _ heq => by cases heq
      · obtain rfl := List.prefix_nil.mp hpre
        exact ⟨congrArg PlainClient.gameState hplain, rfl⟩
      · cases hstop
  | cons iteration rest =>
      obtain ⟨messages, draws⟩ := iteration
      have hfirst := play_of_none hsilent [] messages draws
      rw [hplain] at hfirst
      constructor
      · rintro h _ _ _ heq
        obtain ⟨hiteration, rfl⟩ := List.cons.inj heq
        obtain ⟨rfl, rfl⟩ := Prod.mk.inj hiteration
        obtain ⟨hends, _⟩ | ⟨_, hstop⟩ := hfirst
        · exact hends
        · refine absurd ?_ h.silentRuns
          rw [run, hstop]
      · intro h
        have hends := h messages draws rest rfl
        obtain ⟨_, hsilentStop⟩ | ⟨hnot, _⟩ := hfirst
        · have htrackedStop : play (tracked, []) (messages, draws) = .error .drawsExhausted := by
            apply (play_of_isSome htracked [] (messages, draws)).eq_error
            rw [PlainClient.play, hends.2]
          refine ⟨fun before hpre => ?_, fun hstop => ?_, htrackedRuns⟩
          · cases before with
            | nil => exact ⟨congrArg PlainClient.gameState hplain, rfl⟩
            | cons action before =>
                obtain ⟨rfl, _⟩ := List.cons_prefix_cons.mp hpre
                rw [run, run, hsilentStop, htrackedStop]
                rfl
          · rw [run, hsilentStop] at hstop
            cases hstop
        · exact absurd hends hnot

end Client

namespace PlainClient

variable {client : PlainClient}

theorem readsPosition_iff_of_inGame (h : client.InGame) (messages : List Message) :
    client.ReadsPosition messages ↔
      ∃ position, [Message.playerPosition position].Sublist messages := by
  induction messages generalizing client with
  | nil => simp [ReadsPosition]
  | cons message messages ih =>
      have hnext : (client.receiveMessage message).InGame := by
        simp [receiveMessage, InGame, h.1, h.2]
      rw [Client.readsPosition_cons, and_iff_left h, ih hnext, ← exists_or]
      simp only [List.singleton_sublist, List.mem_cons, eq_comm]

theorem readsPosition_iff_of_config (hconfig : client.configReceived = true)
    (hspawn : client.playerSpawnAndIdReceived = false) (messages : List Message) :
    client.ReadsPosition messages ↔ ∃ spawn position,
      [Message.playerSpawnAndID spawn, .playerPosition position].Sublist messages := by
  induction messages with
  | nil => simp [ReadsPosition]
  | cons message messages ih =>
      have hnot : ¬ client.InGame := by simp [InGame, hspawn]
      rw [Client.readsPosition_cons, or_iff_right fun h => hnot h.2]
      cases message with
      | playerSpawnAndID first =>
          have hnext : (client.receiveMessage (.playerSpawnAndID first)).InGame := by
            simp [receiveMessage, InGame, hconfig, hspawn]
          simp only [readsPosition_iff_of_inGame hnext, List.cons_sublist_cons']
          constructor
          · rintro ⟨position, hposition⟩
            exact ⟨first, position, Or.inr ⟨rfl, hposition⟩⟩
          · rintro ⟨spawn, position, hlater | ⟨_, hposition⟩⟩
            · exact ⟨position, (List.sublist_cons_self _ _).trans hlater⟩
            · exact ⟨position, hposition⟩
      | gameConfig | newPlayerJoined | playerMove | playerPosition =>
          simp only [receiveMessage, hconfig, hspawn, Bool.not_true, Bool.not_false,
            Bool.false_eq_true, if_true, if_false, ih, List.cons_sublist_cons', reduceCtorEq,
            false_and, or_false]

/-- A client that starts reads a position when there is one that comes after a config
and, after that, a spawn message. -/
theorem readsPosition_iff (hconfig : client.configReceived = false)
    (hspawn : client.playerSpawnAndIdReceived = false) (messages : List Message) :
    client.ReadsPosition messages ↔ ∃ config spawn position,
      [Message.gameConfig config, .playerSpawnAndID spawn,
        .playerPosition position].Sublist messages := by
  induction messages with
  | nil => simp [ReadsPosition]
  | cons message messages ih =>
      have hnot : ¬ client.InGame := by simp [InGame, hspawn]
      rw [Client.readsPosition_cons, or_iff_right fun h => hnot h.2]
      cases message with
      | gameConfig first =>
          have hnextConfig : (client.receiveMessage (.gameConfig first)).configReceived = true := by
            simp [receiveMessage, hconfig]
          have hnextSpawn :
              (client.receiveMessage (.gameConfig first)).playerSpawnAndIdReceived = false := by
            simp [receiveMessage, hconfig, hspawn]
          simp only [readsPosition_iff_of_config hnextConfig hnextSpawn, List.cons_sublist_cons']
          constructor
          · rintro ⟨spawn, position, hposition⟩
            exact ⟨first, spawn, position, Or.inr ⟨rfl, hposition⟩⟩
          · rintro ⟨config, spawn, position, hlater | ⟨_, hposition⟩⟩
            · exact ⟨spawn, position, (List.sublist_cons_self _ _).trans hlater⟩
            · exact ⟨spawn, position, hposition⟩
      | playerSpawnAndID | newPlayerJoined | playerMove | playerPosition =>
          simp only [receiveMessage, hconfig, Bool.not_false, if_true, ih,
            List.cons_sublist_cons', reduceCtorEq, false_and, or_false]

end PlainClient

/-- The client program as it starts when it was not asked to count corrections. -/
def ConnectingClient.silentClient (connecting : ConnectingClient) : Client :=
  { connecting.client with correctionsTracker := none }

/-- The counting makes no difference exactly when no iteration is made, or the first
one does not end: it reads no position that comes after a config and a spawn message,
and then goes on choosing its move. -/
theorem logging_transparent_iff (connecting : ConnectingClient)
    (iterations : List (List Message × List ℕ)) :
    Client.Transparent connecting.silentClient connecting.client iterations ↔
      ∀ messages draws rest, iterations = (messages, draws) :: rest →
        (¬ ∃ config spawn position, [Message.gameConfig config, .playerSpawnAndID spawn,
          .playerPosition position].Sublist messages) ∧
        (connecting.client.plain.receiveMessages messages).move draws = none := by
  have hsilent : connecting.silentClient.correctionsTracker = none := rfl
  have htracked : connecting.client.correctionsTracker.isSome := rfl
  have hplain : connecting.silentClient.plain = connecting.client.plain := rfl
  have hreads (messages : List Message) := PlainClient.readsPosition_iff
    (show connecting.client.plain.configReceived = false from rfl) rfl messages
  rw [Client.transparent_iff hsilent htracked hplain]
  simp only [PlainClient.EndsEarly, hreads]

/-- A client that connects, with nothing unusual about it. -/
def someClient : ConnectingClient where
  clientId := 7

/-- When it is not asked to count it stops in its first iteration, though no message
has arrived. When it counts it goes on. -/
theorem silent_client_stops :
    run Client.play (someClient.silentClient, []) [([], [])] = .error .nullTracker ∧
      run Client.play (someClient.client, []) [([], [])] =
        .ok ({ someClient.client with
          correctionsTracker := some someClient.correctionsTracker.writeLine }, [[]]) ∧
      ¬ Client.Transparent someClient.silentClient someClient.client [([], [])] :=
  ⟨rfl, rfl, fun h => h.silentRuns rfl⟩

end LibBench.Yojimbo
