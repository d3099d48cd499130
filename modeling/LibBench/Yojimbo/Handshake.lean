/-
# Yojimbo: what the connect phase does to every slot

The loop that handles new clients looks at each slot once. It welcomes a
connected slot without a player, leaves a connected slot with a player alone,
and clears the player of a slot that is not connected; and what it does for one
slot is not disturbed by the slots before or after it. A handshake is the config
and then the spawn message, which only a welcome sends, and only to the slot it
is for.
-/

import Mathlib.Data.List.Nodup
import LibBench.Yojimbo.Server

namespace LibBench.Yojimbo

open LibBench.Math

/-- The two messages that only a new client is sent. -/
def Message.isHandshake : Message → Bool
  | .gameConfig _ | .playerSpawnAndID _ => true
  | .newPlayerJoined _ | .playerMove _ | .playerPosition _ => false

/-- The handshake messages among those sent, in order. -/
def handshakes (envelopes : List Envelope) : List Message :=
  (envelopes.map Envelope.message).filter Message.isHandshake

@[simp]
theorem handshakes_nil : handshakes [] = [] := rfl

@[simp]
theorem handshakes_append (first second : List Envelope) :
    handshakes (first ++ second) = handshakes first ++ handshakes second := by
  simp [handshakes]

/-- The handshake of the client in a slot whose player spawns at a position. -/
def GameConfig.handshake (gameConfig : GameConfig) (numPlayers : UInt16)
    (clientIndex : ClientID) (pos : Position) : List Message :=
  [.gameConfig ⟨gameConfig.mapWidth, gameConfig.mapHeight, numPlayers⟩,
    .playerSpawnAndID ⟨pos.x, pos.y, clientIndex⟩]

namespace ServerGameState

variable {gameConfig : GameConfig} {isClientConnected : ClientID → Bool}
  {draws : ClientID → List (ℕ × ℕ)} {gameState next : ServerGameState} {sent : List Send}

theorem createAndSpawnNewPlayerForClient_eq_ok {clientIndex : ClientID}
    {positions : List (ℕ × ℕ)}
    (h : gameState.createAndSpawnNewPlayerForClient gameConfig clientIndex positions =
      .ok next) : ∃ pos, next = gameState.addPlayer clientIndex pos := by
  rw [createAndSpawnNewPlayerForClient] at h
  split at h
  · cases h
  · next pos _ => exact ⟨pos, (Except.ok.inj h).symm⟩

/-- Everything that is sent about a new player. -/
def welcome (gameState : ServerGameState) (gameConfig : GameConfig)
    (isClientConnected : ClientID → Bool) (clientIndex : ClientID) (pos : Position) : List Send :=
  gameState.sendGameConfigToClient gameConfig clientIndex ::
    gameConfig.sendMessage clientIndex (.playerSpawnAndID ⟨pos.x, pos.y, clientIndex⟩) ::
      (clientIndices.filter isClientConnected).map fun i =>
        gameConfig.sendMessage i (.newPlayerJoined ⟨pos.x, pos.y, clientIndex⟩)

/-- The loop body: a welcome, nothing, or a removal. -/
theorem handleNewClient_eq_ok {i : ClientID}
    (h : handleNewClient gameConfig isClientConnected draws gameState i = .ok (next, sent)) :
    (isClientConnected i = true ∧ gameState.connectedPlayers[i]? = none ∧
        ∃ pos, next = gameState.addPlayer i pos ∧
          sent = gameState.welcome gameConfig isClientConnected i pos) ∨
      (isClientConnected i = true ∧ (gameState.connectedPlayers[i]?).isSome ∧
        next = gameState ∧ sent = []) ∨
      (isClientConnected i = false ∧ next = gameState.removePlayer i ∧ sent = []) := by
  rw [handleNewClient] at h
  cases hconnected : isClientConnected i with
  | false =>
      cases hplayer : gameState.connectedPlayers[i]? with
      | none =>
          have hremoved : gameState.removePlayer i = gameState := by
            rw [removePlayer, hplayer]
          simp only [hconnected, Bool.false_eq_true, if_false, hplayer, Except.ok.injEq,
            Prod.mk.injEq] at h
          exact Or.inr (Or.inr ⟨rfl, by rw [hremoved, h.1], h.2.symm⟩)
      | some player =>
          simp only [hconnected, Bool.false_eq_true, if_false, hplayer, Except.ok.injEq,
            Prod.mk.injEq] at h
          exact Or.inr (Or.inr ⟨rfl, h.1.symm, h.2.symm⟩)
  | true =>
      cases hplayer : gameState.connectedPlayers[i]? with
      | some player =>
          simp only [hconnected, if_true, hplayer, Except.ok.injEq, Prod.mk.injEq] at h
          exact Or.inr (Or.inl ⟨rfl, by simp, h.1.symm, h.2.symm⟩)
      | none =>
          cases hcreated : gameState.createAndSpawnNewPlayerForClient gameConfig i (draws i) with
          | error stop => simp [hconnected, hplayer, hcreated] at h
          | ok created =>
              obtain ⟨pos, rfl⟩ := createAndSpawnNewPlayerForClient_eq_ok hcreated
              have hentry : (gameState.addPlayer i pos).connectedPlayers[i]? = some ⟨pos⟩ := by
                rw [addPlayer_getElem?, if_pos rfl, hplayer, Option.getD_none]
              simp only [hconnected, if_true, hplayer, hcreated, sendPlayerSpawnAndIDToClient,
                broadcastNewPlayerJoinedMessage, hentry, Except.ok.injEq, Prod.mk.injEq] at h
              exact Or.inl ⟨rfl, rfl, pos, h.1.symm, h.2.symm⟩

/-- A welcome shakes hands with the new client and with nobody else. -/
theorem handshakes_sentTo_welcome (clientIndex other : ClientID) (pos : Position) :
    handshakes (sentTo other (gameState.welcome gameConfig isClientConnected clientIndex pos)) =
      if clientIndex = other then
        gameConfig.handshake gameState.numPlayers clientIndex pos
      else [] := by
  have hjoined : handshakes (sentTo other ((clientIndices.filter isClientConnected).map fun i =>
      gameConfig.sendMessage i (.newPlayerJoined ⟨pos.x, pos.y, clientIndex⟩))) = [] := by
    rw [handshakes, List.filter_eq_nil_iff]
    intro message hmessage
    simp only [sentTo, GameConfig.sendMessage, List.mem_map, List.mem_filter] at hmessage
    obtain ⟨_, ⟨_, ⟨⟨_, _, rfl⟩, _⟩, rfl⟩, rfl⟩ := hmessage
    exact Bool.false_ne_true
  simp only [welcome, sentTo_cons, sendGameConfigToClient, GameConfig.sendMessage] at hjoined ⊢
  by_cases h : clientIndex = other
  · simp only [h, if_true, handshakes, List.map_cons] at hjoined ⊢
    rw [List.filter_cons_of_pos rfl, List.filter_cons_of_pos rfl, hjoined]
    rfl
  · simp only [h, if_false]
    exact hjoined

/-- What the phase does to a slot, from the state before it to the state after
it and with everything it sends. -/
inductive Handled (gameConfig : GameConfig) (isClientConnected : ClientID → Bool)
    (gameState next : ServerGameState) (sent : List Send) (slot : ClientID) : Prop
  | welcomed {pos : Position} (hconnected : isClientConnected slot = true)
      (hnew : gameState.connectedPlayers[slot]? = none)
      (hcreated : next.connectedPlayers[slot]? = some ⟨pos⟩)
      (hsent : handshakes (sentTo slot sent) =
        gameConfig.handshake gameState.numPlayers slot pos)
  | kept {player : Player} (hconnected : isClientConnected slot = true)
      (hold : gameState.connectedPlayers[slot]? = some player)
      (hkept : next.connectedPlayers[slot]? = some player)
      (hsent : handshakes (sentTo slot sent) = [])
  | removed (hdisconnected : isClientConnected slot = false)
      (hremoved : next.connectedPlayers[slot]? = none)
      (hsent : handshakes (sentTo slot sent) = [])

/-- The phase neither touches the player of a slot nor shakes hands with it. -/
def LeavesAlone (gameState next : ServerGameState) (sent : List Send) (slot : ClientID) : Prop :=
  next.connectedPlayers[slot]? = gameState.connectedPlayers[slot]? ∧
    handshakes (sentTo slot sent) = []

/-- The loop body handles its own slot and leaves the others alone. -/
theorem handled_of_handleNewClient {i : ClientID}
    (h : handleNewClient gameConfig isClientConnected draws gameState i = .ok (next, sent)) :
    next.toGameState = gameState.toGameState ∧
      Handled gameConfig isClientConnected gameState next sent i ∧
        ∀ other, other ≠ i → LeavesAlone gameState next sent other := by
  rcases handleNewClient_eq_ok h with ⟨hconnected, hnew, pos, rfl, rfl⟩ |
    ⟨hconnected, hold, rfl, rfl⟩ | ⟨hdisconnected, rfl, rfl⟩
  · have hcreated : (gameState.addPlayer i pos).connectedPlayers[i]? = some ⟨pos⟩ := by
      rw [addPlayer_getElem?, if_pos rfl, hnew, Option.getD_none]
    refine ⟨rfl, .welcomed hconnected hnew hcreated ?_, fun other hother => ⟨?_, ?_⟩⟩
    · rw [handshakes_sentTo_welcome, if_pos rfl]
    · rw [addPlayer_getElem?, if_neg hother]
    · rw [handshakes_sentTo_welcome, if_neg hother.symm]
  · obtain ⟨player, hplayer⟩ := Option.isSome_iff_exists.mp hold
    exact ⟨rfl, .kept hconnected hplayer hplayer rfl, fun other _ => ⟨rfl, rfl⟩⟩
  · refine ⟨removePlayer_toGameState .., .removed hdisconnected ?_ rfl,
      fun other hother => ⟨?_, rfl⟩⟩
    · rw [removePlayer_getElem?, if_pos rfl]
    · rw [removePlayer_getElem?, if_neg hother]

/-- A slot that has been handled stays so when it is left alone. -/
theorem Handled.leavesAlone {middle : ServerGameState} {more : List Send} {slot : ClientID}
    (hhandled : Handled gameConfig isClientConnected gameState middle sent slot)
    (halone : LeavesAlone middle next more slot) :
    Handled gameConfig isClientConnected gameState next (sent ++ more) slot := by
  obtain ⟨hplayer, hmore⟩ := halone
  have hsame : handshakes (sentTo slot (sent ++ more)) = handshakes (sentTo slot sent) := by
    rw [sentTo_append, handshakes_append, hmore, List.append_nil]
  cases hhandled with
  | welcomed hconnected hnew hcreated hsent =>
      exact .welcomed hconnected hnew (hplayer.trans hcreated) (hsame.trans hsent)
  | kept hconnected hold hkept hsent =>
      exact .kept hconnected hold (hplayer.trans hkept) (hsame.trans hsent)
  | removed hdisconnected hremoved hsent =>
      exact .removed hdisconnected (hplayer.trans hremoved) (hsame.trans hsent)

/-- A slot that was left alone so far is handled as if it came first. -/
theorem LeavesAlone.handled {middle : ServerGameState} {more : List Send} {slot : ClientID}
    (halone : LeavesAlone gameState middle sent slot)
    (hsize : middle.toGameState = gameState.toGameState)
    (hhandled : Handled gameConfig isClientConnected middle next more slot) :
    Handled gameConfig isClientConnected gameState next (sent ++ more) slot := by
  obtain ⟨hplayer, hnone⟩ := halone
  have hsame : handshakes (sentTo slot (sent ++ more)) = handshakes (sentTo slot more) := by
    rw [sentTo_append, handshakes_append, hnone, List.nil_append]
  cases hhandled with
  | welcomed hconnected hnew hcreated hsent =>
      exact .welcomed hconnected (hplayer.symm.trans hnew) hcreated
        (by rw [hsame, hsent, hsize])
  | kept hconnected hold hkept hsent =>
      exact .kept hconnected (hplayer.symm.trans hold) hkept (hsame.trans hsent)
  | removed hdisconnected hremoved hsent =>
      exact .removed hdisconnected hremoved (hsame.trans hsent)

theorem LeavesAlone.trans {middle : ServerGameState} {more : List Send} {slot : ClientID}
    (hfirst : LeavesAlone gameState middle sent slot)
    (hsecond : LeavesAlone middle next more slot) :
    LeavesAlone gameState next (sent ++ more) slot :=
  ⟨hsecond.1.trans hfirst.1, by
    rw [sentTo_append, handshakes_append, hfirst.2, hsecond.2, List.append_nil]⟩

/-- The loop over any list of slots without repetition. The induction is on
the rounds done so far: the round for a slot comes after slots that left it
alone and before slots that will. -/
theorem handled_of_run {slots : List ClientID} (hnodup : slots.Nodup)
    (h : run (handleNextClient gameConfig isClientConnected draws) (gameState, []) slots =
      .ok (next, sent)) :
    next.toGameState = gameState.toGameState ∧
      (∀ slot ∈ slots, Handled gameConfig isClientConnected gameState next sent slot) ∧
        ∀ slot, slot ∉ slots → LeavesAlone gameState next sent slot := by
  induction slots using List.reverseRecOn generalizing next sent with
  | nil =>
      obtain ⟨rfl, rfl⟩ := Prod.mk.inj (Except.ok.inj h)
      exact ⟨rfl, by simp, fun slot _ => ⟨rfl, rfl⟩⟩
  | append_singleton slots i ih =>
      obtain ⟨⟨middle, sentBefore⟩, hrun, hround⟩ := run_concat_eq_ok.mp h
      rw [handleNextClient] at hround
      split at hround
      · cases hround
      · next next' more hi =>
          obtain ⟨rfl, rfl⟩ := Prod.mk.inj (Except.ok.inj hround)
          obtain ⟨hfresh, hslots⟩ := List.nodup_cons.mp (List.nodup_append_comm.mp hnodup)
          obtain ⟨hsize, hhandled, halone⟩ := ih hslots hrun
          obtain ⟨hsize', hhandled', halone'⟩ := handled_of_handleNewClient hi
          refine ⟨hsize'.trans hsize, fun slot hslot => ?_, fun slot hslot => ?_⟩
          · rcases List.mem_append.mp hslot with hold | hnew
            · exact (hhandled slot hold).leavesAlone
                (halone' slot fun heq => hfresh (heq ▸ hold))
            · obtain rfl := List.mem_singleton.mp hnew
              exact (halone slot hfresh).handled hsize hhandled'
          · simp only [List.mem_append, List.mem_singleton, not_or] at hslot
            exact (halone slot hslot.1).trans (halone' slot hslot.2)

/-- The connect phase handles every slot of the server. -/
theorem handled_of_handleNewClients
    (h : gameState.handleNewClients gameConfig isClientConnected draws = .ok (next, sent))
    {slot : ClientID} (hslot : slot ∈ clientIndices) :
    Handled gameConfig isClientConnected gameState next sent slot :=
  (handled_of_run nodup_clientIndices h).2.1 slot hslot

theorem toGameState_of_handleNewClients
    (h : gameState.handleNewClients gameConfig isClientConnected draws = .ok (next, sent)) :
    next.toGameState = gameState.toGameState :=
  (handled_of_run nodup_clientIndices h).1

/-- It does not look at anything else. -/
theorem leavesAlone_of_handleNewClients
    (h : gameState.handleNewClients gameConfig isClientConnected draws = .ok (next, sent))
    {slot : ClientID} (hslot : slot ∉ clientIndices) : LeavesAlone gameState next sent slot :=
  (handled_of_run nodup_clientIndices h).2.2 slot hslot

/-- Every send is the position of a player in the game. -/
def PositionsOnly (gameState : ServerGameState) (gameConfig : GameConfig)
    (sent : List Send) : Prop :=
  ∀ send ∈ sent, ∃ receiver slot player, gameState.connectedPlayers[slot]? = some player ∧
    send = gameConfig.sendMessage receiver
      (.playerPosition ⟨player.pos.x, player.pos.y, slot⟩)

theorem positionsOnly_broadcastUpdatedPlayerPosition {slot : ClientID}
    (h : gameState.broadcastUpdatedPlayerPosition gameConfig isClientConnected slot =
      .ok sent) : gameState.PositionsOnly gameConfig sent := by
  rw [broadcastUpdatedPlayerPosition] at h
  split at h
  · obtain rfl := Except.ok.inj h
    exact List.forall_mem_nil _
  · cases h
  · next player hplayer _ =>
      obtain rfl := Except.ok.inj h
      intro send hsend
      obtain ⟨receiver, _, rfl⟩ := List.mem_map.mp hsend
      exact ⟨receiver, slot, player, hplayer, rfl⟩

theorem positionsOnly_broadcastPlayerPositions
    (h : gameState.broadcastPlayerPositions gameConfig isClientConnected = .ok sent) :
    gameState.PositionsOnly gameConfig sent := by
  have hround (before : List Send) (slot : ClientID) (after : List Send)
      (hbefore : gameState.PositionsOnly gameConfig before)
      (hstep : gameState.broadcastNextPosition gameConfig isClientConnected before slot =
        .ok after) : gameState.PositionsOnly gameConfig after := by
    rw [broadcastNextPosition] at hstep
    split at hstep
    · cases hstep
    · next more hmore =>
        obtain rfl := Except.ok.inj hstep
        exact List.forall_mem_append.mpr
          ⟨hbefore, positionsOnly_broadcastUpdatedPlayerPosition hmore⟩
  exact run_invariant_of_step hround (List.forall_mem_nil _) h

/-- The broadcast shakes hands with nobody. -/
theorem handshakes_sentTo_broadcast
    (h : gameState.broadcastPlayerPositions gameConfig isClientConnected = .ok sent)
    (slot : ClientID) : handshakes (sentTo slot sent) = [] := by
  rw [handshakes, List.filter_eq_nil_iff]
  intro message hmessage
  simp only [sentTo, List.mem_map, List.mem_filter] at hmessage
  obtain ⟨_, ⟨send, ⟨hsend, _⟩, rfl⟩, rfl⟩ := hmessage
  obtain ⟨_, _, _, _, rfl⟩ := positionsOnly_broadcastPlayerPositions h send hsend
  exact Bool.false_ne_true

end ServerGameState

end LibBench.Yojimbo
