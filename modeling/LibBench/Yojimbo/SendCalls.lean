/-
# Yojimbo: the server's calls of `SendMessage`

The server sends without asking `CanSendMessage`: in each iteration every
connected client is sent the position of every player, and around each new one
some more. In the reliable mode all of that goes into the client's send queue,
and only acknowledgements take it out again. This module counts the calls of an
iteration for each slot, and runs the server together with the queues.

What the library does with the slots, and which packets it finds acknowledged,
falls inside `AdvanceTime`. A client that has gone silent is among the connected
ones until the library disconnects it.
-/

import Mathlib.Tactic.Ring
import LibBench.Yojimbo.Pointers
import LibBench.Yojimbo.SendQueue

namespace LibBench.Yojimbo

open LibBench.Math

/-- `messageSendQueueSize`, the default, which the programs keep. -/
def messageSendQueueSize : ℕ := 1024

/-- The reliable channel of each slot. -/
abbrev SendChannels := ClientID → ReliableOrderedChannel messageSendQueueSize

namespace SendChannels

/-- `server.SendMessage`, for what it does to the reliable channels. -/
def sendMessage (channels : SendChannels) (send : Send) : SendChannels :=
  match send.envelope.channel with
  | .reliableOrdered =>
      Function.update channels send.clientIndex (channels send.clientIndex).sendMessage
  | .unreliableUnordered => channels

/-- The calls one after the other. -/
def sendMessages (channels : SendChannels) (sends : List Send) : SendChannels :=
  sends.foldl sendMessage channels

/-- A call on the reliable channel comes while `CanSendMessage` is true. -/
def CanSend (channels : SendChannels) (send : Send) : Prop :=
  send.envelope.channel = .reliableOrdered →
    (channels send.clientIndex).canSendMessage = true

/-- And so does every one of several calls. -/
def CanSendAll : SendChannels → List Send → Prop
  | _, [] => True
  | channels, send :: sends =>
      CanSend channels send ∧ CanSendAll (channels.sendMessage send) sends

/-- No channel is in an error state. -/
structure Ready (channels : SendChannels) : Prop where
  wellFormed : ∀ slot, (channels slot).WellFormed
  errorLevel : ∀ slot, (channels slot).errorLevel = .none

variable {channels : SendChannels} {send : Send} {sends : List Send}

theorem size_dvd : messageSendQueueSize ∣ 65536 := by decide

theorem size_lt : messageSendQueueSize < 65536 := by decide

theorem length_sentTo_cons (slot : ClientID) (send : Send) (sends : List Send) :
    (sentTo slot (send :: sends)).length =
      (if send.clientIndex = slot then 1 else 0) + (sentTo slot sends).length := by
  rw [sentTo_cons]
  split
  · rw [List.length_cons, Nat.add_comm]
  · rw [Nat.zero_add]

theorem sendMessage_of_reliable (hreliable : send.envelope.channel = .reliableOrdered) :
    channels.sendMessage send =
      Function.update channels send.clientIndex (channels send.clientIndex).sendMessage := by
  rw [sendMessage, hreliable]

theorem wellFormed_sendMessages (h : ∀ slot, (channels slot).WellFormed) (sends : List Send)
    (slot : ClientID) : (channels.sendMessages sends slot).WellFormed := by
  induction sends generalizing channels with
  | nil => exact h slot
  | cons send sends ih =>
      apply ih
      intro other
      cases hchannel : send.envelope.channel with
      | reliableOrdered =>
          rw [sendMessage_of_reliable hchannel, Function.update_apply]
          split
          · exact (h _).sendMessage size_dvd size_lt
          · exact h other
      | unreliableUnordered =>
          rw [sendMessage, hchannel]
          exact h other

/-- Where there is room, a call leaves the channels ready and makes one window
longer. -/
theorem Ready.sendMessage (h : channels.Ready)
    (hreliable : send.envelope.channel = .reliableOrdered)
    (hlt : (channels send.clientIndex).outstanding < messageSendQueueSize) :
    (channels.sendMessage send).Ready ∧ ∀ slot, (channels.sendMessage send slot).outstanding =
      (channels slot).outstanding + (if send.clientIndex = slot then 1 else 0) := by
  have hwell := h.wellFormed send.clientIndex
  have hlevel := h.errorLevel send.clientIndex
  rw [sendMessage_of_reliable hreliable]
  refine ⟨⟨fun slot => ?_, fun slot => ?_⟩, fun slot => ?_⟩ <;> rw [Function.update_apply]
  · split
    · exact hwell.sendMessage size_dvd size_lt
    · exact h.wellFormed slot
  · split
    · rw [hwell.sendMessage_eq size_dvd hlevel hlt]
      exact hlevel
    · exact h.errorLevel slot
  · split
    · next hslot =>
        rw [hwell.outstanding_sendMessage size_dvd size_lt hlevel hlt]
        rw [hslot, if_pos rfl]
    · next hslot => rw [if_neg (Ne.symm hslot), Nat.add_zero]

/-- All calls come in time exactly when each queue has room for all that is sent
to its slot. -/
theorem Ready.canSendAll_iff (h : channels.Ready)
    (hreliable : ∀ send ∈ sends, send.envelope.channel = .reliableOrdered) :
    CanSendAll channels sends ↔ ∀ slot,
      (channels slot).outstanding + (sentTo slot sends).length ≤ messageSendQueueSize := by
  induction sends generalizing channels with
  | nil => exact iff_of_true trivial fun slot => (h.wellFormed slot).bounded
  | cons send sends ih =>
      obtain ⟨hsend, hrest⟩ := List.forall_mem_cons.mp hreliable
      have hcan : CanSend channels send ↔
          (channels send.clientIndex).outstanding < messageSendQueueSize := by
        rw [CanSend, forall_prop_of_true hsend,
          (h.wellFormed send.clientIndex).canSendMessage_iff size_dvd]
      by_cases hlt : (channels send.clientIndex).outstanding < messageSendQueueSize
      · obtain ⟨hready, houtstanding⟩ := h.sendMessage hsend hlt
        rw [CanSendAll, and_iff_right (hcan.mpr hlt), ih hready hrest]
        simp only [houtstanding, length_sentTo_cons, Nat.add_assoc]
      · refine iff_of_false (fun hall => hlt (hcan.mp hall.1)) fun hall => hlt ?_
        have hroom := hall send.clientIndex
        rw [sentTo_cons, if_pos rfl, List.length_cons] at hroom
        omega

/-- Calls that all come in time leave the channels ready. -/
theorem Ready.sendMessages (h : channels.Ready)
    (hreliable : ∀ send ∈ sends, send.envelope.channel = .reliableOrdered)
    (hcan : CanSendAll channels sends) :
    (channels.sendMessages sends).Ready ∧ ∀ slot,
      (channels.sendMessages sends slot).outstanding =
        (channels slot).outstanding + (sentTo slot sends).length := by
  induction sends generalizing channels with
  | nil => exact ⟨h, fun slot => rfl⟩
  | cons send sends ih =>
      obtain ⟨hsend, hrest⟩ := List.forall_mem_cons.mp hreliable
      have hlt := ((h.wellFormed send.clientIndex).canSendMessage_iff size_dvd).mp (hcan.1 hsend)
      obtain ⟨hready, houtstanding⟩ := h.sendMessage hsend hlt
      obtain ⟨hafter, hall⟩ := ih hready hrest hcan.2
      refine ⟨hafter, fun slot => (hall slot).trans ?_⟩
      rw [houtstanding, length_sentTo_cons, Nat.add_assoc]

end SendChannels

namespace ServerGameState

/-- The calls in the body of the loop that handles new clients. The config goes
out before the spawn loop, so it does even if that loop does not return. -/
def newClientCalls (gameConfig : GameConfig) (isClientConnected : ClientID → Bool)
    (draws : ClientID → List (ℕ × ℕ)) (gameState : ServerGameState) (i : ClientID) : List Send :=
  match handleNewClient gameConfig isClientConnected draws gameState i with
  | .ok (_, sent) => sent
  | .error _ => [gameState.sendGameConfigToClient gameConfig i]

/-- The calls of the loop, up to where it does not get on. -/
def newClientsCalls (gameConfig : GameConfig) (isClientConnected : ClientID → Bool)
    (draws : ClientID → List (ℕ × ℕ)) : ServerGameState → List ClientID → List Send
  | _, [] => []
  | gameState, i :: slots =>
      newClientCalls gameConfig isClientConnected draws gameState i ++
        match handleNewClient gameConfig isClientConnected draws gameState i with
        | .ok (next, _) => newClientsCalls gameConfig isClientConnected draws next slots
        | .error _ => []

/-- The connected slots, in order. -/
def connectedClients (isClientConnected : ClientID → Bool) : List ClientID :=
  clientIndices.filter isClientConnected

/-- The slots that the loop is going to welcome. -/
def newClients (gameState : ServerGameState) (isClientConnected : ClientID → Bool)
    (slots : List ClientID) : List ClientID :=
  slots.filter fun i => isClientConnected i && (gameState.connectedPlayers[i]?).isNone

variable {gameConfig : GameConfig} {isClientConnected : ClientID → Bool}
  {draws : ClientID → List (ℕ × ℕ)} {gameState next : ServerGameState} {sent : List Send}

/-- A broadcast goes once to every receiver. -/
theorem length_sentTo_map (receivers : List ClientID) (message : Message) (slot : ClientID) :
    (sentTo slot (receivers.map fun i => gameConfig.sendMessage i message)).length =
      receivers.count slot := by
  induction receivers with
  | nil => rfl
  | cons receiver receivers ih =>
      rw [List.map_cons, SendChannels.length_sentTo_cons, ih, List.count_cons, Nat.add_comm]
      by_cases h : receiver = slot <;> simp [GameConfig.sendMessage, h]

theorem length_sentTo_singleton (i : ClientID) (message : Message) (slot : ClientID) :
    (sentTo slot [gameConfig.sendMessage i message]).length = [i].count slot :=
  length_sentTo_map [i] message slot

theorem length_sentTo_welcome (i slot : ClientID) (pos : Position) :
    (sentTo slot (gameState.welcome gameConfig isClientConnected i pos)).length =
      2 * [i].count slot + (connectedClients isClientConnected).count slot := by
  have hwelcome : gameState.welcome gameConfig isClientConnected i pos =
      [gameState.sendGameConfigToClient gameConfig i] ++
        ([gameConfig.sendMessage i (.playerSpawnAndID ⟨pos.x, pos.y, i⟩)] ++
          (connectedClients isClientConnected).map fun receiver =>
            gameConfig.sendMessage receiver (.newPlayerJoined ⟨pos.x, pos.y, i⟩)) := rfl
  rw [hwelcome, sentTo_append, sentTo_append, List.length_append, List.length_append,
    sendGameConfigToClient, length_sentTo_singleton, length_sentTo_singleton, length_sentTo_map]
  ring

/-- A new client is what the loop body can fail on. -/
theorem handleNewClient_eq_error {i : ClientID} {stop : Stop}
    (h : handleNewClient gameConfig isClientConnected draws gameState i = .error stop) :
    isClientConnected i = true ∧ gameState.connectedPlayers[i]? = none := by
  rw [handleNewClient] at h
  split at h
  · next hconnected =>
      split at h
      · cases h
      · next hplayer => exact ⟨hconnected, hplayer⟩
  · split at h <;> cases h

/-- The loop body leaves the new clients after it as they were. -/
theorem newClients_of_handleNewClient {i : ClientID} {slots : List ClientID} (hfresh : i ∉ slots)
    (h : handleNewClient gameConfig isClientConnected draws gameState i = .ok (next, sent)) :
    next.newClients isClientConnected slots = gameState.newClients isClientConnected slots := by
  apply List.filter_congr
  intro slot hslot
  have hother : slot ≠ i := fun heq => hfresh (heq ▸ hslot)
  rw [((handled_of_handleNewClient h).2.2 slot hother).1]

/-- What the loop over some slots sends to a slot: two messages when it is new,
and one for each new client when it is connected. -/
def connectLoad (gameState : ServerGameState) (isClientConnected : ClientID → Bool)
    (slots : List ClientID) (slot : ClientID) : ℕ :=
  2 * (gameState.newClients isClientConnected slots).count slot +
    (gameState.newClients isClientConnected slots).length *
      (connectedClients isClientConnected).count slot

theorem connectLoad_cons_of_new {i : ClientID} (hconnected : isClientConnected i = true)
    (hplayer : gameState.connectedPlayers[i]? = none) (slots : List ClientID) (slot : ClientID) :
    gameState.connectLoad isClientConnected (i :: slots) slot =
      2 * [i].count slot + (connectedClients isClientConnected).count slot +
        gameState.connectLoad isClientConnected slots slot := by
  have hnew : gameState.newClients isClientConnected (i :: slots) =
      i :: gameState.newClients isClientConnected slots :=
    List.filter_cons_of_pos (by simp [hconnected, hplayer])
  rw [connectLoad, hnew, ← List.singleton_append, List.count_append, List.length_append,
    List.length_singleton, connectLoad]
  ring

theorem connectLoad_cons_of_not_new {i : ClientID}
    (h : ¬ (isClientConnected i = true ∧ gameState.connectedPlayers[i]? = none))
    (slots : List ClientID) (slot : ClientID) :
    gameState.connectLoad isClientConnected (i :: slots) slot =
      gameState.connectLoad isClientConnected slots slot := by
  have hnew : gameState.newClients isClientConnected (i :: slots) =
      gameState.newClients isClientConnected slots :=
    List.filter_cons_of_neg (by simpa using h)
  rw [connectLoad, hnew, connectLoad]

/-- A round of the loop that returns sends what the slot adds to the load. -/
theorem length_sentTo_handleNewClient {i : ClientID} {slots : List ClientID} (hfresh : i ∉ slots)
    (h : handleNewClient gameConfig isClientConnected draws gameState i = .ok (next, sent))
    (slot : ClientID) :
    gameState.connectLoad isClientConnected (i :: slots) slot =
      (sentTo slot sent).length + next.connectLoad isClientConnected slots slot := by
  have hrest : next.connectLoad isClientConnected slots slot =
      gameState.connectLoad isClientConnected slots slot := by
    rw [connectLoad, newClients_of_handleNewClient hfresh h, connectLoad]
  rw [hrest]
  rcases handleNewClient_eq_ok h with ⟨hconnected, hnew, pos, _, rfl⟩ |
    ⟨_, hold, _, rfl⟩ | ⟨hdisconnected, _, rfl⟩
  · rw [connectLoad_cons_of_new hconnected hnew, length_sentTo_welcome]
  · rw [connectLoad_cons_of_not_new fun hnew => by simp [hnew.2] at hold]
    exact (Nat.zero_add _).symm
  · rw [connectLoad_cons_of_not_new fun hnew => by simp [hnew.1] at hdisconnected]
    exact (Nat.zero_add _).symm

/-- The loop never sends more than the load. -/
theorem length_sentTo_newClientsCalls_le {slots : List ClientID} (hnodup : slots.Nodup)
    (slot : ClientID) :
    (sentTo slot (newClientsCalls gameConfig isClientConnected draws gameState slots)).length ≤
      gameState.connectLoad isClientConnected slots slot := by
  induction slots generalizing gameState with
  | nil => exact Nat.zero_le _
  | cons i slots ih =>
      obtain ⟨hfresh, hslots⟩ := List.nodup_cons.mp hnodup
      rw [newClientsCalls, newClientCalls, sentTo_append, List.length_append]
      cases hi : handleNewClient gameConfig isClientConnected draws gameState i with
      | error stop =>
          -- the config has gone out, and nothing else will
          obtain ⟨hconnected, hplayer⟩ := handleNewClient_eq_error hi
          rw [connectLoad_cons_of_new hconnected hplayer]
          have hconfig : (sentTo slot [gameState.sendGameConfigToClient gameConfig i]).length =
              [i].count slot := length_sentTo_singleton i _ slot
          have hnothing : (sentTo slot []).length = 0 := rfl
          dsimp only
          omega
      | ok progress =>
          rw [length_sentTo_handleNewClient hfresh hi]
          exact Nat.add_le_add_left (ih hslots) _

/-- A loop that returns sends exactly that. -/
theorem length_sentTo_of_run {slots : List ClientID} (hnodup : slots.Nodup) {before : List Send}
    (h : run (handleNextClient gameConfig isClientConnected draws) (gameState, before) slots =
      .ok (next, sent)) :
    sent = before ++ newClientsCalls gameConfig isClientConnected draws gameState slots ∧
      ∀ slot, (sentTo slot (newClientsCalls gameConfig isClientConnected draws gameState
        slots)).length = gameState.connectLoad isClientConnected slots slot := by
  induction slots generalizing gameState before with
  | nil =>
      obtain ⟨_, rfl⟩ := Prod.mk.inj (Except.ok.inj h)
      refine ⟨by simp [newClientsCalls], fun slot => ?_⟩
      simp [newClientsCalls, sentTo, connectLoad, newClients]
  | cons i slots ih =>
      obtain ⟨hfresh, hslots⟩ := List.nodup_cons.mp hnodup
      obtain ⟨⟨middle, progress⟩, hround, hrest⟩ := run_cons_eq_ok.mp h
      rw [handleNextClient] at hround
      split at hround
      · cases hround
      · next middle' more hi =>
          obtain ⟨rfl, rfl⟩ := Prod.mk.inj (Except.ok.inj hround)
          obtain ⟨hsent, hlength⟩ := ih hslots hrest
          simp only [newClientsCalls, newClientCalls, hi]
          refine ⟨by rw [hsent, List.append_assoc], fun slot => ?_⟩
          rw [sentTo_append, List.length_append, hlength, length_sentTo_handleNewClient hfresh hi]

theorem length_sentTo_broadcastUpdatedPlayerPosition {updatedPlayerId : ClientID}
    (h : gameState.broadcastUpdatedPlayerPosition gameConfig isClientConnected updatedPlayerId =
      .ok sent) (slot : ClientID) :
    (sentTo slot sent).length = (connectedClients isClientConnected).count slot := by
  rw [broadcastUpdatedPlayerPosition] at h
  rw [connectedClients]
  split at h
  · next hnobody =>
      obtain rfl := Except.ok.inj h
      rw [hnobody]
      rfl
  · cases h
  · obtain rfl := Except.ok.inj h
    exact length_sentTo_map _ _ slot

theorem length_sentTo_of_run_broadcastNextPosition {slots : List ClientID} {before : List Send}
    (h : run (gameState.broadcastNextPosition gameConfig isClientConnected) before slots =
      .ok sent) (slot : ClientID) :
    (sentTo slot sent).length = (sentTo slot before).length +
      slots.length * (connectedClients isClientConnected).count slot := by
  induction slots generalizing before with
  | nil =>
      obtain rfl := Except.ok.inj h
      simp
  | cons i slots ih =>
      obtain ⟨middle, hround, hrest⟩ := run_cons_eq_ok.mp h
      rw [broadcastNextPosition] at hround
      split at hround
      · cases hround
      · next more hmore =>
          obtain rfl := Except.ok.inj hround
          rw [ih hrest, sentTo_append, List.length_append,
            length_sentTo_broadcastUpdatedPlayerPosition hmore, List.length_cons]
          ring

/-- Every connected slot is sent as many positions as there are connected
slots. -/
theorem length_sentTo_broadcastPlayerPositions
    (h : gameState.broadcastPlayerPositions gameConfig isClientConnected = .ok sent)
    (slot : ClientID) :
    (sentTo slot sent).length = (connectedClients isClientConnected).length *
      (connectedClients isClientConnected).count slot := by
  rw [length_sentTo_of_run_broadcastNextPosition h slot, connectedClients]
  exact Nat.zero_add _

/-- All sends go to the channel of the config. -/
def OnChannel (gameConfig : GameConfig) (sends : List Send) : Prop :=
  ∀ send ∈ sends, send.envelope.channel = channelType gameConfig.reliableMessaging

theorem OnChannel.append {first second : List Send} (hfirst : OnChannel gameConfig first)
    (hsecond : OnChannel gameConfig second) : OnChannel gameConfig (first ++ second) :=
  List.forall_mem_append.mpr ⟨hfirst, hsecond⟩

theorem onChannel_map (receivers : List ClientID) (message : Message) :
    OnChannel gameConfig (receivers.map fun i => gameConfig.sendMessage i message) := by
  intro send hsend
  obtain ⟨_, _, rfl⟩ := List.mem_map.mp hsend
  rfl

theorem onChannel_newClientCalls (i : ClientID) :
    OnChannel gameConfig (newClientCalls gameConfig isClientConnected draws gameState i) := by
  rw [newClientCalls]
  split
  · next next sent hi =>
      rcases handleNewClient_eq_ok hi with ⟨_, _, pos, _, rfl⟩ | ⟨_, _, _, rfl⟩ | ⟨_, _, rfl⟩
      · rintro send (_ | ⟨_, _ | ⟨_, hsend⟩⟩)
        · rfl
        · rfl
        · exact onChannel_map _ _ send hsend
      · exact List.forall_mem_nil _
      · exact List.forall_mem_nil _
  · exact List.forall_mem_singleton.mpr rfl

theorem onChannel_newClientsCalls (slots : List ClientID) :
    OnChannel gameConfig (newClientsCalls gameConfig isClientConnected draws gameState slots) := by
  induction slots generalizing gameState with
  | nil => exact List.forall_mem_nil _
  | cons i slots ih =>
      rw [newClientsCalls]
      apply (onChannel_newClientCalls i).append
      split
      · exact ih
      · exact List.forall_mem_nil _

theorem onChannel_broadcastPlayerPositions
    (h : gameState.broadcastPlayerPositions gameConfig isClientConnected = .ok sent) :
    OnChannel gameConfig sent := by
  intro send hsend
  obtain ⟨_, _, _, _, rfl⟩ := positionsOnly_broadcastPlayerPositions h send hsend
  rfl

end ServerGameState

end LibBench.Yojimbo
