/-
# Yojimbo: whose player a move is about

The server queues a move under the id that the message names and does not look
at the slot it came from. An honest client names the low eight bits of its own
64-bit id, and not the slot that its spawn message told it. A move is therefore
about the sender's player exactly when those eight bits happen to be the number
of the sender's slot.
-/

import LibBench.Yojimbo.World

namespace LibBench.Yojimbo

open LibBench.Math

/-- Whatever the game state and the rest of the queue, the update changes no
player but the one of the slot. -/
def MovesOnly (slot : ClientID) (update : ClientID × Position) : Prop :=
  ∀ (gameState : ServerGameState) (before after : List (ClientID × Position)) (other : ClientID),
    other ≠ slot →
      ({ gameState with
          updatedPlayerPositions := before ++ update :: after
          }.updatePlayerPositions).connectedPlayers[other]? =
        ({ gameState with
          updatedPlayerPositions := before ++ after
          }.updatePlayerPositions).connectedPlayers[other]?

/-- Every cell has another one within one space, to its left or else to its
right. -/
theorem exists_neighbour (pos : Position) :
    ∃ neighbour, neighbour ≠ pos ∧ neighbour.OneSpace pos := by
  by_cases hx : 0 < pos.x
  · have hmem : ⟨pos.x - 1, pos.y⟩ ∈ possibleMoves 1 0 pos := by simp [possibleMoves, hx]
    refine ⟨_, fun heq => ?_, (oneSpace_of_mem_possibleMoves hmem).symm⟩
    have hsame : (pos.x - 1).toNat = pos.x.toNat := congrArg (fun pos => pos.x.toNat) heq
    have hpos : 0 < pos.x.toNat := UInt16.lt_iff_toNat_lt.mp hx
    rw [toNat_sub_one hx] at hsame
    omega
  · have hlt : pos.x < 1 := by
      rw [UInt16.lt_iff_toNat_lt] at hx ⊢
      exact Nat.lt_of_lt_of_le (Nat.lt_succ_of_le (Nat.le_of_not_lt hx)) le_rfl
    have hmem : ⟨pos.x + 1, pos.y⟩ ∈ possibleMoves 1 0 pos := by simp [possibleMoves, hlt]
    refine ⟨_, fun heq => ?_, (oneSpace_of_mem_possibleMoves hmem).symm⟩
    have hsame : (pos.x + 1).toNat = pos.x.toNat := congrArg (fun pos => pos.x.toNat) heq
    rw [toNat_add_one hlt] at hsame
    omega

/-- An update moves the player of one slot only, if and only if it is queued
under that slot. -/
theorem movesOnly_iff {slot : ClientID} {update : ClientID × Position} :
    MovesOnly slot update ↔ update.1 = slot := by
  constructor
  · intro h
    by_contra hother
    obtain ⟨neighbour, hne, hnear⟩ := exists_neighbour update.2
    have hmoved := h { mapWidth := 0, mapHeight := 0, numPlayers := 0, connectedPlayers :=
      (∅ : Std.TreeMap ClientID Player).insert update.1 ⟨neighbour⟩ } [] [] update.1 hother
    simp [ServerGameState.updatePlayerPositions, updateEntry, Player.receiveUpdate,
      Position.movedMoreThanOneSpace_eq_false_iff.mpr hnear, hne.symm] at hmoved
  · rintro rfl gameState before after other hother
    simp only [ServerGameState.updatePlayerPositions, foldl_updateEntry_getElem?,
      ownUpdates_append, ownUpdates_cons, if_neg hother.symm]

/-- Every message on the uplink is a move under the low byte of the client's
id. -/
def Session.Signed (session : Session) : Prop :=
  ∀ envelope ∈ session.uplink, ∃ newPos : Position,
    envelope.message = .playerMove ⟨newPos.x, newPos.y, session.client.clientId.toUInt8⟩

/-- So it is in every slot. -/
def Network.Signed (network : Network) : Prop :=
  ∀ slot session, network.session slot = some session → session.Signed

/-- A step in which no peer sends what the client program would not. -/
def Action.IsHonest : Action → Prop
  | .peer _ (.forge _) => False
  | _ => True

instance : DecidablePred Action.IsHonest
  | .peer _ (.forge _) => inferInstanceAs (Decidable False)
  | .peer _ (.iterate _ _) | .peer _ (.loseUplink _) | .peer _ (.loseDownlink _)
  | .handleNewClients _ | .receiveMessage _ _ | .updateAndBroadcast | .advanceTime _ =>
      inferInstanceAs (Decidable True)

theorem Session.Signed.act {session next : Session} (h : session.Signed) {clientIndex : ClientID}
    {action : PeerAction} (hhonest : (Action.peer clientIndex action).IsHonest)
    (hact : session.act action = .ok next) : next.Signed := by
  cases action with
  | forge envelope => exact hhonest.elim
  | loseUplink index =>
      obtain rfl := Except.ok.inj hact
      exact fun envelope henvelope => h envelope (List.mem_of_mem_eraseIdx henvelope)
  | loseDownlink index =>
      obtain rfl := Except.ok.inj hact
      exact h
  | iterate received draws =>
      rw [Session.act] at hact
      split at hact
      · cases hact
      · split at hact
        · cases hact
        · next client sent hiterate =>
            obtain rfl := Except.ok.inj hact
            obtain ⟨hid, hsent⟩ := Client.iterate_eq_ok hiterate
            intro envelope henvelope
            rw [hid]
            rcases List.mem_append.mp henvelope with hold | hnew
            · exact h envelope hold
            · exact hsent envelope hnew

theorem Network.Signed.deliver {network : Network} (h : network.Signed) (sent : List Send) :
    (network.deliver sent).Signed := by
  intro slot session hsession
  obtain ⟨before, hbefore, rfl⟩ := Option.map_eq_some_iff.mp hsession
  exact h slot before hbefore

theorem Network.Signed.update {network : Network} (h : network.Signed) {clientIndex : ClientID}
    {next : Session} (hnext : next.Signed) (sessions : ℕ) :
    Network.Signed ⟨Function.update network.session clientIndex (some next), sessions⟩ := by
  intro slot session hsession
  dsimp only at hsession
  by_cases hslot : slot = clientIndex
  · rw [hslot, Function.update_self, Option.some.injEq] at hsession
    exact hsession ▸ hnext
  · rw [Function.update_of_ne hslot] at hsession
    exact h slot session hsession

theorem Network.Signed.apply {network : Network} (h : network.Signed) (event : NetworkEvent) :
    (network.apply event).Signed := by
  cases event with
  | disconnect clientIndex =>
      intro slot session hsession
      simp only [Network.apply] at hsession
      by_cases hslot : slot = clientIndex
      · rw [hslot, Function.update_self] at hsession
        cases hsession
      · rw [Function.update_of_ne hslot] at hsession
        exact h slot session hsession
  | connectionResponse connecting =>
      simp only [Network.apply]
      split
      · exact h
      · split
        · exact h
        · exact h.update (fun envelope henvelope => by cases henvelope) _

theorem Network.Signed.advanceTime {network : Network} (h : network.Signed)
    (events : List NetworkEvent) : (network.advanceTime events).Signed := by
  induction events generalizing network with
  | nil => exact h
  | cons event events ih => exact ih (h.apply event)

theorem signed_step {world next : World} {action : Action} (h : world.network.Signed)
    (hhonest : action.IsHonest) (hstep : world.step action = .ok next) :
    next.network.Signed := by
  cases action with
  | handleNewClients draws =>
      obtain ⟨_, _, _, _, rfl⟩ := World.step_handleNewClients_eq_ok hstep
      exact h.deliver _
  | receiveMessage clientIndex index =>
      obtain ⟨_, session, _, hsession, _, rfl⟩ := World.step_receiveMessage_eq_ok hstep
      refine h.update (fun envelope henvelope => ?_) _
      exact h clientIndex session hsession envelope (List.mem_of_mem_eraseIdx henvelope)
  | updateAndBroadcast =>
      obtain ⟨_, _, _, rfl⟩ := World.step_updateAndBroadcast_eq_ok hstep
      exact h.deliver _
  | advanceTime events =>
      obtain ⟨_, rfl⟩ := World.step_advanceTime_eq_ok hstep
      exact h.advanceTime events
  | peer clientIndex action =>
      obtain ⟨session, acted, hsession, hacted, rfl⟩ := World.step_peer_eq_ok hstep
      exact h.update ((h clientIndex session hsession).act hhonest hacted) _

/-- What the server takes off the uplink of a slot is queued under that slot, so
that it can move the sender's own player and no other. -/
def Attributed (world : World) : Action → Prop
  | .receiveMessage clientIndex index => ∀ next,
      world.step (.receiveMessage clientIndex index) = .ok next →
        ∃ update : ClientID × Position,
          next.gameState.updatedPlayerPositions =
            world.gameState.updatedPlayerPositions ++ [update] ∧
          update.1 = clientIndex ∧ MovesOnly clientIndex update
  | _ => True

/-- The low byte of the sender's id is the number of its slot. -/
def SenderIdIsSlot (world : World) : Action → Prop
  | .receiveMessage clientIndex index => world.phase = .receive →
      ∀ session ∈ world.network.session clientIndex, index < session.uplink.length →
        session.client.clientId.toUInt8 = clientIndex
  | _ => True

instance : ∀ (world : World) (action : Action), Decidable (SenderIdIsSlot world action)
  | world, .receiveMessage clientIndex index =>
      inferInstanceAs (Decidable (world.phase = .receive →
        ∀ session ∈ world.network.session clientIndex, index < session.uplink.length →
          session.client.clientId.toUInt8 = clientIndex))
  | _, .handleNewClients _ | _, .updateAndBroadcast | _, .advanceTime _ | _, .peer _ _ =>
      inferInstanceAs (Decidable True)

/-- A received move is queued under the low byte of the sender's id. -/
theorem updatedPlayerPositions_of_receiveMessage {world next : World} (h : world.network.Signed)
    {clientIndex : ClientID} {index : ℕ}
    (hstep : world.step (.receiveMessage clientIndex index) = .ok next) :
    ∃ session newPos, world.phase = .receive ∧
      world.network.session clientIndex = some session ∧ index < session.uplink.length ∧
      next.gameState.updatedPlayerPositions = world.gameState.updatedPlayerPositions ++
        [(session.client.clientId.toUInt8, newPos)] := by
  obtain ⟨hphase, session, envelope, hsession, henvelope, rfl⟩ :=
    World.step_receiveMessage_eq_ok hstep
  obtain ⟨newPos, hmessage⟩ := h clientIndex session hsession envelope
    (List.mem_of_getElem? henvelope)
  refine ⟨session, newPos, hphase, hsession, (List.getElem?_eq_some_iff.mp henvelope).1, ?_⟩
  rw [hmessage]
  rfl

theorem attributed_iff_senderIdIsSlot {world : World} (h : world.network.Signed)
    (action : Action) : Attributed world action ↔ SenderIdIsSlot world action := by
  cases action with
  | handleNewClients | updateAndBroadcast | advanceTime | peer => exact Iff.rfl
  | receiveMessage clientIndex index =>
      constructor
      · intro hattributed hphase session hsession hlt
        obtain ⟨next, hnext⟩ := World.exists_step_receiveMessage hphase hsession hlt
        obtain ⟨update, hqueue, hslot, _⟩ := hattributed next hnext
        obtain ⟨sender, newPos, _, hsender, _, hqueued⟩ :=
          updatedPlayerPositions_of_receiveMessage h hnext
        obtain rfl := Option.some.inj (hsession.symm.trans hsender)
        rw [hqueued, List.append_cancel_left_eq, List.cons.injEq] at hqueue
        rw [← hslot, ← hqueue.1]
      · intro hsender next hnext
        obtain ⟨session, newPos, hphase, hsession, hlt, hqueued⟩ :=
          updatedPlayerPositions_of_receiveMessage h hnext
        have hslot := hsender hphase session hsession hlt
        exact ⟨_, hqueued, hslot, movesOnly_iff.mpr hslot⟩

theorem signed_start (gameConfig : GameConfig) (memory : GameState) :
    (World.start gameConfig memory).network.Signed := fun _ _ hsession => by
  cases hsession

/-- In a run with honest clients, every received move is attributed to its
sender if and only if each is received from a client with the low byte of its id
equal to its slot. -/
theorem attributed_run_iff {gameConfig : GameConfig} {memory : GameState} {actions : List Action}
    (hhonest : ∀ action ∈ actions, action.IsHonest) :
    StepsMeet World.step Attributed (World.start gameConfig memory) actions ↔
      StepsMeet World.step SenderIdIsSlot (World.start gameConfig memory) actions :=
  StepsMeet.congr (fun _ _ _ h hguard hstep => signed_step h hguard hstep)
    (fun _ action h => attributed_iff_senderIdIsSlot h action)
    (signed_start gameConfig memory) (.of_forall hhonest)

/-- Two clients connect in one iteration and spawn next to each other. An
iteration later the one in the first slot has all messages and moves. -/
def firstClientMoves (firstId secondId : UInt64) : List Action :=
  [.handleNewClients fun _ => []] ++
    serverIteration [.connectionResponse { clientId := firstId },
      .connectionResponse { clientId := secondId }] (fun slot => [(slot.toNat, 0)]) ++
    serverIteration [] (fun _ => []) ++ [.peer 0 (.iterate [0, 0, 0, 0, 0, 0] [0])] ++
    serverIteration [] (fun _ => [])

/-- A client whose id ends in its slot number moves its own player. -/
theorem attributed_under_zero :
    StepsMeet World.step Attributed (World.start {} ⟨0, 0, 0⟩)
      (firstClientMoves 0xAB00 7 ++ [.receiveMessage 0 0]) :=
  (attributed_run_iff (by decide)).mpr (by decide +kernel)

/-- A client in slot 0 whose id ends in 1 moves the player of slot 1. -/
theorem move_lands_on_another_player : ∃ world next,
    (∀ action ∈ firstClientMoves 0xAB01 7, action.IsHonest) ∧
    run World.step (World.start {} ⟨0, 0, 0⟩) (firstClientMoves 0xAB01 7) = .ok world ∧
    world.step (.receiveMessage 0 0) = .ok next ∧
    next.gameState.connectedPlayers[(1 : ClientID)]? = some ⟨⟨1, 0⟩⟩ ∧
    next.gameState.updatePlayerPositions.connectedPlayers[(1 : ClientID)]? = some ⟨⟨0, 1⟩⟩ ∧
    ¬ Attributed world (.receiveMessage 0 0) := by
  obtain ⟨world, hrun, next, hnext, hbefore, hafter, hqueued⟩ : ∃ world,
      run World.step (World.start {} ⟨0, 0, 0⟩) (firstClientMoves 0xAB01 7) = .ok world ∧
      ∃ next, run World.step world [.receiveMessage 0 0] = .ok next ∧
        next.gameState.connectedPlayers[(1 : ClientID)]? = some ⟨⟨1, 0⟩⟩ ∧
        next.gameState.updatePlayerPositions.connectedPlayers[(1 : ClientID)]? = some ⟨⟨0, 1⟩⟩ ∧
        next.gameState.updatedPlayerPositions = [(1, ⟨0, 1⟩)] := by
    decide +kernel
  obtain ⟨_, hstep, hend⟩ := run_cons_eq_ok.mp hnext
  obtain rfl := Except.ok.inj hend
  refine ⟨world, _, by decide, hrun, hstep, hbefore, hafter, fun hattributed => ?_⟩
  obtain ⟨update, hqueue, hslot, _⟩ := hattributed _ hstep
  have hmem : update ∈ [((1 : ClientID), (⟨0, 1⟩ : Position))] := by
    rw [← hqueued, hqueue]
    simp
  rw [List.mem_singleton.mp hmem] at hslot
  exact absurd hslot (by decide)

end LibBench.Yojimbo
