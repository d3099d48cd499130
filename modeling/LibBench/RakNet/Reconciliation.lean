/-
# RakNet: corrections and what they cross

When moves are lost the server comes to decline the later ones, and it sends the
player its own position back. Processing such a correction puts the client where
the server's player was when the message was sent. It does not always put the
two in agreement: a move that was on its way meanwhile may be accepted after
the correction was sent, and nothing tells the client that its correction is out
of date, as neither moves nor corrections are numbered.

The next move repairs this. A move sent after the last correction is either
accepted, and then the server is where the client is, or declined, and then
there is another correction. So once nothing of the player is on its way, client
and server agree if the client has moved since its last correction, or if that
correction was still true when it was processed.
-/

import LibBench.RakNet.Identity

namespace LibBench.RakNet

open LibBench.Math

/-- The position that a message carries for a player. -/
def Message.positionOf (id : NetworkID) : Message → Option Position
  | .playerPosition message => if message.playerID = id then some message.currentPos else none
  | _ => none

namespace World

/-- The self-addressed position that the client at an address processes with an
action, if it does. -/
def correction (world : World) (address : SystemAddress) : Action → Option Position
  | .link other (.receive index) =>
      if other = address then
        match (world.link address).client.stage with
        | .gameLoop gamestate =>
            ((world.link address).downlink[index]?).bind fun send =>
              send.message.positionOf gamestate.localPlayer.networkID
        | _ => none
      else none
  | _ => none

/-- The server's position of the player of an address. -/
def serverPosition (world : World) (address : SystemAddress) : Option Position :=
  (world.server.connectedPlayers[address]?).bind fun id =>
    (world.server.objects id).map Player.pos

/-- No move of the player is on its way or queued. -/
def MovesArrived (world : World) (address : SystemAddress) : Prop :=
  ∀ id ∈ world.server.connectedPlayers[address]?, world.trail address id = []

/-- The server's tick is complete, and no message of the player is on its way or
queued. -/
structure Quiet (world : World) (address : SystemAddress) : Prop where
  asleep : world.asleep = true
  moves : world.MovesArrived address
  corrections : ∀ id ∈ world.server.connectedPlayers[address]?,
    ∀ send ∈ (world.link address).downlink, send.message.positionOf id = none

/-- A client in its game loop stands where the server has its player. -/
def Agrees (world : World) (address : SystemAddress) : Prop :=
  match (world.link address).client.stage with
  | .gameLoop gamestate => world.serverPosition address = some gamestate.localPlayer.pos
  | _ => True

instance (world : World) (address : SystemAddress) : Decidable (world.MovesArrived address) := by
  unfold MovesArrived
  infer_instance

instance (world : World) (address : SystemAddress) : Decidable (world.Quiet address) :=
  decidable_of_iff (world.asleep = true ∧ world.MovesArrived address ∧
      ∀ id ∈ world.server.connectedPlayers[address]?,
        ∀ send ∈ (world.link address).downlink, send.message.positionOf id = none)
    ⟨fun h => ⟨h.1, h.2.1, h.2.2⟩, fun h => ⟨h.asleep, h.moves, h.corrections⟩⟩

instance (world : World) (address : SystemAddress) : Decidable (world.Agrees address) := by
  unfold Agrees
  split <;> infer_instance

end World

/-- Between the client at an address and the server nothing is lost and
everything arrives in the order it was sent; no connection ends. -/
def DeliversInOrder (address : SystemAddress) : Action → Prop
  | .link _ .disconnect => False
  | .link other (.loseMove _) | .link other (.loseMessage _) => other ≠ address
  | .link other (.receive index) | .serverReceive other index _ => other = address → index = 0
  | _ => True

instance (address : SystemAddress) : DecidablePred (DeliversInOrder address)
  | .link _ .disconnect => inferInstanceAs (Decidable False)
  | .link other (.loseMove _) | .link other (.loseMessage _) =>
      inferInstanceAs (Decidable (¬ other = address))
  | .link other (.receive index) | .serverReceive other index _ =>
      inferInstanceAs (Decidable (other = address → index = 0))
  | .link _ (.connect _) | .link _ (.move _) | .link _ .endTurn | .serverTick =>
      inferInstanceAs (Decidable True)

theorem DeliversInOrder.keepsConnections {address : SystemAddress} {action : Action}
    (h : DeliversInOrder address action) : KeepsConnections action := by
  unfold KeepsConnections
  split
  · exact h
  · trivial

/-- The last of the moves that the server has not applied leads to where the
client stands; without such moves the server's player stands there, or a
correction is on its way. -/
structure Settling (world : World) (address : SystemAddress) (gamestate : ClientGamestate)
    (player : Player) : Prop where
  identified : Identified world
  stage : (world.link address).client.stage = .gameLoop gamestate
  entry : world.server.connectedPlayers[address]? = some gamestate.localPlayer.networkID
  object : world.server.objects gamestate.localPlayer.networkID = some player
  settles :
    (world.trail address gamestate.localPlayer.networkID).getLast? =
        some gamestate.localPlayer.pos ∨
      (world.trail address gamestate.localPlayer.networkID = [] ∧
        (player.pos = gamestate.localPlayer.pos ∨
          ∃ send ∈ (world.link address).downlink,
            send.message.positionOf gamestate.localPlayer.networkID ≠ none))

/-- In a quiet state only agreement is left. -/
theorem Settling.agrees {world : World} {address : SystemAddress}
    {gamestate : ClientGamestate} {player : Player}
    (h : Settling world address gamestate player) (hquiet : world.Quiet address) :
    world.Agrees address := by
  have htrail := hquiet.moves _ h.entry
  simp only [World.Agrees, h.stage, World.serverPosition, h.entry, Option.bind_some, h.object,
    Option.map_some, Option.some.injEq]
  rcases h.settles with hlast | ⟨_, hsame | ⟨send, hsend, hcorrection⟩⟩
  · simp [htrail] at hlast
  · exact hsame
  · exact absurd (hquiet.corrections _ h.entry send hsend) hcorrection

/-- The update loop at the last update: accepted, the player stands there;
declined, it is flagged. -/
theorem Player.receiveUpdate_last (player : Player) (offers : List Position) (last : Position) :
    let updated := (offers ++ [last]).foldl Player.receiveUpdate player
    updated.pos = last ∨ updated.broadcastLocationToSelf = true := by
  intro updated
  have hupdated : updated = (offers.foldl Player.receiveUpdate player).receiveUpdate last :=
    List.foldl_concat ..
  rw [hupdated, Player.receiveUpdate]
  split
  · exact Or.inr rfl
  · exact Or.inl rfl

section Steps

variable {manager : NetworkIDManager} {world next : World} {address : SystemAddress}
  {gamestate : ClientGamestate} {player : Player}

/-- Whatever was in flight before, a move settles. -/
theorem Settling.of_move {draws : List ℕ} (h : Identified world)
    (hstep : world.step manager (.link address (.move draws)) = .ok next) :
    ∃ gamestate player, Settling next address gamestate player := by
  have hidentified := h.step (by trivial) hstep
  obtain ⟨link, hacts, rfl⟩ := World.step_link_eq_ok hstep
  cases hacts with
  | @move _ before newPos hconnected hstage hnear =>
      obtain ⟨hentry, _, _, player, hplayer⟩ := h.entry_of_stage hconnected hstage
      refine ⟨{ before with localPlayer := ⟨before.localPlayer.networkID, newPos⟩ }, player,
        hidentified, ?_, hentry, hplayer, Or.inl ?_⟩
      · simp only [Function.update_self]
      · simp [World.trail, movesOf, ← List.append_assoc]

theorem World.correction_eq_some {action : Action} {pos : Position}
    (h : world.correction address action = some pos) :
    ∃ index gamestate send message, action = .link address (.receive index) ∧
      (world.link address).client.stage = .gameLoop gamestate ∧
      (world.link address).downlink[index]? = some send ∧
      send.message = .playerPosition message ∧
      message.playerID = gamestate.localPlayer.networkID ∧ message.currentPos = pos := by
  unfold World.correction at h
  split at h
  · next other index =>
      rw [Option.ite_none_right_eq_some] at h
      obtain ⟨rfl, h⟩ := h
      split at h
      · next gamestate hstage =>
          obtain ⟨send, hsend, hpos⟩ := Option.bind_eq_some_iff.mp h
          unfold Message.positionOf at hpos
          split at hpos
          · next message hmessage =>
              rw [Option.ite_none_right_eq_some] at hpos
              exact ⟨index, gamestate, send, message, rfl, hstage, hsend, hmessage, hpos.1,
                Option.some.inj hpos.2⟩
          · cases hpos
      · cases h
  · cases h

/-- A correction that is still true when it is processed settles. -/
theorem Settling.of_correction {action : Action} {pos : Position} (h : Identified world)
    (hcorrection : world.correction address action = some pos)
    (harrived : world.MovesArrived address) (htrue : world.serverPosition address = some pos)
    (hstep : world.step manager action = .ok next) :
    ∃ gamestate player, Settling next address gamestate player := by
  obtain ⟨index, before, send, message, rfl, hstage, hsend, hmessage, hid, hpos⟩ :=
    World.correction_eq_some hcorrection
  have hidentified := h.step (by trivial) hstep
  obtain ⟨link, hacts, rfl⟩ := World.step_link_eq_ok hstep
  cases hacts with
  | @receive _ received hconnected hreceived =>
      obtain rfl := Option.some.inj (hsend.symm.trans hreceived)
      obtain ⟨hentry, hassigned, hnotLocal, player, hplayer⟩ := h.entry_of_stage hconnected hstage
      simp only [World.serverPosition, hentry, Option.bind_some, hplayer, Option.map_some,
        Option.some.injEq] at htrue
      refine ⟨{ before with localPlayer := { before.localPlayer with pos } }, player,
        hidentified, ?_, hentry, hplayer, Or.inr ⟨?_, Or.inl htrue⟩⟩
      · simp only [Function.update_self, Client.receive, hstage, Client.receiveInGameLoop,
          hmessage, handleCustomPacket, hid, hpos,
          handlePlayerPositionUpdate_local _ _ hnotLocal hassigned]
      · simpa [World.trail] using harrived _ hentry

/-- On the client's own link: a move leads where the client goes, and a message
that is no correction changes nothing. -/
theorem Settling.acts {action : LinkAction}
    (h : Settling world address gamestate player)
    (horder : DeliversInOrder address (.link address action))
    (hnone : world.correction address (.link address action) = none)
    (hstep : world.step manager (.link address action) = .ok next) :
    ∃ gamestate player, Settling next address gamestate player := by
  have hidentified := h.identified.step horder.keepsConnections hstep
  have hmove (draws : List ℕ) (haction : action = .move draws) :=
    Settling.of_move h.identified (haction ▸ hstep)
  obtain ⟨link, hacts, rfl⟩ := World.step_link_eq_ok hstep
  obtain ⟨hconnected, _⟩ := (h.entry ▸ h.identified.standing address).of_entry
  cases hacts with
  | connect hfree => simp [hfree] at hconnected
  | disconnect => exact horder.elim
  | @receive index send _ hsend =>
      have hother : send.message.positionOf gamestate.localPlayer.networkID = none := by
        simpa [World.correction, h.stage, hsend] using hnone
      have hlocal : (handleCustomPacket manager gamestate
          (world.link address).client.correctionsTracker send.message).1.localPlayer =
            gamestate.localPlayer := by
        apply handleCustomPacket_localPlayer
        intro position hposition heq
        simp [hposition, Message.positionOf, heq] at hother
      refine ⟨_, player, hidentified, ?_, hlocal ▸ h.entry, hlocal ▸ h.object, ?_⟩
      · simp only [Function.update_self, Client.receive, h.stage, Client.receiveInGameLoop]
      · rw [hlocal]
        refine Or.imp ?_ (And.imp ?_ (Or.imp_right ?_)) h.settles
        · simp [World.trail]
        · simp [World.trail]
        · rintro ⟨pending, hpending, hcorrects⟩
          refine ⟨pending, ?_, hcorrects⟩
          simp only [Function.update_self]
          obtain ⟨position, hat⟩ := List.mem_iff_getElem?.mp hpending
          refine List.mem_eraseIdx_iff_getElem?.mpr ⟨position, ?_, hat⟩
          rintro rfl
          obtain rfl := Option.some.inj (hsend.symm.trans hat)
          exact hcorrects hother
  | @move draws => exact hmove draws rfl
  | endTurn _ hsame =>
      refine ⟨gamestate, player, hidentified, ?_, h.entry, h.object, ?_⟩
      · simp only [Function.update_self, hsame, h.stage]
      · simpa [World.trail] using h.settles
  | loseMove => exact absurd rfl horder
  | loseMessage => exact absurd rfl horder

/-- What does not touch the player, its client and its trail keeps settling. -/
theorem Settling.frame (h : Settling world address gamestate player)
    (hidentified : Identified next)
    (hclient : (next.link address).client = (world.link address).client)
    (hentry : next.server.connectedPlayers[address]? =
      world.server.connectedPlayers[address]?)
    (hobject : next.server.objects gamestate.localPlayer.networkID =
      world.server.objects gamestate.localPlayer.networkID)
    (htrail : next.trail address gamestate.localPlayer.networkID =
      world.trail address gamestate.localPlayer.networkID)
    (hdownlink : (world.link address).downlink ⊆ (next.link address).downlink) :
    Settling next address gamestate player where
  identified := hidentified
  stage := hclient ▸ h.stage
  entry := hentry.trans h.entry
  object := hobject.trans h.object
  settles := by
    rw [htrail]
    refine Or.imp_right (And.imp_right (Or.imp_right ?_)) h.settles
    rintro ⟨send, hsend, hcorrects⟩
    exact ⟨send, hdownlink hsend, hcorrects⟩

/-- A packet that the server receives is the player's next move, which goes from
the uplink to the queue, or is about somebody else. -/
theorem Settling.serverReceive {other : SystemAddress} {index : ℕ} {admission : Admission}
    (h : Settling world address gamestate player) (horder : other = address → index = 0)
    (hstep : world.step manager (.serverReceive other index admission) = .ok next) :
    Settling next address gamestate player := by
  have hidentified := h.identified.serverReceive hstep
  have hwf := h.identified.wellFormed
  obtain ⟨packet, server, sent, hpacket, _, hhandle, rfl⟩ := World.step_serverReceive_eq_ok hstep
  have hclient := client_update_uplink world.link other
    ((world.link other).uplink.eraseIdx index) address
  have hdownlink : (world.link address).downlink ⊆ (deliver (Function.update world.link other
      { world.link other with uplink := (world.link other).uplink.eraseIdx index }) sent
        address).downlink := by
    rw [← downlink_update_uplink world.link other ((world.link other).uplink.eraseIdx index)
      address]
    exact subset_deliver_downlink ..
  rcases (h.identified.standing other).packet hpacket with
    ⟨hentry, rfl, _, _⟩ | ⟨id, pos, hentry, rfl⟩
  · obtain ⟨randomPos, _, hfresh, _, rfl, rfl⟩ :=
      ServerGamestate.handle_newIncomingConnection_eq_ok hwf hentry hhandle
    have hother : address ≠ other := by
      rintro rfl
      simp [h.entry] at hentry
    refine h.frame hidentified (by simp [hother]) ?_ ?_ ?_ hdownlink
    · dsimp only
      rw [ServerGamestate.addPlayer_getElem?, if_neg hother]
    · dsimp only
      rw [ServerGamestate.addPlayer_objects, if_neg (hwf.ne_of_fresh hfresh h.entry)]
    · simp [World.trail, ServerGamestate.addPlayer, hother]
  · obtain ⟨rfl, rfl⟩ := ServerGamestate.handle_playerMove_eq_ok hhandle
    refine h.frame hidentified (by simpa using hclient) rfl rfl ?_ hdownlink
    by_cases hother : other = address
    · subst hother
      obtain rfl := horder rfl
      obtain ⟨rest, huplink⟩ := List.head?_eq_some_iff.mp (List.head?_eq_getElem?.trans hpacket)
      rw [← World.trail_playerMove hwf hentry huplink h.entry]
      simp [World.trail, huplink]
    · have hne : id ≠ gamestate.localPlayer.networkID := fun hsame =>
        hother (hwf.distinct other address _ (hsame ▸ hentry) h.entry)
      simp [World.trail, Ne.symm hother, ownUpdates_cons, hne]

/-- The end of a tick brings the player to the last queued move, or declines it
and sends a correction. -/
theorem Settling.serverTick (h : Settling world address gamestate player)
    (hstep : world.step manager .serverTick = .ok next) :
    ∃ player, Settling next address gamestate player := by
  have hidentified := h.identified.step (by trivial) hstep
  obtain ⟨server, sent, hhandle, rfl⟩ := World.step_serverTick_eq_ok hstep
  have hticked := h.identified.wellFormed.ticked hhandle
  obtain ⟨hconnected, _⟩ := (h.entry ▸ h.identified.standing address).of_entry
  have htrail : ({ server, asleep := true, link := deliver world.link sent } : World).trail
      address gamestate.localPlayer.networkID = movesOf (world.link address).uplink := by
    simp [World.trail, hticked.queue]
  refine ⟨_, hidentified, by simpa using h.stage, ?_, hticked.player h.entry h.object, ?_⟩
  · exact hticked.connectedPlayers ▸ h.entry
  rw [htrail]
  have hsettles := h.settles
  rw [World.trail] at hsettles
  rcases List.eq_nil_or_concat' (movesOf (world.link address).uplink) with
    hnone | ⟨before, last, hmoves⟩
  · rw [hnone, List.append_nil] at hsettles
    refine Or.inr ⟨hnone, ?_⟩
    rcases hsettles with hlast | ⟨hqueued, hsame | ⟨send, hsend, hcorrects⟩⟩
    · -- the last queued move is accepted, or its decline is sent to the client
      obtain ⟨offers, hoffers⟩ := List.getLast?_eq_some_iff.mp hlast
      have hlastUpdate := player.receiveUpdate_last offers gamestate.localPlayer.pos
      rw [← hoffers] at hlastUpdate
      refine hlastUpdate.imp (fun haccepted => ?_) fun hflagged => ?_
      · rw [← Player.foldl_receiveUpdate_pos]
        exact haccepted
      · refine ⟨ServerGamestate.positionBroadcast address gamestate.localPlayer.networkID
          ((ownUpdates gamestate.localPlayer.networkID
            world.server.updatedPlayerPositions).foldl Player.receiveUpdate player), ?_, ?_⟩
        · rw [deliver_downlink _ _ _ hconnected, List.mem_append, List.mem_filter]
          refine Or.inr ⟨(hticked.mem_sent _).mpr ⟨address, _, player, h.entry, h.object, rfl⟩, ?_⟩
          rw [ServerGamestate.positionBroadcast, hflagged]
          rfl
        · simp [ServerGamestate.positionBroadcast, Message.positionOf]
    · left
      rw [hqueued]
      exact hsame
    · exact Or.inr ⟨send, subset_deliver_downlink _ _ _ hsend, hcorrects⟩
  · left
    rcases hsettles with hlast | ⟨hempty, _⟩
    · simpa [hmoves] using hlast
    · simp [hmoves] at hempty

end Steps

/-- In order, settling goes on until the client processes another
correction. -/
theorem Settling.step {manager : NetworkIDManager} {world next : World}
    {address : SystemAddress} {action : Action}
    (h : ∃ gamestate player, Settling world address gamestate player)
    (horder : DeliversInOrder address action) (hnone : world.correction address action = none)
    (hstep : world.step manager action = .ok next) :
    ∃ gamestate player, Settling next address gamestate player := by
  obtain ⟨gamestate, player, h⟩ := h
  cases action with
  | link other action =>
      by_cases hother : other = address
      · subst hother
        exact h.acts horder hnone hstep
      · have hidentified := h.identified.step horder.keepsConnections hstep
        obtain ⟨link, hacts, rfl⟩ := World.step_link_eq_ok hstep
        exact ⟨gamestate, player, h.frame hidentified (by simp [Ne.symm hother]) rfl rfl
          (by simp [World.trail, Ne.symm hother]) (by simp [Ne.symm hother])⟩
  | serverReceive other index admission =>
      exact ⟨gamestate, player, h.serverReceive horder hstep⟩
  | serverTick => exact ⟨gamestate, h.serverTick hstep⟩

/-- Anything may be lost or reordered up to some point, and nothing on the
client's own link after it. Then, in every quiet state, the client stands where
the server has it, if after the last correction it processed it has moved, or if
that correction was true when it was processed: the server had the player there
and no move was still to be applied. -/
theorem agrees_after_correction {manager : NetworkIDManager}
    {mapWidth mapHeight numPlayers : UInt16} {lossy toward after : List Action}
    {action : Action} {address : SystemAddress} {pos : Position}
    {point current corrected world : World}
    (hlossy : run (World.step manager) (World.start mapWidth mapHeight numPlayers) lossy =
      .ok point)
    (hkeeps : ∀ other ∈ lossy, KeepsConnections other)
    (htoward : run (World.step manager) point toward = .ok current)
    (hcorrection : current.correction address action = some pos)
    (hstep : current.step manager action = .ok corrected)
    (hafter : run (World.step manager) corrected after = .ok world)
    (horder : ∀ other ∈ toward ++ action :: after, DeliversInOrder address other)
    (hlast : StepsMeet (World.step manager)
      (fun world other => world.correction address other = none) corrected after)
    (hcurrent : (∃ draws, .link address (.move draws) ∈ after) ∨
      (current.MovesArrived address ∧ current.serverPosition address = some pos))
    (hquiet : world.Quiet address) : world.Agrees address := by
  have hpoint := (identified_start mapWidth mapHeight numPlayers).run hkeeps hlossy
  have hat := hpoint.run
    (fun other hother => (horder other (List.mem_append_left _ hother)).keepsConnections) htoward
  have hdone := hat.step (horder action (by simp)).keepsConnections hstep
  have horderAfter : ∀ other ∈ after, DeliversInOrder address other := fun other hother =>
    horder other (by simp [hother])
  have hsettled {start : World} {actions : List Action}
      (hstart : ∃ gamestate player, Settling start address gamestate player)
      (hrun : run (World.step manager) start actions = .ok world)
      (hinOrder : ∀ other ∈ actions, DeliversInOrder address other)
      (hnone : StepsMeet (World.step manager)
        (fun world other => world.correction address other = none) start actions) :
      world.Agrees address := by
    obtain ⟨_, _, hsettling⟩ := run_invariant
      (fun _ _ _ h hguard hstep => Settling.step h hguard.1 hguard.2 hstep) hstart
      ((StepsMeet.of_forall hinOrder).and hnone) hrun
    exact hsettling.agrees hquiet
  rcases hcurrent with ⟨draws, hmoved⟩ | ⟨harrived, htrue⟩
  · -- settling starts with the move, wherever it is among the later steps
    obtain ⟨before, rest, rfl⟩ := List.append_of_mem hmoved
    obtain ⟨stood, hbefore, hmoving⟩ := run_append_eq_ok.mp hafter
    obtain ⟨moved, hmove, hrest⟩ := run_cons_eq_ok.mp hmoving
    have hstood := hdone.run
      (fun other hother => (horderAfter other (by simp [hother])).keepsConnections) hbefore
    exact hsettled (Settling.of_move hstood hmove) hrest
      (fun other hother => horderAfter other (by simp [hother]))
      (((StepsMeet.append.mp hlast).2 stood hbefore).2 moved hmove)
  · exact hsettled (Settling.of_correction hat hcorrection harrived htrue hstep) hafter
      horderAfter hlast

/-- The client spawns at (5, 5), and its first two moves are lost. -/
def twoMovesLost : List Action :=
  [.link 1 (.connect false), .serverReceive 1 0 ⟨7, [(5, 5)]⟩,
    .link 1 (.receive 0), .link 1 (.receive 0),
    .link 1 (.move [3]), .link 1 (.loseMove 0), .link 1 (.receive 0), .link 1 .endTurn,
    .link 1 (.move [3]), .link 1 (.loseMove 0), .link 1 .endTurn]

/-- The third move is declined; the client makes a fourth before it processes
the correction. -/
def correctedWhileMoving : List Action :=
  [.link 1 (.move [0]), .serverReceive 1 0 ⟨0, []⟩, .serverTick, .link 1 .endTurn,
    .link 1 (.move [2])]

/-- The fourth move reaches the server. -/
def fourthMoveAccepted : List Action := [.serverReceive 1 0 ⟨0, []⟩, .serverTick]

/-- The client makes its next move from the corrected position. -/
def nextMoveAccepted : List Action :=
  [.link 1 .endTurn, .link 1 (.move [3]), .serverReceive 1 0 ⟨0, []⟩, .serverTick]

/-- The client's next move brings the two together again. -/
theorem next_move_agrees :
    ∃ point, run (World.step firstRegistered) (World.start 10 10 1) twoMovesLost = .ok point ∧
      ∃ current, run (World.step firstRegistered) point correctedWhileMoving = .ok current ∧
        ∃ world, run (World.step firstRegistered) current
            (.link 1 (.receive 0) :: (fourthMoveAccepted ++ nextMoveAccepted)) = .ok world ∧
          world.serverPosition 1 = some ⟨6, 5⟩ ∧ world.Agrees 1 := by
  obtain ⟨point, hlossy, current, htoward, corrected, hcorrected, world, hafter, hcorrection,
      hlast, hquiet, hposition⟩ :
      ∃ point, run (World.step firstRegistered) (World.start 10 10 1) twoMovesLost = .ok point ∧
        ∃ current, run (World.step firstRegistered) point correctedWhileMoving = .ok current ∧
          ∃ corrected, run (World.step firstRegistered) current [.link 1 (.receive 0)] =
              .ok corrected ∧
            ∃ world, run (World.step firstRegistered) corrected
                (fourthMoveAccepted ++ nextMoveAccepted) = .ok world ∧
              current.correction 1 (.link 1 (.receive 0)) = some ⟨5, 5⟩ ∧
              StepsMeet (World.step firstRegistered)
                (fun world other => world.correction 1 other = none) corrected
                (fourthMoveAccepted ++ nextMoveAccepted) ∧
              world.Quiet 1 ∧ world.serverPosition 1 = some ⟨6, 5⟩ := by
    decide +kernel
  obtain ⟨_, hstep, hrest⟩ := run_cons_eq_ok.mp hcorrected
  obtain rfl := Except.ok.inj hrest
  refine ⟨point, hlossy, current, htoward, world, run_cons_eq_ok.mpr ⟨_, hstep, hafter⟩,
    hposition, ?_⟩
  exact agrees_after_correction hlossy (by decide) htoward hcorrection hstep hafter (by decide)
    hlast (Or.inl ⟨[3], by decide⟩) hquiet

/-- The fourth move is accepted after the correction was sent: nothing is on its
way any more, and the client is one space from where the server has it. -/
theorem stale_correction_disagrees :
    ∃ point, run (World.step firstRegistered) (World.start 10 10 1) twoMovesLost = .ok point ∧
      (point.link 1).uplink = [] ∧ (point.link 1).downlink = [] ∧
      ∃ current, run (World.step firstRegistered) point correctedWhileMoving = .ok current ∧
        current.correction 1 (.link 1 (.receive 0)) = some ⟨5, 5⟩ ∧
        ∃ world, run (World.step firstRegistered) current
            (.link 1 (.receive 0) :: fourthMoveAccepted) = .ok world ∧
          (∀ action ∈ correctedWhileMoving ++ .link 1 (.receive 0) :: fourthMoveAccepted,
            DeliversInOrder 1 action) ∧
          world.Quiet 1 ∧ ¬ world.Agrees 1 := by
  decide +kernel

end LibBench.RakNet
