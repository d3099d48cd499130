/-
# RakNet: reliable delivery rejects nothing

In the reliable ordered mode the moves of a client reach the server all, once
and in the order they were made. Then the server's position of the player,
followed by the moves that are queued and the moves that are on their way, is
the client's own path: each step at most one space, and the last one where the
client stands. The update loop follows such a path to its end, so it declines
nothing, sets no flag, and sends no player its own position.

Before its first move a client only has to start where the server put it; the
spawn message is the one place where the position travels to it.
-/

import LibBench.RakNet.Identity

namespace LibBench.RakNet

open LibBench.Math

/-- `RELIABLE_ORDERED`, with no connection ended: nothing is lost, and what
arrives is the first of its ordering channel. All that a client sends in the
game is on one channel. -/
def ReliableOrdered (world : World) : Action → Prop
  | .link _ .disconnect | .link _ (.loseMove _) | .link _ (.loseMessage _) => False
  | .link address (.receive index) =>
      ∀ send ∈ (world.link address).downlink[index]?,
        ∀ earlier ∈ (world.link address).downlink.take index,
          earlier.orderingChannel ≠ send.orderingChannel
  | .serverReceive _ index _ => index = 0
  | _ => True

instance (world : World) : DecidablePred (ReliableOrdered world)
  | .link _ .disconnect | .link _ (.loseMove _) | .link _ (.loseMessage _) =>
      inferInstanceAs (Decidable False)
  | .link address (.receive index) =>
      inferInstanceAs (Decidable (∀ send ∈ (world.link address).downlink[index]?,
        ∀ earlier ∈ (world.link address).downlink.take index,
          ¬ earlier.orderingChannel = send.orderingChannel))
  | .serverReceive _ index _ => inferInstanceAs (Decidable (index = 0))
  | .link _ (.connect _) | .link _ (.move _) | .link _ .endTurn | .serverTick =>
      inferInstanceAs (Decidable True)

theorem ReliableOrdered.keepsConnections {world : World} {action : Action}
    (h : ReliableOrdered world action) : KeepsConnections action := by
  unfold KeepsConnections
  split
  · exact h
  · trivial

/-- The messages to a client say nothing that its player would have to correct:
the spawn message has the position that the server has, and no position message
is about the player itself. -/
structure NothingToCorrect (id : NetworkID) (pos : Position) (link : Link) : Prop where
  spawn : (∀ gamestate, link.client.stage ≠ .gameLoop gamestate) →
    ∀ send ∈ link.downlink, ∀ message, send.message = .playerSpawn message →
      message.spawnPoint = pos
  position : ∀ send ∈ link.downlink, ∀ message, send.message = .playerPosition message →
    message.playerID ≠ id

/-- The player's path: from the server's position along the trail to where the
client stands, or nowhere yet for a client that waits for its spawn. -/
structure OnPath (id : NetworkID) (player : Player) (trail : List Position) (link : Link) :
    Prop where
  unflagged : player.broadcastLocationToSelf = false
  waiting : (∀ gamestate, link.client.stage ≠ .gameLoop gamestate) → trail = []
  path : ∀ gamestate, link.client.stage = .gameLoop gamestate →
    LeadsTo Position.OneSpace player.pos trail gamestate.localPlayer.pos
  messages : NothingToCorrect id player.pos link

/-- Every connected player is on its path, and position messages are about
players that exist. -/
structure InStep (world : World) : Prop where
  identified : Identified world
  known : ∀ address, ∀ send ∈ (world.link address).downlink, ∀ message,
    send.message = .playerPosition message →
      (world.server.objects message.playerID).isSome
  onPath : ∀ (address : SystemAddress) (id : NetworkID) (player : Player),
    world.server.connectedPlayers[address]? = some id →
      world.server.objects id = some player →
        OnPath id player (world.trail address id) (world.link address)

/-- The player follows any first part of its trail without a declined update,
whether its client waits or plays. -/
theorem OnPath.applied {id : NetworkID} {player : Player} {first second : List Position}
    {link : Link} (h : OnPath id player (first ++ second) link) :
    (first.foldl Player.receiveUpdate player).broadcastLocationToSelf = false ∧
      LeadsTo Position.OneSpace player.pos first
        (first.foldl Player.receiveUpdate player).pos := by
  obtain ⟨target, hpath⟩ :
      ∃ target, LeadsTo Position.OneSpace player.pos (first ++ second) target := by
    cases hstage : link.client.stage with
    | gameLoop gamestate => exact ⟨_, h.path gamestate hstage⟩
    | waitForConnectionAndApplyGameConfiguration | waitForPlayerSpawn | exited =>
        rw [h.waiting (by simp [hstage])]
        exact ⟨player.pos, rfl⟩
  obtain ⟨middle, hfirst, _⟩ := leadsTo_append.mp hpath
  rw [Player.foldl_receiveUpdate_flag, Player.foldl_receiveUpdate_pos, hfirst.ignored_eq_nil,
    hfirst.foldl_stepTo, h.unflagged]
  exact ⟨rfl, hfirst⟩

theorem NothingToCorrect.sublist {id : NetworkID} {pos : Position} {link next : Link}
    (h : NothingToCorrect id pos link) (hsubset : next.downlink ⊆ link.downlink)
    (hstage : (∀ gamestate, next.client.stage ≠ .gameLoop gamestate) →
      ∀ gamestate, link.client.stage ≠ .gameLoop gamestate) : NothingToCorrect id pos next where
  spawn hwaiting send hsend := h.spawn (hstage hwaiting) send (hsubset hsend)
  position send hsend := h.position send (hsubset hsend)

section Link

variable {manager : NetworkIDManager} {id : NetworkID} {player : Player}
  {queued : List Position} {link next : Link}

/-- On its link, a client keeps to its path: a move appends to the trail and a
message does not touch it. -/
theorem OnPath.acts {action : LinkAction}
    (h : OnPath id player (queued ++ movesOf link.uplink) link)
    (hstanding : Standing (some id) link) (hlossless : ∀ index, action ≠ .loseMove index)
    (hkeeps : action ≠ .disconnect) (hacts : link.Acts manager action next) :
    OnPath id player (queued ++ movesOf next.uplink) next := by
  obtain ⟨hconnected, _, _, _, hids⟩ := hstanding.of_entry
  cases hacts with
  | connect hfree => simp [hfree] at hconnected
  | disconnect => exact absurd rfl hkeeps
  | @receive index send _ hsend =>
      have hmem := List.mem_of_getElem? hsend
      have hleaves : (∀ gamestate, (link.client.receive manager serverAddress
            (.custom send.message)).stage ≠ .gameLoop gamestate) →
          ∀ gamestate, link.client.stage ≠ .gameLoop gamestate := by
        intro hwaiting gamestate hgame
        obtain ⟨next, hnext⟩ := Client.exists_receive_stage_eq_gameLoop hgame
        exact hwaiting next hnext
      refine ⟨h.unflagged, fun hwaiting => h.waiting (hleaves hwaiting), ?_,
        h.messages.sublist (fun _ => List.mem_of_mem_eraseIdx) hleaves⟩
      intro gamestate hgame
      rcases Client.receive_stage_eq_gameLoop hgame with
        ⟨before, hbefore, rfl⟩ | ⟨config, message, hwaits, hmessage, rfl⟩
      · rw [handleCustomPacket_localPlayer fun position hposition => ?_]
        · exact h.path before hbefore
        · rw [(hids before hbefore).1]
          exact h.messages.position send hmem position hposition
      · have hwaiting : ∀ gamestate, link.client.stage ≠ .gameLoop gamestate := by
          simp [hwaits]
        rw [h.waiting hwaiting]
        exact (h.messages.spawn hwaiting send hmem message hmessage).symm
  | @move draws gamestate newPos _ hgame hnear =>
      refine ⟨h.unflagged, fun hwaiting => absurd rfl (hwaiting _), ?_,
        h.messages.sublist (List.Subset.refl _) fun hwaiting => absurd rfl (hwaiting _)⟩
      intro moved hmoved
      obtain rfl := ClientStage.gameLoop.inj hmoved
      rw [movesOf_append, ← List.append_assoc, leadsTo_append]
      exact ⟨_, h.path gamestate hgame, hnear, rfl⟩
  | endTurn _ hsame =>
      refine ⟨h.unflagged, fun hwaiting => h.waiting (hsame ▸ hwaiting), ?_,
        h.messages.sublist (List.Subset.refl _) fun hwaiting => hsame ▸ hwaiting⟩
      exact fun gamestate hgame => h.path gamestate (hsame ▸ hgame)
  | @loseMove index => exact absurd rfl (hlossless index)
  | loseMessage =>
      exact ⟨h.unflagged, h.waiting, h.path,
        h.messages.sublist (fun _ => List.mem_of_mem_eraseIdx) fun hwaiting => hwaiting⟩

end Link

/-- A path stays when the client gets more messages, none of them a spawn or a
position of its own player. -/
theorem OnPath.deliver {id : NetworkID} {player : Player} {trail : List Position}
    {links : SystemAddress → Link} {address : SystemAddress} {sent : List Send}
    (h : OnPath id player trail (links address))
    (hspawn : ∀ send ∈ sent, send.reaches address = true →
      ∀ message, send.message ≠ .playerSpawn message)
    (hposition : ∀ send ∈ sent, send.reaches address = true →
      ∀ message, send.message = .playerPosition message → message.playerID ≠ id) :
    OnPath id player trail (deliver links sent address) := by
  refine ⟨h.unflagged, ?_, ?_, fun hwaiting send hsend message hmessage => ?_,
    fun send hsend => ?_⟩
  · rw [deliver_client]
    exact h.waiting
  · rw [deliver_client]
    exact h.path
  · rw [deliver_client] at hwaiting
    rcases mem_deliver_downlink hsend with hold | ⟨hnew, hreaches⟩
    · exact h.messages.spawn hwaiting send hold message hmessage
    · exact absurd hmessage (hspawn send hnew hreaches message)
  · rcases mem_deliver_downlink hsend with hold | ⟨hnew, hreaches⟩
    · exact h.messages.position send hold
    · exact hposition send hnew hreaches

section Server

variable {manager : NetworkIDManager} {world next : World}

/-- A new player is on its path: its client waits for the spawn message that is
being sent, and has been told of no position of this player. -/
theorem OnPath.newIncomingConnection {address : SystemAddress} {id : NetworkID}
    {pos : Position} {links : SystemAddress → Link} {trail : List Position} (htrail : trail = [])
    (hstage : ∀ gamestate, (links address).client.stage ≠ .gameLoop gamestate)
    (hspawn : ∀ send ∈ (links address).downlink, ∀ message,
      send.message ≠ .playerSpawn message)
    (hunheard : ∀ send ∈ (links address).downlink, ∀ message,
      send.message = .playerPosition message → message.playerID ≠ id) :
    OnPath id { pos } trail
      (RakNet.deliver links (world.server.welcome address id pos) address) := by
  refine ⟨rfl, fun _ => htrail, fun gamestate hgame => ?_, fun _ send hsend message hmessage => ?_,
    fun send hsend message hmessage => ?_⟩
  · rw [deliver_client] at hgame
    exact absurd hgame (hstage gamestate)
  · rcases mem_deliver_downlink hsend with hold | ⟨hnew, _⟩
    · exact absurd hmessage (hspawn send hold message)
    · obtain ⟨rfl, _⟩ := ServerGamestate.of_playerSpawn_mem_welcome hnew hmessage
      rfl
  · rcases mem_deliver_downlink hsend with hold | ⟨hnew, _⟩
    · exact hunheard send hold message hmessage
    · exact absurd hmessage (ServerGamestate.ne_playerPosition_of_mem_welcome hnew message)

/-- The start of a session puts the new player on its path, and is no news of a
position to anybody. -/
theorem InStep.welcome {address : SystemAddress} {newID : NetworkID} {randomPos : Position}
    (h : InStep world) (hentry : world.server.connectedPlayers[address]? = none)
    (hconnected : (world.link address).connected = true)
    (huplink : (world.link address).uplink = [.library .newIncomingConnection])
    (hfresh : world.server.objects newID = none)
    (hnext : next =
      { server := world.server.addPlayer address newID randomPos
        link := deliver (Function.update world.link address
          { world.link address with uplink := [] })
          (world.server.welcome address newID randomPos) })
    (hidentified : Identified next) : InStep next := by
  subst hnext
  have hunheard (other : SystemAddress) : ∀ send ∈ (world.link other).downlink,
      ∀ message, send.message = .playerPosition message → message.playerID ≠ newID := by
    rintro send hsend message hmessage rfl
    have hsome := h.known other send hsend message hmessage
    rw [hfresh] at hsome
    cases hsome
  refine ⟨hidentified, fun other send hsend message hmessage => ?_,
    fun other id player hid hplayer => ?_⟩
  · rcases mem_deliver_downlink hsend with hold | ⟨hnew, _⟩
    · rw [downlink_update_uplink] at hold
      dsimp only
      rw [ServerGamestate.addPlayer_objects, if_neg (hunheard other send hold message hmessage)]
      exact h.known other send hold message hmessage
    · exact absurd hmessage (ServerGamestate.ne_playerPosition_of_mem_welcome hnew message)
  · dsimp only at hid hplayer
    rw [ServerGamestate.addPlayer_objects] at hplayer
    rw [ServerGamestate.addPlayer_getElem?] at hid
    by_cases hother : other = address
    · subst hother
      rw [if_pos rfl, hentry, Option.getD_none, Option.some.injEq] at hid
      subst hid
      rw [if_pos rfl, Option.some.injEq] at hplayer
      subst hplayer
      obtain ⟨hstage, hspawn⟩ := (hentry ▸ h.identified.standing other).of_none hconnected
      refine OnPath.newIncomingConnection ?_ ?_ ?_ ?_
      · simp [World.trail, ServerGamestate.addPlayer, movesOf,
          h.identified.ownUpdates_of_fresh hfresh]
      · rw [Function.update_self]
        exact hstage
      · rw [Function.update_self]
        exact hspawn
      · rw [Function.update_self]
        exact hunheard other
    · rw [if_neg hother] at hid
      rw [if_neg (h.identified.wellFormed.ne_of_fresh hfresh hid)] at hplayer
      refine OnPath.deliver ?_ ?_ ?_
      · simpa [World.trail, ServerGamestate.addPlayer, hother] using
          h.onPath other id player hid hplayer
      · intro send hsend hreaches message hmessage
        exact hother ((ServerGamestate.of_playerSpawn_mem_welcome hsend hmessage).2 _ hreaches)
      · intro send hsend _ message hmessage
        exact absurd hmessage (ServerGamestate.ne_playerPosition_of_mem_welcome hsend message)

/-- A move that is handled goes from the link to the queue, and so stays on the
trail. -/
theorem InStep.receiveMove {address : SystemAddress} {id : NetworkID} {pos : Position}
    {rest : List Packet} (h : InStep world)
    (hentry : world.server.connectedPlayers[address]? = some id)
    (huplink : (world.link address).uplink = .custom (.playerMove ⟨id, pos⟩) :: rest)
    (hnext : next =
      { server :=
          { world.server with
            updatedPlayerPositions := world.server.updatedPlayerPositions ++ [(id, pos)] }
        link := Function.update world.link address { world.link address with uplink := rest } })
    (hidentified : Identified next) : InStep next := by
  subst hnext
  have hclient := client_update_uplink world.link address rest
  have hdownlink := downlink_update_uplink world.link address rest
  refine ⟨hidentified, fun other send hsend => ?_, fun other otherID player hid hplayer => ?_⟩
  · rw [hdownlink] at hsend
    exact h.known other send hsend
  · have honPath := h.onPath other otherID player hid hplayer
    rw [World.trail_playerMove h.identified.wellFormed hentry huplink hid]
    exact ⟨honPath.unflagged, hclient other ▸ honPath.waiting, hclient other ▸ honPath.path,
      honPath.messages.sublist (fun _ hsend => hdownlink other ▸ hsend)
        fun hwaiting => hclient other ▸ hwaiting⟩

theorem InStep.serverReceive {address : SystemAddress} {admission : Admission}
    (h : InStep world)
    (hstep : world.step manager (.serverReceive address 0 admission) = .ok next) :
    InStep next := by
  have hidentified := h.identified.serverReceive hstep
  obtain ⟨packet, server, sent, hpacket, _, hhandle, rfl⟩ := World.step_serverReceive_eq_ok hstep
  rcases (h.identified.standing address).packet hpacket with
    ⟨hentry, rfl, hconnected, huplink⟩ | ⟨id, pos, hentry, rfl⟩
  · obtain ⟨randomPos, _, hfresh, _, rfl, rfl⟩ :=
      ServerGamestate.handle_newIncomingConnection_eq_ok h.identified.wellFormed hentry hhandle
    simp only [huplink, List.eraseIdx_zero, List.tail_cons] at hidentified ⊢
    exact h.welcome hentry hconnected huplink hfresh rfl hidentified
  · obtain ⟨rfl, rfl⟩ := ServerGamestate.handle_playerMove_eq_ok hhandle
    obtain ⟨rest, huplink⟩ := List.head?_eq_some_iff.mp (List.head?_eq_getElem?.trans hpacket)
    simp only [deliver_nil, huplink, List.eraseIdx_zero, List.tail_cons] at hidentified ⊢
    exact h.receiveMove hentry huplink rfl hidentified

/-- The end of a tick follows every path as far as it is queued. Nothing is
declined on the way, so the position goes to the other players only. -/
theorem InStep.serverTick (h : InStep world)
    (hstep : world.step manager .serverTick = .ok next) : InStep next := by
  have hidentified := h.identified.step (by trivial) hstep
  obtain ⟨server, sent, hhandle, rfl⟩ := World.step_serverTick_eq_ok hstep
  have hwf := h.identified.wellFormed
  have hticked := hwf.ticked hhandle
  have hunflagged {address : SystemAddress} {id : NetworkID} {player : Player}
      (hid : world.server.connectedPlayers[address]? = some id)
      (hplayer : world.server.objects id = some player) :
      ((ownUpdates id world.server.updatedPlayerPositions).foldl Player.receiveUpdate
        player).broadcastLocationToSelf = false :=
    (h.onPath address id player hid hplayer).applied.1
  refine ⟨hidentified, fun address send hsend message hmessage => ?_,
    fun address id player hid hplayer => ?_⟩
  · rw [hticked.live]
    rcases mem_deliver_downlink hsend with hold | ⟨hnew, _⟩
    · exact h.known address send hold message hmessage
    · obtain ⟨owner, id, player, hconnected, hplayer, rfl⟩ := (hticked.mem_sent send).mp hnew
      obtain rfl := Message.playerPosition.inj hmessage
      exact hwf.live owner id hconnected
  · dsimp only at hid hplayer
    rw [hticked.connectedPlayers] at hid
    obtain ⟨before, hbefore⟩ := Option.isSome_iff_exists.mp (hwf.live address id hid)
    have hafter := hticked.player hid hbefore
    obtain rfl := Option.some.inj (hafter.symm.trans hplayer)
    have honPath := h.onPath address id before hid hbefore
    have htrail : ({ server, asleep := true, link := deliver world.link sent } : World).trail
        address id = movesOf (world.link address).uplink := by
      simp [World.trail, hticked.queue]
    rw [htrail]
    refine OnPath.deliver ⟨rfl, fun hwaiting => ?_, fun gamestate hgame => ?_,
      fun hwaiting => ?_, honPath.messages.position⟩ (fun send hsend _ => hticked.no_spawn hsend) ?_
    · exact (List.append_eq_nil_iff.mp (honPath.waiting hwaiting)).2
    · obtain ⟨middle, hqueued, hrest⟩ := leadsTo_append.mp (honPath.path gamestate hgame)
      rw [hqueued.foldl_stepTo]
      exact hrest
    · rw [(List.append_eq_nil_iff.mp (honPath.waiting hwaiting)).1]
      exact honPath.messages.spawn hwaiting
    · rintro send hsend hreaches message hmessage heq
      obtain ⟨owner, other, player, hconnected, hplayer, rfl⟩ := (hticked.mem_sent send).mp hsend
      obtain rfl := Message.playerPosition.inj hmessage
      obtain rfl := hwf.distinct owner address id (heq ▸ hconnected) hid
      rw [ServerGamestate.positionBroadcast, hunflagged hconnected hplayer] at hreaches
      simp at hreaches

/-- With reliable ordered delivery every step keeps the players on their
paths. -/
theorem InStep.step {action : Action} (h : InStep world) (hreliable : ReliableOrdered world action)
    (hstep : world.step manager action = .ok next) : InStep next := by
  cases action with
  | link address action =>
      have hidentified := h.identified.step hreliable.keepsConnections hstep
      obtain ⟨link, hacts, rfl⟩ := World.step_link_eq_ok hstep
      refine ⟨hidentified, fun other send hsend => ?_, fun other id player hid hplayer => ?_⟩
      · by_cases hother : other = address
        · subst hother
          simp only [Function.update_self] at hsend
          exact h.known other send (hacts.downlink_subset hsend)
        · simp only [Function.update_of_ne hother] at hsend
          exact h.known other send hsend
      · have honPath := h.onPath other id player hid hplayer
        by_cases hother : other = address
        · subst hother
          have hnext := honPath.acts (hid ▸ h.identified.standing other)
            (by rintro index rfl; exact hreliable) (by rintro rfl; exact hreliable) hacts
          simpa [World.trail] using hnext
        · simpa [World.trail, hother] using honPath
  | serverReceive address index admission =>
      obtain rfl : index = 0 := hreliable
      exact h.serverReceive hstep
  | serverTick => exact h.serverTick hstep

end Server

theorem inStep_start (mapWidth mapHeight numPlayers : UInt16) :
    InStep (World.start mapWidth mapHeight numPlayers) where
  identified := identified_start mapWidth mapHeight numPlayers
  known address send h := by cases h
  onPath address id player h := by simp [World.start, ServerGamestate.applyConfig] at h

/-- The server rejects nothing that a client did, and every client stands at the
end of the path that the server is on. -/
structure NoFalseRejection (world : World) : Prop where
  accepted : ∀ applied update player,
    applied ++ [update] <+: world.server.updatedPlayerPositions →
      (world.server.midway applied).objects update.1 = some player →
        Position.movedMoreThanOneSpace update.2 player.pos = false
  unflagged : ∀ applied (address : SystemAddress) (id : NetworkID) player,
    applied <+: world.server.updatedPlayerPositions →
      world.server.connectedPlayers[address]? = some id →
        (world.server.midway applied).objects id = some player →
          player.broadcastLocationToSelf = false
  notToSelf : ∀ (address : SystemAddress) (id : NetworkID),
    world.server.connectedPlayers[address]? = some id →
      ∀ send ∈ (world.link address).downlink, ∀ message,
        send.message = .playerPosition message → message.playerID ≠ id
  path : ∀ address gamestate, (world.link address).connected = true →
    (world.link address).client.stage = .gameLoop gamestate →
      ∃ player,
        world.server.connectedPlayers[address]? = some gamestate.localPlayer.networkID ∧
        world.server.objects gamestate.localPlayer.networkID = some player ∧
        List.IsChain Position.OneSpace
          (player.pos :: world.trail address gamestate.localPlayer.networkID) ∧
        (player.pos :: world.trail address gamestate.localPlayer.networkID).getLast? =
          some gamestate.localPlayer.pos

/-- At every point of the update loop, a connected player is as its path says:
unflagged, and at the end of what was applied of it. -/
theorem InStep.midway {world : World} (h : InStep world) {address : SystemAddress}
    {id : NetworkID} {applied rest : List (NetworkID × Position)} {player : Player}
    (hqueue : world.server.updatedPlayerPositions = applied ++ rest)
    (hid : world.server.connectedPlayers[address]? = some id)
    (hplayer : (world.server.midway applied).objects id = some player) :
    player.broadcastLocationToSelf = false ∧
      ∃ target, LeadsTo Position.OneSpace player.pos (ownUpdates id rest) target := by
  rw [ServerGamestate.midway_objects, Option.map_eq_some_iff] at hplayer
  obtain ⟨before, hbefore, rfl⟩ := hplayer
  have honPath := h.onPath address id before hid hbefore
  rw [World.trail, hqueue, ownUpdates_append] at honPath
  have hwhole := honPath.applied
  rw [List.append_assoc] at honPath
  obtain ⟨hunflagged, _⟩ := honPath.applied
  obtain ⟨middle, happlied, hrest⟩ := leadsTo_append.mp hwhole.2
  rw [Player.foldl_receiveUpdate_pos, happlied.foldl_stepTo]
  exact ⟨hunflagged, _, hrest⟩

theorem InStep.noFalseRejection {world : World} (h : InStep world) : NoFalseRejection world where
  accepted applied update player hpre hplayer := by
    obtain ⟨rest, hqueue⟩ := hpre
    rw [List.append_assoc, List.singleton_append] at hqueue
    obtain ⟨address, hid⟩ := h.identified.queued update (by simp [← hqueue])
    obtain ⟨_, target, hpath⟩ := h.midway hqueue.symm hid hplayer
    rw [ownUpdates_cons, if_pos rfl] at hpath
    exact Position.movedMoreThanOneSpace_eq_false_iff.mpr hpath.1
  unflagged applied address id player hpre hid hplayer := by
    obtain ⟨rest, hqueue⟩ := hpre
    exact (h.midway hqueue.symm hid hplayer).1
  notToSelf address id hid := by
    obtain ⟨player, hplayer⟩ :=
      Option.isSome_iff_exists.mp (h.identified.wellFormed.live address id hid)
    exact (h.onPath address id player hid hplayer).messages.position
  path address gamestate hconnected hgame := by
    obtain ⟨hid, _, _, player, hplayer⟩ := h.identified.entry_of_stage hconnected hgame
    have honPath := h.onPath address _ player hid hplayer
    exact ⟨player, hid, hplayer, leadsTo_iff_isChain.mp (honPath.path gamestate hgame)⟩

/-- What a tick does when it declines nothing: the queue is empty afterwards, and
every connected player stands on the last position that was queued for it, or
where it was if there was none. -/
structure AppliesQueue (world next : World) : Prop where
  queue : next.server.updatedPlayerPositions = []
  player : ∀ (address : SystemAddress) (id : NetworkID) before,
    world.server.connectedPlayers[address]? = some id →
      world.server.objects id = some before →
        next.server.objects id =
          some { pos := (ownUpdates id world.server.updatedPlayerPositions).getLastD before.pos }

/-- The server can tick, and the tick follows every path as far as it is
queued. -/
theorem InStep.exists_appliesQueue {manager : NetworkIDManager} {world : World}
    (h : InStep world) :
    ∃ next, world.step manager .serverTick = .ok next ∧ AppliesQueue world next := by
  have hwf := h.identified.wellFormed
  have hlive : ∀ update ∈ world.server.updatedPlayerPositions,
      (world.server.objects update.1).isSome := by
    intro update hupdate
    obtain ⟨address, hid⟩ := h.identified.queued update hupdate
    exact hwf.live address update.1 hid
  obtain ⟨⟨server, sent⟩, hhandle⟩ : ∃ result, world.server.handle .endTick = .ok result := by
    simp only [ServerGamestate.handle,
      ServerGamestate.updatePlayerPositions_eq_ok_iff.mpr ⟨hlive, rfl⟩]
    exact ⟨_, rfl⟩
  have hticked := hwf.ticked hhandle
  refine ⟨_, by rw [World.step, hhandle], hticked.queue, fun address id before hid hbefore => ?_⟩
  have hqueued := (h.onPath address id before hid hbefore).applied.2
  rw [hticked.player hid hbefore, hqueued.foldl_stepTo, hqueued.getLastD_eq]

/-- In every run with reliable ordered delivery and no connection ended, the
server never rejects a move of a client: at every point it can tick, and the
tick applies the whole queue. -/
theorem noFalseRejection_run {manager : NetworkIDManager}
    {mapWidth mapHeight numPlayers : UInt16} {actions : List Action} {world : World}
    (hrun : run (World.step manager) (World.start mapWidth mapHeight numPlayers) actions =
      .ok world)
    (hreliable : StepsMeet (World.step manager) ReliableOrdered
      (World.start mapWidth mapHeight numPlayers) actions) :
    NoFalseRejection world ∧
      ∃ next, world.step manager .serverTick = .ok next ∧ AppliesQueue world next := by
  have hinStep : InStep world :=
    run_invariant (fun _ _ _ h hguard hstep => h.step hguard hstep)
      (inStep_start mapWidth mapHeight numPlayers) hreliable hrun
  exact ⟨hinStep.noFalseRejection, hinStep.exists_appliesQueue⟩

/-- Two moves that a tick applies, two more that are queued for the next one, and
a fifth that is on its way. -/
def fiveMoves : List Action :=
  [.link 1 (.connect false), .serverReceive 1 0 ⟨7, [(5, 5)]⟩,
    .link 1 (.receive 0), .link 1 (.receive 0),
    .link 1 (.move [3]), .link 1 .endTurn, .link 1 (.move [3]), .serverReceive 1 0 ⟨0, []⟩,
    .serverReceive 1 0 ⟨0, []⟩, .serverTick,
    .link 1 .endTurn, .link 1 (.move [3]), .link 1 .endTurn, .link 1 (.move [3]),
    .serverReceive 1 0 ⟨0, []⟩, .serverReceive 1 0 ⟨0, []⟩, .link 1 .endTurn,
    .link 1 (.move [1])]

/-- The player has taken the first two moves, and stands where the fourth one
leads after the next tick. -/
theorem noFalseRejection_five_moves :
    ∃ world, run (World.step firstRegistered) (World.start 10 10 1) fiveMoves = .ok world ∧
      world.server.objects 7 = some { pos := ⟨7, 5⟩ } ∧
      world.trail 1 7 = [⟨8, 5⟩, ⟨9, 5⟩, ⟨9, 6⟩] ∧ NoFalseRejection world ∧
      ∃ next, world.step firstRegistered .serverTick = .ok next ∧ AppliesQueue world next := by
  obtain ⟨world, hrun, hplayer, htrail⟩ : ∃ world, run (World.step firstRegistered)
      (World.start 10 10 1) fiveMoves = .ok world ∧
      world.server.objects 7 = some { pos := ⟨7, 5⟩ } ∧
      world.trail 1 7 = [⟨8, 5⟩, ⟨9, 5⟩, ⟨9, 6⟩] := by
    decide +kernel
  exact ⟨world, hrun, hplayer, htrail, noFalseRejection_run hrun (by decide +kernel)⟩

end LibBench.RakNet
