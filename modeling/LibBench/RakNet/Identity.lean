/-
# RakNet: whose messages these are

A move names its player itself; nothing on the server compares that name with
the address the packet came from. For clients that run the client program, and
as long as no connection ends, the two agree all the same: a client learns its
id from the spawn message and uses no other, and the server's entry for its
address never changes. This holds under any loss and any reordering.

The step lemmas further on are about one address at a time. What they need from
the rest of the world is collected here: the updates queued under an id change
only by the moves of its own client.
-/

import LibBench.RakNet.World

namespace LibBench.RakNet

open LibBench.Math

/-- The standing of one address: not connected; connected, with the server
still to be told; or in the game under the id of its entry. -/
inductive Standing (entry : Option NetworkID) (link : Link) : Prop
  | absent (hconnected : link.connected = false) (hentry : entry = none)
      (huplink : link.uplink = [])
  | announced (hconnected : link.connected = true) (hentry : entry = none)
      (huplink : link.uplink = [.library .newIncomingConnection])
      (hstage : ∀ gamestate, link.client.stage ≠ .gameLoop gamestate)
      (hspawn : ∀ send ∈ link.downlink, ∀ message, send.message ≠ .playerSpawn message)
  | playing (id : NetworkID) (hconnected : link.connected = true) (hentry : entry = some id)
      (hassigned : id ≠ unassignedNetworkID)
      (huplink : ∀ packet ∈ link.uplink, ∃ pos, packet = .custom (.playerMove ⟨id, pos⟩))
      (hspawn : ∀ send ∈ link.downlink, ∀ message, send.message = .playerSpawn message →
        message.networkID = id)
      (hstage : ∀ gamestate, link.client.stage = .gameLoop gamestate →
        gamestate.localPlayer.networkID = id ∧
          id ∉ gamestate.remotePlayerPositions.map Prod.fst)

/-- Every address has its standing, and every queued update is a connected
player's. -/
structure Identified (world : World) : Prop where
  wellFormed : world.server.WellFormed
  queued : ∀ update ∈ world.server.updatedPlayerPositions,
    ∃ address : SystemAddress, world.server.connectedPlayers[address]? = some update.1
  standing : ∀ address, Standing (world.server.connectedPlayers[address]?) (world.link address)

/-- No connection ends with the action. -/
def KeepsConnections : Action → Prop
  | .link _ .disconnect => False
  | _ => True

instance (action : Action) : Decidable (KeepsConnections action) := by
  unfold KeepsConnections
  split <;> infer_instance

section Standing

variable {entry : Option NetworkID} {link next : Link}

/-- An entry belongs to a connected client in the game. -/
theorem Standing.of_entry {id : NetworkID} (h : Standing (some id) link) :
    link.connected = true ∧ id ≠ unassignedNetworkID ∧
      (∀ packet ∈ link.uplink, ∃ pos, packet = .custom (.playerMove ⟨id, pos⟩)) ∧
      (∀ send ∈ link.downlink, ∀ message, send.message = .playerSpawn message →
        message.networkID = id) ∧
      (∀ gamestate, link.client.stage = .gameLoop gamestate →
        gamestate.localPlayer.networkID = id ∧
          id ∉ gamestate.remotePlayerPositions.map Prod.fst) := by
  cases h with
  | absent _ hentry => cases hentry
  | announced _ hentry => cases hentry
  | playing other hconnected hentry hassigned huplink hspawn hstage =>
      obtain rfl := Option.some.inj hentry
      exact ⟨hconnected, hassigned, huplink, hspawn, hstage⟩

/-- A connected client without an entry is not in the game, and no spawn is on its way. -/
theorem Standing.of_none (h : Standing none link) (hconnected : link.connected = true) :
    (∀ gamestate, link.client.stage ≠ .gameLoop gamestate) ∧
      ∀ send ∈ link.downlink, ∀ message, send.message ≠ .playerSpawn message := by
  cases h with
  | absent hdisconnected => simp [hconnected] at hdisconnected
  | playing _ _ hsome => cases hsome
  | announced _ _ _ hstage hspawn => exact ⟨hstage, hspawn⟩

/-- The packet that the server takes next is the announcement of a client
without an entry, or a move under the entry's id. -/
theorem Standing.packet (h : Standing entry link) {packet : Packet} {index : ℕ}
    (hpacket : link.uplink[index]? = some packet) :
    (entry = none ∧ packet = .library .newIncomingConnection ∧ link.connected = true ∧
        link.uplink = [packet]) ∨
      ∃ id pos, entry = some id ∧ packet = .custom (.playerMove ⟨id, pos⟩) := by
  cases h with
  | absent _ _ huplink => simp [huplink] at hpacket
  | announced hconnected hentry huplink =>
      have hmem := List.mem_of_getElem? hpacket
      rw [huplink, List.mem_singleton] at hmem
      exact Or.inl ⟨hentry, hmem, hconnected, hmem ▸ huplink⟩
  | playing id _ hentry _ huplink =>
      obtain ⟨pos, rfl⟩ := huplink _ (List.mem_of_getElem? hpacket)
      exact Or.inr ⟨id, pos, hentry, rfl⟩

/-- A standing survives new messages that bring no spawn, and packets taken from
the uplink of a client that has its entry. -/
theorem Standing.frame (h : Standing entry link)
    (hconnected : next.connected = link.connected) (hclient : next.client = link.client)
    (huplink : next.uplink = link.uplink ∨ (entry ≠ none ∧ next.uplink ⊆ link.uplink))
    (hdownlink : ∀ send ∈ next.downlink, send ∈ link.downlink ∨
      ∀ message, send.message ≠ .playerSpawn message) : Standing entry next := by
  cases h with
  | absent hdisconnected hentry hempty =>
      refine .absent (hconnected.trans hdisconnected) hentry ?_
      exact (huplink.resolve_right fun hsome => hsome.1 hentry).trans hempty
  | announced hlinked hentry hannounced hstage hspawn =>
      refine .announced (hconnected.trans hlinked) hentry ?_ (hclient ▸ hstage) ?_
      · exact (huplink.resolve_right fun hsome => hsome.1 hentry).trans hannounced
      · intro send hsend
        exact (hdownlink send hsend).elim (hspawn send) id
  | playing id hlinked hentry hassigned hmoves hspawn hstage =>
      refine .playing id (hconnected.trans hlinked) hentry hassigned ?_ ?_ (hclient ▸ hstage)
      · intro packet hpacket
        rcases huplink with hsame | ⟨_, hsubset⟩
        · exact hmoves packet (hsame ▸ hpacket)
        · exact hmoves packet (hsubset hpacket)
      · intro send hsend message hmessage
        rcases hdownlink send hsend with hold | hnone
        · exact hspawn send hold message hmessage
        · exact absurd hmessage (hnone message)

/-- A client that has announced itself is playing when its spawn is the only one that it is
sent. -/
theorem Standing.welcomed {id : NetworkID} (h : Standing none link)
    (hconnected : link.connected = true) (hassigned : id ≠ unassignedNetworkID)
    (hlinked : next.connected = link.connected) (hclient : next.client = link.client)
    (huplink : next.uplink = [])
    (hdownlink : ∀ send ∈ next.downlink, send ∈ link.downlink ∨
      ∀ message, send.message = .playerSpawn message → message.networkID = id) :
    Standing (some id) next := by
  obtain ⟨hstage, hspawn⟩ := h.of_none hconnected
  refine .playing id (hlinked.trans hconnected) rfl hassigned (by simp [huplink]) ?_
    fun gamestate hgame => absurd (hclient ▸ hgame) (hstage gamestate)
  intro send hsend message hmessage
  rcases hdownlink send hsend with hold | hnew
  · exact absurd hmessage (hspawn send hold message)
  · exact hnew message hmessage

end Standing

/-- A client in its game loop has its entry on the server. -/
theorem Identified.entry_of_stage {world : World} {address : SystemAddress}
    {gamestate : ClientGamestate} (h : Identified world)
    (hconnected : (world.link address).connected = true)
    (hstage : (world.link address).client.stage = .gameLoop gamestate) :
    world.server.connectedPlayers[address]? = some gamestate.localPlayer.networkID ∧
      gamestate.localPlayer.networkID ≠ unassignedNetworkID ∧
      gamestate.localPlayer.networkID ∉ gamestate.remotePlayerPositions.map Prod.fst ∧
      ∃ player, world.server.objects gamestate.localPlayer.networkID = some player := by
  cases h.standing address with
  | absent hdisconnected => simp [hconnected] at hdisconnected
  | announced _ _ _ hwaits => exact absurd hstage (hwaits gamestate)
  | playing id _ hentry hassigned _ _ hgame =>
      obtain ⟨rfl, hnotLocal⟩ := hgame gamestate hstage
      exact ⟨hentry, hassigned, hnotLocal,
        Option.isSome_iff_exists.mp (h.wellFormed.live address _ hentry)⟩

/-- A message that the client takes brings the spawn of its own player or none. -/
theorem Standing.receive {manager : NetworkIDManager} {entry : Option NetworkID} {link : Link}
    {index : ℕ} {send : Send} (h : Standing entry link) (hconnected : link.connected = true)
    (hsend : link.downlink[index]? = some send) :
    Standing entry
      { link with
        client := link.client.receive manager serverAddress (.custom send.message)
        downlink := link.downlink.eraseIdx index } := by
  have hmem := List.mem_of_getElem? hsend
  have hrest : ∀ other ∈ link.downlink.eraseIdx index, other ∈ link.downlink :=
    fun _ => List.mem_of_mem_eraseIdx
  cases h with
  | absent hdisconnected => simp [hconnected] at hdisconnected
  | announced _ hentry huplink hstage hspawn =>
      refine .announced hconnected hentry huplink (fun gamestate hgame => ?_)
        fun other hother => hspawn other (hrest other hother)
      rcases Client.receive_stage_eq_gameLoop hgame with
        ⟨before, hbefore, _⟩ | ⟨_, message, _, hmessage, _⟩
      · exact hstage before hbefore
      · exact hspawn send hmem message hmessage
  | playing id _ hentry hassigned huplink hspawn hstage =>
      refine .playing id hconnected hentry hassigned huplink
        (fun other hother => hspawn other (hrest other hother)) fun gamestate hgame => ?_
      rcases Client.receive_stage_eq_gameLoop hgame with
        ⟨before, hbefore, rfl⟩ | ⟨_, message, _, hmessage, rfl⟩
      · obtain ⟨rfl, hnotLocal⟩ := hstage before hbefore
        exact ⟨handleCustomPacket_networkID _,
          handleCustomPacket_notLocal hnotLocal hassigned _⟩
      · exact ⟨hspawn send hmem message hmessage, by simp [ClientGamestate.createLocalPlayer]⟩

/-- On a link the client and the network keep its standing. -/
theorem Standing.acts {manager : NetworkIDManager} {entry : Option NetworkID}
    {link next : Link} {action : LinkAction} (h : Standing entry link)
    (hkeeps : action ≠ .disconnect) (hacts : link.Acts manager action next) :
    Standing entry next := by
  cases hacts with
  | connect hfree =>
      cases h with
      | absent _ hentry huplink =>
          exact .announced rfl hentry (by simp [huplink]) (fun _ => nofun) (by simp)
      | announced hconnected => simp [hfree] at hconnected
      | playing _ hconnected => simp [hfree] at hconnected
  | disconnect => exact absurd rfl hkeeps
  | receive hconnected hsend => exact h.receive hconnected hsend
  | @move draws gamestate newPos hconnected hgame =>
      cases h with
      | absent hdisconnected => simp [hconnected] at hdisconnected
      | announced _ _ _ hstage => exact absurd hgame (hstage gamestate)
      | playing id _ hentry hassigned huplink hspawn hstage =>
          obtain ⟨rfl, hnotLocal⟩ := hstage gamestate hgame
          refine .playing _ hconnected hentry hassigned (fun packet hpacket => ?_) hspawn ?_
          · rcases List.mem_append.mp hpacket with hold | hnew
            · exact huplink packet hold
            · exact ⟨newPos, List.mem_singleton.mp hnew⟩
          · rintro moved hmoved
            obtain rfl := ClientStage.gameLoop.inj hmoved
            exact ⟨rfl, hnotLocal⟩
  | endTurn hconnected hsame =>
      cases h with
      | absent hdisconnected => simp [hconnected] at hdisconnected
      | announced _ hentry huplink hstage hspawn =>
          exact .announced hconnected hentry huplink (hsame ▸ hstage) hspawn
      | playing id _ hentry hassigned huplink hspawn hstage =>
          exact .playing id hconnected hentry hassigned huplink hspawn (hsame ▸ hstage)
  | @loseMove index message hmove =>
      refine h.frame rfl rfl ?_ fun send hsend => Or.inl hsend
      rcases h.packet hmove with ⟨_, hlibrary, _⟩ | ⟨id, _, hentry, _⟩
      · cases hlibrary
      · exact Or.inr ⟨by simp [hentry], fun _ => List.mem_of_mem_eraseIdx⟩
  | loseMessage =>
      exact h.frame rfl rfl (Or.inl rfl) fun send hsend => Or.inl (List.mem_of_mem_eraseIdx hsend)

section Server

variable {server next : ServerGamestate} {links : SystemAddress → Link} {sent : List Send}

/-- The messages about a new player reach others without a spawn. -/
theorem Standing.deliver {entry : Option NetworkID} {address : SystemAddress}
    (h : Standing entry (links address))
    (hsent : ∀ send ∈ sent, send.reaches address = true →
      ∀ message, send.message ≠ .playerSpawn message) :
    Standing entry (RakNet.deliver links sent address) :=
  h.frame (deliver_connected ..) (deliver_client ..) (Or.inl (deliver_uplink ..))
    fun _ hsend => (mem_deliver_downlink hsend).imp_right fun hnew => hsent _ hnew.1 hnew.2

/-- What is sent at the end of a tick brings no spawn. -/
theorem ServerGamestate.Ticked.no_spawn (hticked : server.Ticked next sent) {send : Send}
    (hsend : send ∈ sent) (message : PlayerSpawnAndIDMessage) :
    send.message ≠ .playerSpawn message := by
  obtain ⟨_, _, _, _, _, rfl⟩ := (hticked.mem_sent send).mp hsend
  exact nofun

end Server

theorem identified_start (mapWidth mapHeight numPlayers : UInt16) :
    Identified (World.start mapWidth mapHeight numPlayers) where
  wellFormed := ServerGamestate.applyConfig_wellFormed _ _ _
  queued update h := by cases h
  standing address := .absent rfl (by simp [World.start, ServerGamestate.applyConfig]) rfl

theorem Identified.serverReceive {world next : World} {manager : NetworkIDManager}
    {address : SystemAddress} {index : ℕ} {admission : Admission} (h : Identified world)
    (hstep : world.step manager (.serverReceive address index admission) = .ok next) :
    Identified next := by
  have hwf := World.wellFormed_step h.wellFormed hstep
  obtain ⟨packet, server, sent, hpacket, _, hhandle, rfl⟩ := World.step_serverReceive_eq_ok hstep
  rcases (h.standing address).packet hpacket with
    ⟨hentry, rfl, hconnected, huplink⟩ | ⟨id, pos, hentry, rfl⟩
  · obtain ⟨randomPos, _, hfresh, hassigned, rfl, rfl⟩ :=
      ServerGamestate.handle_newIncomingConnection_eq_ok h.wellFormed hentry hhandle
    refine ⟨hwf, fun update hupdate => ?_, fun other => ?_⟩
    · obtain ⟨owner, howner⟩ := h.queued update hupdate
      refine ⟨owner, ?_⟩
      dsimp only
      rw [ServerGamestate.addPlayer_getElem?, if_neg, howner]
      rintro rfl
      simp [hentry] at howner
    · dsimp only
      rw [ServerGamestate.addPlayer_getElem?]
      by_cases hother : other = address
      · subst hother
        rw [if_pos rfl, hentry, Option.getD_none]
        refine Standing.welcomed (hentry ▸ h.standing other) hconnected hassigned (by simp)
          (by simp) ?_ fun send hsend => ?_
        · have hzero := (List.getElem?_eq_some_iff.mp hpacket).1
          simp only [huplink, List.length_singleton, Nat.lt_one_iff] at hzero
          simp [huplink, hzero]
        · refine (mem_deliver_downlink hsend).imp (fun hold => ?_) fun hnew message hmessage => ?_
          · simpa only [Function.update_self] using hold
          · obtain ⟨rfl, _⟩ := ServerGamestate.of_playerSpawn_mem_welcome hnew.1 hmessage
            rfl
      · rw [if_neg hother]
        refine Standing.deliver ?_ fun send hsend hreaches message hmessage => ?_
        · rw [Function.update_of_ne hother]
          exact h.standing other
        · exact hother ((ServerGamestate.of_playerSpawn_mem_welcome hsend hmessage).2 _ hreaches)
  · obtain ⟨rfl, rfl⟩ := ServerGamestate.handle_playerMove_eq_ok hhandle
    refine ⟨hwf, fun update hupdate => ?_, fun other => ?_⟩
    · rcases List.mem_append.mp hupdate with hold | hnew
      · exact h.queued update hold
      · obtain rfl := List.mem_singleton.mp hnew
        exact ⟨address, hentry⟩
    · simp only [deliver_nil]
      by_cases hother : other = address
      · subst hother
        rw [Function.update_self]
        exact (h.standing other).frame rfl rfl
          (Or.inr ⟨by simp [hentry], fun _ => List.mem_of_mem_eraseIdx⟩) fun _ => Or.inl
      · rw [Function.update_of_ne hother]
        exact h.standing other

/-- Without disconnections every step keeps the standings. -/
theorem Identified.step {world next : World} {manager : NetworkIDManager} {action : Action}
    (h : Identified world) (hkeeps : KeepsConnections action)
    (hstep : world.step manager action = .ok next) : Identified next := by
  cases action with
  | link address action =>
      have hwf := World.wellFormed_step h.wellFormed hstep
      obtain ⟨link, hacts, rfl⟩ := World.step_link_eq_ok hstep
      refine ⟨hwf, h.queued, fun other => ?_⟩
      by_cases hother : other = address
      · subst hother
        simp only [Function.update_self]
        exact (h.standing other).acts (by rintro rfl; exact hkeeps) hacts
      · simp only [Function.update_of_ne hother]
        exact h.standing other
  | serverReceive address index admission => exact h.serverReceive hstep
  | serverTick =>
      have hwf := World.wellFormed_step h.wellFormed hstep
      obtain ⟨server, sent, hhandle, rfl⟩ := World.step_serverTick_eq_ok hstep
      have hticked := h.wellFormed.ticked hhandle
      refine ⟨hwf, fun update hupdate => ?_, fun other => ?_⟩
      · simp [hticked.queue] at hupdate
      · simp only [hticked.connectedPlayers]
        exact (h.standing other).deliver fun send hsend _ => hticked.no_spawn hsend

theorem Identified.run {manager : NetworkIDManager} {start target : World}
    {actions : List Action} (h : Identified start)
    (hkeeps : ∀ action ∈ actions, KeepsConnections action)
    (hrun : run (World.step manager) start actions = .ok target) : Identified target :=
  run_invariant (fun _ _ _ h hguard hstep => h.step hguard hstep) h (.of_forall hkeeps) hrun

/-- The positions of the moves among some packets. -/
def movesOf (packets : List Packet) : List Position :=
  packets.filterMap fun packet =>
    match packet with
    | .custom (.playerMove message) => some message.newPos
    | _ => none

@[simp]
theorem movesOf_append (first second : List Packet) :
    movesOf (first ++ second) = movesOf first ++ movesOf second :=
  List.filterMap_append

@[simp]
theorem movesOf_playerMove (message : PlayerMoveMessage) (rest : List Packet) :
    movesOf (.custom (.playerMove message) :: rest) = message.newPos :: movesOf rest := rfl

/-- The moves of a client that the server has not applied: the queued ones, then
those on their way. -/
def World.trail (world : World) (address : SystemAddress) (id : NetworkID) : List Position :=
  ownUpdates id world.server.updatedPlayerPositions ++ movesOf (world.link address).uplink

/-- Nothing is queued under an id that no player has yet. -/
theorem Identified.ownUpdates_of_fresh {world : World} {id : NetworkID} (h : Identified world)
    (hfresh : world.server.objects id = none) :
    ownUpdates id world.server.updatedPlayerPositions = [] := by
  rw [List.eq_nil_iff_forall_not_mem]
  intro pos hpos
  obtain ⟨owner, howner⟩ := h.queued _ (mem_ownUpdates.mp hpos)
  exact h.wellFormed.ne_of_fresh hfresh howner rfl

/-- Taking the first move from an uplink to the queue leaves every trail as it
is. -/
theorem World.trail_playerMove {world : World} {address : SystemAddress} {id : NetworkID}
    {pos : Position}
    (hwf : world.server.WellFormed) (hid : world.server.connectedPlayers[address]? = some id)
    {rest : List Packet}
    (huplink : (world.link address).uplink = .custom (.playerMove ⟨id, pos⟩) :: rest)
    {other : SystemAddress} {otherID : NetworkID}
    (hother : world.server.connectedPlayers[other]? = some otherID) :
    ({ server := { world.server with
          updatedPlayerPositions := world.server.updatedPlayerPositions ++ [(id, pos)] }
       link := Function.update world.link address { world.link address with uplink := rest } } :
      World).trail other otherID = world.trail other otherID := by
  by_cases heq : other = address
  · subst heq
    obtain rfl := Option.some.inj (hid.symm.trans hother)
    simp [trail, huplink, ownUpdates_cons]
  · have hne : id ≠ otherID := fun hsame =>
      heq (hwf.distinct other address otherID hother (hsame ▸ hid))
    simp [trail, heq, ownUpdates_cons, hne]

end LibBench.RakNet
