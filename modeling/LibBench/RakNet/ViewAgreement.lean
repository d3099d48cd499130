/-
# RakNet: the clients' lists and the server's players

With messages delivered in the order they were sent, a client's list follows the
server's players as long as players only join and move: a join adds the new
player to every list, and the end of each tick brings every position to
everybody. Nothing takes a player off a list. `PLAYER_LEAVE` is defined, but the
server never sends it and the clients do not handle it, so a player whose
connection is lost stays on the list of everybody who was told of it.

Hence the condition under which the lists are right: whoever is removed is
unknown to the other clients at that moment. There is one other way to a wrong
list. A client that connects from an address of which the server has yet to
handle the previous connection's start is sent the spawn of its predecessor.
-/

import LibBench.RakNet.Foresight

namespace LibBench.RakNet

open LibBench.Math

/-- The packets on an uplink announce a sequence of sessions: from whether the
address has an entry, one after another, to whether it is connected. -/
def Announces : Bool → List Packet → Bool → Prop
  | entered, [], connected => entered = connected
  | entered, .library .newIncomingConnection :: rest, connected =>
      entered = false ∧ Announces true rest connected
  | entered, .library .connectionLost :: rest, connected =>
      entered = true ∧ Announces false rest connected
  | entered, .custom _ :: rest, connected => Announces entered rest connected
  | _, .library _ :: _, _ => False

theorem announces_append {first second : List Packet} {entered connected : Bool} :
    Announces entered (first ++ second) connected ↔
      ∃ between, Announces entered first between ∧ Announces between second connected := by
  induction first generalizing entered with
  | nil => simp [Announces]
  | cons packet rest ih =>
      cases packet with
      | custom message => exact ih
      | library identifier =>
          cases identifier <;> simp [Announces, ih, and_assoc]

/-- A connected address whose start is not still to be handled has an entry. -/
theorem Announces.entered_of_not_mem {packets : List Packet} {entered : Bool}
    (h : Announces entered packets true)
    (hstarted : .library .newIncomingConnection ∉ packets) : entered = true := by
  induction packets with
  | nil => exact h
  | cons packet rest ih =>
      have hrest : .library .newIncomingConnection ∉ rest :=
        fun hmem => hstarted (List.mem_cons_of_mem _ hmem)
      cases packet with
      | custom message => exact ih h hrest
      | library identifier =>
          cases identifier with
          | newIncomingConnection => exact absurd List.mem_cons_self hstarted
          | connectionLost => exact h.1
          | connectionRequestAccepted | connectionAttemptFailed | disconnectionNotification
          | other => exact h.elim

section Erase

variable {packets : List Packet} {index : ℕ} {message : Message}

/-- Moves that are taken or lost change no announcement. -/
theorem Announces.eraseIdx {entered connected : Bool} (h : Announces entered packets connected)
    (hmove : packets[index]? = some (.custom message)) :
    Announces entered (packets.eraseIdx index) connected := by
  induction packets generalizing entered index with
  | nil => cases hmove
  | cons packet rest ih =>
      cases index with
      | zero =>
          obtain rfl := Option.some.inj hmove
          exact h
      | succ index =>
          cases packet with
          | custom other => exact ih h hmove
          | library identifier =>
              cases identifier with
              | newIncomingConnection | connectionLost => exact ⟨h.1, ih h.2 hmove⟩
              | connectionRequestAccepted | connectionAttemptFailed
              | disconnectionNotification | other => exact h.elim

theorem library_mem_eraseIdx_iff {identifier : LibraryPacket}
    (hmove : packets[index]? = some (.custom message)) :
    .library identifier ∈ packets.eraseIdx index ↔ .library identifier ∈ packets := by
  refine ⟨List.mem_of_mem_eraseIdx, fun hmem => ?_⟩
  obtain ⟨position, hat⟩ := List.mem_iff_getElem?.mp hmem
  refine List.mem_eraseIdx_iff_getElem?.mpr ⟨position, ?_, hat⟩
  rintro rfl
  cases hmove.symm.trans hat

end Erase

/-- A player of somebody else, and where it is. -/
def ServerGamestate.PlaysElsewhere (server : ServerGamestate) (address : SystemAddress)
    (id : NetworkID) (pos : Position) : Prop :=
  ∃ owner ≠ address, ∃ player, server.connectedPlayers[owner]? = some id ∧
    server.objects id = some player ∧ player.pos = pos

/-- What a client knows of the others is so on the server, and after a tick it
knows of all of them. -/
structure KnowsOthers (server : ServerGamestate) (asleep : Bool) (address : SystemAddress)
    (id : NetworkID) (known : NetworkID → Option Position) : Prop where
  sound : ∀ other pos, other ≠ id → known other = some pos →
    server.PlaysElsewhere address other pos
  complete : asleep = true → ∀ other pos, server.PlaysElsewhere address other pos →
    known other ≠ none

/-- One address: its announcements are in order, a client that the server has
not handled yet waits and was sent no configuration, and a client with an entry
is going to know the others. -/
structure InView (server : ServerGamestate) (asleep : Bool) (address : SystemAddress)
    (link : Link) : Prop where
  sessions : Announces (server.connectedPlayers[address]?).isSome link.uplink link.connected
  once : link.uplink.count (.library .newIncomingConnection) ≤ 1
  waiting : link.connected = true → .library .newIncomingConnection ∈ link.uplink →
    link.client.stage = .waitForConnectionAndApplyGameConfiguration ∧
      ∀ send ∈ link.downlink, ∀ config, send.message ≠ .gameConfig config
  viewing : ∀ id, link.connected = true → .library .newIncomingConnection ∉ link.uplink →
    server.connectedPlayers[address]? = some id →
      ∃ known, Foresees id link known ∧ KnowsOthers server asleep address id known

/-- Every address is in view. -/
structure AllInView (world : World) : Prop where
  wellFormed : world.server.WellFormed
  assigned : ∀ (address : SystemAddress) (id : NetworkID),
    world.server.connectedPlayers[address]? = some id → id ≠ unassignedNetworkID
  inView : ∀ address, InView world.server world.asleep address (world.link address)

/-- The messages to a client arrive all and in the order they were sent. -/
def DownlinkInOrder : Action → Prop
  | .link _ (.loseMessage _) => False
  | .link _ (.receive index) => index = 0
  | _ => True

instance : DecidablePred DownlinkInOrder
  | .link _ (.loseMessage _) => inferInstanceAs (Decidable False)
  | .link _ (.receive index) => inferInstanceAs (Decidable (index = 0))
  | .link _ (.connect _) | .link _ .disconnect | .link _ (.move _) | .link _ .endTurn
  | .link _ (.loseMove _) | .serverReceive _ _ _ | .serverTick =>
      inferInstanceAs (Decidable True)

/-- A player that is removed was told of to no other player's client; and an
address is not used again before the server has handled the start of its last
session. -/
def LeavesUnnoticed (manager : NetworkIDManager) (world : World) : Action → Prop
  | .link address (.connect _) =>
      .library .newIncomingConnection ∉ (world.link address).uplink
  | .serverReceive address index _ =>
      (world.link address).uplink[index]? = some (.library .connectionLost) →
        ∀ id ∈ world.server.connectedPlayers[address]?,
          ∀ entry ∈ world.server.connectedPlayers.toList, entry.1 ≠ address →
            (world.link entry.1).connected = true →
              id ∉ (world.link entry.1).told manager
  | _ => True

instance (manager : NetworkIDManager) (world : World) :
    DecidablePred (LeavesUnnoticed manager world)
  | .link address (.connect _) => inferInstanceAs (Decidable
      (¬ Packet.library .newIncomingConnection ∈ (world.link address).uplink))
  | .serverReceive address index _ => inferInstanceAs (Decidable
      ((world.link address).uplink[index]? = some (.library .connectionLost) →
        ∀ id ∈ world.server.connectedPlayers[address]?,
          ∀ entry ∈ world.server.connectedPlayers.toList, ¬ entry.1 = address →
            (world.link entry.1).connected = true → ¬ id ∈ (world.link entry.1).told manager))
  | .link _ .disconnect | .link _ (.receive _) | .link _ (.move _) | .link _ .endTurn
  | .link _ (.loseMove _) | .link _ (.loseMessage _) | .serverTick =>
      inferInstanceAs (Decidable True)

section Link

variable {manager : NetworkIDManager} {server : ServerGamestate} {asleep : Bool}
  {address : SystemAddress} {link next : Link}

/-- A move that is taken from the uplink, or lost there, changes nothing that is
in view. -/
theorem InView.eraseMove {index : ℕ} {message : Message}
    (h : InView server asleep address link)
    (hmove : link.uplink[index]? = some (.custom message)) :
    InView server asleep address { link with uplink := link.uplink.eraseIdx index } := by
  refine ⟨h.sessions.eraseIdx hmove, ((List.eraseIdx_sublist _ _).count_le _).trans h.once,
    fun hconnected hpending => ?_, fun id hconnected hstarted hentry => ?_⟩
  · exact h.waiting hconnected ((library_mem_eraseIdx_iff hmove).mp hpending)
  · obtain ⟨known, hknown, hothers⟩ := h.viewing id hconnected
      (fun hmem => hstarted ((library_mem_eraseIdx_iff hmove).mpr hmem)) hentry
    have hnothing : Hears id known [] known := rfl
    exact ⟨known, hknown.append hnothing rfl (List.append_nil _).symm, hothers⟩

theorem InView.acts {action : LinkAction} (h : InView server asleep address link)
    (horder : DownlinkInOrder (.link address action))
    (hanew : ∀ logCorrections, action = .connect logCorrections →
      .library .newIncomingConnection ∉ link.uplink)
    (hacts : link.Acts manager action next) : InView server asleep address next := by
  have hforesees {id : NetworkID} {known : NetworkID → Option Position}
      (hknown : Foresees id link known) (hconnected : next.connected = true)
      (hconnect : ∀ logCorrections, action ≠ .connect logCorrections) : Foresees id next known :=
    hknown.acts hacts hconnected hconnect (by rintro index rfl; exact horder)
      (by rintro index rfl; exact horder)
  cases hacts with
  | connect hfree =>
      refine ⟨?_, ?_, fun _ _ => ⟨rfl, by simp⟩, fun _ _ hnone => by simp at hnone⟩
      · exact announces_append.mpr ⟨false, hfree ▸ h.sessions, rfl, rfl⟩
      · simp [List.count_eq_zero.mpr (hanew _ rfl)]
  | disconnect hconnected =>
      refine ⟨?_, ?_, nofun, nofun⟩
      · exact announces_append.mpr ⟨true, hconnected ▸ h.sessions, rfl, rfl⟩
      · simpa [List.count_append] using h.once
  | @receive index send hconnected hsend =>
      refine ⟨h.sessions, h.once, fun _ hpending => ?_, fun id _ hstarted hentry => ?_⟩
      · obtain ⟨hstage, hnone⟩ := h.waiting hconnected hpending
        exact ⟨Client.receive_stage_of_waiting hstage (hnone send (List.mem_of_getElem? hsend)),
          fun other hother => hnone other (List.mem_of_mem_eraseIdx hother)⟩
      · obtain ⟨known, hknown, hothers⟩ := h.viewing id hconnected hstarted hentry
        exact ⟨known, hforesees hknown hconnected nofun, hothers⟩
  | @move draws gamestate newPos hconnected hgame hnear =>
      refine ⟨announces_append.mpr ⟨_, h.sessions, rfl⟩, ?_, fun _ hpending => ?_,
        fun id _ hstarted hentry => ?_⟩
      · simpa [List.count_append] using h.once
      · have hmem : .library .newIncomingConnection ∈ link.uplink := by simpa using hpending
        cases hgame.symm.trans (h.waiting hconnected hmem).1
      · obtain ⟨known, hknown, hothers⟩ := h.viewing id hconnected (by simpa using hstarted) hentry
        exact ⟨known, hforesees hknown hconnected nofun, hothers⟩
  | endTurn hconnected hsame =>
      refine ⟨h.sessions, h.once, fun _ hpending => ?_, fun id _ hstarted hentry => ?_⟩
      · obtain ⟨hstage, hnone⟩ := h.waiting hconnected hpending
        exact ⟨hsame.trans hstage, hnone⟩
      · obtain ⟨known, hknown, hothers⟩ := h.viewing id hconnected hstarted hentry
        exact ⟨known, hforesees hknown hconnected nofun, hothers⟩
  | loseMove hmove => exact h.eraseMove hmove
  | loseMessage => exact horder.elim

end Link

/-! ## The steps of the server -/

section Server

variable {manager : NetworkIDManager} {server : ServerGamestate} {asleep : Bool}
  {address : SystemAddress} {links : SystemAddress → Link} {sent : List Send}

/-- An address whose packets and entry stay, when messages reach it that its
client hears. -/
theorem InView.deliver {next : ServerGamestate} {awake : Bool}
    (h : InView server asleep address (links address))
    (hentry : next.connectedPlayers[address]? = server.connectedPlayers[address]?)
    (hconfig : ∀ send ∈ sent, send.reaches address = true →
      ∀ config, send.message ≠ .gameConfig config)
    (hhears : ∀ id known, server.connectedPlayers[address]? = some id →
      KnowsOthers server asleep address id known →
        ∃ later, Hears id known ((sent.filter fun send => send.reaches address).map Send.message)
            later ∧ KnowsOthers next awake address id later) :
    InView next awake address (deliver links sent address) where
  sessions := by simpa [hentry] using h.sessions
  once := by simpa using h.once
  waiting hconnected hpending := by
    rw [deliver_connected] at hconnected
    rw [deliver_uplink] at hpending
    obtain ⟨hstage, hnone⟩ := h.waiting hconnected hpending
    refine ⟨by simpa using hstage, fun send hsend => ?_⟩
    rcases mem_deliver_downlink hsend with hold | ⟨hnew, hreaches⟩
    · exact hnone send hold
    · exact hconfig send hnew hreaches
  viewing id hconnected hstarted hid := by
    rw [deliver_connected] at hconnected
    rw [deliver_uplink] at hstarted
    rw [hentry] at hid
    obtain ⟨known, hknown, hothers⟩ := h.viewing id hconnected hstarted hid
    obtain ⟨later, hlater, hothersLater⟩ := hhears id known hid hothers
    refine ⟨later, hknown.append hlater (deliver_client ..) ?_, hothersLater⟩
    rw [deliver_downlink _ _ _ hconnected, List.map_append]

/-- The new player is somebody else's to everybody but itself. -/
theorem playsElsewhere_addPlayer {id : NetworkID} {pos : Position} {owner : SystemAddress}
    (hwf : server.WellFormed) (hfresh : server.objects id = none)
    (howner : server.connectedPlayers[owner]? = none) (hother : address ≠ owner)
    {other : NetworkID} {there : Position}
    (h : server.PlaysElsewhere address other there ∨ (other = id ∧ there = pos)) :
    (server.addPlayer owner id pos).PlaysElsewhere address other there := by
  rcases h with ⟨player, hne, object, hconnected, hobject, hpos⟩ | ⟨rfl, rfl⟩
  · refine ⟨player, hne, object, ?_, ?_, hpos⟩
    · rw [ServerGamestate.addPlayer_getElem?, if_neg, hconnected]
      rintro rfl
      simp [howner] at hconnected
    · rw [ServerGamestate.addPlayer_objects, if_neg (hwf.ne_of_fresh hfresh hconnected), hobject]
  · refine ⟨owner, Ne.symm hother, { pos := there }, ?_, ?_, rfl⟩
    · rw [ServerGamestate.addPlayer_getElem?, if_pos rfl, howner, Option.getD_none]
    · rw [ServerGamestate.addPlayer_objects, if_pos rfl]

/-- The welcome of a new player as another client hears it: the join adds the
player to what is known. -/
theorem KnowsOthers.welcome {id newID : NetworkID} {pos : Position} {owner : SystemAddress}
    {known : NetworkID → Option Position} (h : KnowsOthers server asleep address id known)
    (hwf : server.WellFormed) (hfresh : server.objects newID = none)
    (howner : server.connectedPlayers[owner]? = none) (hother : address ≠ owner) :
    ∃ later, Hears id known (((server.welcome owner newID pos).filter fun send =>
        send.reaches address).map Send.message) later ∧
      KnowsOthers (server.addPlayer owner newID pos) false address id later := by
  refine ⟨Function.update known newID (some pos), ?_, ?_, nofun⟩
  · rw [ServerGamestate.welcome_reaching, if_neg (Ne.symm hother)]
    refine ⟨fun hremote => ?_, rfl⟩
    by_contra hknown
    obtain ⟨there, hthere⟩ := Option.ne_none_iff_exists'.mp hknown
    obtain ⟨_, _, object, hconnected, _⟩ := h.sound newID there hremote hthere
    exact hwf.ne_of_fresh hfresh hconnected rfl
  · intro other there hremote hthere
    apply playsElsewhere_addPlayer hwf hfresh howner hother
    by_cases hnew : other = newID
    · subst hnew
      rw [Function.update_self, Option.some.injEq] at hthere
      exact Or.inr ⟨rfl, hthere.symm⟩
    · rw [Function.update_of_ne hnew] at hthere
      exact Or.inl (h.sound other there hremote hthere)

/-- The new client itself starts to listen with its spawn. -/
theorem InView.welcome {id : NetworkID} {pos : Position}
    (h : InView server asleep address (links address)) {rest : List Packet}
    (huplink : (links address).uplink = .library .newIncomingConnection :: rest)
    (hentry : server.connectedPlayers[address]? = none) :
    InView (server.addPlayer address id pos) false address
      (RakNet.deliver
        (Function.update links address { links address with uplink := rest })
        (server.welcome address id pos) address) := by
  have hsessions := h.sessions
  rw [hentry, huplink] at hsessions
  have honce : rest.count (.library .newIncomingConnection) = 0 := by
    have := h.once
    rw [huplink, List.count_cons_self] at this
    omega
  have hstarted : .library .newIncomingConnection ∉ rest := List.count_eq_zero.mp honce
  have hnew : (server.addPlayer address id pos).connectedPlayers[address]? = some id := by
    rw [ServerGamestate.addPlayer_getElem?, if_pos rfl, hentry, Option.getD_none]
  refine ⟨?_, ?_, fun _ hpending => ?_, fun other hconnected _ hother => ?_⟩
  · simpa [hnew] using hsessions.2
  · simp [honce]
  · simp only [deliver_uplink, Function.update_self] at hpending
    exact absurd hpending hstarted
  · obtain rfl := Option.some.inj (hnew.symm.trans hother)
    simp only [deliver_connected, Function.update_self] at hconnected
    obtain ⟨hstage, hnone⟩ := h.waiting hconnected (by simp [huplink])
    refine ⟨_, .awaitingConfiguration ((links address).downlink.map Send.message)
      [.playerJoin ⟨pos, id⟩] ⟨server.mapWidth, server.mapHeight, server.numPlayers⟩ pos
      (by simpa using hstage) ?_ ?_ ⟨fun hne => absurd rfl hne, rfl⟩,
      fun other there hne hthere => ?_,
      nofun⟩
    · rw [deliver_downlink _ _ _ (by simpa using hconnected), List.map_append,
        ServerGamestate.welcome_reaching, if_pos rfl, Function.update_self]
    · intro message hmessage config
      obtain ⟨send, hsend, rfl⟩ := List.mem_map.mp hmessage
      exact hnone send hsend config
    · rw [hear_of_carried rfl, Function.update_of_ne hne] at hthere
      cases hthere

theorem ServerGamestate.PlaysElsewhere.unique {id : NetworkID} {first second : Position}
    (hfirst : server.PlaysElsewhere address id first)
    (hsecond : server.PlaysElsewhere address id second) : first = second := by
  obtain ⟨_, _, object, _, hobject, rfl⟩ := hfirst
  obtain ⟨_, _, object', _, hobject', rfl⟩ := hsecond
  rw [Option.some.inj (hobject.symm.trans hobject')]

/-- Nobody else plays under the own id. -/
theorem ServerGamestate.PlaysElsewhere.ne {id other : NetworkID} {pos : Position}
    (hwf : server.WellFormed) (hentry : server.connectedPlayers[address]? = some id)
    (h : server.PlaysElsewhere address other pos) : other ≠ id := by
  rintro rfl
  obtain ⟨owner, hne, _, hconnected, _⟩ := h
  exact hne (hwf.distinct owner address other hconnected hentry)

section Tick

variable {next : ServerGamestate} {id : NetworkID}

/-- A player of somebody else is still somebody else's after the tick. -/
theorem ServerGamestate.Ticked.playsElsewhere (hticked : server.Ticked next sent)
    {other : NetworkID} {pos : Position} (h : server.PlaysElsewhere address other pos) :
    ∃ later, next.PlaysElsewhere address other later := by
  obtain ⟨owner, hne, object, hconnected, hobject, _⟩ := h
  exact ⟨_, owner, hne, _, hticked.connectedPlayers ▸ hconnected,
    hticked.player hconnected hobject, rfl⟩

/-- The messages of a tick that reach a client carry the positions of the
others. -/
theorem ServerGamestate.Ticked.carried_iff (hwf : server.WellFormed)
    (hticked : server.Ticked next sent) (hentry : server.connectedPlayers[address]? = some id)
    {other : NetworkID} {pos : Position} (hremote : other ≠ id) :
    (∃ message ∈ (sent.filter fun send => send.reaches address).map Send.message,
      message.carried = some (other, pos)) ↔ next.PlaysElsewhere address other pos := by
  constructor
  · rintro ⟨_, hmessage, hcarried⟩
    obtain ⟨send, hsend, rfl⟩ := List.mem_map.mp hmessage
    obtain ⟨hsent, _⟩ := List.mem_filter.mp hsend
    obtain ⟨owner, player, object, hconnected, hobject, rfl⟩ := (hticked.mem_sent send).mp hsent
    obtain ⟨rfl, rfl⟩ := Prod.mk.inj (Option.some.inj hcarried)
    refine ⟨owner, ?_, _, hticked.connectedPlayers ▸ hconnected,
      hticked.player hconnected hobject, (Player.foldl_receiveUpdate_pos _ _).symm⟩
    rintro rfl
    exact hremote (Option.some.inj (hconnected.symm.trans hentry))
  · rintro ⟨owner, hne, object, hconnected, hobject, rfl⟩
    rw [hticked.connectedPlayers] at hconnected
    obtain ⟨before, hbefore⟩ := Option.isSome_iff_exists.mp (hwf.live owner other hconnected)
    obtain rfl := Option.some.inj ((hticked.player hconnected hbefore).symm.trans hobject)
    have hsent := (hticked.mem_sent _).mpr ⟨owner, other, before, hconnected, hbefore, rfl⟩
    refine ⟨_, List.mem_map_of_mem (List.mem_filter.mpr ⟨hsent, ?_⟩), ?_⟩
    · unfold ServerGamestate.positionBroadcast
      split
      · exact Send.reaches_broadcast ..
      · simpa using hne
    · simp only [ServerGamestate.positionBroadcast, Message.carried,
        Player.foldl_receiveUpdate_pos]

/-- After the end of a tick a client is going to know all others. -/
theorem KnowsOthers.tick {known : NetworkID → Option Position}
    (h : KnowsOthers server asleep address id known) (hwf : server.WellFormed)
    (hticked : server.Ticked next sent) (hentry : server.connectedPlayers[address]? = some id)
    (hassigned : ∀ (owner : SystemAddress) (other : NetworkID),
      server.connectedPlayers[owner]? = some other → other ≠ unassignedNetworkID) :
    ∃ later, Hears id known ((sent.filter fun send => send.reaches address).map Send.message)
        later ∧ KnowsOthers next true address id later := by
  have hnextWf : next.WellFormed :=
    hwf.of_objects_isSome hticked.connectedPlayers fun id hlive => hticked.live id ▸ hlive
  have hlater {other : NetworkID} {pos : Position} (hremote : other ≠ id)
      (hplays : next.PlaysElsewhere address other pos) :
      (((sent.filter fun send => send.reaches address).map Send.message).foldl hear known) other =
        some pos := by
    refine foldl_hear_of_mem (fun message hmessage there hthere => ?_)
      ((hticked.carried_iff hwf hentry hremote).mpr hplays)
    exact ((hticked.carried_iff hwf hentry hremote).mp ⟨message, hmessage, hthere⟩).unique hplays
  refine ⟨_, hears_of_playerPosition fun message hmessage => ?_,
    fun other pos hremote hpos => ?_, fun _ other pos hplays => ?_⟩
  · obtain ⟨send, hsend, rfl⟩ := List.mem_map.mp hmessage
    obtain ⟨owner, other, object, hconnected, _, rfl⟩ :=
      (hticked.mem_sent send).mp (List.mem_filter.mp hsend).1
    exact ⟨_, rfl, hassigned owner other hconnected⟩
  · by_cases hplays : ∃ there, next.PlaysElsewhere address other there
    · obtain ⟨there, hthere⟩ := hplays
      obtain rfl := Option.some.inj ((hlater hremote hthere).symm.trans hpos)
      exact hthere
    · rw [foldl_hear_of_none] at hpos
      · exact absurd (hticked.playsElsewhere (h.sound other pos hremote hpos)) hplays
      · intro message hmessage there hthere
        exact hplays ⟨there, (hticked.carried_iff hwf hentry hremote).mp
          ⟨message, hmessage, hthere⟩⟩
  · rw [hlater (hplays.ne hnextWf (hticked.connectedPlayers ▸ hentry)) hplays]
    exact Option.some_ne_none pos

end Tick

end Server

/-! ## Every step keeps the addresses in view -/

section World

variable {manager : NetworkIDManager} {world next : World}

/-- A removed player that nobody else was told of is missed by nobody. -/
theorem KnowsOthers.leave {server : ServerGamestate} {asleep : Bool}
    {address leaver : SystemAddress} {id : NetworkID} {known : NetworkID → Option Position}
    (h : KnowsOthers server asleep address id known)
    (hunknown : ∀ gone, server.connectedPlayers[leaver]? = some gone → gone ≠ id →
      known gone = none) :
    KnowsOthers (server.removePlayer leaver) false address id known := by
  refine ⟨fun other pos hremote hpos => ?_, nofun⟩
  obtain ⟨owner, hne, object, hconnected, hobject, rfl⟩ := h.sound other pos hremote hpos
  have hleaver : server.connectedPlayers[leaver]? ≠ some other := fun hgone => by
    rw [hunknown other hgone hremote] at hpos
    cases hpos
  refine ⟨owner, hne, object, ?_, ?_, rfl⟩
  · rw [ServerGamestate.removePlayer_getElem?, if_neg, hconnected]
    rintro rfl
    exact hleaver hconnected
  · rw [ServerGamestate.removePlayer_objects, if_neg hleaver, hobject]

theorem AllInView.serverTick (h : AllInView world)
    (hstep : world.step manager .serverTick = .ok next) : AllInView next := by
  have hwf := World.wellFormed_step h.wellFormed hstep
  obtain ⟨server, sent, hhandle, rfl⟩ := World.step_serverTick_eq_ok hstep
  have hticked := h.wellFormed.ticked hhandle
  refine ⟨hwf, fun address id hid => ?_, fun address => ?_⟩
  · exact h.assigned address id (hticked.connectedPlayers ▸ hid)
  · refine (h.inView address).deliver (by rw [hticked.connectedPlayers]) ?_ ?_
    · intro send hsend _
      obtain ⟨_, _, _, _, _, rfl⟩ := (hticked.mem_sent send).mp hsend
      exact nofun
    · exact fun id known hid hothers =>
        hothers.tick h.wellFormed hticked hid h.assigned

/-- Queueing a move changes nothing that is in view. -/
theorem InView.awake {server changed : ServerGamestate} {asleep : Bool}
    {address : SystemAddress} {link : Link} (h : InView server asleep address link)
    (hconnectedPlayers : changed.connectedPlayers = server.connectedPlayers)
    (hobjects : changed.objects = server.objects) : InView changed false address link := by
  refine ⟨hconnectedPlayers ▸ h.sessions, h.once, h.waiting, fun id hconnected hstarted hid => ?_⟩
  obtain ⟨known, hknown, hothers⟩ := h.viewing id hconnected hstarted (hconnectedPlayers ▸ hid)
  refine ⟨known, hknown, fun other pos hremote hpos => ?_, nofun⟩
  unfold ServerGamestate.PlaysElsewhere
  rw [hconnectedPlayers, hobjects]
  exact hothers.sound other pos hremote hpos

/-- An address stays in view when somebody leaves that its client was not told
of. -/
theorem InView.left {server : ServerGamestate} {asleep : Bool}
    {address leaver : SystemAddress} {link : Link} (h : InView server asleep address link)
    (hother : address ≠ leaver)
    (hunknown : ∀ gone, server.connectedPlayers[leaver]? = some gone → ∀ id,
      link.connected = true → server.connectedPlayers[address]? = some id →
        gone ∉ link.told manager) :
    InView (server.removePlayer leaver) false address link := by
  have hentry : (server.removePlayer leaver).connectedPlayers[address]? =
      server.connectedPlayers[address]? := by
    rw [ServerGamestate.removePlayer_getElem?, if_neg hother]
  refine ⟨hentry ▸ h.sessions, h.once, h.waiting, fun id hconnected hstarted hid => ?_⟩
  rw [hentry] at hid
  obtain ⟨known, hknown, hothers⟩ := h.viewing id hconnected hstarted hid
  refine ⟨known, hknown, hothers.leave fun gone hgone hne => ?_⟩
  by_contra hsome
  exact hunknown gone hgone id hconnected hid (hknown.mem_told_iff.mpr ⟨hne, hsome⟩)

/-- An address whose loss is handled has no entry any more. -/
theorem InView.connectionLost {server : ServerGamestate} {asleep : Bool}
    {address : SystemAddress} {link : Link} {rest : List Packet}
    (h : InView server asleep address link)
    (huplink : link.uplink = .library .connectionLost :: rest) :
    InView (server.removePlayer address) false address { link with uplink := rest } := by
  have hsessions := h.sessions
  have honce := h.once
  rw [huplink] at hsessions honce
  have hgone : (server.removePlayer address).connectedPlayers[address]? = none := by
    rw [ServerGamestate.removePlayer_getElem?, if_pos rfl]
  refine ⟨?_, ?_, fun hconnected hpending => ?_, fun id _ _ hid => ?_⟩
  · rw [hgone]
    exact hsessions.2
  · simpa [List.count_cons] using honce
  · exact h.waiting hconnected (huplink ▸ List.mem_cons_of_mem _ hpending)
  · cases hgone.symm.trans hid

/-- A move changes nothing that is in view. -/
theorem AllInView.receiveMove {address : SystemAddress} {index : ℕ} {message : Message}
    (h : AllInView world)
    (hmove : (world.link address).uplink[index]? = some (.custom message)) :
    AllInView
      { server := world.server.handleCustomPacket message
        link := Function.update world.link address { world.link address with
          uplink := (world.link address).uplink.eraseIdx index } } where
  wellFormed := h.wellFormed.of_objects_isSome (by simp) (by simp)
  assigned other id hid :=
    h.assigned other id (world.server.handleCustomPacket_connectedPlayers message ▸ hid)
  inView other := by
    have hawake {link : Link} (hview : InView world.server world.asleep other link) :=
      hview.awake (world.server.handleCustomPacket_connectedPlayers message)
        (world.server.handleCustomPacket_objects message)
    dsimp only
    by_cases hother : other = address
    · subst hother
      rw [Function.update_self]
      exact hawake ((h.inView other).eraseMove hmove)
    · rw [Function.update_of_ne hother]
      exact hawake (h.inView other)

/-- A new player knows the others after its welcome, and they know it. -/
theorem AllInView.welcome {address : SystemAddress} {rest : List Packet} {id : NetworkID}
    {pos : Position} (h : AllInView world)
    (huplink : (world.link address).uplink = .library .newIncomingConnection :: rest)
    (hentry : world.server.connectedPlayers[address]? = none)
    (hfresh : world.server.objects id = none) (hassigned : id ≠ unassignedNetworkID)
    (hwf : (world.server.addPlayer address id pos).WellFormed) :
    AllInView
      { server := world.server.addPlayer address id pos
        link := deliver (Function.update world.link address
          { world.link address with uplink := rest }) (world.server.welcome address id pos) } := by
  refine ⟨hwf, fun other known hid => ?_, fun other => ?_⟩
  · rcases ServerGamestate.getElem?_of_addPlayer hid with hold | ⟨_, rfl⟩
    · exact h.assigned other known hold
    · exact hassigned
  · by_cases hother : other = address
    · subst hother
      exact (h.inView other).welcome huplink hentry
    · have hlink : Function.update world.link address
          { world.link address with uplink := rest } other = world.link other :=
        Function.update_of_ne hother ..
      refine InView.deliver (hlink ▸ h.inView other) ?_ ?_ fun id known _ hothers => ?_
      · rw [ServerGamestate.addPlayer_getElem?, if_neg hother]
      · intro send hsend hreaches config hmessage
        simp only [ServerGamestate.welcome, List.mem_cons, List.not_mem_nil, or_false] at hsend
        rcases hsend with rfl | rfl | rfl
        · simp [ServerGamestate.sendGameConfigToClient, Ne.symm hother] at hreaches
        · cases hmessage
        · cases hmessage
      · exact hothers.welcome h.wellFormed hfresh hentry hother

/-- A player that goes unnoticed leaves the others with what they know. -/
theorem AllInView.connectionLost {address : SystemAddress} {rest : List Packet}
    (h : AllInView world)
    (huplink : (world.link address).uplink = .library .connectionLost :: rest)
    (hwf : (world.server.removePlayer address).WellFormed)
    (hunknown : ∀ gone, world.server.connectedPlayers[address]? = some gone → ∀ other id,
      other ≠ address → (world.link other).connected = true →
        world.server.connectedPlayers[other]? = some id →
          gone ∉ (world.link other).told manager) :
    AllInView
      { server := world.server.removePlayer address
        link := Function.update world.link address
          { world.link address with uplink := rest } } := by
  refine ⟨hwf, fun other id hid => ?_, fun other => ?_⟩
  · rw [ServerGamestate.removePlayer_getElem?] at hid
    split at hid
    · cases hid
    · exact h.assigned other id hid
  · dsimp only
    by_cases hother : other = address
    · subst hother
      rw [Function.update_self]
      exact (h.inView other).connectionLost huplink
    · rw [Function.update_of_ne hother]
      exact (h.inView other).left hother fun gone hgone id hconnected hid =>
        hunknown gone hgone other id hother hconnected hid

/-- Whatever packet the server handles, the addresses stay in view. -/
theorem AllInView.serverReceive {address : SystemAddress} {index : ℕ} {admission : Admission}
    (h : AllInView world)
    (hleaves : LeavesUnnoticed manager world (.serverReceive address index admission))
    (hstep : world.step manager (.serverReceive address index admission) = .ok next) :
    AllInView next := by
  have hwf := World.wellFormed_step h.wellFormed hstep
  obtain ⟨packet, server, sent, hpacket, horder, hhandle, rfl⟩ :=
    World.step_serverReceive_eq_ok hstep
  cases packet with
  | custom message =>
      obtain ⟨rfl, rfl⟩ : world.server.handleCustomPacket message = server ∧ [] = sent := by
        simpa [ServerGamestate.handle] using hhandle
      rw [deliver_nil]
      exact h.receiveMove hpacket
  | library identifier =>
      obtain rfl := horder rfl
      obtain ⟨rest, huplink⟩ := List.head?_eq_some_iff.mp (List.head?_eq_getElem?.trans hpacket)
      have hsessions := (h.inView address).sessions
      rw [huplink] at hsessions
      simp only [huplink, List.eraseIdx_zero, List.tail_cons] at hwf ⊢
      cases identifier with
      | newIncomingConnection =>
          have hentry : world.server.connectedPlayers[address]? = none :=
            Option.not_isSome_iff_eq_none.mp (Bool.eq_false_iff.mp hsessions.1)
          obtain ⟨pos, _, hfresh, hassigned, rfl, rfl⟩ :=
            ServerGamestate.handle_newIncomingConnection_eq_ok h.wellFormed hentry hhandle
          exact h.welcome huplink hentry hfresh hassigned hwf
      | connectionLost =>
          obtain ⟨rfl, rfl⟩ := ServerGamestate.handle_connectionLost_eq_ok hhandle
          rw [deliver_nil]
          apply h.connectionLost huplink hwf
          intro gone hgone other id hother hconnected hid
          exact hleaves hpacket gone hgone (other, id)
            (Std.TreeMap.mem_toList_iff_getElem?_eq_some.mpr hid) hother hconnected
      | connectionRequestAccepted | connectionAttemptFailed | disconnectionNotification
      | other => exact hsessions.elim

/-- Every step that keeps to the conditions keeps the addresses in view. -/
theorem AllInView.step {action : Action} (h : AllInView world) (horder : DownlinkInOrder action)
    (hleaves : LeavesUnnoticed manager world action)
    (hstep : world.step manager action = .ok next) : AllInView next := by
  cases action with
  | link address action =>
      have hwf := World.wellFormed_step h.wellFormed hstep
      obtain ⟨link, hacts, rfl⟩ := World.step_link_eq_ok hstep
      refine ⟨hwf, h.assigned, fun other => ?_⟩
      by_cases hother : other = address
      · subst hother
        simp only [Function.update_self]
        exact (h.inView other).acts horder (by rintro _ rfl; exact hleaves) hacts
      · simp only [Function.update_of_ne hother]
        exact h.inView other
  | serverReceive address index admission => exact h.serverReceive hleaves hstep
  | serverTick => exact h.serverTick hstep

end World

theorem allInView_start (mapWidth mapHeight numPlayers : UInt16) :
    AllInView (World.start mapWidth mapHeight numPlayers) where
  wellFormed := ServerGamestate.applyConfig_wellFormed _ _ _
  assigned address id h := by simp [World.start, ServerGamestate.applyConfig] at h
  inView address :=
    ⟨by simp [World.start, ServerGamestate.applyConfig, Announces], by simp [World.start], nofun,
      nofun⟩

/-- Right after a completed tick, with nothing on its way and every connected
client in its game loop. -/
structure Quiescent (world : World) : Prop where
  asleep : world.asleep = true
  uplink : ∀ address, (world.link address).uplink = []
  downlink : ∀ address, (world.link address).downlink = []
  inGame : ∀ address, (world.link address).connected = true →
    ∃ gamestate, (world.link address).client.stage = .gameLoop gamestate

/-- Every connected client lists the other players of the server, with the
server's positions, and nobody else. -/
def ViewsAgree (world : World) : Prop :=
  ∀ address gamestate, (world.link address).connected = true →
    (world.link address).client.stage = .gameLoop gamestate →
      ∀ id pos, (id, pos) ∈ gamestate.remotePlayerPositions ↔
        world.server.PlaysElsewhere address id pos

theorem AllInView.viewsAgree {world : World} (h : AllInView world) (hquiet : Quiescent world) :
    ViewsAgree world := by
  intro address gamestate hconnected hgame id pos
  have hview := h.inView address
  have hstarted : .library .newIncomingConnection ∉ (world.link address).uplink := by
    simp [hquiet.uplink]
  have hsessions := hview.sessions
  rw [hconnected] at hsessions
  obtain ⟨own, hown⟩ := Option.isSome_iff_exists.mp (hsessions.entered_of_not_mem hstarted)
  obtain ⟨known, hknown, hothers⟩ := hview.viewing own hconnected hstarted hown
  cases hknown with
  | awaitingConfiguration _ _ _ _ hstage => cases hgame.symm.trans hstage
  | awaitingSpawn _ _ _ hstage => cases hgame.symm.trans hstage
  | inGame before now hstage hlocal htracks hhears =>
      obtain rfl := ClientStage.gameLoop.inj (hgame.symm.trans hstage)
      rw [hquiet.downlink] at hhears
      obtain rfl : now = known := hhears
      rw [htracks.listed, hlocal]
      constructor
      · rintro ⟨hremote, hpos⟩
        exact hothers.sound id pos hremote hpos
      · intro hplays
        have hremote := hplays.ne h.wellFormed hown
        obtain ⟨there, hthere⟩ := Option.ne_none_iff_exists'.mp
          (hothers.complete hquiet.asleep id pos hplays)
        obtain rfl := (hothers.sound id there hremote hthere).unique hplays
        exact ⟨hremote, hthere⟩

/-- In every run in which the messages to the clients arrive in order, and every
player leaves unnoticed, the views agree in every quiet state. -/
theorem viewsAgree_run {manager : NetworkIDManager} {mapWidth mapHeight numPlayers : UInt16}
    {actions : List Action} {world : World}
    (hrun : run (World.step manager) (World.start mapWidth mapHeight numPlayers) actions =
      .ok world)
    (horder : ∀ action ∈ actions, DownlinkInOrder action)
    (hleaves : StepsMeet (World.step manager) (LeavesUnnoticed manager)
      (World.start mapWidth mapHeight numPlayers) actions)
    (hquiet : Quiescent world) : ViewsAgree world :=
  (run_invariant (fun _ _ _ h hguard hstep => AllInView.step h hguard.1 hguard.2 hstep)
    (allInView_start mapWidth mapHeight numPlayers) ((StepsMeet.of_forall horder).and hleaves)
    hrun).viewsAgree hquiet

/-- The address that an action is about. -/
def Action.address : Action → Option SystemAddress
  | .link address _ | .serverReceive address _ _ => some address
  | .serverTick => none

/-- An address that no action is about has no client and no packets. -/
theorem World.link_untouched {manager : NetworkIDManager}
    {mapWidth mapHeight numPlayers : UInt16} {actions : List Action} {world : World}
    {address : SystemAddress}
    (hrun : run (step manager) (start mapWidth mapHeight numPlayers) actions = .ok world)
    (huntouched : ∀ action ∈ actions, action.address ≠ some address) :
    world.link address = {} := by
  have hpreserved (world : World) (action : Action) (next : World)
      (hlink : world.link address = {}) (hother : action.address ≠ some address)
      (hstep : step manager world action = .ok next) : next.link address = {} := by
    have hdeliver (links : SystemAddress → Link) (sent : List Send)
        (hempty : links address = {}) : deliver links sent address = {} := by
      rw [deliver, hempty]
      rfl
    cases action with
    | link other action =>
        obtain ⟨link, _, rfl⟩ := step_link_eq_ok hstep
        have hne : address ≠ other := fun heq => hother (heq ▸ rfl)
        simpa [hne] using hlink
    | serverReceive other index admission =>
        obtain ⟨packet, server, sent, _, _, _, rfl⟩ := step_serverReceive_eq_ok hstep
        have hne : address ≠ other := fun heq => hother (heq ▸ rfl)
        exact hdeliver _ _ (by simpa [hne] using hlink)
    | serverTick =>
        obtain ⟨server, sent, _, rfl⟩ := step_serverTick_eq_ok hstep
        exact hdeliver _ _ hlink
  exact run_invariant hpreserved rfl (.of_forall huntouched) hrun

/-- A run about two addresses is quiet when these are. -/
theorem quiescent_of_two {manager : NetworkIDManager}
    {mapWidth mapHeight numPlayers : UInt16} {actions : List Action} {world : World}
    (hrun : run (World.step manager) (World.start mapWidth mapHeight numPlayers) actions =
      .ok world)
    (htouched : ∀ action ∈ actions, ∀ address ∈ action.address, address = 1 ∨ address = 2)
    (hasleep : world.asleep = true)
    (hempty : ∀ address, address = 1 ∨ address = 2 →
      (world.link address).uplink = [] ∧ (world.link address).downlink = [])
    (hinGame : ∀ address, address = 1 ∨ address = 2 → (world.link address).connected = true →
      ∃ gamestate, (world.link address).client.stage = .gameLoop gamestate) :
    Quiescent world := by
  have hlink (address : SystemAddress) (hother : ¬ (address = 1 ∨ address = 2)) :
      world.link address = {} :=
    World.link_untouched hrun fun action haction heq =>
      hother (htouched action haction address heq)
  refine ⟨hasleep, fun address => ?_, fun address => ?_, fun address hconnected => ?_⟩
  · by_cases haddress : address = 1 ∨ address = 2
    · exact (hempty address haddress).1
    · rw [hlink address haddress]
  · by_cases haddress : address = 1 ∨ address = 2
    · exact (hempty address haddress).2
    · rw [hlink address haddress]
  · by_cases haddress : address = 1 ∨ address = 2
    · exact hinGame address haddress hconnected
    · rw [hlink address haddress] at hconnected
      cases hconnected

/-- The list of a client in its game loop. -/
def Client.remotePlayers (client : Client) : Option (List (NetworkID × Position)) :=
  match client.stage with
  | .gameLoop gamestate => some gamestate.remotePlayerPositions
  | _ => none

theorem Client.exists_of_remotePlayers {client : Client}
    {listed : List (NetworkID × Position)} (h : client.remotePlayers = some listed) :
    ∃ gamestate, client.stage = .gameLoop gamestate ∧
      gamestate.remotePlayerPositions = listed := by
  unfold remotePlayers at h
  split at h
  · next gamestate hstage => exact ⟨gamestate, hstage, Option.some.inj h⟩
  · cases h

/-- Two players join and move, and everything arrives. -/
def twoPlayersMove : List Action :=
  [.link 1 (.connect false), .serverReceive 1 0 ⟨7, [(0, 0)]⟩,
    .link 2 (.connect false), .serverReceive 2 0 ⟨8, [(5, 5)]⟩,
    .link 1 (.receive 0), .link 1 (.receive 0), .link 1 (.move [1]), .link 1 (.receive 0),
    .link 1 (.receive 0), .link 2 (.receive 0), .link 2 (.receive 0), .link 2 (.move [0]),
    .link 2 (.receive 0), .serverReceive 1 0 ⟨0, []⟩, .serverReceive 2 0 ⟨0, []⟩, .serverTick,
    .link 1 (.receive 0), .link 2 (.receive 0)]

/-- A player leaves while it is alone. -/
def leavesAlone : List Action :=
  [.link 1 (.connect false), .serverReceive 1 0 ⟨7, [(9, 9)]⟩, .link 1 .disconnect,
    .serverReceive 1 0 ⟨0, []⟩]

/-- A departure that nobody notices leaves the views in agreement, even with
its address and its id used again. -/
theorem viewsAgree_after_leaving_alone :
    ∃ world, run (World.step firstRegistered) (World.start 10 10 2)
        (leavesAlone ++ twoPlayersMove) = .ok world ∧
      (world.link 1).client.remotePlayers = some [(8, ⟨5, 4⟩)] ∧
      (world.link 2).client.remotePlayers = some [(7, ⟨1, 0⟩)] ∧ ViewsAgree world := by
  obtain ⟨world, hrun, hfirst, hsecond, hasleep, hempty, hempty'⟩ :
      ∃ world, run (World.step firstRegistered) (World.start 10 10 2)
          (leavesAlone ++ twoPlayersMove) = .ok world ∧
        (world.link 1).client.remotePlayers = some [(8, ⟨5, 4⟩)] ∧
        (world.link 2).client.remotePlayers = some [(7, ⟨1, 0⟩)] ∧ world.asleep = true ∧
        ((world.link 1).uplink = [] ∧ (world.link 1).downlink = []) ∧
        ((world.link 2).uplink = [] ∧ (world.link 2).downlink = []) := by
    decide +kernel
  obtain ⟨first, hfirstStage, _⟩ := Client.exists_of_remotePlayers hfirst
  obtain ⟨second, hsecondStage, _⟩ := Client.exists_of_remotePlayers hsecond
  refine ⟨world, hrun, hfirst, hsecond, viewsAgree_run hrun (by decide) (by decide +kernel) ?_⟩
  refine quiescent_of_two hrun (by decide) hasleep ?_ ?_
  · rintro address (rfl | rfl)
    · exact hempty
    · exact hempty'
  · rintro address (rfl | rfl) _
    · exact ⟨first, hfirstStage⟩
    · exact ⟨second, hsecondStage⟩

/-- The connection of one of two players is lost: the other one goes on listing
it. -/
theorem departed_player_stays_listed :
    ∃ world, run (World.step firstRegistered) (World.start 10 10 2)
        (twoPlayersMove ++ [.link 1 .disconnect, .serverReceive 1 0 ⟨0, []⟩, .serverTick]) =
          .ok world ∧
      (∀ action ∈ twoPlayersMove ++ [.link 1 .disconnect, .serverReceive 1 0 ⟨0, []⟩,
        .serverTick], DownlinkInOrder action) ∧
      Quiescent world ∧ ¬ ViewsAgree world := by
  obtain ⟨world, hrun, hlisted, hgone, hlink, hasleep, hdisconnected, hempty, hempty'⟩ :
      ∃ world, run (World.step firstRegistered) (World.start 10 10 2)
          (twoPlayersMove ++ [.link 1 .disconnect, .serverReceive 1 0 ⟨0, []⟩, .serverTick]) =
            .ok world ∧
        (world.link 2).client.remotePlayers = some [(7, ⟨1, 0⟩)] ∧
        world.server.objects 7 = none ∧ (world.link 2).connected = true ∧
        world.asleep = true ∧ (world.link 1).connected = false ∧
        ((world.link 1).uplink = [] ∧ (world.link 1).downlink = []) ∧
        ((world.link 2).uplink = [] ∧ (world.link 2).downlink = []) := by
    decide +kernel
  obtain ⟨gamestate, hstage, hlist⟩ := Client.exists_of_remotePlayers hlisted
  refine ⟨world, hrun, by decide, quiescent_of_two hrun (by decide) hasleep ?_ ?_, ?_⟩
  · rintro address (rfl | rfl)
    · exact hempty
    · exact hempty'
  · rintro address (rfl | rfl) hconnected
    · simp [hdisconnected] at hconnected
    · exact ⟨gamestate, hstage⟩
  · intro hagree
    obtain ⟨_, _, object, _, hobject, _⟩ :=
      (hagree 2 gamestate hlink hstage 7 ⟨1, 0⟩).mp (by simp [hlist])
    cases hgone.symm.trans hobject

end LibBench.RakNet
