/-
# Yojimbo: every session gets its handshake

A session is welcomed when it has been sent the config and then its spawn
message, once each, and the player object in its slot was created for it. The
server compares a slot's connection with `connectedPlayers` once in an
iteration, so it can only tell that a slot has changed hands when it finds it
empty in between.

The library does not have to leave it empty: inside one `AdvanceTime` a slot can
be freed and given to the next client, which then inherits the player object and
is never sent anything that it waits for. As long as no slot that was taken
before the call is taken by another session after it, every session is welcomed
by the next connect phase and stays so.
-/

import LibBench.Yojimbo.World

namespace LibBench.Yojimbo

open LibBench.Math

namespace Network

theorem mem_of_findFreeClientIndex {network : Network} {clientIndex : ClientID}
    (h : network.findFreeClientIndex = some clientIndex) : clientIndex ∈ clientIndices :=
  List.mem_of_find?_eq_some h

/-- After one event a record is an old one, or the empty one of a new session. -/
theorem record_apply {network : Network} {event : NetworkEvent} {slot : ClientID}
    {record : SessionRecord} (h : (network.apply event).record slot = some record) :
    network.record slot = some record ∨
      (record = ⟨network.sessions, []⟩ ∧ slot ∈ clientIndices ∧
        (network.apply event).sessions = network.sessions + 1) := by
  cases event with
  | disconnect clientIndex =>
      by_cases hslot : slot = clientIndex
      · simp [apply, Network.record, hslot] at h
      · exact Or.inl (by simpa [apply, Network.record, hslot] using h)
  | connectionResponse connecting =>
      simp only [apply] at h ⊢
      split at h
      · exact Or.inl h
      · split at h
        · exact Or.inl h
        · next clientIndex hfree =>
            by_cases hslot : slot = clientIndex
            · subst hslot
              have hrecord : (⟨network.sessions, []⟩ : SessionRecord) = record := by
                simpa [connectClient, Network.record] using h
              exact Or.inr ⟨hrecord.symm, mem_of_findFreeClientIndex hfree, rfl⟩
            · exact Or.inl (by simpa [connectClient, Network.record, hslot] using h)

theorem sessions_le_apply (network : Network) (event : NetworkEvent) :
    network.sessions ≤ (network.apply event).sessions := by
  cases event with
  | disconnect clientIndex => exact le_rfl
  | connectionResponse connecting =>
      simp only [apply]
      split
      · exact le_rfl
      · split
        · exact le_rfl
        · exact Nat.le_succ _

theorem sessions_le_advanceTime (network : Network) (events : List NetworkEvent) :
    network.sessions ≤ (network.advanceTime events).sessions := by
  induction events generalizing network with
  | nil => exact le_rfl
  | cons event events ih => exact (network.sessions_le_apply event).trans (ih _)

/-- After any number of events a record is an old one, or one under a new number
with nothing sent yet. -/
theorem record_advanceTime {network : Network} {events : List NetworkEvent} {slot : ClientID}
    {record : SessionRecord} (h : (network.advanceTime events).record slot = some record) :
    network.record slot = some record ∨
      (network.sessions ≤ record.serial ∧
        record.serial < (network.advanceTime events).sessions ∧
        record.sent = [] ∧ slot ∈ clientIndices) := by
  induction events generalizing network with
  | nil => exact Or.inl h
  | cons event events ih =>
      have hgrows := network.sessions_le_apply event
      rcases ih h with hold | ⟨hserial, hlt, hsent, hslot⟩
      · rcases record_apply hold with hbefore | ⟨rfl, hslot, hcount⟩
        · exact Or.inl hbefore
        · have hrest := (network.apply event).sessions_le_advanceTime events
          refine Or.inr ⟨le_rfl, ?_, rfl, hslot⟩
          exact lt_of_lt_of_le (hcount ▸ Nat.lt_succ_self _) hrest
      · exact Or.inr ⟨hgrows.trans hserial, hlt, hsent, hslot⟩

end Network

/-- The session with this record in a slot has had its handshake, once and in
order, and the player of the slot was created for it. -/
structure Welcomed (world : World) (slot : ClientID) (record : SessionRecord) : Prop where
  handshake : ∃ pos, handshakes record.sent =
    world.gameConfig.handshake world.gameState.numPlayers slot pos
  player : (world.gameState.connectedPlayers[slot]?).isSome
  createdFor : world.createdFor slot = some record.serial

/-- What holds between the steps. After a connect phase every session is
welcomed and every other slot is without a player; before it, a session is
welcomed or new. -/
structure Attended (world : World) : Prop where
  numbered : ∀ slot record, world.network.record slot = some record →
    record.serial < world.network.sessions
  inRange : ∀ slot, slot ∉ clientIndices →
    world.network.record slot = none ∧ world.gameState.connectedPlayers[slot]? = none
  welcomedOrNew : ∀ slot record, world.network.record slot = some record →
    Welcomed world slot record ∨
      (world.phase = .connect ∧ world.gameState.connectedPlayers[slot]? = none ∧
        handshakes record.sent = [])
  vacant : world.phase ≠ .connect → ∀ slot, world.network.record slot = none →
    world.gameState.connectedPlayers[slot]? = none

/-- No slot passes from one session to another within one `AdvanceTime`. -/
def NoTakeover (world : World) : Action → Prop
  | .advanceTime events => ∀ slot ∈ clientIndices,
      ∀ before ∈ world.network.record slot,
        ∀ after ∈ (world.network.advanceTime events).record slot, after.serial = before.serial
  | _ => True

instance : ∀ (world : World) (action : Action), Decidable (NoTakeover world action)
  | _, .advanceTime _ => inferInstanceAs (Decidable (∀ slot ∈ clientIndices, _))
  | _, .handleNewClients _ | _, .receiveMessage _ _ | _, .updateAndBroadcast | _, .peer _ _ =>
      inferInstanceAs (Decidable True)

variable {world next : World}

theorem Attended.start (gameConfig : GameConfig) (memory : GameState) :
    Attended (World.start gameConfig memory) where
  numbered slot record hrecord := by simp [World.start, Network.record] at hrecord
  inRange slot _ := by simp [World.start, Network.record]
  welcomedOrNew slot record hrecord := by simp [World.start, Network.record] at hrecord
  vacant hphase := absurd rfl hphase

/-- A record that only got longer, by nothing of a handshake. -/
theorem Welcomed.append {slot : ClientID} {record : SessionRecord} (h : Welcomed world slot record)
    (hconfig : next.gameConfig = world.gameConfig)
    (hsize : next.gameState.toGameState = world.gameState.toGameState)
    (hplayer : (next.gameState.connectedPlayers[slot]?).isSome =
      (world.gameState.connectedPlayers[slot]?).isSome)
    (hcreated : next.createdFor slot = world.createdFor slot) {more : List Envelope}
    (hmore : handshakes more = []) :
    Welcomed next slot { record with sent := record.sent ++ more } where
  handshake := by
    obtain ⟨pos, hpos⟩ := h.handshake
    exact ⟨pos, by rw [handshakes_append, hmore, List.append_nil, hpos, hconfig, hsize]⟩
  player := hplayer.trans h.player
  createdFor := hcreated.trans h.createdFor

/-- A step that shakes no hands and neither adds nor removes players, sessions
or connect phases. -/
theorem Attended.quiet (h : Attended world) {more : ClientID → List Envelope}
    (hmore : ∀ slot, handshakes (more slot) = [])
    (hconfig : next.gameConfig = world.gameConfig)
    (hsize : next.gameState.toGameState = world.gameState.toGameState)
    (hplayers : ∀ slot : ClientID, (next.gameState.connectedPlayers[slot]?).isSome =
      (world.gameState.connectedPlayers[slot]?).isSome)
    (hphase : next.phase = .connect ↔ world.phase = .connect)
    (hrecord : ∀ slot, next.network.record slot = (world.network.record slot).map fun record =>
      { record with sent := record.sent ++ more slot })
    (hsessions : next.network.sessions = world.network.sessions)
    (hcreated : next.createdFor = world.createdFor) : Attended next := by
  have hnone (slot : ClientID) (hplayer : world.gameState.connectedPlayers[slot]? = none) :
      next.gameState.connectedPlayers[slot]? = none := by
    rw [← Option.not_isSome_iff_eq_none, hplayers, hplayer]
    exact Bool.false_ne_true
  constructor
  · intro slot record hafter
    rw [hrecord, Option.map_eq_some_iff] at hafter
    obtain ⟨before, hbefore, rfl⟩ := hafter
    exact hsessions ▸ h.numbered slot before hbefore
  · intro slot hslot
    obtain ⟨hempty, hplayer⟩ := h.inRange slot hslot
    exact ⟨by rw [hrecord, hempty, Option.map_none], hnone slot hplayer⟩
  · intro slot record hafter
    rw [hrecord, Option.map_eq_some_iff] at hafter
    obtain ⟨before, hbefore, rfl⟩ := hafter
    rcases h.welcomedOrNew slot before hbefore with hwelcomed | ⟨hconnect, hplayer, hnew⟩
    · exact Or.inl (hwelcomed.append hconfig hsize (hplayers slot) (hcreated ▸ rfl) (hmore slot))
    · refine Or.inr ⟨hphase.mpr hconnect, hnone slot hplayer, ?_⟩
      rw [handshakes_append, hnew, hmore, List.append_nil]
  · intro hconnect slot hafter
    rw [hrecord, Option.map_eq_none_iff] at hafter
    exact hnone slot (h.vacant (mt hphase.mpr hconnect) slot hafter)

/-- The records of a step that sends nothing. -/
theorem record_map_nil (network : Network) (slot : ClientID) :
    network.record slot = (network.record slot).map fun record =>
      { record with sent := record.sent ++ ([] : List Envelope) } := by
  simp

/-- The connect phase welcomes the new sessions and clears the vacant slots. -/
theorem Attended.handleNewClients (h : Attended world) {draws : ClientID → List (ℕ × ℕ)}
    (hstep : world.step (.handleNewClients draws) = .ok next) : Attended next := by
  obtain ⟨hconnect, gameState, sent, hhandle, rfl⟩ := World.step_handleNewClients_eq_ok hstep
  have hafter {slot : ClientID} {record : SessionRecord}
      (hrecord : (world.network.deliver sent).record slot = some record) :
      ∃ before, world.network.record slot = some before ∧
        record = { before with sent := before.sent ++ sentTo slot sent } := by
    rw [Network.record_deliver, Option.map_eq_some_iff] at hrecord
    obtain ⟨before, hbefore, rfl⟩ := hrecord
    exact ⟨before, hbefore, rfl⟩
  constructor
  · intro slot record hrecord
    obtain ⟨before, hbefore, rfl⟩ := hafter hrecord
    exact h.numbered slot before hbefore
  · intro slot hslot
    obtain ⟨hempty, hplayer⟩ := h.inRange slot hslot
    refine ⟨by rw [Network.record_deliver, hempty, Option.map_none], ?_⟩
    exact (ServerGameState.leavesAlone_of_handleNewClients hhandle hslot).1.trans hplayer
  · intro slot record hrecord
    obtain ⟨before, hbefore, rfl⟩ := hafter hrecord
    have hslot : slot ∈ clientIndices := by
      by_contra hslot
      exact Option.some_ne_none before (hbefore.symm.trans (h.inRange slot hslot).1)
    have hsize := ServerGameState.toGameState_of_handleNewClients hhandle
    apply Or.inl
    cases ServerGameState.handled_of_handleNewClients hhandle hslot with
    | @welcomed pos hconnected hnone hplayer hsent =>
        rcases h.welcomedOrNew slot before hbefore with hwelcomed | ⟨_, _, hnew⟩
        · have := hwelcomed.player
          simp [hnone] at this
        · refine ⟨⟨pos, ?_⟩, ?_, ?_⟩
          · rw [handshakes_append, hnew, List.nil_append, hsent, hsize]
          · rw [hplayer]
            rfl
          · simp only [World.creators, hnone, hplayer, hbefore, Option.map_some]
    | @kept player hconnected hold hkept hsent =>
        rcases h.welcomedOrNew slot before hbefore with hwelcomed | ⟨_, hnone, _⟩
        · refine hwelcomed.append ?_ hsize ?_ ?_ hsent
          · rfl
          · rw [hold, hkept]
          · simp only [World.creators, hold, hkept]
        · rw [hnone] at hold
          cases hold
    | removed hdisconnected hremoved hsent =>
        rw [Network.isClientConnected_eq_record_isSome, hbefore] at hdisconnected
        cases hdisconnected
  · intro _ slot hrecord
    rw [Network.record_deliver, Option.map_eq_none_iff] at hrecord
    by_cases hslot : slot ∈ clientIndices
    · have hdisconnected : world.network.isClientConnected slot = false := by
        rw [Network.isClientConnected_eq_record_isSome, hrecord]
        rfl
      cases ServerGameState.handled_of_handleNewClients hhandle hslot with
      | removed _ hremoved _ => exact hremoved
      | welcomed hconnected | kept hconnected =>
          rw [hdisconnected] at hconnected
          cases hconnected
    · rw [(ServerGameState.leavesAlone_of_handleNewClients hhandle hslot).1]
      exact (h.inRange slot hslot).2

theorem Attended.receiveMessage (h : Attended world) {clientIndex : ClientID} {index : ℕ}
    (hstep : world.step (.receiveMessage clientIndex index) = .ok next) : Attended next := by
  obtain ⟨_, session, envelope, hsession, _, rfl⟩ := World.step_receiveMessage_eq_ok hstep
  refine h.quiet (fun _ => handshakes_nil) rfl ?_ (fun slot => ?_) Iff.rfl (fun slot => ?_) rfl rfl
  · rw [ServerGameState.processMessage_toGameState]
  · rw [ServerGameState.processMessage_connectedPlayers]
  · have hdrop : (session.dropUplink index).toSessionRecord = session.toSessionRecord := rfl
    dsimp only
    rw [Network.record_setSession hsession hdrop]
    exact record_map_nil _ _

theorem Attended.peer (h : Attended world) {clientIndex : ClientID} {action : PeerAction}
    (hstep : world.step (.peer clientIndex action) = .ok next) : Attended next := by
  obtain ⟨session, acted, hsession, hacted, rfl⟩ := World.step_peer_eq_ok hstep
  refine h.quiet (fun _ => handshakes_nil) rfl rfl (fun _ => rfl) Iff.rfl (fun slot => ?_) rfl rfl
  dsimp only
  rw [Network.record_setSession hsession (Session.toSessionRecord_of_act hacted)]
  exact record_map_nil _ _

/-- Positions are no handshake. -/
theorem Attended.updateAndBroadcast (h : Attended world)
    (hstep : world.step .updateAndBroadcast = .ok next) : Attended next := by
  obtain ⟨hphase, sent, hsent, rfl⟩ := World.step_updateAndBroadcast_eq_ok hstep
  refine h.quiet (ServerGameState.handshakes_sentTo_broadcast hsent) rfl rfl
    (ServerGameState.updatePlayerPositions_isSome _) ?_ (Network.record_deliver _ _) rfl rfl
  rw [hphase]
  exact iff_of_false nofun nofun

/-- Without a takeover, `AdvanceTime` puts new sessions into slots without a
player only. -/
theorem Attended.advanceTime (h : Attended world) {events : List NetworkEvent}
    (hkeeps : NoTakeover world (.advanceTime events))
    (hstep : world.step (.advanceTime events) = .ok next) : Attended next := by
  obtain ⟨hphase, rfl⟩ := World.step_advanceTime_eq_ok hstep
  have hnotConnect : world.phase ≠ .connect := by
    rw [hphase]
    exact nofun
  constructor
  · intro slot record hrecord
    rcases Network.record_advanceTime hrecord with hold | ⟨_, hlt, _⟩
    · exact (h.numbered slot record hold).trans_le (Network.sessions_le_advanceTime _ _)
    · exact hlt
  · intro slot hslot
    refine ⟨?_, (h.inRange slot hslot).2⟩
    cases hrecord : (world.network.advanceTime events).record slot with
    | none => rfl
    | some record =>
        rcases Network.record_advanceTime hrecord with hold | ⟨_, _, _, hrange⟩
        · rw [(h.inRange slot hslot).1] at hold
          cases hold
        · exact absurd hrange hslot
  · intro slot record hrecord
    rcases Network.record_advanceTime hrecord with hold | ⟨hserial, _, hsent, hslot⟩
    · rcases h.welcomedOrNew slot record hold with hwelcomed | ⟨hconnect, _⟩
      · exact Or.inl ⟨hwelcomed.handshake, hwelcomed.player, hwelcomed.createdFor⟩
      · exact absurd hconnect hnotConnect
    · cases hbefore : world.network.record slot with
      | none => exact Or.inr ⟨rfl, h.vacant hnotConnect slot hbefore, hsent ▸ rfl⟩
      | some before =>
          -- the slot was taken: a new session there would be a takeover
          have hsame := hkeeps slot hslot before hbefore record hrecord
          have hlt := h.numbered slot before hbefore
          omega
  · exact fun hnot => absurd rfl hnot

theorem Attended.step (h : Attended world) {action : Action} (hkeeps : NoTakeover world action)
    (hstep : world.step action = .ok next) : Attended next := by
  cases action with
  | handleNewClients draws => exact h.handleNewClients hstep
  | receiveMessage clientIndex index => exact h.receiveMessage hstep
  | updateAndBroadcast => exact h.updateAndBroadcast hstep
  | advanceTime events => exact h.advanceTime hkeeps hstep
  | peer clientIndex action => exact h.peer hstep

/-- In a run without takeovers, every session in a slot is welcomed from the
next connect phase on. -/
theorem welcomed_run {gameConfig : GameConfig} {memory : GameState} {actions : List Action}
    (hrun : run World.step (World.start gameConfig memory) actions = .ok world)
    (hkeeps : StepsMeet World.step NoTakeover (World.start gameConfig memory) actions)
    (hphase : world.phase ≠ .connect) {slot : ClientID} {session : Session}
    (hsession : world.network.session slot = some session) :
    Welcomed world slot session.toSessionRecord := by
  have hattended := run_invariant (fun _ _ _ h hguard hstep => Attended.step h hguard hstep)
    (Attended.start gameConfig memory) hkeeps hrun
  have hrecord : world.network.record slot = some session.toSessionRecord := by
    rw [Network.record, hsession, Option.map_some]
  exact (hattended.welcomedOrNew slot _ hrecord).resolve_right fun hnew => hphase hnew.1

/-- An iteration in which new players spawn side by side. -/
def iteration (events : List NetworkEvent) : List Action :=
  serverIteration events fun slot => [(slot.toNat, 0)]

/-- The slot of the first client is freed in one iteration and taken by the
second client in a later one. -/
theorem welcomed_after_reuse : ∃ world session,
    run World.step (World.start {} ⟨0, 0, 0⟩) ([.handleNewClients fun _ => []] ++
      iteration [.connectionResponse { clientId := 10 }] ++ iteration [.disconnect 0] ++
      iteration [.connectionResponse { clientId := 11 }]) = .ok world ∧
    world.network.session 0 = some session ∧ session.client.clientId = 11 ∧
      Welcomed world 0 session.toSessionRecord := by
  obtain ⟨world, hrun, hphase, hid⟩ : ∃ world,
      run World.step (World.start {} ⟨0, 0, 0⟩) ([.handleNewClients fun _ => []] ++
        iteration [.connectionResponse { clientId := 10 }] ++ iteration [.disconnect 0] ++
        iteration [.connectionResponse { clientId := 11 }]) = .ok world ∧
      world.phase ≠ .connect ∧
      (world.network.session 0).map (fun session => session.client.clientId) = some 11 := by
    decide +kernel
  obtain ⟨session, hsession, hclient⟩ := Option.map_eq_some_iff.mp hid
  exact ⟨world, session, hrun, hsession, hclient,
    welcomed_run hrun (by decide +kernel) hphase hsession⟩

/-- Inside one `AdvanceTime` the first client leaves and the second one gets its
slot: the second is sent no handshake, and plays on the first one's player. -/
theorem second_client_inherits_the_slot : ∃ world session,
    run World.step (World.start {} ⟨0, 0, 0⟩) ([.handleNewClients fun _ => []] ++
      iteration [.connectionResponse { clientId := 10 }] ++
      iteration [.disconnect 0, .connectionResponse { clientId := 11 }]) = .ok world ∧
    world.phase ≠ .connect ∧ world.network.session 0 = some session ∧
      ¬ Welcomed world 0 session.toSessionRecord := by
  obtain ⟨world, hrun, hphase, hrecord⟩ : ∃ world,
      run World.step (World.start {} ⟨0, 0, 0⟩) ([.handleNewClients fun _ => []] ++
        iteration [.connectionResponse { clientId := 10 }] ++
        iteration [.disconnect 0, .connectionResponse { clientId := 11 }]) = .ok world ∧
      world.phase ≠ .connect ∧ world.network.record 0 = some ⟨1, []⟩ := by
    decide +kernel
  obtain ⟨session, hsession, hsame⟩ := Option.map_eq_some_iff.mp hrecord
  refine ⟨world, session, hrun, hphase, hsession, fun hwelcomed => ?_⟩
  obtain ⟨pos, hpos⟩ := hwelcomed.handshake
  rw [hsame] at hpos
  cases hpos

end LibBench.Yojimbo
