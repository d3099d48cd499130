/-
# RakNet: what a client is going to know

Between two programs there are always messages on their way. To say of a
client that its list is right would be false most of the time; what can be kept
true step by step is what its list will be once everything on its way has been
handled in the order it was sent. The server determines that at the moment it
sends, and neither the client's own turns nor the handling of a message change
it.

A waiting client is part of this. It drops what comes before the configuration,
and starts to listen with its spawn message.
-/

import LibBench.RakNet.World

namespace LibBench.RakNet

open LibBench.Math

variable {manager : NetworkIDManager}

/-- From what is known now, messages in order lead to what is known after them,
and none of them adds a second entry to the client's list. -/
def Hears (localID : NetworkID) :
    (NetworkID → Option Position) → List Message → (NetworkID → Option Position) → Prop
  | now, [], known => now = known
  | now, message :: rest, known =>
      AddsNoDuplicate localID now message ∧ Hears localID (hear now message) rest known

section Hears

variable {localID : NetworkID} {now known : NetworkID → Option Position}

theorem hears_append {first second : List Message} :
    Hears localID now (first ++ second) known ↔
      ∃ middle, Hears localID now first middle ∧ Hears localID middle second known := by
  induction first generalizing now with
  | nil => simp [Hears]
  | cons message rest ih =>
      simp only [List.cons_append, Hears, ih, and_assoc, exists_and_left]

/-- A list that is what is known now becomes what is known after the
messages. -/
theorem Hears.tracks {messages : List Message} (h : Hears localID now messages known)
    {gamestate : ClientGamestate} {tracker : Option CorrectionsTracker}
    (hlocal : gamestate.localPlayer.networkID = localID) (htracks : Tracks now gamestate) :
    Tracks known (handleCustomPackets manager gamestate tracker messages).1 := by
  induction messages generalizing now gamestate tracker with
  | nil => exact h ▸ htracks
  | cons message rest ih =>
      obtain ⟨hadds, hrest⟩ := h
      rw [← hlocal] at hadds
      exact ih hrest ((handleCustomPacket_networkID message).trans hlocal)
        (htracks.handleCustomPacket hadds)

/-- Position messages about tracked players never add a second entry. -/
theorem hears_of_playerPosition {messages : List Message}
    (h : ∀ message ∈ messages, ∃ position, message = .playerPosition position ∧
      position.playerID ≠ unassignedNetworkID) :
    Hears localID now messages (messages.foldl hear now) := by
  induction messages generalizing now with
  | nil => rfl
  | cons message rest ih =>
      obtain ⟨position, rfl, hassigned⟩ := h message List.mem_cons_self
      exact ⟨fun heq => absurd heq hassigned,
        ih fun other hother => h other (List.mem_cons_of_mem _ hother)⟩

end Hears

section Fold

variable {messages : List Message} {known : NetworkID → Option Position} {id : NetworkID}

/-- Messages about others leave what is known of a player. -/
theorem foldl_hear_of_none
    (h : ∀ message ∈ messages, ∀ pos, message.carried ≠ some (id, pos)) :
    messages.foldl hear known id = known id := by
  induction messages generalizing known with
  | nil => rfl
  | cons message rest ih =>
      rw [List.foldl_cons, ih fun other hother => h other (List.mem_cons_of_mem _ hother), hear]
      cases hcarried : message.carried with
      | none => rfl
      | some carried =>
          refine Function.update_of_ne ?_ _ _
          rintro rfl
          exact h message List.mem_cons_self carried.2 hcarried

/-- Messages that agree about a player decide what is known of it. -/
theorem foldl_hear_of_mem {pos : Position}
    (hagree : ∀ message ∈ messages, ∀ other, message.carried = some (id, other) → other = pos)
    (hmem : ∃ message ∈ messages, message.carried = some (id, pos)) :
    messages.foldl hear known id = some pos := by
  induction messages generalizing known with
  | nil => simp at hmem
  | cons message rest ih =>
      rw [List.foldl_cons]
      by_cases hrest : ∃ other ∈ rest, other.carried = some (id, pos)
      · exact ih (fun other hother => hagree other (List.mem_cons_of_mem _ hother)) hrest
      · rw [foldl_hear_of_none]
        · obtain ⟨carrier, hcarrier, hcarried⟩ := hmem
          rcases List.mem_cons.mp hcarrier with rfl | hin
          · rw [hear_of_carried hcarried, Function.update_self]
          · exact absurd ⟨carrier, hin, hcarried⟩ hrest
        · intro other hother there hcarried
          obtain rfl := hagree other (List.mem_cons_of_mem _ hother) there hcarried
          exact hrest ⟨other, hother, hcarried⟩

end Fold

/-- What the client on a link will know of the others, as the player of an id,
when it has handled everything that is on its way to it. -/
inductive Foresees (id : NetworkID) (link : Link) (known : NetworkID → Option Position) : Prop
  | awaitingConfiguration (ignored rest : List Message) (config : GameConfigMessage)
      (pos : Position)
      (hstage : link.client.stage = .waitForConnectionAndApplyGameConfiguration)
      (hdownlink : link.downlink.map Send.message =
        ignored ++ .gameConfig config :: .playerSpawn ⟨pos, id⟩ :: rest)
      (hignored : ∀ message ∈ ignored, ∀ other, message ≠ .gameConfig other)
      (hhears : Hears id (fun _ => none) rest known)
  | awaitingSpawn (config : GameConfigMessage) (rest : List Message) (pos : Position)
      (hstage : link.client.stage = .waitForPlayerSpawn config)
      (hdownlink : link.downlink.map Send.message = .playerSpawn ⟨pos, id⟩ :: rest)
      (hhears : Hears id (fun _ => none) rest known)
  | inGame (gamestate : ClientGamestate) (now : NetworkID → Option Position)
      (hstage : link.client.stage = .gameLoop gamestate)
      (hlocal : gamestate.localPlayer.networkID = id) (htracks : Tracks now gamestate)
      (hhears : Hears id now (link.downlink.map Send.message) known)

section Foresees

variable {id : NetworkID} {link next : Link} {known later : NetworkID → Option Position}

/-- What is sent is heard after everything that is on its way. -/
theorem Foresees.append (h : Foresees id link known) {messages : List Message}
    (hhears : Hears id known messages later) (hclient : next.client = link.client)
    (hdownlink : next.downlink.map Send.message =
      link.downlink.map Send.message ++ messages) : Foresees id next later := by
  cases h with
  | awaitingConfiguration ignored rest config pos hstage hold hignored hrest =>
      refine .awaitingConfiguration ignored (rest ++ messages) config pos (hclient ▸ hstage) ?_
        hignored (hears_append.mpr ⟨known, hrest, hhears⟩)
      rw [hdownlink, hold]
      simp
  | awaitingSpawn config rest pos hstage hold hrest =>
      refine .awaitingSpawn config (rest ++ messages) pos (hclient ▸ hstage) ?_
        (hears_append.mpr ⟨known, hrest, hhears⟩)
      rw [hdownlink, hold]
      simp
  | inGame gamestate now hstage hlocal htracks hold =>
      refine .inGame gamestate now (hclient ▸ hstage) hlocal htracks ?_
      rw [hdownlink]
      exact hears_append.mpr ⟨known, hold, hhears⟩

/-- Handling the first message on its way was foreseen. -/
theorem Foresees.receive (h : Foresees id link known) {send : Send}
    (hsend : link.downlink[0]? = some send) :
    Foresees id
      { link with
        client := link.client.receive manager serverAddress (.custom send.message)
        downlink := link.downlink.eraseIdx 0 } known := by
  obtain ⟨connected, client, uplink, downlink⟩ := link
  cases downlink with
  | nil => cases hsend
  | cons first sends =>
      obtain rfl := Option.some.inj hsend
      cases h with
      | awaitingConfiguration ignored rest config pos hstage hdownlink hignored hrest =>
          simp only [List.map_cons] at hstage hdownlink
          cases ignored with
          | nil =>
              obtain ⟨hfirst, hothers⟩ := List.cons_eq_cons.mp hdownlink
              refine .awaitingSpawn config rest pos ?_ hothers hrest
              simp only [Client.receive, hstage, hfirst, Client.receiveWaitingForConfiguration]
          | cons message ignored =>
              obtain ⟨rfl, hothers⟩ := List.cons_eq_cons.mp hdownlink
              refine .awaitingConfiguration ignored rest config pos ?_ hothers
                (fun other hother => hignored other (List.mem_cons_of_mem _ hother)) hrest
              exact Client.receive_stage_of_waiting hstage (hignored _ List.mem_cons_self)
      | awaitingSpawn config rest pos hstage hdownlink hrest =>
          simp only [List.map_cons] at hstage hdownlink
          obtain ⟨hfirst, hothers⟩ := List.cons_eq_cons.mp hdownlink
          refine .inGame (ClientGamestate.createLocalPlayer config id pos) (fun _ => none) ?_ rfl
            (tracks_createLocalPlayer config id pos) ?_
          · simp only [Client.receive, hstage, hfirst, Client.receiveWaitingForSpawn]
          · exact hothers ▸ hrest
      | inGame gamestate now hstage hlocal htracks hhears =>
          dsimp only at hstage
          obtain ⟨hadds, hrest⟩ := hhears
          rw [← hlocal] at hadds
          refine .inGame (handleCustomPacket manager gamestate client.correctionsTracker
              first.message).1 (hear now first.message) ?_
            ((handleCustomPacket_networkID _).trans hlocal) (htracks.handleCustomPacket hadds) hrest
          simp only [Client.receive, hstage, Client.receiveInGameLoop]

/-- A client's own turns do not touch what it knows of the others. -/
theorem Foresees.acts (h : Foresees id link known) {action : LinkAction}
    (hacts : link.Acts manager action next) (hconnected : next.connected = true)
    (hconnect : ∀ logCorrections, action ≠ .connect logCorrections)
    (hlose : ∀ index, action ≠ .loseMessage index)
    (horder : ∀ index, action = .receive index → index = 0) : Foresees id next known := by
  cases hacts with
  | connect => exact absurd rfl (hconnect _)
  | disconnect => cases hconnected
  | @receive index send _ hsend =>
      obtain rfl := horder index rfl
      exact h.receive hsend
  | @move draws gamestate newPos _ hgame hnear =>
      cases h with
      | awaitingConfiguration _ _ _ _ hstage => simp [hgame] at hstage
      | awaitingSpawn _ _ _ hstage => simp [hgame] at hstage
      | inGame before now hstage hlocal htracks hhears =>
          obtain rfl := ClientStage.gameLoop.inj (hgame.symm.trans hstage)
          exact .inGame _ now rfl hlocal ⟨htracks.distinct, htracks.listed⟩ hhears
  | endTurn _ hsame =>
      cases h with
      | awaitingConfiguration ignored rest config pos hstage hdownlink hignored hrest =>
          exact .awaitingConfiguration ignored rest config pos (hsame.trans hstage) hdownlink
            hignored hrest
      | awaitingSpawn config rest pos hstage hdownlink hrest =>
          exact .awaitingSpawn config rest pos (hsame.trans hstage) hdownlink hrest
      | inGame gamestate now hstage hlocal htracks hhears =>
          exact .inGame gamestate now (hsame.trans hstage) hlocal htracks hhears
  | loseMove =>
      have hnothing : Hears id known [] known := rfl
      exact h.append hnothing rfl (List.append_nil _).symm
  | loseMessage => exact absurd rfl (hlose _)

end Foresees

variable (manager) in
/-- The client when it has handled everything that is on its way to it. -/
def Link.settled (link : Link) : Client :=
  link.downlink.foldl (fun client send =>
    client.receive manager serverAddress (.custom send.message)) link.client

variable (manager) in
/-- The players that the client on a link has been told of: those that it lists,
or will list. -/
def Link.told (link : Link) : List NetworkID :=
  match (link.settled manager).stage with
  | .gameLoop gamestate => gamestate.remotePlayerPositions.map Prod.fst
  | _ => []

/-- When everything was handled, what was foreseen is known. -/
theorem Foresees.settled {id : NetworkID} {link : Link} {known : NetworkID → Option Position}
    (h : Foresees id link known) :
    Foresees id { link with client := link.settled manager, downlink := [] } known := by
  obtain ⟨connected, client, uplink, downlink⟩ := link
  induction downlink generalizing client with
  | nil => exact h
  | cons send sends ih => exact ih _ (h.receive rfl)

theorem Foresees.mem_told_iff {id : NetworkID} {link : Link}
    {known : NetworkID → Option Position} (h : Foresees id link known) {other : NetworkID} :
    other ∈ link.told manager ↔ other ≠ id ∧ known other ≠ none := by
  have hsettled : Foresees id ⟨link.connected, link.settled manager, link.uplink, []⟩ known :=
    h.settled
  cases hsettled with
  | awaitingConfiguration ignored rest _ _ _ hdownlink => simp at hdownlink
  | awaitingSpawn _ rest _ _ hdownlink => simp at hdownlink
  | inGame gamestate now hstage hlocal htracks hhears =>
      obtain rfl : now = known := hhears
      replace hstage : (link.settled manager).stage = .gameLoop gamestate := hstage
      simp only [Link.told, hstage, List.mem_map, Prod.exists, exists_and_right, exists_eq_right,
        htracks.listed, hlocal, exists_and_left, Option.ne_none_iff_exists']

end LibBench.RakNet
