/-
# RakNet: the client's list of remote players

Two handlers add remote players to a client. A position message looks the id up
and updates the object it finds; a join message adds an entry without looking.
This module says what each of them does to a list with one entry per id, and
settles when the list stays one: exactly as long as every join of a remote
player is the first message about that player, and the reserved id is not used
twice.

The list only grows, so an id that has two entries keeps them for ever. That is
what makes the condition necessary and not only sufficient.
-/

import LibBench.Math.KeyedFold
import LibBench.Math.KeyedList
import LibBench.RakNet.Client

namespace LibBench.RakNet

open LibBench.Math

variable (manager : NetworkIDManager)

/-- No id is tracked twice: one entry per remote id, and none under the local
player's id. -/
def ClientGamestate.Distinct (gamestate : ClientGamestate) : Prop :=
  gamestate.objectIDs.Nodup

variable {manager}

/-- The local player's id finds the local player, if it is not listed as a
remote one. -/
theorem NetworkIDManager.getObjectFromID_local {gamestate : ClientGamestate}
    (hnotLocal : gamestate.localPlayer.networkID ∉ gamestate.remotePlayerPositions.map Prod.fst)
    (hassigned : gamestate.localPlayer.networkID ≠ unassignedNetworkID) :
    manager.getObjectFromID gamestate.objectIDs gamestate.localPlayer.networkID = some 0 := by
  cases hlookup : manager.getObjectFromID gamestate.objectIDs
      gamestate.localPlayer.networkID with
  | none => exact absurd List.mem_cons_self (manager.not_mem_of_getObjectFromID hassigned hlookup)
  | some object =>
      have hobject := manager.getElem?_of_getObjectFromID hlookup
      cases object with
      | zero => rfl
      | succ entry =>
          have hentry : (gamestate.remotePlayerPositions.map Prod.fst)[entry]? =
              some gamestate.localPlayer.networkID := hobject
          exact absurd (List.mem_of_getElem? hentry) hnotLocal

/-- A remote id that is found is found at its entry. -/
theorem NetworkIDManager.getObjectFromID_remote {gamestate : ClientGamestate}
    {id : NetworkID} {object : ℕ} (hremote : id ≠ gamestate.localPlayer.networkID)
    (hlookup : manager.getObjectFromID gamestate.objectIDs id = some object) :
    ∃ entry, object = entry + 1 ∧
      (gamestate.remotePlayerPositions.map Prod.fst)[entry]? = some id := by
  have hobject := manager.getElem?_of_getObjectFromID hlookup
  cases object with
  | zero => exact absurd (Option.some.inj hobject).symm hremote
  | succ entry => exact ⟨entry, rfl, hobject⟩

section Handlers

variable {gamestate : ClientGamestate} {tracker : Option CorrectionsTracker}

/-- About the local player, a position message overwrites its position. -/
theorem handlePlayerPositionUpdate_local (manager : NetworkIDManager)
    (tracker : Option CorrectionsTracker)
    (hnotLocal : gamestate.localPlayer.networkID ∉ gamestate.remotePlayerPositions.map Prod.fst)
    (hassigned : gamestate.localPlayer.networkID ≠ unassignedNetworkID) (newPos : Position) :
    (handlePlayerPositionUpdate manager gamestate tracker
        gamestate.localPlayer.networkID newPos).1 =
      { gamestate with localPlayer := { gamestate.localPlayer with pos := newPos } } := by
  simp only [handlePlayerPositionUpdate, manager.getObjectFromID_local hnotLocal hassigned,
    ClientGamestate.setObjectPosition]

/-- About a remote player, it leaves the local player alone. -/
theorem handlePlayerPositionUpdate_localPlayer {id : NetworkID}
    (hremote : id ≠ gamestate.localPlayer.networkID) (newPos : Position) :
    (handlePlayerPositionUpdate manager gamestate tracker id newPos).1.localPlayer =
      gamestate.localPlayer := by
  rw [handlePlayerPositionUpdate]
  cases hlookup : manager.getObjectFromID gamestate.objectIDs id with
  | none => rfl
  | some object =>
      obtain ⟨entry, rfl, _⟩ := NetworkIDManager.getObjectFromID_remote hremote hlookup
      rfl

/-- The list of ids never shrinks under a position message about a remote
player, and the player is listed afterwards. -/
theorem handlePlayerPositionUpdate_ids (manager : NetworkIDManager)
    (tracker : Option CorrectionsTracker) {id : NetworkID}
    (hremote : id ≠ gamestate.localPlayer.networkID) (newPos : Position) :
    let ids := gamestate.remotePlayerPositions.map Prod.fst
    let updated := (handlePlayerPositionUpdate manager gamestate tracker id
      newPos).1.remotePlayerPositions.map Prod.fst
    (updated = ids ∧ id ∈ ids) ∨
      (updated = ids ++ [id] ∧ (id ≠ unassignedNetworkID → id ∉ ids)) := by
  rw [handlePlayerPositionUpdate]
  cases hlookup : manager.getObjectFromID gamestate.objectIDs id with
  | none =>
      refine Or.inr ⟨by simp [ClientGamestate.addRemotePlayer], fun hassigned hmem => ?_⟩
      exact manager.not_mem_of_getObjectFromID hassigned hlookup (List.mem_cons_of_mem _ hmem)
  | some object =>
      obtain ⟨entry, rfl, hentry⟩ := NetworkIDManager.getObjectFromID_remote hremote hlookup
      exact Or.inl ⟨map_fst_modify _ _ _, List.mem_of_getElem? hentry⟩

/-- A list with one entry per id has, after a position message about a remote
player, exactly the new position under that id. -/
theorem mem_handlePlayerPositionUpdate {id : NetworkID} (hdistinct : gamestate.Distinct)
    (hremote : id ≠ gamestate.localPlayer.networkID) (newPos : Position)
    (hlisted : id = unassignedNetworkID →
      id ∉ gamestate.remotePlayerPositions.map Prod.fst)
    {other : NetworkID} {pos : Position} :
    (other, pos) ∈ (handlePlayerPositionUpdate manager gamestate tracker id
        newPos).1.remotePlayerPositions ↔
      (other = id ∧ pos = newPos) ∨
        (other ≠ id ∧ (other, pos) ∈ gamestate.remotePlayerPositions) := by
  have hnodup : (gamestate.remotePlayerPositions.map Prod.fst).Nodup :=
    (List.nodup_cons.mp hdistinct).2
  rw [handlePlayerPositionUpdate]
  cases hlookup : manager.getObjectFromID gamestate.objectIDs id with
  | some object =>
      obtain ⟨entry, rfl, hentry⟩ := NetworkIDManager.getObjectFromID_remote hremote hlookup
      exact mem_modify_iff hnodup hentry
  | none =>
      have hnew : id ∉ gamestate.remotePlayerPositions.map Prod.fst := by
        by_cases hassigned : id = unassignedNetworkID
        · exact hlisted hassigned
        · exact fun hmem => manager.not_mem_of_getObjectFromID hassigned hlookup
            (List.mem_cons_of_mem _ hmem)
      simp only [ClientGamestate.addRemotePlayer, List.mem_append, List.mem_singleton,
        Prod.mk.injEq]
      constructor
      · rintro (hmem | hnewEntry)
        · refine Or.inr ⟨?_, hmem⟩
          rintro rfl
          exact hnew (List.mem_map_of_mem hmem)
        · exact Or.inl hnewEntry
      · rintro (hnewEntry | ⟨_, hmem⟩)
        · exact Or.inr hnewEntry
        · exact Or.inl hmem

/-- A message about somebody else leaves the local player alone. -/
theorem handleCustomPacket_localPlayer {message : Message}
    (h : ∀ position, message = .playerPosition position →
      position.playerID ≠ gamestate.localPlayer.networkID) :
    (handleCustomPacket manager gamestate tracker message).1.localPlayer =
      gamestate.localPlayer := by
  cases message with
  | playerJoin message =>
      simp only [handleCustomPacket]
      split <;> rfl
  | playerPosition message => exact handlePlayerPositionUpdate_localPlayer (h message rfl) _
  | gameConfig | playerSpawn | playerLeave | playerMove => rfl

/-- However the messages arrive, the local player is never listed as a remote
one. -/
theorem handleCustomPacket_notLocal
    (hnotLocal : gamestate.localPlayer.networkID ∉ gamestate.remotePlayerPositions.map Prod.fst)
    (hassigned : gamestate.localPlayer.networkID ≠ unassignedNetworkID) (message : Message) :
    gamestate.localPlayer.networkID ∉
      (handleCustomPacket manager gamestate tracker message).1.remotePlayerPositions.map
        Prod.fst := by
  cases message with
  | playerJoin message =>
      simp only [handleCustomPacket]
      split
      · next hremote =>
          simpa [ClientGamestate.addRemotePlayer, Ne.symm hremote] using hnotLocal
      · exact hnotLocal
  | playerPosition message =>
      simp only [handleCustomPacket]
      by_cases hremote : message.playerID = gamestate.localPlayer.networkID
      · rw [hremote, handlePlayerPositionUpdate_local manager tracker hnotLocal hassigned]
        exact hnotLocal
      · rcases handlePlayerPositionUpdate_ids manager tracker hremote message.currentPos with
          ⟨hids, _⟩ | ⟨hids, _⟩
        · rw [hids]
          exact hnotLocal
        · rw [hids, List.mem_append, List.mem_singleton, not_or]
          exact ⟨hnotLocal, Ne.symm hremote⟩
  | gameConfig | playerSpawn | playerLeave | playerMove => exact hnotLocal

theorem ClientGamestate.Distinct.handlePlayerPositionUpdate {id : NetworkID}
    (hdistinct : gamestate.Distinct) (hremote : id ≠ gamestate.localPlayer.networkID)
    (newPos : Position)
    (hlisted : id = unassignedNetworkID →
      id ∉ gamestate.remotePlayerPositions.map Prod.fst) :
    (handlePlayerPositionUpdate manager gamestate tracker id newPos).1.Distinct := by
  unfold ClientGamestate.Distinct ClientGamestate.objectIDs at hdistinct ⊢
  rw [handlePlayerPositionUpdate_localPlayer hremote]
  rcases handlePlayerPositionUpdate_ids manager tracker hremote newPos with ⟨hids, _⟩ | ⟨hids, hnew⟩
  · rw [hids]
    exact hdistinct
  · have hnotListed : id ∉ gamestate.remotePlayerPositions.map Prod.fst := by
      by_cases hassigned : id = unassignedNetworkID
      · exact hlisted hassigned
      · exact hnew hassigned
    rw [hids, ← List.cons_append, List.nodup_append]
    refine ⟨hdistinct, List.nodup_singleton _, fun listed hmem added hadded => ?_⟩
    rw [List.mem_singleton.mp hadded]
    rcases List.mem_cons.mp hmem with rfl | hmem
    · exact hremote.symm
    · rintro rfl
      exact hnotListed hmem

theorem ClientGamestate.Distinct.addRemotePlayer {id : NetworkID}
    (hdistinct : gamestate.Distinct) (hnew : id ∉ gamestate.objectIDs) (pos : Position) :
    (gamestate.addRemotePlayer id pos).Distinct := by
  unfold ClientGamestate.Distinct ClientGamestate.objectIDs at hdistinct ⊢
  simp only [ClientGamestate.addRemotePlayer, List.map_append, List.map_cons, List.map_nil,
    ← List.cons_append]
  rw [List.nodup_append]
  refine ⟨hdistinct, List.nodup_singleton _, fun listed hmem added hadded => ?_⟩
  rw [List.mem_singleton.mp hadded]
  rintro rfl
  exact hnew hmem

end Handlers

/-- The player and the position that a message tells a client about. -/
def Message.carried : Message → Option (NetworkID × Position)
  | .playerJoin message => some (message.playerID, message.spawnPoint)
  | .playerPosition message => some (message.playerID, message.currentPos)
  | _ => none

/-- What is known of each player's position after one more message. -/
def hear (known : NetworkID → Option Position) (message : Message) :
    NetworkID → Option Position :=
  match message.carried with
  | some (id, pos) => Function.update known id (some pos)
  | none => known

/-- The position that the last of the messages about a player carries. -/
def lastCarried (messages : List Message) (id : NetworkID) : Option Position :=
  (ownUpdates id (messages.filterMap Message.carried)).getLast?

/-- A message that adds an entry without finding one is about a player that
nothing is known of. Two kinds add entries so: a join of a remote player never
looks, and a position under the reserved id never finds. -/
def AddsNoDuplicate (localID : NetworkID) (known : NetworkID → Option Position) :
    Message → Prop
  | .playerJoin message => message.playerID ≠ localID → known message.playerID = none
  | .playerPosition message =>
      message.playerID = unassignedNetworkID →
        message.playerID ≠ localID ∧ known message.playerID = none
  | _ => True

/-- The list of remote players is what is known of them, with one entry each. -/
structure Tracks (known : NetworkID → Option Position) (gamestate : ClientGamestate) : Prop where
  distinct : gamestate.Distinct
  listed : ∀ id pos, (id, pos) ∈ gamestate.remotePlayerPositions ↔
    id ≠ gamestate.localPlayer.networkID ∧ known id = some pos

theorem hear_of_carried {known : NetworkID → Option Position} {message : Message}
    {id : NetworkID} {pos : Position} (h : message.carried = some (id, pos)) :
    hear known message = Function.update known id (some pos) := by
  rw [hear, h]

theorem lastCarried_concat (messages : List Message) (message : Message) :
    lastCarried (messages ++ [message]) = hear (lastCarried messages) message := by
  funext other
  rw [hear]
  cases hcarried : message.carried with
  | none => simp [lastCarried, List.filterMap_append, hcarried]
  | some carried =>
      by_cases hother : other = carried.1
      · subst hother
        simp [lastCarried, List.filterMap_append, hcarried, ownUpdates_cons]
      · simp [lastCarried, List.filterMap_append, hcarried, ownUpdates_cons, hother,
          Ne.symm hother]

section Messages

variable {known : NetworkID → Option Position} {gamestate : ClientGamestate}
  {tracker : Option CorrectionsTracker}

/-- A remote player that nothing is known of is not listed. -/
theorem Tracks.not_listed (h : Tracks known gamestate) {id : NetworkID}
    (hnone : known id = none) : id ∉ gamestate.remotePlayerPositions.map Prod.fst := by
  rw [List.mem_map]
  rintro ⟨⟨_, pos⟩, hmem, rfl⟩
  rw [((h.listed _ pos).mp hmem).2] at hnone
  cases hnone

/-- What is known after one more message, given what its handler does to the
list. -/
theorem Tracks.hear (h : Tracks known gamestate) {next : ClientGamestate}
    {message : Message} {id : NetworkID} {newPos : Position}
    (hcarried : message.carried = some (id, newPos)) (hdistinct : next.Distinct)
    (hlocal : next.localPlayer.networkID = gamestate.localPlayer.networkID)
    (hlisted : ∀ other pos, other ≠ gamestate.localPlayer.networkID →
      ((other, pos) ∈ next.remotePlayerPositions ↔
        (other = id ∧ pos = newPos) ∨
          (other ≠ id ∧ (other, pos) ∈ gamestate.remotePlayerPositions))) :
    Tracks (RakNet.hear known message) next where
  distinct := hdistinct
  listed other pos := by
    rw [hlocal]
    by_cases hother : other = gamestate.localPlayer.networkID
    · refine iff_of_false (fun hmem => ?_) fun hne => hne.1 hother
      apply (List.nodup_cons.mp hdistinct).1
      rw [hlocal, ← hother]
      exact List.mem_map_of_mem hmem
    · rw [hlisted other pos hother, h.listed, hear_of_carried hcarried]
      by_cases hid : other = id
      · subst hid
        simp [hother, eq_comm]
      · simp [hid, hother]

/-- One message preserves one entry per player, if it adds no duplicate. -/
theorem Tracks.handleCustomPacket (h : Tracks known gamestate) {message : Message}
    (hadds : AddsNoDuplicate gamestate.localPlayer.networkID known message) :
    Tracks (RakNet.hear known message)
      (handleCustomPacket manager gamestate tracker message).1 := by
  have hnotLocal := (List.nodup_cons.mp h.distinct).1
  cases message with
  | playerJoin message =>
      have hcarried : (Message.playerJoin message).carried =
          some (message.playerID, message.spawnPoint) := rfl
      by_cases hremote : message.playerID = gamestate.localPlayer.networkID
      · refine h.hear hcarried ?_ ?_ ?_
        all_goals simp only [RakNet.handleCustomPacket, hremote, ne_eq, not_true_eq_false,
          if_false]
        · exact h.distinct
        · rintro other pos hother
          simp [hother]
      · have hnew := h.not_listed (hadds hremote)
        have hadded := h.distinct.addRemotePlayer
          (List.not_mem_cons_of_ne_of_not_mem hremote hnew) message.spawnPoint
        refine h.hear hcarried ?_ ?_ ?_
        all_goals simp only [RakNet.handleCustomPacket, ne_eq, hremote, not_false_eq_true,
          if_true]
        · exact hadded
        · rfl
        · rintro other pos _
          simp only [ClientGamestate.addRemotePlayer, List.mem_append, List.mem_singleton,
            Prod.mk.injEq]
          constructor
          · rintro (hmem | hentry)
            · exact Or.inr ⟨fun heq => hnew (heq ▸ List.mem_map_of_mem hmem), hmem⟩
            · exact Or.inl hentry
          · rintro (hentry | ⟨_, hmem⟩)
            · exact Or.inr hentry
            · exact Or.inl hmem
  | playerPosition message =>
      have hcarried : (Message.playerPosition message).carried =
          some (message.playerID, message.currentPos) := rfl
      by_cases hremote : message.playerID = gamestate.localPlayer.networkID
      · have hassigned : gamestate.localPlayer.networkID ≠ unassignedNetworkID := fun heq =>
          (hadds (hremote.trans heq)).1 hremote
        have hhandled := handlePlayerPositionUpdate_local manager tracker hnotLocal hassigned
          message.currentPos
        refine h.hear hcarried ?_ ?_ ?_
        all_goals simp only [RakNet.handleCustomPacket, hremote, hhandled]
        · exact h.distinct
        · rintro other pos hother
          simp [hother]
      · have hlisted : message.playerID = unassignedNetworkID →
            message.playerID ∉ gamestate.remotePlayerPositions.map Prod.fst := fun heq =>
          h.not_listed (hadds heq).2
        refine h.hear hcarried ?_ ?_ ?_
        · exact h.distinct.handlePlayerPositionUpdate hremote _ hlisted
        · exact congrArg LocalPlayer.networkID (handlePlayerPositionUpdate_localPlayer hremote _)
        · exact fun other pos _ => mem_handlePlayerPositionUpdate h.distinct hremote _ hlisted
  | gameConfig | playerSpawn | playerLeave | playerMove => exact h

/-- A correction is counted when the position message moves a remote player that
is known by more than one space. -/
theorem Tracks.handlePlayerPositionUpdate_tracker (h : Tracks known gamestate) {id : NetworkID}
    (hremote : id ≠ gamestate.localPlayer.networkID) (hassigned : id ≠ unassignedNetworkID)
    (newPos : Position) :
    (handlePlayerPositionUpdate manager gamestate tracker id newPos).2 =
      if (known id).any fun pos => isCorrection pos newPos then
        tracker.map CorrectionsTracker.correctionMade
      else tracker := by
  rw [handlePlayerPositionUpdate]
  cases hlookup : manager.getObjectFromID gamestate.objectIDs id with
  | none =>
      have hunknown : known id = none := by
        by_contra hknown
        obtain ⟨pos, hpos⟩ := Option.ne_none_iff_exists'.mp hknown
        have hmem := List.mem_map_of_mem (f := Prod.fst) ((h.listed id pos).mpr ⟨hremote, hpos⟩)
        exact manager.not_mem_of_getObjectFromID hassigned hlookup (List.mem_cons_of_mem _ hmem)
      simp [hunknown]
  | some object =>
      obtain ⟨entry, rfl, hentry⟩ := NetworkIDManager.getObjectFromID_remote hremote hlookup
      obtain ⟨pos, hpos⟩ := getElem?_of_map_fst hentry
      have hknown := ((h.listed id pos).mp (List.mem_of_getElem? hpos)).2
      simp [ClientGamestate.objectPosition, hpos, hknown]

/-- The entries are only ever added at the end, and the ids of the objects
never change. -/
theorem handleCustomPacket_objectIDs (message : Message) :
    gamestate.objectIDs <+: (handleCustomPacket manager gamestate tracker message).1.objectIDs := by
  cases message with
  | playerJoin message =>
      simp only [handleCustomPacket]
      split
      · simp [ClientGamestate.objectIDs, ClientGamestate.addRemotePlayer]
      · exact List.prefix_rfl
  | playerPosition message =>
      simp only [handleCustomPacket, handlePlayerPositionUpdate]
      split
      · simp [ClientGamestate.objectIDs, ClientGamestate.addRemotePlayer]
      · next player _ =>
          cases player with
          | zero => exact List.prefix_rfl
          | succ entry =>
              simp only [ClientGamestate.objectIDs, ClientGamestate.setObjectPosition,
                map_fst_modify]
              exact List.prefix_rfl
  | gameConfig | playerSpawn | playerLeave | playerMove => exact List.prefix_rfl

theorem handleCustomPacket_networkID (message : Message) :
    (handleCustomPacket manager gamestate tracker message).1.localPlayer.networkID =
      gamestate.localPlayer.networkID :=
  (List.cons_prefix_cons.mp (handleCustomPacket_objectIDs message)).1.symm

/-- A message that would add a duplicate does add one. -/
theorem not_distinct_handleCustomPacket (h : Tracks known gamestate) {message : Message}
    (hadds : ¬ AddsNoDuplicate gamestate.localPlayer.networkID known message) :
    ¬ (handleCustomPacket manager gamestate tracker message).1.Distinct := by
  have hlisted {id : NetworkID} (hremote : id ≠ gamestate.localPlayer.networkID)
      (hknown : known id ≠ none) : id ∈ gamestate.objectIDs := by
    obtain ⟨pos, hpos⟩ := Option.ne_none_iff_exists'.mp hknown
    exact List.mem_cons_of_mem _ (List.mem_map_of_mem ((h.listed id pos).mpr ⟨hremote, hpos⟩))
  have hduplicate {id : NetworkID} (hmem : id ∈ gamestate.objectIDs) (pos : Position) :
      ¬ (gamestate.addRemotePlayer id pos).Distinct := fun hdistinct => by
    have hnodup : (gamestate.objectIDs ++ [id]).Nodup := by
      simpa [ClientGamestate.Distinct, ClientGamestate.objectIDs,
        ClientGamestate.addRemotePlayer] using hdistinct
    exact (List.nodup_append.mp hnodup).2.2 id hmem id List.mem_cons_self rfl
  cases message with
  | playerJoin message =>
      obtain ⟨hremote, hknown⟩ := Classical.not_imp.mp hadds
      simp only [handleCustomPacket, ne_eq, hremote, not_false_eq_true, if_true]
      exact hduplicate (hlisted hremote hknown) _
  | playerPosition message =>
      obtain ⟨hreserved, hknown⟩ := Classical.not_imp.mp hadds
      simp only [handleCustomPacket, handlePlayerPositionUpdate, hreserved,
        manager.getObjectFromID_unassigned]
      refine hduplicate ?_ _
      by_cases hremote : message.playerID = gamestate.localPlayer.networkID
      · rw [← hreserved, hremote]
        exact List.mem_cons_self
      · rw [← hreserved]
        exact hlisted hremote fun hnone => hknown ⟨hremote, hnone⟩
  | gameConfig | playerSpawn | playerLeave | playerMove => exact absurd trivial hadds

end Messages

section Sequences

variable (manager) in
/-- A sequence of packets in the game loop. -/
def handleCustomPackets (gamestate : ClientGamestate)
    (correctionsTracker : Option CorrectionsTracker) (messages : List Message) :
    ClientGamestate × Option CorrectionsTracker :=
  messages.foldl (fun handled message => handleCustomPacket manager handled.1 handled.2 message)
    (gamestate, correctionsTracker)

/-- One up-to-date entry per remote player. -/
structure UpToDate (messages : List Message) (gamestate : ClientGamestate) : Prop where
  atMostOne : (gamestate.remotePlayerPositions.map Prod.fst).Nodup
  notLocal : gamestate.localPlayer.networkID ∉ gamestate.remotePlayerPositions.map Prod.fst
  latest : ∀ id pos, (id, pos) ∈ gamestate.remotePlayerPositions →
    lastCarried messages id = some pos

variable {gamestate : ClientGamestate} {tracker : Option CorrectionsTracker}
  {messages : List Message}

theorem Tracks.upToDate (h : Tracks (lastCarried messages) gamestate) :
    UpToDate messages gamestate where
  atMostOne := (List.nodup_cons.mp h.distinct).2
  notLocal := (List.nodup_cons.mp h.distinct).1
  latest id pos hmem := ((h.listed id pos).mp hmem).2

theorem handleCustomPackets_concat (message : Message) :
    handleCustomPackets manager gamestate tracker (messages ++ [message]) =
      handleCustomPacket manager (handleCustomPackets manager gamestate tracker messages).1
        (handleCustomPackets manager gamestate tracker messages).2 message :=
  List.foldl_concat _ _ _ _

theorem handleCustomPackets_objectIDs {before : List Message} (hpre : before <+: messages) :
    (handleCustomPackets manager gamestate tracker before).1.objectIDs <+:
      (handleCustomPackets manager gamestate tracker messages).1.objectIDs := by
  obtain ⟨rest, rfl⟩ := hpre
  induction rest using List.reverseRecOn with
  | nil => simp only [List.append_nil, List.prefix_rfl]
  | append_singleton rest message ih =>
      rw [← List.append_assoc, handleCustomPackets_concat]
      exact ih.trans (handleCustomPacket_objectIDs message)

theorem handleCustomPackets_networkID (messages : List Message) :
    (handleCustomPackets manager gamestate tracker messages).1.localPlayer.networkID =
      gamestate.localPlayer.networkID := by
  have hnone : ([] : List Message) <+: messages := ⟨messages, rfl⟩
  have h : gamestate.objectIDs <+:
      (handleCustomPackets manager gamestate tracker messages).1.objectIDs :=
    handleCustomPackets_objectIDs hnone
  exact (List.cons_prefix_cons.mp h).1.symm

theorem tracks_createLocalPlayer (config : GameConfigMessage) (localID : NetworkID)
    (spawnPos : Position) :
    Tracks (fun _ => none) (ClientGamestate.createLocalPlayer config localID spawnPos) where
  distinct := List.nodup_singleton _
  listed id pos := by simp [ClientGamestate.createLocalPlayer]

/-- While no message adds a duplicate, the list is what the messages say. -/
theorem tracks_handleCustomPackets (manager : NetworkIDManager)
    (tracker : Option CorrectionsTracker) (hstart : Tracks (fun _ => none) gamestate)
    (messages : List Message)
    (hadds : ∀ before message, before ++ [message] <+: messages →
      AddsNoDuplicate gamestate.localPlayer.networkID (lastCarried before) message) :
    Tracks (lastCarried messages) (handleCustomPackets manager gamestate tracker messages).1 := by
  induction messages using List.reverseRecOn with
  | nil => exact hstart
  | append_singleton messages message ih =>
      have htracks := ih fun before other hpre =>
        hadds before other (hpre.trans (List.prefix_append _ _))
      rw [handleCustomPackets_concat, lastCarried_concat]
      apply htracks.handleCustomPacket
      rw [handleCustomPackets_networkID]
      exact hadds messages message List.prefix_rfl

end Sequences

/-- The list has one up-to-date entry per remote player after a sequence of
packets, if and only if no packet of the sequence adds a second one. -/
theorem upToDate_handleCustomPackets_iff (manager : NetworkIDManager)
    (config : GameConfigMessage) (localID : NetworkID) (spawnPos : Position)
    (tracker : Option CorrectionsTracker) (messages : List Message) :
    UpToDate messages (handleCustomPackets manager
        (ClientGamestate.createLocalPlayer config localID spawnPos) tracker messages).1 ↔
      ∀ before message, before ++ [message] <+: messages →
        AddsNoDuplicate localID (lastCarried before) message := by
  have hstart := tracks_createLocalPlayer config localID spawnPos
  constructor
  · intro huptodate before message hpre
    have hdistinct : (handleCustomPackets manager
        (ClientGamestate.createLocalPlayer config localID spawnPos) tracker
          messages).1.Distinct :=
      List.nodup_cons.mpr ⟨huptodate.notLocal, huptodate.atMostOne⟩
    -- below the first duplicate the list is tracked, and the duplicate stays
    induction hlength : before.length using Nat.strong_induction_on generalizing before message with
    | _ length ih =>
        have hearlierAdds (earlier : List Message) (other : Message)
            (hearlier : earlier ++ [other] <+: before) :
            AddsNoDuplicate localID (lastCarried earlier) other := by
          have hlt := hearlier.length_le
          rw [List.length_append, List.length_singleton, hlength] at hlt
          exact ih earlier.length hlt earlier other
            (hearlier.trans ((List.prefix_append _ _).trans hpre)) rfl
        have htracks := tracks_handleCustomPackets manager tracker hstart before hearlierAdds
        have hstill := (handleCustomPackets_objectIDs hpre).sublist.nodup hdistinct
        rw [handleCustomPackets_concat] at hstill
        by_contra hadds
        refine not_distinct_handleCustomPacket htracks ?_ hstill
        rw [handleCustomPackets_networkID]
        exact hadds
  · intro hadds
    exact (tracks_handleCustomPackets manager tracker hstart messages hadds).upToDate

/-- A position message overtakes the join of the same player, on its own
ordering channel: the player is listed twice. -/
theorem join_after_position_adds_duplicate :
    let messages := [Message.playerPosition ⟨5, ⟨3, 4⟩⟩, .playerJoin ⟨⟨3, 3⟩, 5⟩]
    ¬ UpToDate messages (handleCustomPackets firstRegistered
      (ClientGamestate.createLocalPlayer ⟨100, 100, 2⟩ 1 ⟨0, 0⟩) none messages).1 :=
  fun huptodate => absurd huptodate.atMostOne (by decide)

end LibBench.RakNet
