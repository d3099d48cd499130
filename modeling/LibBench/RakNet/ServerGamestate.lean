/-
# RakNet: the server's game state

`raknet/server/game/server_gamestate.cpp`: spawning, removing and updating
players.

A `Player*` of the server points to an object that is registered with the
`NetworkIDManager` from its creation to its deletion, under an id that never
changes and that no other live object has. The pointer is therefore modelled by
that id, and memory by the table of live objects: a lookup of an id that was
never registered, or whose object was deleted, is null. The table outlives the
map: an object whose address was already in `connectedPlayers` is created and
registered all the same, because `emplace` keeps the old entry.
-/

import Std.Data.TreeMap.Lemmas
import LibBench.Math.KeyedFold
import LibBench.RakNet.Messages

namespace LibBench.RakNet

open LibBench.Math

/-- A player object of the server. -/
structure Player where
  pos : Position
  broadcastLocationToSelf : Bool := false
  deriving DecidableEq, Repr

/-- `ServerGamestate`, with the objects its manager tracks. -/
structure ServerGamestate where
  mapWidth : UInt16
  mapHeight : UInt16
  numPlayers : UInt16
  objects : NetworkID → Option Player := fun _ => none
  connectedPlayers : Std.TreeMap SystemAddress NetworkID := ∅
  updatedPlayerPositions : List (NetworkID × Position) := []

/-- What a new player's creation takes from outside: the id the manager assigns
and the pairs of random numbers drawn for its position. -/
structure Admission where
  networkID : NetworkID
  draws : List (ℕ × ℕ)
  deriving DecidableEq, Repr

/-- The body of the update loop for one queued position. -/
def Player.receiveUpdate (currentPlayer : Player) (updatedPlayerPos : Position) : Player :=
  if Position.movedMoreThanOneSpace updatedPlayerPos currentPlayer.pos then
    { currentPlayer with broadcastLocationToSelf := true }
  else { currentPlayer with pos := updatedPlayerPos }

theorem Player.receiveUpdate_pos (player : Player) (offered : Position) :
    (player.receiveUpdate offered).pos = stepTo Position.OneSpace player.pos offered := by
  unfold Player.receiveUpdate
  cases h : Position.movedMoreThanOneSpace offered player.pos with
  | true => exact (stepTo_of_not_near (Position.movedMoreThanOneSpace_eq_true_iff.mp h)).symm
  | false => exact (stepTo_of_near (Position.movedMoreThanOneSpace_eq_false_iff.mp h)).symm

/-- Over a list of updates a player's position walks under the one-space
test. -/
theorem Player.foldl_receiveUpdate_pos (player : Player) (offers : List Position) :
    (offers.foldl Player.receiveUpdate player).pos =
      offers.foldl (stepTo Position.OneSpace) player.pos := by
  induction offers generalizing player with
  | nil => rfl
  | cons offered rest ih =>
      rw [List.foldl_cons, ih, Player.receiveUpdate_pos, List.foldl_cons]

/-- The flag is raised by a declined update and never cleared by the loop. -/
theorem Player.foldl_receiveUpdate_flag (player : Player) (offers : List Position) :
    (offers.foldl Player.receiveUpdate player).broadcastLocationToSelf =
      (player.broadcastLocationToSelf ||
        !(ignored Position.OneSpace player.pos offers).isEmpty) := by
  induction offers generalizing player with
  | nil => simp [ignored]
  | cons offered rest ih =>
      rw [List.foldl_cons, ih, Player.receiveUpdate, ignored]
      cases h : Position.movedMoreThanOneSpace offered player.pos with
      | true => simp [Position.movedMoreThanOneSpace_eq_true_iff.mp h]
      | false => simp [Position.movedMoreThanOneSpace_eq_false_iff.mp h]

namespace ServerGamestate

/-- `GET_OBJECT_FROM_ID<Player*>`. -/
def getObjectFromID (gamestate : ServerGamestate) (id : NetworkID) : Option Player :=
  gamestate.objects id

/-- The loop of `UpdatePlayerPositions`: an update whose lookup is null is
dereferenced all the same. -/
def updateLoop (objects : NetworkID → Option Player) :
    List (NetworkID × Position) → Except Stop (NetworkID → Option Player)
  | [] => .ok objects
  | updatedPlayerPos :: rest =>
      match objects updatedPlayerPos.1 with
      | none => .error .nullPlayer
      | some currentPlayer =>
          updateLoop
            (Function.update objects updatedPlayerPos.1
              (some (currentPlayer.receiveUpdate updatedPlayerPos.2))) rest

/-- `UpdatePlayerPositions`: apply the queued positions and clear the queue. -/
def updatePlayerPositions (gamestate : ServerGamestate) : Except Stop ServerGamestate :=
  match updateLoop gamestate.objects gamestate.updatedPlayerPositions with
  | .ok objects => .ok { gamestate with objects, updatedPlayerPositions := [] }
  | .error stop => .error stop

theorem updateLoop_eq_ok_iff {objects updated : NetworkID → Option Player}
    {queue : List (NetworkID × Position)} :
    updateLoop objects queue = .ok updated ↔
      (∀ update ∈ queue, (objects update.1).isSome) ∧
        updated = queue.foldl (applyUpdate Player.receiveUpdate) objects := by
  induction queue generalizing objects with
  | nil =>
      simp only [updateLoop, Except.ok.injEq, List.not_mem_nil, false_imp_iff, implies_true,
        List.foldl_nil, true_and]
      exact eq_comm
  | cons update rest ih =>
      rw [updateLoop]
      cases h : objects update.1 with
      | none => simp [h]
      | some currentPlayer =>
          have hnext : Function.update objects update.1
              (some (currentPlayer.receiveUpdate update.2)) =
              applyUpdate Player.receiveUpdate objects update := by
            rw [applyUpdate, h, Option.map_some]
          have hsome (id : NetworkID) :
              (applyUpdate Player.receiveUpdate objects update id).isSome =
                (objects id).isSome := by
            rw [applyUpdate_apply]
            split <;> simp
          have hhead : (objects update.1).isSome := by
            rw [h]
            rfl
          simp only [hnext, ih, hsome, List.forall_mem_cons, hhead, true_and, List.foldl_cons]

/-- The loop either applies the whole queue or dereferences a null player. -/
theorem updateLoop_eq_error_iff {objects : NetworkID → Option Player}
    {queue : List (NetworkID × Position)} {stop : Stop} :
    updateLoop objects queue = .error stop ↔
      stop = .nullPlayer ∧ ∃ update ∈ queue, objects update.1 = none := by
  induction queue generalizing objects with
  | nil => simp [updateLoop]
  | cons update rest ih =>
      rw [updateLoop]
      cases h : objects update.1 with
      | none => simp [h, eq_comm]
      | some currentPlayer =>
          have hnone (id : NetworkID) :
              Function.update objects update.1
                  (some (currentPlayer.receiveUpdate update.2)) id = none ↔
                objects id = none := by
            by_cases hid : id = update.1
            · subst hid
              simp [h]
            · rw [Function.update_of_ne hid]
          simp only [ih, hnone, List.mem_cons, exists_eq_or_imp, h, reduceCtorEq, false_or]

theorem updatePlayerPositions_eq_ok_iff {gamestate updated : ServerGamestate} :
    gamestate.updatePlayerPositions = .ok updated ↔
      (∀ update ∈ gamestate.updatedPlayerPositions, (gamestate.objects update.1).isSome) ∧
        updated = { gamestate with
          objects := gamestate.updatedPlayerPositions.foldl
            (applyUpdate Player.receiveUpdate) gamestate.objects
          updatedPlayerPositions := [] } := by
  rw [updatePlayerPositions]
  cases h : updateLoop gamestate.objects gamestate.updatedPlayerPositions with
  | ok objects =>
      obtain ⟨hlive, rfl⟩ := updateLoop_eq_ok_iff.mp h
      simp only [Except.ok.injEq]
      exact ⟨fun heq => ⟨hlive, heq.symm⟩, fun heq => heq.2.symm⟩
  | error stop =>
      obtain ⟨_, update, hmem, hnone⟩ := updateLoop_eq_error_iff.mp h
      simp only [reduceCtorEq, false_iff, not_and]
      intro hlive
      have := hlive update hmem
      simp [hnone] at this

/-- The only fault of the update is a queued id whose lookup is null. -/
theorem updatePlayerPositions_eq_nullPlayer_iff {gamestate : ServerGamestate} :
    gamestate.updatePlayerPositions = .error .nullPlayer ↔
      ∃ update ∈ gamestate.updatedPlayerPositions, gamestate.getObjectFromID update.1 = none := by
  rw [updatePlayerPositions]
  cases h : updateLoop gamestate.objects gamestate.updatedPlayerPositions with
  | ok objects =>
      obtain ⟨hlive, _⟩ := updateLoop_eq_ok_iff.mp h
      simp only [reduceCtorEq, false_iff, not_exists, not_and]
      intro update hmem hnone
      have := hlive update hmem
      simp [getObjectFromID] at hnone
      simp [hnone] at this
  | error stop =>
      obtain ⟨rfl, hnull⟩ := updateLoop_eq_error_iff.mp h
      simpa [getObjectFromID] using hnull

/-- The state in which the update loop has applied the given updates. -/
def midway (gamestate : ServerGamestate) (applied : List (NetworkID × Position)) :
    ServerGamestate :=
  { gamestate with objects := applied.foldl (applyUpdate Player.receiveUpdate) gamestate.objects }

theorem midway_objects (gamestate : ServerGamestate) (applied : List (NetworkID × Position))
    (id : NetworkID) :
    (gamestate.midway applied).objects id = (gamestate.objects id).map fun player =>
      (ownUpdates id applied).foldl Player.receiveUpdate player :=
  foldl_applyUpdate_apply ..

/-- Whether a connected player stands on the position: the scan of
`connectedPlayers` in the spawn loop. -/
def positionAlreadyOccupied (gamestate : ServerGamestate) (randomPos : Position) : Bool :=
  gamestate.connectedPlayers.toList.any fun connectedPlayer =>
    (gamestate.objects connectedPlayer.2).any fun player => player.pos == randomPos

/-- The spawn loop: draw positions until one is not occupied. -/
def findSpawnPosition (gamestate : ServerGamestate) : List (ℕ × ℕ) → Except Stop Position
  | [] => .error .drawsExhausted
  | draw :: draws =>
      if gamestate.mapWidth = 0 ∨ gamestate.mapHeight = 0 then .error .moduloByZero
      else
        let randomPos : Position :=
          ⟨UInt16.ofNat (draw.1 % gamestate.mapWidth.toNat),
            UInt16.ofNat (draw.2 % gamestate.mapHeight.toNat)⟩
        if gamestate.positionAlreadyOccupied randomPos then gamestate.findSpawnPosition draws
        else .ok randomPos

/-- Create the connected player object and add it to the game state. The object
is registered under its id even when `emplace` finds an entry for the address. -/
def addPlayer (gamestate : ServerGamestate) (clientAddress : SystemAddress)
    (networkID : NetworkID) (pos : Position) : ServerGamestate :=
  { gamestate with
    objects := Function.update gamestate.objects networkID (some { pos })
    connectedPlayers := gamestate.connectedPlayers.insertIfNew clientAddress networkID }

/-- `CreateAndSpawnNewPlayerForClient`. The manager assigns the new object an
id that no live object has. -/
def createAndSpawnNewPlayerForClient (gamestate : ServerGamestate)
    (clientAddress : SystemAddress) (admission : Admission) : Except Stop ServerGamestate :=
  match gamestate.findSpawnPosition admission.draws with
  | .error stop => .error stop
  | .ok randomPos =>
      if (gamestate.objects admission.networkID).isSome ∨
          admission.networkID = unassignedNetworkID then .error .notEnabled
      else .ok (gamestate.addPlayer clientAddress admission.networkID randomPos)

/-- `RemovePlayer`: delete the player of an address and erase its entry. -/
def removePlayer (gamestate : ServerGamestate) (clientAddress : SystemAddress) : ServerGamestate :=
  match gamestate.connectedPlayers[clientAddress]? with
  | none => gamestate
  | some player =>
      { gamestate with
        objects := Function.update gamestate.objects player none
        connectedPlayers := gamestate.connectedPlayers.erase clientAddress }

theorem positionAlreadyOccupied_eq_true_iff {gamestate : ServerGamestate} {pos : Position} :
    gamestate.positionAlreadyOccupied pos = true ↔
      ∃ (address : SystemAddress) (id : NetworkID) (player : Player),
        gamestate.connectedPlayers[address]? = some id ∧
          gamestate.objects id = some player ∧ player.pos = pos := by
  simp only [positionAlreadyOccupied, List.any_eq_true, Prod.exists,
    Std.TreeMap.mem_toList_iff_getElem?_eq_some, Option.any_eq_true, beq_iff_eq]
  constructor
  · rintro ⟨address, id, hconnected, player, hplayer, hpos⟩
    exact ⟨address, id, player, hconnected, hplayer, hpos⟩
  · rintro ⟨address, id, player, hconnected, hplayer, hpos⟩
    exact ⟨address, id, hconnected, player, hplayer, hpos⟩

/-- A found position is not occupied. -/
theorem findSpawnPosition_free {gamestate : ServerGamestate} {draws : List (ℕ × ℕ)}
    {pos : Position} (h : gamestate.findSpawnPosition draws = .ok pos) :
    gamestate.positionAlreadyOccupied pos = false := by
  induction draws with
  | nil => cases h
  | cons draw draws ih =>
      rw [findSpawnPosition] at h
      split at h
      · cases h
      · dsimp only at h
        split at h
        · exact ih h
        · next hfree =>
            obtain rfl := Except.ok.inj h
            exact Bool.not_eq_true _ ▸ hfree

theorem createAndSpawnNewPlayerForClient_eq_ok {gamestate created : ServerGamestate}
    {clientAddress : SystemAddress} {admission : Admission}
    (h : gamestate.createAndSpawnNewPlayerForClient clientAddress admission = .ok created) :
    ∃ randomPos, gamestate.positionAlreadyOccupied randomPos = false ∧
      gamestate.objects admission.networkID = none ∧
      admission.networkID ≠ unassignedNetworkID ∧
      created = gamestate.addPlayer clientAddress admission.networkID randomPos := by
  rw [createAndSpawnNewPlayerForClient] at h
  cases hpos : gamestate.findSpawnPosition admission.draws with
  | error stop => simp [hpos] at h
  | ok randomPos =>
      simp only [hpos] at h
      split at h
      · cases h
      · next hfresh =>
          simp only [not_or, Option.not_isSome_iff_eq_none] at hfresh
          exact ⟨randomPos, findSpawnPosition_free hpos, hfresh.1, hfresh.2,
            (Except.ok.inj h).symm⟩

section Entries

variable (gamestate : ServerGamestate) (clientAddress address : SystemAddress)
  (networkID id : NetworkID) (pos : Position)

/-- An entry that is already there is kept. -/
theorem addPlayer_getElem? :
    (gamestate.addPlayer clientAddress networkID pos).connectedPlayers[address]? =
      if address = clientAddress then
        some ((gamestate.connectedPlayers[clientAddress]?).getD networkID)
      else gamestate.connectedPlayers[address]? := by
  rw [addPlayer, Std.TreeMap.getElem?_insertIfNew]
  by_cases h : address = clientAddress
  · subst h
    by_cases hmem : address ∈ gamestate.connectedPlayers
    · simp [hmem]
    · simp [hmem]
  · simp [h, Ne.symm h]

theorem addPlayer_objects :
    (gamestate.addPlayer clientAddress networkID pos).objects id =
      if id = networkID then some { pos } else gamestate.objects id := by
  exact Function.update_apply ..

theorem removePlayer_getElem? :
    (gamestate.removePlayer clientAddress).connectedPlayers[address]? =
      if address = clientAddress then none else gamestate.connectedPlayers[address]? := by
  unfold removePlayer
  cases hplayer : gamestate.connectedPlayers[clientAddress]? with
  | none =>
      by_cases h : address = clientAddress
      · simp [h, hplayer]
      · simp [h]
  | some player =>
      dsimp only
      rw [Std.TreeMap.getElem?_erase]
      by_cases h : address = clientAddress
      · simp [h]
      · simp [h, Ne.symm h]

theorem removePlayer_objects :
    (gamestate.removePlayer clientAddress).objects id =
      if gamestate.connectedPlayers[clientAddress]? = some id then none
      else gamestate.objects id := by
  unfold removePlayer
  cases hplayer : gamestate.connectedPlayers[clientAddress]? with
  | none => simp
  | some player => simp [Function.update_apply, eq_comm]

theorem removePlayer_updatedPlayerPositions :
    (gamestate.removePlayer clientAddress).updatedPlayerPositions =
      gamestate.updatedPlayerPositions := by
  unfold removePlayer
  split <;> rfl

end Entries

/-! ## Well-formed states

The pointers in `connectedPlayers` are live and pairwise different. Every
operation keeps this, so that the dereferences of the spawn loop and of the
broadcast always read an object. -/

/-- The entries of `connectedPlayers` point to live objects, each to its own. -/
structure WellFormed (gamestate : ServerGamestate) : Prop where
  live : ∀ (address : SystemAddress) (id : NetworkID),
    gamestate.connectedPlayers[address]? = some id → (gamestate.objects id).isSome
  distinct : ∀ (first second : SystemAddress) (id : NetworkID),
    gamestate.connectedPlayers[first]? = some id →
      gamestate.connectedPlayers[second]? = some id → first = second

theorem WellFormed.of_objects_isSome {gamestate changed : ServerGamestate}
    (hwf : gamestate.WellFormed)
    (hconnected : changed.connectedPlayers = gamestate.connectedPlayers)
    (hobjects : ∀ id, (gamestate.objects id).isSome → (changed.objects id).isSome) :
    changed.WellFormed where
  live address id h := hobjects id (hwf.live address id (hconnected ▸ h))
  distinct first second id hfirst hsecond :=
    hwf.distinct first second id (hconnected ▸ hfirst) (hconnected ▸ hsecond)

theorem WellFormed.updatePlayerPositions {gamestate updated : ServerGamestate}
    (hwf : gamestate.WellFormed) (h : gamestate.updatePlayerPositions = .ok updated) :
    updated.WellFormed := by
  obtain ⟨_, rfl⟩ := updatePlayerPositions_eq_ok_iff.mp h
  exact hwf.of_objects_isSome rfl fun id hlive => by
    rw [foldl_applyUpdate_isSome]
    exact hlive

/-- After a player was added, an entry is an old one or the new player's. -/
theorem getElem?_of_addPlayer {gamestate : ServerGamestate} {clientAddress address : SystemAddress}
    {networkID id : NetworkID} {pos : Position}
    (h : (gamestate.addPlayer clientAddress networkID pos).connectedPlayers[address]? = some id) :
    gamestate.connectedPlayers[address]? = some id ∨
      (address = clientAddress ∧ id = networkID) := by
  rw [addPlayer_getElem?] at h
  split at h
  · next heq =>
      subst heq
      cases hold : gamestate.connectedPlayers[address]? with
      | none =>
          rw [hold, Option.getD_none, Option.some.injEq] at h
          exact Or.inr ⟨rfl, h.symm⟩
      | some old =>
          rw [hold, Option.getD_some] at h
          exact Or.inl h
  · exact Or.inl h

theorem WellFormed.ne_of_fresh {gamestate : ServerGamestate} (hwf : gamestate.WellFormed)
    {networkID id : NetworkID} (hfresh : gamestate.objects networkID = none)
    {address : SystemAddress} (h : gamestate.connectedPlayers[address]? = some id) :
    id ≠ networkID := by
  rintro rfl
  have := hwf.live address id h
  simp [hfresh] at this

theorem WellFormed.addPlayer {gamestate : ServerGamestate} (hwf : gamestate.WellFormed)
    {networkID : NetworkID} (hfresh : gamestate.objects networkID = none)
    (clientAddress : SystemAddress) (pos : Position) :
    (gamestate.addPlayer clientAddress networkID pos).WellFormed := by
  constructor
  · intro address id hconnected
    rw [addPlayer_objects]
    split
    · rfl
    · next hne =>
        rcases getElem?_of_addPlayer hconnected with hold | ⟨_, hid⟩
        · exact hwf.live address id hold
        · exact absurd hid hne
  · intro first second id hfirst hsecond
    rcases getElem?_of_addPlayer hfirst with hold | ⟨heq, hid⟩ <;>
      rcases getElem?_of_addPlayer hsecond with hold' | ⟨heq', hid'⟩
    · exact hwf.distinct first second id hold hold'
    · exact absurd hid' (hwf.ne_of_fresh hfresh hold)
    · exact absurd hid (hwf.ne_of_fresh hfresh hold')
    · exact heq.trans heq'.symm

theorem WellFormed.createAndSpawnNewPlayerForClient {gamestate created : ServerGamestate}
    (hwf : gamestate.WellFormed) {clientAddress : SystemAddress} {admission : Admission}
    (h : gamestate.createAndSpawnNewPlayerForClient clientAddress admission = .ok created) :
    created.WellFormed := by
  obtain ⟨randomPos, _, hfresh, _, rfl⟩ := createAndSpawnNewPlayerForClient_eq_ok h
  exact hwf.addPlayer hfresh clientAddress randomPos

theorem WellFormed.removePlayer {gamestate : ServerGamestate} (hwf : gamestate.WellFormed)
    (clientAddress : SystemAddress) : (gamestate.removePlayer clientAddress).WellFormed := by
  constructor
  · intro address id hconnected
    rw [removePlayer_getElem?] at hconnected
    split at hconnected
    · cases hconnected
    · next hne =>
        rw [removePlayer_objects, if_neg fun hid =>
          hne (hwf.distinct address clientAddress id hconnected hid)]
        exact hwf.live address id hconnected
  · intro first second id hfirst hsecond
    rw [removePlayer_getElem?] at hfirst hsecond
    split at hfirst
    · cases hfirst
    · split at hsecond
      · cases hsecond
      · exact hwf.distinct first second id hfirst hsecond

end ServerGamestate

end LibBench.RakNet
