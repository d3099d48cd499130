/-
# RakNet: room for a new player

The spawn loop draws cells until one is free. For that to be defined the map
must have cells, and for the loop to have an exit one of them must be free. The
size of the map and the number of clients come from the command line, which is
not checked: the three numbers are cut to 16 and 8 bits and used.

There is room for everybody exactly when the map has at least as many cells as
clients may be connected at once. That is so only as long as a session's end is
noticed: the player of a client that closes its connection gracefully stays, and
enough such clients fill any map.
-/

import Mathlib.Data.List.Nodup
import Mathlib.Data.List.Perm.Subperm
import Mathlib.Data.List.ProdSigma
import LibBench.RakNet.CommandLine
import LibBench.RakNet.MapBounds
import LibBench.RakNet.Roster

namespace LibBench.RakNet

open LibBench.Math

/-- The cells of the map, column by column. -/
def mapCells (mapWidth mapHeight : UInt16) : List Position :=
  (List.range mapWidth.toNat ×ˢ List.range mapHeight.toNat).map fun cell =>
    ⟨UInt16.ofNat cell.1, UInt16.ofNat cell.2⟩

section Cells

variable {mapWidth mapHeight : UInt16}

theorem length_mapCells :
    (mapCells mapWidth mapHeight).length = mapWidth.toNat * mapHeight.toNat := by
  rw [mapCells, List.length_map, List.length_product, List.length_range, List.length_range]

theorem nodup_mapCells : (mapCells mapWidth mapHeight).Nodup := by
  have hcoordinate {size : UInt16} {first second : ℕ} (hfirst : first < size.toNat)
      (hsecond : second < size.toNat) (h : UInt16.ofNat first = UInt16.ofNat second) :
      first = second := by
    rw [← UInt16.toNat_inj, UInt16.toNat_ofNat_of_lt' (hfirst.trans size.toNat_lt),
      UInt16.toNat_ofNat_of_lt' (hsecond.trans size.toNat_lt)] at h
    exact h
  apply (List.Nodup.product List.nodup_range List.nodup_range).map_on
  rintro ⟨x, y⟩ hcell ⟨x', y'⟩ hcell' heq
  rw [List.mem_product, List.mem_range, List.mem_range] at hcell hcell'
  obtain ⟨hx, hy⟩ := Position.mk.inj heq
  rw [hcoordinate hcell.1 hcell'.1 hx, hcoordinate hcell.2 hcell'.2 hy]

theorem mem_mapCells {pos : Position} :
    pos ∈ mapCells mapWidth mapHeight ↔ InMap mapWidth mapHeight pos := by
  have hcoordinate {size : UInt16} {coordinate : ℕ} (h : coordinate < size.toNat) :
      UInt16.ofNat coordinate < size := by
    rw [UInt16.lt_iff_toNat_lt, UInt16.toNat_ofNat_of_lt' (h.trans size.toNat_lt)]
    exact h
  simp only [mapCells, List.mem_map, Prod.exists, List.mem_product, List.mem_range, InMap]
  constructor
  · rintro ⟨x, y, ⟨hx, hy⟩, rfl⟩
    exact ⟨hcoordinate hx, hcoordinate hy⟩
  · rintro ⟨hx, hy⟩
    exact ⟨pos.x.toNat, pos.y.toNat, ⟨UInt16.lt_iff_toNat_lt.mp hx, UInt16.lt_iff_toNat_lt.mp hy⟩,
      by simp⟩

end Cells

namespace ServerGamestate

variable {gamestate : ServerGamestate}

/-- What the spawn loop needs: a map that has cells, and a cell that no connected
player stands on. -/
def CanSpawn (gamestate : ServerGamestate) : Prop :=
  gamestate.mapWidth ≠ 0 ∧ gamestate.mapHeight ≠ 0 ∧
    ∃ pos, InMap gamestate.mapWidth gamestate.mapHeight pos ∧
      gamestate.positionAlreadyOccupied pos = false

/-- That is exactly when some draws lead to a position. -/
theorem canSpawn_iff :
    gamestate.CanSpawn ↔ ∃ draws pos, gamestate.findSpawnPosition draws = .ok pos := by
  constructor
  · rintro ⟨hwidth, hheight, pos, hpos, hfree⟩
    refine ⟨[(pos.x.toNat, pos.y.toNat)], pos, ?_⟩
    have hx : pos.x.toNat % gamestate.mapWidth.toNat = pos.x.toNat :=
      Nat.mod_eq_of_lt (UInt16.lt_iff_toNat_lt.mp hpos.1)
    have hy : pos.y.toNat % gamestate.mapHeight.toNat = pos.y.toNat :=
      Nat.mod_eq_of_lt (UInt16.lt_iff_toNat_lt.mp hpos.2)
    have hmap : ¬ (gamestate.mapWidth = 0 ∨ gamestate.mapHeight = 0) :=
      not_or.mpr ⟨hwidth, hheight⟩
    simp [findSpawnPosition, hmap, hx, hy, hfree]
  · rintro ⟨draws, pos, hfound⟩
    refine ⟨?_, ?_, pos, findSpawnPosition_inMap hfound, findSpawnPosition_free hfound⟩
    · intro hzero
      have hpos := (findSpawnPosition_inMap hfound).1
      simp [hzero] at hpos
    · intro hzero
      have hpos := (findSpawnPosition_inMap hfound).2
      simp [hzero] at hpos

/-- The positions of the connected players. -/
def occupiedCells (gamestate : ServerGamestate) : List Position :=
  gamestate.connectedPlayers.toList.filterMap fun entry =>
    (gamestate.objects entry.2).map Player.pos

theorem mem_occupiedCells {pos : Position} :
    pos ∈ gamestate.occupiedCells ↔ gamestate.positionAlreadyOccupied pos = true := by
  simp only [occupiedCells, positionAlreadyOccupied, List.mem_filterMap, List.any_eq_true,
    Option.map_eq_some_iff, Option.any_eq_true, beq_iff_eq]

/-- Where there are more cells than players there is room for one more. -/
theorem canSpawn_of_lt
    (h : gamestate.connectedPlayers.size < gamestate.mapWidth.toNat * gamestate.mapHeight.toNat) :
    gamestate.CanSpawn := by
  have hpos : 0 < gamestate.mapWidth.toNat * gamestate.mapHeight.toNat := Nat.zero_lt_of_lt h
  refine ⟨?_, ?_, ?_⟩
  · intro hzero
    simp [hzero] at hpos
  · intro hzero
    simp [hzero] at hpos
  · by_contra hnone
    push Not at hnone
    have hsubset : mapCells gamestate.mapWidth gamestate.mapHeight ⊆ gamestate.occupiedCells :=
      fun pos hmem => mem_occupiedCells.mpr (by simpa using hnone pos (mem_mapCells.mp hmem))
    have hle := (nodup_mapCells.subperm hsubset).length_le
    have hoccupied : gamestate.occupiedCells.length ≤ gamestate.connectedPlayers.size := by
      rw [← Std.TreeMap.length_toList]
      exact List.length_filterMap_le _ _
    rw [length_mapCells] at hle
    omega

/-- The server program: the state it starts its loop in. -/
def startServer (config : Config) : ServerGamestate :=
  applyConfig config.mapWidth config.mapHeight config.playerCount.toUInt16

end ServerGamestate

/-- There are at most so many live sessions. -/
def Ledger.AtMost (ledger : Ledger) (count : ℕ) : Prop :=
  ∀ addresses : List SystemAddress, addresses.Nodup →
    (∀ address ∈ addresses, ledger address ≠ none) → addresses.length ≤ count

theorem Ledger.AtMost.of_lt {ledger : Ledger} {count : ℕ}
    (h : ∀ address, ledger address ≠ none → address < count) : ledger.AtMost count := by
  intro addresses hnodup hlive
  have hsubset : addresses ⊆ List.range count := fun address hmem =>
    List.mem_range.mpr (h address (hlive address hmem))
  have hle := (hnodup.subperm hsubset).length_le
  rwa [List.length_range] at hle

theorem Ledger.AtMost.of_eq {ledger : Ledger} {count : ℕ} (hcount : count ≠ 0)
    (only : SystemAddress) (h : ∀ address, ledger address ≠ none → address = only) :
    ledger.AtMost count := by
  intro addresses hnodup hlive
  have hsubset : addresses ⊆ [only] := fun address hmem =>
    List.mem_singleton.mpr (h address (hlive address hmem))
  have hle := (hnodup.subperm hsubset).length_le
  rw [List.length_singleton] at hle
  omega

/-- What the library lets happen: sessions are announced properly, and at no time
are there more of them than it was set up for. -/
structure Allowed (count : ℕ) (events : List ServerEvent) : Prop where
  announced : Announced events
  atMost : ∀ packets, packets <+: events → (Ledger.after packets).AtMost count

theorem Allowed.concat {count : ℕ} {events : List ServerEvent} {event : ServerEvent}
    (h : Allowed count events) (hadmits : (Ledger.after events).Admits event)
    (hatMost : (Ledger.after (events ++ [event])).AtMost count) :
    Allowed count (events ++ [event]) where
  announced := h.announced.concat hadmits
  atMost packets hpre := by
    rcases List.prefix_concat_iff.mp hpre with rfl | hbefore
    · exact hatMost
    · exact h.atMost packets hbefore

namespace ServerGamestate

/-- Whenever the server handles a new connection there is room for its player. -/
def AdmissionsDefined (config : Config) (events : List ServerEvent) : Prop :=
  ∀ packets address admission gamestate,
    packets ++ [.receive address (.library .newIncomingConnection) admission] <+: events →
    run step (startServer config) packets = .ok gamestate → gamestate.CanSpawn

variable {config : Config} {gamestate : ServerGamestate} {events : List ServerEvent}

theorem size_map_run (hrun : run step (startServer config) events = .ok gamestate) :
    gamestate.mapWidth = config.mapWidth ∧ gamestate.mapHeight = config.mapHeight :=
  mapSize_of_run hrun

/-- A map with a cell for everybody has room whenever a client connects. -/
theorem admissionsDefined_of_le
    (hle : config.playerCount.toNat ≤ config.mapWidth.toNat * config.mapHeight.toNat)
    (hallowed : Allowed config.playerCount.toNat events)
    (hclose : ∀ event ∈ events, ¬ event.IsGracefulClose) : AdmissionsDefined config events := by
  intro packets address admission gamestate hpre hrun
  obtain ⟨rest, rfl⟩ := hpre
  have hannounced : Announced packets :=
    (StepsMeet.append.mp (StepsMeet.append.mp hallowed.announced).1).1
  have hentry := roster_entry_of_run hannounced
    (.of_forall fun event hmem => hclose event (by simp [hmem])) hrun
  have hadmits : Ledger.after packets address = none :=
    hallowed.announced.admits (List.prefix_append _ rest)
  -- the new session and those that have an entry are live at once
  have hcount := hallowed.atMost _ (List.prefix_append _ rest)
    (address :: gamestate.connectedPlayers.keys) ?_ ?_
  · apply canSpawn_of_lt
    rw [(size_map_run hrun).1, (size_map_run hrun).2, ← Std.TreeMap.length_keys]
    rw [List.length_cons] at hcount
    omega
  · refine List.nodup_cons.mpr ⟨fun hmem => ?_, Std.TreeMap.nodup_keys⟩
    have hconnected := congrFun hentry address
    rw [hadmits] at hconnected
    exact absurd (Std.TreeMap.mem_keys.mp hmem) (by simpa [roster] using hconnected)
  · intro other hmem
    rw [Ledger.after, List.foldl_concat]
    show Function.update (Ledger.after packets) address (some admission.networkID) other ≠ none
    by_cases hother : other = address
    · simp [hother]
    · rw [Function.update_of_ne hother, ← congrFun hentry other]
      rcases List.mem_cons.mp hmem with rfl | hkey
      · exact absurd rfl hother
      · simpa [roster] using Std.TreeMap.mem_keys.mp hkey

/-! ## Filling the map

Clients with new addresses connect one after the other, and stay or close their
connections gracefully. As long as there is room for each, their players stand on
as many different cells. -/

/-- So many clients have connected, and every one of them has left a player on a
cell of its own. -/
structure Crowded (config : Config) (clients : ℕ) (gamestate : ServerGamestate) : Prop where
  newAddress : ∀ address : SystemAddress, clients ≤ address →
    gamestate.connectedPlayers[address]? = none
  newID : ∀ id : NetworkID, clients ≤ id.toNat → gamestate.objects id = none
  cells : ∃ cells : List Position, cells.Nodup ∧ cells.length = clients ∧
    ∀ pos ∈ cells, InMap config.mapWidth config.mapHeight pos ∧
      gamestate.positionAlreadyOccupied pos = true

/-- The cells of the map bound the number of such clients. -/
theorem Crowded.le {clients : ℕ} (h : Crowded config clients gamestate) :
    clients ≤ config.mapWidth.toNat * config.mapHeight.toNat := by
  obtain ⟨cells, hnodup, rfl, hcells⟩ := h.cells
  have hsubset : cells ⊆ mapCells config.mapWidth config.mapHeight := fun pos hmem =>
    mem_mapCells.mpr (hcells pos hmem).1
  rw [← length_mapCells]
  exact (hnodup.subperm hsubset).length_le

/-- A client that connects at a new address, under a new id. -/
theorem step_newIncomingConnection {address : SystemAddress} {admission : Admission}
    {pos : Position} (hfound : gamestate.findSpawnPosition admission.draws = .ok pos)
    (hfresh : gamestate.objects admission.networkID = none)
    (hassigned : admission.networkID ≠ unassignedNetworkID)
    (hnew : gamestate.connectedPlayers[address]? = none) :
    gamestate.step (.receive address (.library .newIncomingConnection) admission) =
      .ok (gamestate.addPlayer address admission.networkID pos) := by
  have hentry : (gamestate.addPlayer address admission.networkID pos).connectedPlayers[address]? =
      some admission.networkID := by
    rw [addPlayer_getElem?, if_pos rfl, hnew, Option.getD_none]
  have hplayer : (gamestate.addPlayer address admission.networkID pos).objects
      admission.networkID = some { pos } := by
    rw [addPlayer_objects, if_pos rfl]
  have hcreated : gamestate.createAndSpawnNewPlayerForClient address admission =
      .ok (gamestate.addPlayer address admission.networkID pos) := by
    simp [createAndSpawnNewPlayerForClient, hfound, hfresh, hassigned]
  simp only [step, handle, handleLibraryPacket, hcreated, sendPlayerSpawnAndIDToClient,
    broadcastNewPlayerJoinedMessage, hentry, hplayer]

/-- A new player stands where it spawned, and the others where they stood. -/
theorem positionAlreadyOccupied_addPlayer (hwf : gamestate.WellFormed) {address : SystemAddress}
    {networkID : NetworkID} {pos there : Position}
    (hnew : gamestate.connectedPlayers[address]? = none)
    (hfresh : gamestate.objects networkID = none)
    (h : there = pos ∨ gamestate.positionAlreadyOccupied there = true) :
    (gamestate.addPlayer address networkID pos).positionAlreadyOccupied there = true := by
  rw [positionAlreadyOccupied_eq_true_iff]
  rcases h with rfl | hoccupied
  · refine ⟨address, networkID, { pos := there }, ?_, ?_, rfl⟩
    · rw [addPlayer_getElem?, if_pos rfl, hnew, Option.getD_none]
    · rw [addPlayer_objects, if_pos rfl]
  · obtain ⟨other, id, player, hconnected, hplayer, hpos⟩ :=
      positionAlreadyOccupied_eq_true_iff.mp hoccupied
    have hother : other ≠ address := by
      rintro rfl
      rw [hnew] at hconnected
      cases hconnected
    refine ⟨other, id, player, ?_, ?_, hpos⟩
    · rw [addPlayer_getElem?, if_neg hother, hconnected]
    · rw [addPlayer_objects, if_neg (hwf.ne_of_fresh hfresh hconnected), hplayer]

theorem Crowded.addPlayer (hwf : gamestate.WellFormed) {clients : ℕ}
    (h : Crowded config clients gamestate) (hclients : clients < 2 ^ 64) {pos : Position}
    (hpos : InMap config.mapWidth config.mapHeight pos)
    (hfree : gamestate.positionAlreadyOccupied pos = false) :
    Crowded config (clients + 1) (gamestate.addPlayer clients (UInt64.ofNat clients) pos) where
  newAddress address hle := by
    have hne : address ≠ clients := Nat.ne_of_gt hle
    rw [addPlayer_getElem?, if_neg hne]
    exact h.newAddress address (Nat.le_of_succ_le hle)
  newID id hle := by
    have hne : id ≠ UInt64.ofNat clients := by
      rintro rfl
      rw [UInt64.toNat_ofNat_of_lt' hclients] at hle
      omega
    rw [addPlayer_objects, if_neg hne]
    exact h.newID id (by omega)
  cells := by
    obtain ⟨cells, hnodup, hlength, hcells⟩ := h.cells
    have hfresh : gamestate.objects (UInt64.ofNat clients) = none := by
      apply h.newID _
      rw [UInt64.toNat_ofNat_of_lt' hclients]
    have hnotMem : pos ∉ cells := by
      intro hmem
      rw [(hcells pos hmem).2] at hfree
      cases hfree
    refine ⟨pos :: cells, List.nodup_cons.mpr ⟨hnotMem, hnodup⟩, by simp [hlength], ?_⟩
    intro there hmem
    rcases List.mem_cons.mp hmem with rfl | hthere
    · exact ⟨hpos, positionAlreadyOccupied_addPlayer hwf (h.newAddress clients le_rfl) hfresh
        (Or.inl rfl)⟩
    · exact ⟨(hcells there hthere).1, positionAlreadyOccupied_addPlayer hwf
        (h.newAddress clients le_rfl) hfresh (Or.inr (hcells there hthere).2)⟩

/-- A run that leads to such a state. Sessions are left open, or all of them are
closed again. -/
structure Filled (config : Config) (graceful : Bool) (clients : ℕ) (events : List ServerEvent)
    (gamestate : ServerGamestate) : Prop where
  run : run step (startServer config) events = .ok gamestate
  allowed : Allowed config.playerCount.toNat events
  closes : graceful = false → ∀ event ∈ events, ¬ event.IsGracefulClose
  sessions : ∀ address, Ledger.after events address ≠ none → graceful = false ∧ address < clients
  crowded : Crowded config clients gamestate

theorem startServer_filled (config : Config) (graceful : Bool) :
    Filled config graceful 0 [] (startServer config) where
  run := rfl
  allowed :=
    { announced := trivial
      atMost := fun packets hpre => by
        obtain rfl := List.prefix_nil.mp hpre
        exact .of_lt fun address hlive => absurd rfl hlive }
  closes _ := nofun
  sessions address hlive := absurd rfl hlive
  crowded :=
    { newAddress := fun address _ => by simp [startServer, applyConfig]
      newID := fun _ _ => rfl
      cells := ⟨[], List.nodup_nil, rfl, nofun⟩ }

/-- The next client connects. -/
def nextClient (clients : ℕ) (draws : List (ℕ × ℕ)) : ServerEvent :=
  .receive clients (.library .newIncomingConnection) ⟨UInt64.ofNat clients, draws⟩

section NextClient

variable {graceful : Bool} {clients : ℕ}

theorem after_nextClient (events : List ServerEvent) (clients : ℕ) (draws : List (ℕ × ℕ)) :
    Ledger.after (events ++ [nextClient clients draws]) =
      Function.update (Ledger.after events) clients (some (UInt64.ofNat clients)) := by
  rw [Ledger.after, List.foldl_concat]
  rfl

/-- Its session is live next to those that have been left open. -/
theorem Filled.sessions_nextClient (h : Filled config graceful clients events gamestate)
    (draws : List (ℕ × ℕ)) {address : SystemAddress}
    (hlive : Ledger.after (events ++ [nextClient clients draws]) address ≠ none) :
    address = clients ∨ (graceful = false ∧ address < clients) := by
  rw [after_nextClient] at hlive
  by_cases heq : address = clients
  · exact Or.inl heq
  · rw [Function.update_of_ne heq] at hlive
    exact Or.inr (h.sessions address hlive)

theorem Filled.allowed_nextClient (h : Filled config graceful clients events gamestate)
    (hcount : config.playerCount.toNat ≠ 0)
    (hstays : graceful = false → clients < config.playerCount.toNat) (draws : List (ℕ × ℕ)) :
    Allowed config.playerCount.toNat (events ++ [nextClient clients draws]) := by
  have hadmits : (Ledger.after events).Admits (nextClient clients draws) := by
    by_contra hlive
    exact lt_irrefl _ (h.sessions clients hlive).2
  apply h.allowed.concat hadmits
  cases graceful with
  | true =>
      refine .of_eq hcount clients fun address hlive => ?_
      rcases h.sessions_nextClient draws hlive with heq | ⟨hfalse, _⟩
      · exact heq
      · cases hfalse
  | false =>
      refine .of_lt fun address hlive => ?_
      rcases h.sessions_nextClient draws hlive with rfl | ⟨_, hbefore⟩
      · exact hstays rfl
      · exact lt_trans hbefore (hstays rfl)

theorem Filled.closes_nextClient (h : Filled config graceful clients events gamestate)
    (hgraceful : graceful = false) (draws : List (ℕ × ℕ)) :
    ∀ event ∈ events ++ [nextClient clients draws], ¬ event.IsGracefulClose := by
  intro event hmem
  rcases List.mem_append.mp hmem with hbefore | hnew
  · exact h.closes hgraceful event hbefore
  · obtain rfl := List.mem_singleton.mp hnew
    exact not_false

/-- If the next client finds room, it connects, and possibly closes its connection
again. -/
theorem Filled.connect (h : Filled config graceful clients events gamestate)
    (hcount : config.playerCount.toNat ≠ 0)
    (hstays : graceful = false → clients < config.playerCount.toNat)
    (hclients : clients < 2 ^ 64 - 1) (hroom : gamestate.CanSpawn) :
    ∃ events gamestate, Filled config graceful (clients + 1) events gamestate := by
  obtain ⟨draws, pos, hfound⟩ := canSpawn_iff.mp hroom
  have hlt : clients < 2 ^ 64 := by omega
  have htoNat : (UInt64.ofNat clients).toNat = clients := UInt64.toNat_ofNat_of_lt' hlt
  have hassigned : UInt64.ofNat clients ≠ unassignedNetworkID := by
    intro heq
    have hmax : clients = 2 ^ 64 - 1 := htoNat.symm.trans (congrArg UInt64.toNat heq)
    omega
  have hfresh : gamestate.objects (UInt64.ofNat clients) = none :=
    h.crowded.newID _ htoNat.ge
  have hwf := (applyConfig_wellFormed _ _ _).run h.run
  have hpos := findSpawnPosition_inMap hfound
  rw [(size_map_run h.run).1, (size_map_run h.run).2] at hpos
  have hstep : gamestate.step (nextClient clients draws) =
      .ok (gamestate.addPlayer clients (UInt64.ofNat clients) pos) :=
    step_newIncomingConnection hfound hfresh hassigned (h.crowded.newAddress clients le_rfl)
  have hrun := run_concat_eq_ok.mpr ⟨gamestate, h.run, hstep⟩
  have hallowed := h.allowed_nextClient hcount hstays draws
  have hcrowded := h.crowded.addPlayer hwf hlt hpos (findSpawnPosition_free hfound)
  cases graceful with
  | false =>
      refine ⟨_, _, hrun, hallowed, fun _ => h.closes_nextClient rfl draws, ?_, hcrowded⟩
      intro address hlive
      rcases h.sessions_nextClient draws hlive with rfl | ⟨_, hbefore⟩
      · exact ⟨rfl, Nat.lt_succ_self _⟩
      · exact ⟨rfl, Nat.lt_succ_of_lt hbefore⟩
  | true =>
      -- with the connection closed again no session is live, and the player stays
      let close : ServerEvent := .receive clients (.library .disconnectionNotification) ⟨0, []⟩
      have hclosed (address : SystemAddress) :
          Ledger.after (events ++ [nextClient clients draws] ++ [close]) address = none := by
        rw [Ledger.after, List.foldl_concat]
        show Function.update (Ledger.after (events ++ [nextClient clients draws])) clients none
          address = none
        by_cases heq : address = clients
        · simp [heq]
        · rw [Function.update_of_ne heq]
          by_contra hlive
          rcases h.sessions_nextClient draws hlive with hsame | ⟨hfalse, _⟩
          · exact heq hsame
          · cases hfalse
      have hadmits : (Ledger.after (events ++ [nextClient clients draws])).Admits close := by
        show Ledger.after (events ++ [nextClient clients draws]) clients ≠ none
        simp [after_nextClient]
      refine ⟨_, _, run_concat_eq_ok.mpr ⟨_, hrun, rfl⟩, hallowed.concat hadmits ?_,
        fun hfalse => absurd hfalse (by decide),
        fun address hlive => absurd (hclosed address) hlive, hcrowded⟩
      exact .of_eq hcount clients fun address hlive => absurd (hclosed address) hlive

end NextClient

/-- If there is room in every run, clients can go on connecting. -/
theorem exists_filled {graceful : Bool} (hcount : config.playerCount.toNat ≠ 0) {limit : ℕ}
    (hlimit : limit < 2 ^ 64) (hstays : graceful = false → limit ≤ config.playerCount.toNat)
    (hdefined : ∀ events, Allowed config.playerCount.toNat events →
      (graceful = false → ∀ event ∈ events, ¬ event.IsGracefulClose) →
      AdmissionsDefined config events) :
    ∀ clients ≤ limit, ∃ events gamestate, Filled config graceful clients events gamestate := by
  intro clients
  induction clients with
  | zero => exact fun _ => ⟨[], _, startServer_filled config graceful⟩
  | succ clients ih =>
      intro hle
      obtain ⟨events, gamestate, h⟩ := ih (by omega)
      have hstaysHere (hgraceful : graceful = false) : clients < config.playerCount.toNat :=
        lt_of_lt_of_le hle (hstays hgraceful)
      have hroom := hdefined (events ++ [nextClient clients []])
        (h.allowed_nextClient hcount hstaysHere [])
        (fun hgraceful => h.closes_nextClient hgraceful [])
        events clients ⟨UInt64.ofNat clients, []⟩ gamestate List.prefix_rfl h.run
      exact h.connect hcount hstaysHere (by omega) hroom

/-- The map does not have room for one client more than it has cells. -/
theorem not_filled_of_cells_lt (config : Config) (graceful : Bool)
    (h : ∃ events gamestate, Filled config graceful
      (config.mapWidth.toNat * config.mapHeight.toNat + 1) events gamestate) : False := by
  obtain ⟨events, gamestate, hfilled⟩ := h
  have := hfilled.crowded.le
  omega

theorem cells_lt (config : Config) :
    config.mapWidth.toNat * config.mapHeight.toNat + 1 < 2 ^ 64 := by
  have hle : config.mapWidth.toNat * config.mapHeight.toNat ≤ 2 ^ 16 * 2 ^ 16 :=
    Nat.mul_le_mul config.mapWidth.toNat_lt.le config.mapHeight.toNat_lt.le
  omega

/-- Without graceful closes there is room in every run exactly when the map has a
cell for everybody. -/
theorem admissionsDefined_iff_le (config : Config) :
    (∀ events, Allowed config.playerCount.toNat events →
        (∀ event ∈ events, ¬ event.IsGracefulClose) → AdmissionsDefined config events) ↔
      config.playerCount.toNat ≤ config.mapWidth.toNat * config.mapHeight.toNat := by
  constructor
  · intro hdefined
    by_contra hlt
    rw [not_le] at hlt
    have hcount : config.playerCount.toNat ≠ 0 := by omega
    apply not_filled_of_cells_lt config false
    exact exists_filled hcount (cells_lt config) (fun _ => hlt)
      (fun events hallowed hclose => hdefined events hallowed (hclose rfl)) _ le_rfl
  · exact fun hle events hallowed hclose => admissionsDefined_of_le hle hallowed hclose

/-- With them there is room in every run only if nobody may connect. -/
theorem admissionsDefined_iff_eq_zero (config : Config) :
    (∀ events, Allowed config.playerCount.toNat events → AdmissionsDefined config events) ↔
      config.playerCount.toNat = 0 := by
  constructor
  · intro hdefined
    by_contra hcount
    have hclosed : true = false →
        config.mapWidth.toNat * config.mapHeight.toNat + 1 ≤ config.playerCount.toNat := nofun
    apply not_filled_of_cells_lt config true
    exact exists_filled hcount (cells_lt config) hclosed
      (fun events hallowed _ => hdefined events hallowed) _ le_rfl
  · intro hzero events hallowed packets address admission gamestate hpre hrun
    have hcount := hallowed.atMost _ hpre [address] (List.nodup_singleton _) ?_
    · rw [hzero] at hcount
      exact absurd hcount (by simp)
    · intro other hmem
      obtain rfl := List.mem_singleton.mp hmem
      rw [Ledger.after, List.foldl_concat]
      show Function.update (Ledger.after packets) other (some admission.networkID) other ≠ none
      simp

theorem toNat_ofInt_uint16 (number : ℤ) :
    ((UInt16.ofInt number).toNat : ℤ) = number % 2 ^ 16 := by
  have hlt : (number % 2 ^ 16).toNat < 2 ^ 16 := by omega
  rw [UInt16.ofInt, UInt16.toNat_ofNat_of_lt' hlt]
  omega

theorem toNat_ofInt_uint8 (number : ℤ) :
    ((UInt8.ofInt number).toNat : ℤ) = number % 2 ^ 8 := by
  have hlt : (number % 2 ^ 8).toNat < 2 ^ 8 := by omega
  rw [UInt8.ofInt, UInt8.toNat_ofNat_of_lt' hlt]
  omega

/-- **Room for every client.** As long as no connection is closed gracefully,
there is room whenever a client connects, in every run, if and only if the
numbers on the command line, cut to the sizes of their fields, make a map with a
cell for each client. With graceful closes there is only if nobody may connect. -/
theorem admissionsDefined_iff (currentPath : List Char) (options : List CommandLineOption) :
    let config := parseCommandLineArguments { correctionsLoggingDirectory := currentPath } options
    ((∀ events, Allowed config.playerCount.toNat events →
        (∀ event ∈ events, ¬ event.IsGracefulClose) → AdmissionsDefined config events) ↔
      lastNumber CommandLineOption.count 2 options % 2 ^ 8 ≤
        (lastNumber CommandLineOption.width 100 options % 2 ^ 16) *
          (lastNumber CommandLineOption.height 100 options % 2 ^ 16)) ∧
    ((∀ events, Allowed config.playerCount.toNat events → AdmissionsDefined config events) ↔
      lastNumber CommandLineOption.count 2 options % 2 ^ 8 = 0) := by
  intro config
  have hwidth := toNat_ofInt_uint16 (lastNumber CommandLineOption.width 100 options)
  have hheight := toNat_ofInt_uint16 (lastNumber CommandLineOption.height 100 options)
  have hcount := toNat_ofInt_uint8 (lastNumber CommandLineOption.count 2 options)
  rw [← mapWidth_parseCommandLineArguments currentPath] at hwidth
  rw [← mapHeight_parseCommandLineArguments currentPath] at hheight
  rw [← playerCount_parseCommandLineArguments currentPath] at hcount
  rw [admissionsDefined_iff_le, admissionsDefined_iff_eq_zero, ← hwidth, ← hheight, ← hcount]
  constructor
  · norm_cast
  · norm_cast

/-- A server that is started with `-w 0` divides by zero when the first client
connects. -/
theorem zero_width_divides_by_zero :
    let config := parseCommandLineArguments { correctionsLoggingDirectory := [] } [.w ['0']]
    let connect := nextClient 0 [(3, 4)]
    Allowed config.playerCount.toNat [connect] ∧ ¬ connect.IsGracefulClose ∧
      ¬ AdmissionsDefined config [connect] ∧
      run step (startServer config) [connect] = .error .moduloByZero := by
  intro config connect
  have hallowed := (startServer_filled config false).allowed_nextClient (by decide)
    (fun _ => by decide) [(3, 4)]
  refine ⟨hallowed, not_false, fun hdefined => ?_, rfl⟩
  exact (hdefined [] 0 ⟨0, [(3, 4)]⟩ (startServer config) List.prefix_rfl rfl).1 rfl

end ServerGamestate

end LibBench.RakNet
