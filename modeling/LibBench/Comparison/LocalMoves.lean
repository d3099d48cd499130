/-
# The moves of the two clients

The RakNet and the Yojimbo client choose their moves with the same code, each on
its own game state. What holds of it is shown once, for a program that has a
position, a map and positions of remote players to make a move by, and is then
read off for the two.

A finished choice is the first candidate drawn that no remote player is on. The
choice does not finish for a client that is boxed in. And it may leave the map:
the candidates reach the width and the height, which are no cells of the map
that the servers spawn on.
-/

import LibBench.Game.MoveLoop
import LibBench.RakNet.Client
import LibBench.RakNet.MapBounds
import LibBench.Yojimbo.Client

namespace LibBench

open LibBench.Math
open LibBench.RakNet (InMap)

/-- A client program, as far as it makes moves: its game state has a map, the
local player's position and the remote players, whom messages may change to
anything. A move chooses a cell and puts the local player there. -/
structure LocalMover (σ ρ : Type*) where
  mapWidth : σ → UInt16
  mapHeight : σ → UInt16
  localPos : σ → Position
  setLocalPos : σ → Position → σ
  remotePositions : σ → List Position
  setRemotePlayers : σ → ρ → σ
  performLocalMove : σ → List ℕ → Option (Position × σ)
  performLocalMove_eq : ∀ state draws, performLocalMove state draws =
    (chooseMove (mapWidth state) (mapHeight state) (localPos state) (remotePositions state)
      draws).map fun chosenMove => (chosenMove, setLocalPos state chosenMove)
  setLocalPos_localPos : ∀ state, setLocalPos state (localPos state) = state
  localPos_setLocalPos : ∀ state pos, localPos (setLocalPos state pos) = pos
  map_setLocalPos : ∀ state pos, mapWidth (setLocalPos state pos) = mapWidth state ∧
    mapHeight (setLocalPos state pos) = mapHeight state
  localPos_setRemotePlayers : ∀ state remotePlayers,
    localPos (setRemotePlayers state remotePlayers) = localPos state
  map_setRemotePlayers : ∀ state remotePlayers,
    mapWidth (setRemotePlayers state remotePlayers) = mapWidth state ∧
      mapHeight (setRemotePlayers state remotePlayers) = mapHeight state

/-- The RakNet client. -/
def rakNetClient : LocalMover RakNet.ClientGamestate (List (RakNet.NetworkID × Position)) where
  mapWidth gamestate := gamestate.mapWidth
  mapHeight gamestate := gamestate.mapHeight
  localPos gamestate := gamestate.localPlayer.pos
  setLocalPos gamestate pos :=
    { gamestate with localPlayer := { gamestate.localPlayer with pos } }
  remotePositions gamestate := gamestate.remotePlayerPositions.map Prod.snd
  setRemotePlayers gamestate remotePlayerPositions := { gamestate with remotePlayerPositions }
  performLocalMove := RakNet.ClientGamestate.performLocalMove
  performLocalMove_eq _ _ := rfl
  setLocalPos_localPos _ := rfl
  localPos_setLocalPos _ _ := rfl
  map_setLocalPos _ _ := ⟨rfl, rfl⟩
  localPos_setRemotePlayers _ _ := rfl
  map_setRemotePlayers _ _ := ⟨rfl, rfl⟩

/-- The Yojimbo client. -/
def yojimboClient :
    LocalMover Yojimbo.ClientGameState (Std.TreeMap Yojimbo.ClientID Position) where
  mapWidth gameState := gameState.mapWidth
  mapHeight gameState := gameState.mapHeight
  localPos gameState := gameState.localPlayer.pos
  setLocalPos gameState pos := { gameState with localPlayer := ⟨pos⟩ }
  remotePositions gameState := gameState.remotePlayerPositions.toList.map Prod.snd
  setRemotePlayers gameState remotePlayerPositions := { gameState with remotePlayerPositions }
  performLocalMove := Yojimbo.ClientGameState.performLocalMove
  performLocalMove_eq _ _ := rfl
  setLocalPos_localPos _ := rfl
  localPos_setLocalPos _ _ := rfl
  map_setLocalPos _ _ := ⟨rfl, rfl⟩
  localPos_setRemotePlayers _ _ := rfl
  map_setRemotePlayers _ _ := ⟨rfl, rfl⟩

namespace LocalMover

variable {σ ρ : Type*} (mover : LocalMover σ ρ)

/-- The candidates that a client draws from. -/
def candidates (state : σ) : List Position :=
  possibleMoves (mover.mapWidth state) (mover.mapHeight state) (mover.localPos state)

variable {mover} {state next : σ} {draws : ℕ → ℕ} {move : Position}

theorem endsWith_performLocalMove_iff {result : Position × σ} :
    EndsWith (mover.performLocalMove state) draws result ↔
      EndsWith (chooseMove (mover.mapWidth state) (mover.mapHeight state) (mover.localPos state)
          (mover.remotePositions state)) draws result.1 ∧
        result.2 = mover.setLocalPos state result.1 := by
  rw [show mover.performLocalMove state = _ from funext (mover.performLocalMove_eq state),
    endsWith_map_iff]
  constructor
  · rintro ⟨move, hends, rfl⟩
    exact ⟨hends, rfl⟩
  · rintro ⟨hends, hnext⟩
    exact ⟨result.1, hends, Prod.ext rfl hnext.symm⟩

/-- A move ends on every fair stream of draws; and when there is a remote player
on every candidate, the client stays where it is. -/
structure MoveEnds (mover : LocalMover σ ρ) (state : σ) : Prop where
  returns : ∀ draws, Fair (mover.candidates state) draws →
    ∃ result, EndsWith (mover.performLocalMove state) draws result
  stays : (∀ move ∈ mover.candidates state, move ∈ mover.remotePositions state) →
    ∀ draws, Fair (mover.candidates state) draws →
      EndsWith (mover.performLocalMove state) draws (mover.localPos state, state)

/-- The client has no candidate at all, or one that no remote player is on. -/
def HasWayOut (mover : LocalMover σ ρ) (state : σ) : Prop :=
  mover.candidates state = [] ∨
    ∃ move ∈ mover.candidates state, move ∉ mover.remotePositions state

theorem hasWayOut_iff :
    mover.HasWayOut state ↔
      ¬ BoxedIn (mover.mapWidth state) (mover.mapHeight state) (mover.localPos state)
        (mover.remotePositions state) := by
  rw [HasWayOut, BoxedIn, not_and_or, not_not, candidates]
  push Not
  rfl

/-- Both halves hold exactly for the clients that have a way out. -/
theorem moveEnds_iff : mover.MoveEnds state ↔ mover.HasWayOut state := by
  rw [hasWayOut_iff]
  constructor
  · intro h hboxed
    obtain ⟨result, hends⟩ := h.returns id (fair_id _)
    obtain ⟨⟨count, hcount⟩, _⟩ := endsWith_performLocalMove_iff.mp hends
    rw [hboxed.chooseMove_eq_none] at hcount
    cases hcount
  · intro hout
    refine ⟨fun draws hfair => ?_, fun htaken draws _ => ?_⟩
    · obtain ⟨move, hends⟩ := exists_endsWith_chooseMove hout hfair
      exact ⟨(move, mover.setLocalPos state move), endsWith_performLocalMove_iff.mpr ⟨hends, rfl⟩⟩
    · have hnone : mover.candidates state = [] := by
        by_contra hmoves
        exact hout ⟨hmoves, htaken⟩
      have hends : EndsWith (chooseMove (mover.mapWidth state) (mover.mapHeight state)
          (mover.localPos state) (mover.remotePositions state)) draws (mover.localPos state) :=
        ⟨0, chooseMove_of_possibleMoves_eq_nil hnone _⟩
      exact endsWith_performLocalMove_iff.mpr ⟨hends, (mover.setLocalPos_localPos state).symm⟩

/-- A move that was drawn: it is the first candidate drawn that no remote player
is on, one step away and within the map's width and height, and all it changes
is the local player's position. -/
structure Finished (mover : LocalMover σ ρ) (state : σ) (draws : ℕ → ℕ) (move : Position)
    (next : σ) : Prop where
  firstFree : ∃ index, drawMove (mover.candidates state) (draws index) = some move ∧
    ∀ earlier < index, ∃ taken, drawMove (mover.candidates state) (draws earlier) = some taken ∧
      taken ∈ mover.remotePositions state
  free : move ∉ mover.remotePositions state
  oneStep : (mover.localPos state).UnitStep move
  inBounds : move.x ≤ mover.mapWidth state ∧ move.y ≤ mover.mapHeight state
  moved : next = mover.setLocalPos state move

theorem finished_of_endsWith (hcandidates : mover.candidates state ≠ [])
    (hx : (mover.localPos state).x ≤ mover.mapWidth state)
    (hy : (mover.localPos state).y ≤ mover.mapHeight state)
    (hends : EndsWith (mover.performLocalMove state) draws (move, next)) :
    mover.Finished state draws move next := by
  obtain ⟨hchosen, hnext⟩ := endsWith_performLocalMove_iff.mp hends
  rw [chooseMove_eq_findSome? hcandidates, endsWith_findSome?_iff] at hchosen
  obtain ⟨index, hfound, hearlier⟩ := hchosen
  obtain ⟨hdraw, hfree⟩ := freeMove_eq_some_iff.mp hfound
  have hmem := mem_of_drawMove hdraw
  exact {
    firstFree := ⟨index, hdraw, fun earlier hlt =>
      (freeMove_eq_none_iff hcandidates).mp (hearlier earlier hlt)⟩
    free := hfree
    oneStep := unitStep_of_mem_possibleMoves hmem
    inBounds := le_of_mem_possibleMoves hmem hx hy
    moved := hnext }

/-- A move after the remote players have become these. -/
def moveAmong (mover : LocalMover σ ρ) (state : σ) (action : ρ × List ℕ) : Except Unit σ :=
  match mover.performLocalMove (mover.setRemotePlayers state action.1) action.2 with
  | none => .error ()
  | some (_, moved) => .ok moved

/-- The local player is on a cell of the map. -/
def OnMap (mover : LocalMover σ ρ) (state : σ) : Prop :=
  InMap (mover.mapWidth state) (mover.mapHeight state) (mover.localPos state)

instance : Decidable (mover.OnMap state) :=
  inferInstanceAs (Decidable (InMap _ _ _))

/-- On the last column there is a remote player right of the local player, and on
the last row below it. -/
def FarEdgesTaken (mover : LocalMover σ ρ) (state : σ) (remotePlayers : ρ) : Prop :=
  ((mover.localPos state).x.toNat + 1 = (mover.mapWidth state).toNat →
    ⟨(mover.localPos state).x + 1, (mover.localPos state).y⟩ ∈
      mover.remotePositions (mover.setRemotePlayers state remotePlayers)) ∧
  ((mover.localPos state).y.toNat + 1 = (mover.mapHeight state).toNat →
    ⟨(mover.localPos state).x, (mover.localPos state).y + 1⟩ ∈
      mover.remotePositions (mover.setRemotePlayers state remotePlayers))

theorem moveAmong_eq_ok {remotePlayers : ρ} {read : List ℕ}
    (h : mover.moveAmong state (remotePlayers, read) = .ok next) :
    ∃ move, chooseMove (mover.mapWidth state) (mover.mapHeight state) (mover.localPos state)
        (mover.remotePositions (mover.setRemotePlayers state remotePlayers)) read = some move ∧
      next = mover.setLocalPos (mover.setRemotePlayers state remotePlayers) move := by
  rw [moveAmong, mover.performLocalMove_eq] at h
  split at h
  · cases h
  · next hmove =>
      obtain ⟨move, hchosen, hpair⟩ := Option.map_eq_some_iff.mp hmove
      obtain ⟨rfl, rfl⟩ := Prod.mk.inj hpair
      obtain rfl := Except.ok.inj h
      rw [(mover.map_setRemotePlayers _ _).1, (mover.map_setRemotePlayers _ _).2,
        mover.localPos_setRemotePlayers] at hchosen
      exact ⟨move, hchosen, rfl⟩

/-- From a cell of the map every candidate is on the map, but for the one beyond
the last column and the one beyond the last row. -/
theorem inMap_of_mem_possibleMoves {mapWidth mapHeight : UInt16} {pos : Position}
    (hpos : InMap mapWidth mapHeight pos) (hmem : move ∈ possibleMoves mapWidth mapHeight pos)
    (hright : pos.x.toNat + 1 = mapWidth.toNat → move ≠ ⟨pos.x + 1, pos.y⟩)
    (hbelow : pos.y.toNat + 1 = mapHeight.toNat → move ≠ ⟨pos.x, pos.y + 1⟩) :
    InMap mapWidth mapHeight move := by
  have hinside {n bound : UInt16} (hlt : n < bound) (hne : n.toNat + 1 ≠ bound.toNat) :
      n + 1 < bound := by
    have hltNat := UInt16.lt_iff_toNat_lt.mp hlt
    rw [UInt16.lt_iff_toNat_lt, toNat_add_one hlt]
    omega
  obtain ⟨hx, hy⟩ := hpos
  rcases mem_possibleMoves_iff.mp hmem with ⟨hup, rfl⟩ | ⟨hdown, rfl⟩ | ⟨hleft, rfl⟩ | ⟨_, rfl⟩
  · exact ⟨hx, UInt16.lt_trans (sub_one_lt_of_pos hup) hy⟩
  · exact ⟨hx, hinside hdown fun hlast => hbelow hlast rfl⟩
  · exact ⟨UInt16.lt_trans (sub_one_lt_of_pos hleft) hx, hy⟩
  · exact ⟨hinside hx fun hlast => hright hlast rfl, hy⟩

theorem onMap_setLocalPos_iff {remotePlayers : ρ} :
    mover.OnMap (mover.setLocalPos (mover.setRemotePlayers state remotePlayers) move) ↔
      InMap (mover.mapWidth state) (mover.mapHeight state) move := by
  rw [OnMap, (mover.map_setLocalPos _ _).1, (mover.map_setLocalPos _ _).2,
    (mover.map_setRemotePlayers _ _).1, (mover.map_setRemotePlayers _ _).2,
    mover.localPos_setLocalPos]

/-- While the far edges are taken a move stays on the map. -/
theorem OnMap.moveAmong (hmap : mover.OnMap state) {action : ρ × List ℕ}
    (htaken : mover.FarEdgesTaken state action.1)
    (h : mover.moveAmong state action = .ok next) : mover.OnMap next := by
  obtain ⟨move, hchosen, rfl⟩ := moveAmong_eq_ok h
  rw [onMap_setLocalPos_iff]
  rcases chooseMove_spec hchosen with ⟨_, rfl⟩ | ⟨hmem, hfree⟩
  · exact hmap
  · refine inMap_of_mem_possibleMoves hmap hmem (fun hlast heq => ?_) fun hlast heq => ?_
    · exact hfree (heq ▸ htaken.1 hlast)
    · exact hfree (heq ▸ htaken.2 hlast)

/-- A candidate that no remote player is on can be drawn. -/
theorem exists_moveAmong_eq_ok {remotePlayers : ρ} (hmem : move ∈ mover.candidates state)
    (hfree : move ∉ mover.remotePositions (mover.setRemotePlayers state remotePlayers)) :
    ∃ read, mover.moveAmong state (remotePlayers, read) =
      .ok (mover.setLocalPos (mover.setRemotePlayers state remotePlayers) move) := by
  obtain ⟨index, hindex, hget⟩ := List.mem_iff_getElem.mp hmem
  have hdraw : drawMove (mover.candidates state) index = some move :=
    drawMove_of_getElem? (List.getElem?_eq_some_iff.mpr ⟨hindex, hget⟩) (Nat.mod_eq_of_lt hindex)
  have hyield := freeMove_eq_some_iff.mpr ⟨hdraw, hfree⟩
  refine ⟨[index], ?_⟩
  rw [LocalMover.moveAmong, mover.performLocalMove_eq, (mover.map_setRemotePlayers _ _).1,
    (mover.map_setRemotePlayers _ _).2, mover.localPos_setRemotePlayers,
    chooseMove_eq_findSome? (List.ne_nil_of_mem hmem), List.findSome?_singleton]
  rw [candidates] at hyield
  rw [hyield, Option.map_some]

/-- Otherwise some draw leads off it. -/
theorem exists_leaving (hmap : mover.OnMap state) {remotePlayers : ρ}
    (hnot : ¬ mover.FarEdgesTaken state remotePlayers) :
    ∃ read next, mover.moveAmong state (remotePlayers, read) = .ok next ∧ ¬ mover.OnMap next := by
  rw [FarEdgesTaken, not_and_or] at hnot
  push Not at hnot
  rcases hnot with ⟨hlast, hfree⟩ | ⟨hlast, hfree⟩
  · have hmem : (⟨(mover.localPos state).x + 1, (mover.localPos state).y⟩ : Position) ∈
        mover.candidates state :=
      mem_possibleMoves_iff.mpr (Or.inr (Or.inr (Or.inr ⟨hmap.1, rfl⟩)))
    obtain ⟨read, hread⟩ := exists_moveAmong_eq_ok hmem hfree
    refine ⟨read, _, hread, fun hnext => ?_⟩
    have hlt := UInt16.lt_iff_toNat_lt.mp (onMap_setLocalPos_iff.mp hnext).1
    rw [toNat_add_one hmap.1, hlast] at hlt
    exact lt_irrefl _ hlt
  · have hmem : (⟨(mover.localPos state).x, (mover.localPos state).y + 1⟩ : Position) ∈
        mover.candidates state :=
      mem_possibleMoves_iff.mpr (Or.inr (Or.inl ⟨hmap.2, rfl⟩))
    obtain ⟨read, hread⟩ := exists_moveAmong_eq_ok hmem hfree
    refine ⟨read, _, hread, fun hnext => ?_⟩
    have hlt := UInt16.lt_iff_toNat_lt.mp (onMap_setLocalPos_iff.mp hnext).2
    rw [toNat_add_one hmap.2, hlast] at hlt
    exact lt_irrefl _ hlt

/-- Among remote players that come in this order, no run of moves leaves the map,
whatever is drawn. -/
def StaysOnMap (mover : LocalMover σ ρ) (start : σ) (remotePlayers : List ρ) : Prop :=
  ∀ actions target, actions.map Prod.fst <+: remotePlayers →
    run mover.moveAmong start actions = .ok target → mover.OnMap target

/-- The far edges are taken whenever the local player is about to move. -/
def FarEdgesStayTaken (mover : LocalMover σ ρ) (start : σ) (actions : List (ρ × List ℕ)) : Prop :=
  StepsMeet mover.moveAmong (fun state action => mover.FarEdgesTaken state action.1) start actions

theorem onMap_of_run {start target : σ} {actions : List (ρ × List ℕ)} (hstart : mover.OnMap start)
    (htaken : mover.FarEdgesStayTaken start actions)
    (hrun : run mover.moveAmong start actions = .ok target) : mover.OnMap target :=
  run_invariant (fun _ _ _ hmap hedges hstep => OnMap.moveAmong hmap hedges hstep) hstart htaken
    hrun

/-- That is the exact condition for all of the runs together. -/
theorem staysOnMap_iff {start : σ} (hstart : mover.OnMap start) (remotePlayers : List ρ) :
    mover.StaysOnMap start remotePlayers ↔
      ∀ actions, actions.map Prod.fst <+: remotePlayers →
        mover.FarEdgesStayTaken start actions := by
  constructor
  · intro hstays actions hactions
    refine stepsMeet_iff.mpr fun before action state hpre hrun => ?_
    by_contra hnot
    have hpreFirst := (hpre.map Prod.fst).trans hactions
    rw [List.map_append] at hpreFirst
    have hmap := hstays before state ((List.prefix_append _ _).trans hpreFirst) hrun
    obtain ⟨read, next, hmove, hoff⟩ := exists_leaving hmap hnot
    refine hoff (hstays (before ++ [(action.1, read)]) next ?_ ?_)
    · rw [List.map_append]
      exact hpreFirst
    · exact run_concat_eq_ok.mpr ⟨state, hrun, hmove⟩
  · exact fun htaken actions target hactions hrun =>
      onMap_of_run hstart (htaken actions hactions) hrun

end LocalMover

/-- A RakNet client in a corner of its map, with a remote player on either
side. -/
def corneredRakNet : RakNet.ClientGamestate where
  mapWidth := 100
  mapHeight := 100
  numPlayers := 3
  localPlayer := ⟨7, ⟨0, 0⟩⟩
  remotePlayerPositions := [(8, ⟨0, 1⟩), (9, ⟨1, 0⟩)]

/-- The Yojimbo client there. -/
def corneredYojimbo : Yojimbo.ClientGameState where
  mapWidth := 100
  mapHeight := 100
  numPlayers := 3
  localPlayer := ⟨⟨0, 0⟩⟩
  remotePlayerPositions := (Std.TreeMap.empty.insert 1 ⟨0, 1⟩).insert 2 ⟨1, 0⟩

/-- The choice of a move ends exactly for a client that has a way out, in both
programs. -/
theorem local_moves_end_iff (gamestate : RakNet.ClientGamestate)
    (gameState : Yojimbo.ClientGameState) :
    (rakNetClient.MoveEnds gamestate ↔ rakNetClient.HasWayOut gamestate) ∧
      (yojimboClient.MoveEnds gameState ↔ yojimboClient.HasWayOut gameState) :=
  ⟨LocalMover.moveEnds_iff, LocalMover.moveEnds_iff⟩

/-- The cornered clients have two candidates, both taken, and never come to an
end, however long they draw. -/
theorem cornered_clients_draw_for_ever :
    (∀ draws, corneredRakNet.performLocalMove draws = none) ∧
      (∀ draws, corneredYojimbo.performLocalMove draws = none) ∧
      ¬ rakNetClient.MoveEnds corneredRakNet ∧ ¬ yojimboClient.MoveEnds corneredYojimbo := by
  have hboxed : BoxedIn 100 100 ⟨0, 0⟩ [⟨0, 1⟩, ⟨1, 0⟩] := by decide
  have hrakNet (draws : List ℕ) : corneredRakNet.performLocalMove draws = none :=
    Option.map_eq_none_iff.mpr (hboxed.chooseMove_eq_none draws)
  have hyojimbo (draws : List ℕ) : corneredYojimbo.performLocalMove draws = none :=
    Option.map_eq_none_iff.mpr (hboxed.chooseMove_eq_none draws)
  refine ⟨hrakNet, hyojimbo, fun hends => ?_, fun hends => ?_⟩
  · obtain ⟨result, count, hcount⟩ := hends.returns id (fair_id _)
    cases (hrakNet _).symm.trans hcount
  · obtain ⟨result, count, hcount⟩ := hends.returns id (fair_id _)
    cases (hyojimbo _).symm.trans hcount

/-- A move that was drawn and finished is, in both programs, the first free
candidate, one step away and within the width and the height. -/
theorem finished_move (gamestate : RakNet.ClientGamestate) (gameState : Yojimbo.ClientGameState)
    (draws : ℕ → ℕ) :
    (∀ move next, rakNetClient.candidates gamestate ≠ [] →
      gamestate.localPlayer.pos.x ≤ gamestate.mapWidth →
      gamestate.localPlayer.pos.y ≤ gamestate.mapHeight →
      EndsWith gamestate.performLocalMove draws (move, next) →
        rakNetClient.Finished gamestate draws move next) ∧
    (∀ move next, yojimboClient.candidates gameState ≠ [] →
      gameState.localPlayer.pos.x ≤ gameState.mapWidth →
      gameState.localPlayer.pos.y ≤ gameState.mapHeight →
      EndsWith gameState.performLocalMove draws (move, next) →
        yojimboClient.Finished gameState draws move next) :=
  ⟨fun _ _ => LocalMover.finished_of_endsWith, fun _ _ => LocalMover.finished_of_endsWith⟩

/-- The RakNet client alone in the map's corner, with one player below it. -/
def besideOne : RakNet.ClientGamestate :=
  { corneredRakNet with remotePlayerPositions := [(8, ⟨0, 1⟩)] }

/-- It draws the taken cell first and then the free one. -/
theorem finished_move_beside_one :
    rakNetClient.Finished besideOne id ⟨1, 0⟩ { besideOne with localPlayer := ⟨7, ⟨1, 0⟩⟩ } :=
  (finished_move besideOne corneredYojimbo id).1 ⟨1, 0⟩ _ (by decide) (by decide) (by decide)
    ⟨2, rfl⟩

/-- Both clients stay on the map in every run whose far edges stay taken, and
among given remote players they stay there in all runs exactly when the far edges
stay taken in all of them. -/
theorem moves_stay_on_map_iff (gamestate : RakNet.ClientGamestate)
    (gameState : Yojimbo.ClientGameState) (hgamestate : rakNetClient.OnMap gamestate)
    (hgameState : yojimboClient.OnMap gameState) :
    ((∀ actions target, rakNetClient.FarEdgesStayTaken gamestate actions →
        run rakNetClient.moveAmong gamestate actions = .ok target → rakNetClient.OnMap target) ∧
      ∀ remotePlayers, rakNetClient.StaysOnMap gamestate remotePlayers ↔
        ∀ actions, actions.map Prod.fst <+: remotePlayers →
          rakNetClient.FarEdgesStayTaken gamestate actions) ∧
    ((∀ actions target, yojimboClient.FarEdgesStayTaken gameState actions →
        run yojimboClient.moveAmong gameState actions = .ok target →
          yojimboClient.OnMap target) ∧
      ∀ remotePlayers, yojimboClient.StaysOnMap gameState remotePlayers ↔
        ∀ actions, actions.map Prod.fst <+: remotePlayers →
          yojimboClient.FarEdgesStayTaken gameState actions) := by
  constructor
  · exact ⟨fun _ _ => LocalMover.onMap_of_run hgamestate, LocalMover.staysOnMap_iff hgamestate⟩
  · exact ⟨fun _ _ => LocalMover.onMap_of_run hgameState, LocalMover.staysOnMap_iff hgameState⟩

/-- The RakNet client on the last cell of the first row, alone. -/
def onLastColumnRakNet : RakNet.ClientGamestate where
  mapWidth := 100
  mapHeight := 100
  numPlayers := 1
  localPlayer := ⟨7, ⟨99, 0⟩⟩

/-- The Yojimbo client there. -/
def onLastColumnYojimbo : Yojimbo.ClientGameState where
  mapWidth := 100
  mapHeight := 100
  numPlayers := 1
  localPlayer := ⟨⟨99, 0⟩⟩

/-- With a remote player beyond the edge, the client draws that cell, draws again
and stays on the map. -/
theorem moves_stay_on_map_beside_player :
    rakNetClient.OnMap { onLastColumnRakNet with
      localPlayer := ⟨7, ⟨98, 0⟩⟩, remotePlayerPositions := [(8, ⟨100, 0⟩)] } := by
  have hedges : rakNetClient.FarEdgesStayTaken onLastColumnRakNet
      [([(8, ⟨100, 0⟩)], [2, 1])] := by
    refine ⟨⟨fun _ => ?_, fun hlast => ?_⟩, fun _ _ => trivial⟩
    · decide
    · exact absurd hlast (by decide)
  exact (moves_stay_on_map_iff onLastColumnRakNet onLastColumnYojimbo (by decide)
    (by decide)).1.1 [([(8, ⟨100, 0⟩)], [2, 1])] _ hedges rfl

/-- Neither client looks at the last column: both step from it to the one
beyond. -/
theorem moves_leave_map_at_last_column :
    (rakNetClient.OnMap onLastColumnRakNet ∧
      run rakNetClient.moveAmong onLastColumnRakNet [([], [2])] =
        .ok { onLastColumnRakNet with localPlayer := ⟨7, ⟨100, 0⟩⟩ } ∧
      ¬ rakNetClient.OnMap { onLastColumnRakNet with localPlayer := ⟨7, ⟨100, 0⟩⟩ }) ∧
    yojimboClient.OnMap onLastColumnYojimbo ∧
      run yojimboClient.moveAmong onLastColumnYojimbo [(∅, [2])] =
        .ok { onLastColumnYojimbo with localPlayer := ⟨⟨100, 0⟩⟩ } ∧
      ¬ yojimboClient.OnMap { onLastColumnYojimbo with localPlayer := ⟨⟨100, 0⟩⟩ } := by
  refine ⟨⟨?_, rfl, ?_⟩, ?_, rfl, ?_⟩ <;> decide

end LibBench
