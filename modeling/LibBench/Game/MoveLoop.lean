/-
# The loops of `PerformLocalMove`

Both clients choose a move in two nested loops: the inner one scans the remote
players and, at the first that stands on the chosen cell, draws another cell and
starts the outer one over. This module writes the two loops out and shows that
they are the search for a draw that will do.

From that follows when the choice ends and what it yields. It ends on a stream
of draws exactly when one of them is a candidate that no remote player is on,
and it yields the first such candidate. A client that is boxed in, with
candidates that are all taken, goes on drawing for ever.
-/

import LibBench.Game.Position
import LibBench.Math.Redraw

namespace LibBench

open LibBench.Math

/-- The body of the inner loop's test: draw again and clear `validMove`. -/
def drawAgain (moves : List Position) : List ℕ → Option (Position × Bool × List ℕ)
  | [] => none
  | draw :: draws => (drawMove moves draw).map fun next => (next, false, draws)

/-- The inner loop, `for(auto remotePlayerPos: …)`. At the first remote player
on the chosen cell it draws again and breaks. It returns the chosen cell,
`validMove` and the draws that are left. -/
def scanRemotePlayers (moves : List Position) (chosenMove : Position) (draws : List ℕ) :
    List Position → Option (Position × Bool × List ℕ)
  | [] => some (chosenMove, true, draws)
  | remotePlayerPos :: rest =>
      if chosenMove = remotePlayerPos then drawAgain moves draws
      else scanRemotePlayers moves chosenMove draws rest

/-- The outer loop, `while (!validMove)`, for a number of rounds. -/
def whileNotValid (moves remotePlayers : List Position) :
    ℕ → Position → List ℕ → Option Position
  | 0, _, _ => none
  | rounds + 1, chosenMove, draws =>
      match scanRemotePlayers moves chosenMove draws remotePlayers with
      | none => none
      | some (chosenMove, true, _) => some chosenMove
      | some (next, false, draws) => whileNotValid moves remotePlayers rounds next draws

section Loops

variable {moves remotePlayers : List Position} {chosenMove : Position} {draws : List ℕ}

/-- A cell that nobody is on passes the scan. -/
theorem scanRemotePlayers_of_not_mem (h : chosenMove ∉ remotePlayers) :
    scanRemotePlayers moves chosenMove draws remotePlayers = some (chosenMove, true, draws) := by
  induction remotePlayers with
  | nil => rfl
  | cons remotePlayerPos rest ih =>
      rw [List.mem_cons, not_or] at h
      rw [scanRemotePlayers, if_neg h.1, ih h.2]

/-- A cell that somebody is on is drawn again, wherever in the list that one
is. -/
theorem scanRemotePlayers_of_mem (h : chosenMove ∈ remotePlayers) :
    scanRemotePlayers moves chosenMove draws remotePlayers = drawAgain moves draws := by
  induction remotePlayers with
  | nil => cases h
  | cons remotePlayerPos rest ih =>
      rw [scanRemotePlayers]
      by_cases heq : chosenMove = remotePlayerPos
      · rw [if_pos heq]
      · rw [if_neg heq, ih ((List.mem_cons.mp h).resolve_left heq)]

/-- Every round that does not end the outer loop takes a draw, so with one round
more than there are draws it gets as far as the draws do. -/
theorem whileNotValid_eq_avoidRemotePlayers {rounds : ℕ} (hrounds : draws.length < rounds) :
    whileNotValid moves remotePlayers rounds chosenMove draws =
      avoidRemotePlayers moves remotePlayers chosenMove draws := by
  induction draws generalizing rounds chosenMove with
  | nil =>
      obtain ⟨rounds, rfl⟩ := Nat.exists_eq_succ_of_ne_zero (Nat.ne_of_gt hrounds)
      rw [whileNotValid, avoidRemotePlayers]
      by_cases h : chosenMove ∈ remotePlayers
      · rw [scanRemotePlayers_of_mem h, if_pos h, drawAgain]
      · rw [scanRemotePlayers_of_not_mem h, if_neg h]
  | cons draw draws ih =>
      obtain ⟨rounds, rfl⟩ :=
        Nat.exists_eq_succ_of_ne_zero (Nat.ne_of_gt (Nat.zero_lt_of_lt hrounds))
      rw [List.length_cons, Nat.succ_lt_succ_iff] at hrounds
      rw [whileNotValid, avoidRemotePlayers]
      by_cases h : chosenMove ∈ remotePlayers
      · rw [scanRemotePlayers_of_mem h, if_pos h, drawAgain]
        cases drawMove moves draw with
        | none => rfl
        | some next => exact ih hrounds
      · rw [scanRemotePlayers_of_not_mem h, if_neg h]

end Loops

/-- A draw will do when it is a candidate that no remote player is on. -/
def freeMove (moves remotePlayers : List Position) (draw : ℕ) : Option Position :=
  (drawMove moves draw).filter fun move => move ∉ remotePlayers

section Search

variable {moves remotePlayers : List Position} {draw : ℕ} {move : Position}

theorem freeMove_eq_some_iff :
    freeMove moves remotePlayers draw = some move ↔
      drawMove moves draw = some move ∧ move ∉ remotePlayers := by
  simp [freeMove, Option.filter_eq_some_iff]

theorem exists_drawMove (hmoves : moves ≠ []) (draw : ℕ) :
    ∃ move, drawMove moves draw = some move := by
  have hlt : draw % moves.length < moves.length :=
    Nat.mod_lt _ (List.length_pos_iff.mpr hmoves)
  exact ⟨_, List.getElem?_eq_getElem hlt⟩

theorem freeMove_eq_none_iff (hmoves : moves ≠ []) :
    freeMove moves remotePlayers draw = none ↔
      ∃ taken, drawMove moves draw = some taken ∧ taken ∈ remotePlayers := by
  obtain ⟨move, hmove⟩ := exists_drawMove hmoves draw
  simp [freeMove, hmove, Option.filter_some]

/-- A draw by the index of a move. -/
theorem drawMove_of_getElem? {index : ℕ} (hmove : moves[index]? = some move)
    (hdraw : draw % moves.length = index) : drawMove moves draw = some move := by
  rw [drawMove, hdraw, hmove]

/-- The chosen cell and then the draws: the search goes through them in turn. -/
theorem avoidRemotePlayers_eq_findSome? (hmoves : moves ≠ []) (draws : List ℕ)
    (hdraw : drawMove moves draw = some move) :
    avoidRemotePlayers moves remotePlayers move draws =
      (draw :: draws).findSome? (freeMove moves remotePlayers) := by
  induction draws generalizing draw move with
  | nil =>
      rw [avoidRemotePlayers, List.findSome?_singleton]
      by_cases h : move ∈ remotePlayers
      · rw [if_pos h, (freeMove_eq_none_iff hmoves).mpr ⟨move, hdraw, h⟩]
      · rw [if_neg h, freeMove_eq_some_iff.mpr ⟨hdraw, h⟩]
  | cons next draws ih =>
      rw [avoidRemotePlayers, List.findSome?_cons]
      by_cases h : move ∈ remotePlayers
      · obtain ⟨nextMove, hnext⟩ := exists_drawMove hmoves next
        have htaken := (freeMove_eq_none_iff hmoves).mpr ⟨move, hdraw, h⟩
        rw [if_pos h, hnext, Option.bind_some, htaken, ih hnext]
      · rw [if_neg h, freeMove_eq_some_iff.mpr ⟨hdraw, h⟩]

end Search

section Choice

variable {mapWidth mapHeight : UInt16} {pos move : Position} {remotePlayers : List Position}

theorem chooseMove_eq_findSome?
    (hmoves : possibleMoves mapWidth mapHeight pos ≠ []) (remotePlayers : List Position) :
    chooseMove mapWidth mapHeight pos remotePlayers =
      List.findSome? (freeMove (possibleMoves mapWidth mapHeight pos) remotePlayers) := by
  funext draws
  have hisEmpty := mt List.isEmpty_iff.mp hmoves
  cases draws with
  | nil => simp [chooseMove, hmoves]
  | cons draw draws =>
      obtain ⟨chosen, hdraw⟩ := exists_drawMove hmoves draw
      simp only [chooseMove, if_neg hisEmpty]
      rw [hdraw, Option.bind_some, avoidRemotePlayers_eq_findSome? hmoves draws hdraw]

theorem chooseMove_of_possibleMoves_eq_nil
    (hmoves : possibleMoves mapWidth mapHeight pos = []) (draws : List ℕ) :
    chooseMove mapWidth mapHeight pos remotePlayers draws = some pos := by
  simp [chooseMove, hmoves]

/-- The client has possible moves, and there is a remote player on each. -/
def BoxedIn (mapWidth mapHeight : UInt16) (pos : Position) (remotePlayers : List Position) : Prop :=
  possibleMoves mapWidth mapHeight pos ≠ [] ∧
    ∀ move ∈ possibleMoves mapWidth mapHeight pos, move ∈ remotePlayers

instance : Decidable (BoxedIn mapWidth mapHeight pos remotePlayers) :=
  inferInstanceAs (Decidable (_ ∧ _))

/-- A client that is boxed in draws for ever. -/
theorem BoxedIn.chooseMove_eq_none (h : BoxedIn mapWidth mapHeight pos remotePlayers)
    (draws : List ℕ) : chooseMove mapWidth mapHeight pos remotePlayers draws = none := by
  rw [chooseMove_eq_findSome? h.1, List.findSome?_eq_none_iff]
  intro draw _
  obtain ⟨taken, htaken⟩ := exists_drawMove h.1 draw
  exact (freeMove_eq_none_iff h.1).mpr ⟨taken, htaken, h.2 taken (mem_of_drawMove htaken)⟩

/-- The stream comes back to every one of the possible moves. -/
def Fair (moves : List Position) (draws : ℕ → ℕ) : Prop :=
  ∀ index < moves.length, InfinitelyOften (fun draw => draw % moves.length = index) draws

/-- Counting up is fair. -/
theorem fair_id (moves : List Position) : Fair moves id := by
  intro index hindex start
  refine ⟨start * moves.length + index, ?_, ?_⟩
  · have := Nat.le_mul_of_pos_right start (Nat.zero_lt_of_lt hindex)
    omega
  · show (start * moves.length + index) % moves.length = index
    rw [Nat.mul_add_mod', Nat.mod_eq_of_lt hindex]

/-- A client that is not boxed in gets away, on every fair stream. -/
theorem exists_endsWith_chooseMove (h : ¬ BoxedIn mapWidth mapHeight pos remotePlayers)
    {draws : ℕ → ℕ} (hfair : Fair (possibleMoves mapWidth mapHeight pos) draws) :
    ∃ move, EndsWith (chooseMove mapWidth mapHeight pos remotePlayers) draws move := by
  by_cases hmoves : possibleMoves mapWidth mapHeight pos = []
  · exact ⟨pos, 0, chooseMove_of_possibleMoves_eq_nil hmoves _⟩
  · have hfree : ∃ move ∈ possibleMoves mapWidth mapHeight pos, move ∉ remotePlayers := by
      by_contra hnone
      push Not at hnone
      exact h ⟨hmoves, hnone⟩
    obtain ⟨move, hmem, hfree⟩ := hfree
    obtain ⟨index, hindex, hget⟩ := List.mem_iff_getElem.mp hmem
    obtain ⟨time, _, hdraw⟩ := hfair index hindex 0
    rw [chooseMove_eq_findSome? hmoves, exists_endsWith_findSome?_iff]
    have hmove := drawMove_of_getElem? (List.getElem?_eq_some_iff.mpr ⟨hindex, hget⟩) hdraw
    exact ⟨time, by rw [freeMove_eq_some_iff.mpr ⟨hmove, hfree⟩, Option.isSome_some]⟩

end Choice

section Candidates

variable {mapWidth mapHeight : UInt16} {pos move : Position}

/-- The four neighbours, each with the bounds test that lets it be a
candidate. -/
theorem mem_possibleMoves_iff :
    move ∈ possibleMoves mapWidth mapHeight pos ↔
      (0 < pos.y ∧ move = ⟨pos.x, pos.y - 1⟩) ∨ (pos.y < mapHeight ∧ move = ⟨pos.x, pos.y + 1⟩) ∨
        (0 < pos.x ∧ move = ⟨pos.x - 1, pos.y⟩) ∨
          (pos.x < mapWidth ∧ move = ⟨pos.x + 1, pos.y⟩) := by
  simp only [possibleMoves, List.mem_append, List.mem_ite_nil_right, List.mem_singleton]
  tauto

theorem sub_one_lt_of_pos {n : UInt16} (h : 0 < n) : n - 1 < n := by
  have hpos : 0 < n.toNat := UInt16.lt_iff_toNat_lt.mp h
  rw [UInt16.lt_iff_toNat_lt, toNat_sub_one h]
  omega

theorem add_one_le_of_lt {n bound : UInt16} (h : n < bound) : n + 1 ≤ bound := by
  have hlt := UInt16.lt_iff_toNat_lt.mp h
  rw [UInt16.le_iff_toNat_le, toNat_add_one h]
  omega

/-- A candidate stays within the width and the height, both included. -/
theorem le_of_mem_possibleMoves (hmem : move ∈ possibleMoves mapWidth mapHeight pos)
    (hx : pos.x ≤ mapWidth) (hy : pos.y ≤ mapHeight) :
    move.x ≤ mapWidth ∧ move.y ≤ mapHeight := by
  rcases mem_possibleMoves_iff.mp hmem with ⟨hup, rfl⟩ | ⟨hdown, rfl⟩ | ⟨hleft, rfl⟩ | ⟨hright, rfl⟩
  · exact ⟨hx, UInt16.le_trans (UInt16.le_of_lt (sub_one_lt_of_pos hup)) hy⟩
  · exact ⟨hx, add_one_le_of_lt hdown⟩
  · exact ⟨UInt16.le_trans (UInt16.le_of_lt (sub_one_lt_of_pos hleft)) hx, hy⟩
  · exact ⟨add_one_le_of_lt hright, hy⟩

end Candidates

end LibBench
