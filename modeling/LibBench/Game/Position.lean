/-
# Positions, the one-space test and the choice of a move

The three benchmark games share one board: cells with 16-bit coordinates, a
player that moves by one cell per tick, and a server that declines an update
which is more than one space away from the position it has. This module states
the parts that the RakNet and the Yojimbo programs write out separately but
identically, so that each program's own function is one of these applied to its
own data.

The coordinates are `uint16_t`. The comparisons promote them to `int`, so the
differences are taken in the integers and never wrap; a new candidate position
is narrowed back to 16 bits.
-/

import Mathlib.Data.Int.Order.Basic
import Mathlib.Data.List.Basic
import Mathlib.Tactic.Linarith
import LibBench.Math.GuardedWalk

namespace LibBench

open LibBench.Math

/-- A cell of the board. -/
structure Position where
  x : UInt16
  y : UInt16
  deriving DecidableEq, Repr

/-- A coordinate drawn at random lies on the map. -/
theorem ofNat_mod_lt (draw : ℕ) {size : UInt16} (hsize : size ≠ 0) :
    UInt16.ofNat (draw % size.toNat) < size := by
  have hpos : 0 < size.toNat := Nat.pos_of_ne_zero fun hzero =>
    hsize (UInt16.toNat_inj.mp hzero)
  have hlt : draw % size.toNat < size.toNat := Nat.mod_lt _ hpos
  rw [UInt16.lt_iff_toNat_lt, UInt16.toNat_ofNat_of_lt' (hlt.trans size.toNat_lt)]
  exact hlt

namespace Position

/-- The difference of two coordinates as the C++ comparison computes it, after
promotion to `int`. -/
def difference (first second : UInt16) : ℤ := (first.toNat : ℤ) - (second.toNat : ℤ)

/-- The servers' test for declining an update: the new position is more than
one space away from the current one in `y` or in `x`. -/
def movedMoreThanOneSpace (updatedPlayerPos currentPos : Position) : Bool :=
  decide (1 < |difference updatedPlayerPos.y currentPos.y|) ||
    decide (1 < |difference updatedPlayerPos.x currentPos.x|)

/-- Two cells at most one space apart on each axis. -/
def OneSpace (first second : Position) : Prop :=
  |difference first.x second.x| ≤ 1 ∧ |difference first.y second.y| ≤ 1

instance : DecidableRel OneSpace := fun _ _ =>
  inferInstanceAs (Decidable (_ ∧ _))

theorem movedMoreThanOneSpace_eq_false_iff {updated current : Position} :
    movedMoreThanOneSpace updated current = false ↔ OneSpace current updated := by
  unfold movedMoreThanOneSpace OneSpace difference
  rw [abs_sub_comm (current.x.toNat : ℤ), abs_sub_comm (current.y.toNat : ℤ)]
  simp only [Bool.or_eq_false_iff, decide_eq_false_iff_not, not_lt]
  exact and_comm

theorem movedMoreThanOneSpace_eq_true_iff {updated current : Position} :
    movedMoreThanOneSpace updated current = true ↔ ¬ OneSpace current updated := by
  rw [← movedMoreThanOneSpace_eq_false_iff, Bool.not_eq_false]

theorem OneSpace.refl (pos : Position) : OneSpace pos pos := by
  simp [OneSpace, difference]

theorem OneSpace.symm {first second : Position} (h : OneSpace first second) :
    OneSpace second first := by
  unfold OneSpace difference at h ⊢
  rwa [abs_sub_comm (second.x.toNat : ℤ), abs_sub_comm (second.y.toNat : ℤ)]

/-- Two cells that are neighbours: one step along one axis. -/
def UnitStep (first second : Position) : Prop :=
  |difference first.x second.x| + |difference first.y second.y| = 1

instance : DecidableRel UnitStep := fun _ _ =>
  inferInstanceAs (Decidable (_ = _))

theorem UnitStep.oneSpace {first second : Position} (h : UnitStep first second) :
    OneSpace first second := by
  unfold UnitStep at h
  have hx := abs_nonneg (difference first.x second.x)
  have hy := abs_nonneg (difference first.y second.y)
  exact ⟨by omega, by omega⟩

end Position

/-! ## Choosing a move

`PerformLocalMove` of both client programs collects the neighbouring cells,
draws one of them, and draws again as long as the drawn cell is one where a
remote player is. The draws are an argument: a list that runs out before the
loop ends yields `none`, the loop is still going. -/

/-- The neighbouring cells a client considers, in the order it lists them: up,
down, left, right. The bounds tests are the client's own; note that they let
the coordinate reach the width and the height. -/
def possibleMoves (mapWidth mapHeight : UInt16) (localPlayerPos : Position) : List Position :=
  (if 0 < localPlayerPos.y then [⟨localPlayerPos.x, localPlayerPos.y - 1⟩] else []) ++
  (if localPlayerPos.y < mapHeight then [⟨localPlayerPos.x, localPlayerPos.y + 1⟩] else []) ++
  (if 0 < localPlayerPos.x then [⟨localPlayerPos.x - 1, localPlayerPos.y⟩] else []) ++
  (if localPlayerPos.x < mapWidth then [⟨localPlayerPos.x + 1, localPlayerPos.y⟩] else [])

/-- `possibleMoves[random() % possibleMoves.size()]`. -/
def drawMove (moves : List Position) (draw : ℕ) : Option Position :=
  moves[draw % moves.length]?

/-- The re-draw loop: while the chosen move is the position of a remote player,
draw again and scan the remote players from the start. -/
def avoidRemotePlayers (moves remotePlayers : List Position) :
    Position → List ℕ → Option Position
  | chosenMove, draws =>
      if chosenMove ∈ remotePlayers then
        match draws with
        | [] => none
        | draw :: rest =>
            (drawMove moves draw).bind fun next => avoidRemotePlayers moves remotePlayers next rest
      else some chosenMove

/-- The position a client moves to. A client without any possible move stays
where it is. -/
def chooseMove (mapWidth mapHeight : UInt16) (localPlayerPos : Position)
    (remotePlayers : List Position) (draws : List ℕ) : Option Position :=
  let moves := possibleMoves mapWidth mapHeight localPlayerPos
  if moves.isEmpty then some localPlayerPos
  else
    match draws with
    | [] => none
    | draw :: rest => (drawMove moves draw).bind fun chosen =>
        avoidRemotePlayers moves remotePlayers chosen rest

theorem toNat_sub_one {n : UInt16} (h : 0 < n) : (n - 1).toNat = n.toNat - 1 := by
  have hle : (1 : UInt16) ≤ n := by
    rw [UInt16.lt_iff_toNat_lt] at h
    rw [UInt16.le_iff_toNat_le]
    exact h
  rw [UInt16.toNat_sub_of_le _ _ hle]
  rfl

theorem toNat_add_one {n bound : UInt16} (h : n < bound) : (n + 1).toNat = n.toNat + 1 := by
  have hbound := bound.toNat_lt
  rw [UInt16.lt_iff_toNat_lt] at h
  simp
  omega

namespace Position

@[simp]
theorem difference_self (n : UInt16) : difference n n = 0 := sub_self _

theorem difference_sub_one {n : UInt16} (h : 0 < n) : difference n (n - 1) = 1 := by
  have hpos : 0 < n.toNat := UInt16.lt_iff_toNat_lt.mp h
  rw [difference, toNat_sub_one h]
  omega

theorem difference_add_one {n bound : UInt16} (h : n < bound) : difference n (n + 1) = -1 := by
  rw [difference, toNat_add_one h]
  omega

end Position

/-- Every candidate is a neighbour: none of the four narrowings wraps. -/
theorem unitStep_of_mem_possibleMoves {mapWidth mapHeight : UInt16} {pos move : Position}
    (h : move ∈ possibleMoves mapWidth mapHeight pos) : pos.UnitStep move := by
  simp only [possibleMoves, List.mem_append] at h
  unfold Position.UnitStep
  rcases h with ((h | h) | h) | h <;> split at h <;>
    simp only [List.mem_singleton, List.not_mem_nil] at h
  · next hy =>
      subst h
      simp [Position.difference_sub_one hy]
  · next hy =>
      subst h
      simp [Position.difference_add_one hy]
  · next hx =>
      subst h
      simp [Position.difference_sub_one hx]
  · next hx =>
      subst h
      simp [Position.difference_add_one hx]

theorem oneSpace_of_mem_possibleMoves {mapWidth mapHeight : UInt16} {pos move : Position}
    (h : move ∈ possibleMoves mapWidth mapHeight pos) : pos.OneSpace move :=
  (unitStep_of_mem_possibleMoves h).oneSpace

/-- On a map that is not empty there is always a candidate. -/
theorem possibleMoves_ne_nil {mapWidth mapHeight : UInt16}
    (hmap : mapWidth ≠ 0 ∨ mapHeight ≠ 0) (pos : Position) :
    possibleMoves mapWidth mapHeight pos ≠ [] := by
  have hpositive {n : UInt16} (hn : n ≠ 0) : 0 < n := UInt16.pos_iff_ne_zero.mpr hn
  intro h
  simp only [possibleMoves, List.append_eq_nil_iff, ite_eq_right_iff, List.cons_ne_self,
    imp_false] at h
  obtain ⟨⟨⟨hup, hdown⟩, hleft⟩, hright⟩ := h
  rcases hmap with hwidth | hheight
  · by_cases hx : pos.x = 0
    · exact hright (hx ▸ hpositive hwidth)
    · exact hleft (hpositive hx)
  · by_cases hy : pos.y = 0
    · exact hdown (hy ▸ hpositive hheight)
    · exact hup (hpositive hy)

theorem mem_of_drawMove {moves : List Position} {draw : ℕ} {move : Position}
    (h : drawMove moves draw = some move) : move ∈ moves :=
  List.mem_of_getElem? h

theorem mem_of_avoidRemotePlayers {moves remotePlayers : List Position} {draws : List ℕ}
    {chosen move : Position} (hchosen : chosen ∈ moves)
    (h : avoidRemotePlayers moves remotePlayers chosen draws = some move) :
    move ∈ moves ∧ move ∉ remotePlayers := by
  induction draws generalizing chosen with
  | nil =>
      rw [avoidRemotePlayers] at h
      split at h
      · cases h
      · next hfree =>
          obtain rfl := Option.some.inj h
          exact ⟨hchosen, hfree⟩
  | cons draw rest ih =>
      rw [avoidRemotePlayers] at h
      split at h
      · obtain ⟨next, hdraw, hnext⟩ := Option.bind_eq_some_iff.mp h
        exact ih (mem_of_drawMove hdraw) hnext
      · next hfree =>
          obtain rfl := Option.some.inj h
          exact ⟨hchosen, hfree⟩

/-- What a finished choice guarantees: the client stays because it has no
possible move, or it moves to a candidate that no remote player occupies. -/
theorem chooseMove_spec {mapWidth mapHeight : UInt16} {pos move : Position}
    {remotePlayers : List Position} {draws : List ℕ}
    (h : chooseMove mapWidth mapHeight pos remotePlayers draws = some move) :
    (possibleMoves mapWidth mapHeight pos = [] ∧ move = pos) ∨
      (move ∈ possibleMoves mapWidth mapHeight pos ∧ move ∉ remotePlayers) := by
  by_cases hempty : possibleMoves mapWidth mapHeight pos = []
  · simp only [chooseMove, hempty, List.isEmpty_nil, if_true, Option.some.injEq] at h
    exact Or.inl ⟨hempty, h.symm⟩
  · have hisEmpty := mt List.isEmpty_iff.mp hempty
    cases draws with
    | nil => simp [chooseMove, hempty] at h
    | cons draw rest =>
        simp only [chooseMove, if_neg hisEmpty] at h
        obtain ⟨chosen, hdraw, hchosen⟩ := Option.bind_eq_some_iff.mp h
        exact Or.inr (mem_of_avoidRemotePlayers (mem_of_drawMove hdraw) hchosen)

theorem oneSpace_of_chooseMove {mapWidth mapHeight : UInt16} {pos move : Position}
    {remotePlayers : List Position} {draws : List ℕ}
    (h : chooseMove mapWidth mapHeight pos remotePlayers draws = some move) :
    pos.OneSpace move := by
  rcases chooseMove_spec h with ⟨_, rfl⟩ | ⟨hmem, _⟩
  · exact Position.OneSpace.refl _
  · exact oneSpace_of_mem_possibleMoves hmem

/-- On a map that is not empty a finished choice is a step. -/
theorem unitStep_of_chooseMove {mapWidth mapHeight : UInt16} {pos move : Position}
    {remotePlayers : List Position} {draws : List ℕ} (hmap : mapWidth ≠ 0 ∨ mapHeight ≠ 0)
    (h : chooseMove mapWidth mapHeight pos remotePlayers draws = some move) :
    pos.UnitStep move := by
  rcases chooseMove_spec h with ⟨hnone, _⟩ | ⟨hmem, _⟩
  · exact absurd hnone (possibleMoves_ne_nil hmap pos)
  · exact unitStep_of_mem_possibleMoves hmem

end LibBench
