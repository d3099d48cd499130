/-
# The corrections tracker

The benchmark clients count, per tick, whether a position message moved a known
player by more than one space. `corrections_tracker` keeps the counters and
writes one row per tick. The output file is the list of rows written so far;
the separator and the file name carry nothing that the game logic reads.

The counters have the widths of the source. An overflow, which the source leaves
undefined, wraps. The row of a tick is then compared with the history of calls:
it is a faithful account exactly as long as no tick has more than one correction
and the counters hold what they count, because the counter of one tick's
corrections is declared `bool`.
-/

import Mathlib.Algebra.BigOperators.Group.List.Basic
import Mathlib.Data.List.Count
import Mathlib.Data.List.Induction
import Mathlib.Tactic.Linarith

namespace LibBench

/-- One line of the output file, with the numbers as they are printed: tick,
corrections, total corrections, total ticks with no updates. -/
structure CorrectionsRow where
  tick : ℤ
  corrections : ℤ
  totalCorrections : ℤ
  totalTicksNoUpdates : ℤ
  deriving DecidableEq, Repr

/-- The state of a `corrections_tracker`. Its `correctionsMadeInThisTick` is
declared `bool` in the source, although it is incremented like a counter. -/
structure CorrectionsTracker where
  outputFile : List CorrectionsRow := []
  tick : Int64 := 0
  totalCorrections : Int32 := 0
  totalTicksNoUpdates : Int32 := 0
  updatesReceivedInThisTick : Bool := false
  correctionsMadeInThisTick : Bool := false
  deriving DecidableEq, Repr

namespace CorrectionsTracker

/-- Note that an update has been received in this tick. -/
def updatesReceivedInTick (tracker : CorrectionsTracker) : CorrectionsTracker :=
  { tracker with updatesReceivedInThisTick := true }

/-- Count one correction. Adding one to a `bool` leaves it `true`. -/
def correctionMade (tracker : CorrectionsTracker) : CorrectionsTracker :=
  { tracker with
    correctionsMadeInThisTick := true
    totalCorrections := tracker.totalCorrections + 1 }

/-- Write the row of this tick and reset the two loop variables. -/
def writeLine (tracker : CorrectionsTracker) : CorrectionsTracker :=
  let tick := tracker.tick + 1
  let totalTicksNoUpdates :=
    if tracker.updatesReceivedInThisTick then tracker.totalTicksNoUpdates
    else tracker.totalTicksNoUpdates + 1
  { outputFile := tracker.outputFile ++
      [⟨tick.toInt, tracker.correctionsMadeInThisTick.toInt, tracker.totalCorrections.toInt,
        totalTicksNoUpdates.toInt⟩]
    tick
    totalCorrections := tracker.totalCorrections
    totalTicksNoUpdates
    updatesReceivedInThisTick := false
    correctionsMadeInThisTick := false }

end CorrectionsTracker

/-- A call of one of the three operations. -/
inductive TrackerCall
  | updatesReceivedInTick
  | correctionMade
  | writeLine
  deriving DecidableEq, Repr

namespace TrackerCall

/-- Add a call to the ticks that have been written and the one that has not. -/
def cut (ticks : List (List TrackerCall) × List TrackerCall) :
    TrackerCall → List (List TrackerCall) × List TrackerCall
  | .writeLine => (ticks.1 ++ [ticks.2], [])
  | call => (ticks.1, ticks.2 ++ [call])

/-- The calls of each tick that has been written, in order. -/
def completedTicks (calls : List TrackerCall) : List (List TrackerCall) :=
  (calls.foldl cut ([], [])).1

/-- The calls since the last row. -/
def currentTick (calls : List TrackerCall) : List TrackerCall :=
  (calls.foldl cut ([], [])).2

/-- The corrections of all of the ticks. -/
def corrections (ticks : List (List TrackerCall)) : ℕ :=
  (ticks.map fun tick => tick.count .correctionMade).sum

/-- The ticks in which no update was received. -/
def ticksNoUpdates (ticks : List (List TrackerCall)) : ℕ :=
  ticks.countP fun tick => .updatesReceivedInTick ∉ tick

/-- The row that the last of these ticks should get. -/
def account (ticks : List (List TrackerCall)) : CorrectionsRow where
  tick := ticks.length
  corrections := (ticks.getLast?.getD []).count .correctionMade
  totalCorrections := corrections ticks
  totalTicksNoUpdates := ticksNoUpdates ticks

/-- The rows that these ticks should get. -/
def accounts (ticks : List (List TrackerCall)) : List CorrectionsRow :=
  (List.range ticks.length).map fun k => account (ticks.take (k + 1))

end TrackerCall

namespace CorrectionsTracker

open TrackerCall

/-- Perform a call. -/
def perform (tracker : CorrectionsTracker) : TrackerCall → CorrectionsTracker
  | .updatesReceivedInTick => tracker.updatesReceivedInTick
  | .correctionMade => tracker.correctionMade
  | .writeLine => tracker.writeLine

/-- A fresh tracker after a sequence of calls. -/
def after (calls : List TrackerCall) : CorrectionsTracker := calls.foldl perform {}

theorem after_concat (calls : List TrackerCall) (call : TrackerCall) :
    after (calls ++ [call]) = (after calls).perform call :=
  List.foldl_concat ..

end CorrectionsTracker

namespace TrackerCall

section Cut

variable (calls : List TrackerCall)

@[simp]
theorem completedTicks_writeLine :
    completedTicks (calls ++ [.writeLine]) = completedTicks calls ++ [currentTick calls] := by
  simp [completedTicks, currentTick, cut]

@[simp]
theorem currentTick_writeLine : currentTick (calls ++ [.writeLine]) = [] := by
  simp [currentTick, cut]

variable {call : TrackerCall}

theorem completedTicks_concat (h : call ≠ .writeLine) :
    completedTicks (calls ++ [call]) = completedTicks calls := by
  cases call with
  | writeLine => exact absurd rfl h
  | updatesReceivedInTick | correctionMade => simp [completedTicks, cut]

theorem currentTick_concat (h : call ≠ .writeLine) :
    currentTick (calls ++ [call]) = currentTick calls ++ [call] := by
  cases call with
  | writeLine => exact absurd rfl h
  | updatesReceivedInTick | correctionMade => simp [currentTick, cut]

end Cut

/-- What the tracker writes for the last of these ticks: its counters hold the
numbers as far as they can. -/
def written (ticks : List (List TrackerCall)) : CorrectionsRow where
  tick := (Int64.ofNat ticks.length).toInt
  corrections := (decide (.correctionMade ∈ ticks.getLast?.getD [])).toInt
  totalCorrections := (Int32.ofNat (corrections ticks)).toInt
  totalTicksNoUpdates := (Int32.ofNat (ticksNoUpdates ticks)).toInt

theorem corrections_append (first second : List (List TrackerCall)) :
    corrections (first ++ second) = corrections first + corrections second := by
  simp [corrections]

@[simp]
theorem corrections_concat (ticks : List (List TrackerCall)) (tick : List TrackerCall) :
    corrections (ticks ++ [tick]) = corrections ticks + tick.count .correctionMade := by
  simp [corrections]

theorem ticksNoUpdates_concat (ticks : List (List TrackerCall)) (tick : List TrackerCall) :
    ticksNoUpdates (ticks ++ [tick]) =
      ticksNoUpdates ticks + if .updatesReceivedInTick ∈ tick then 0 else 1 := by
  by_cases h : .updatesReceivedInTick ∈ tick <;> simp [ticksNoUpdates, h]

theorem toInt32_ofNat_eq_iff {n : ℕ} : (Int32.ofNat n).toInt = n ↔ n < 2 ^ 31 := by
  constructor
  · intro h
    have hlt := (Int32.ofNat n).toInt_lt
    omega
  · exact Int32.toInt_ofNat_of_lt

theorem toInt64_ofNat_eq_iff {n : ℕ} : (Int64.ofNat n).toInt = n ↔ n < 2 ^ 63 := by
  constructor
  · intro h
    have hlt := (Int64.ofNat n).toInt_lt
    omega
  · exact Int64.toInt_ofNat_of_lt

/-- The `bool` counts up to one. -/
theorem toInt_mem_eq_count_iff {tick : List TrackerCall} :
    (decide (.correctionMade ∈ tick)).toInt = (tick.count .correctionMade : ℤ) ↔
      tick.count .correctionMade ≤ 1 := by
  by_cases h : .correctionMade ∈ tick
  · have hpos := List.count_pos_iff.mpr h
    simp only [h, decide_true, Bool.toInt_true]
    omega
  · simp [h, List.count_eq_zero_of_not_mem h]

/-- The row of the last of these ticks is right: at most one correction in that
tick, and no counter has overflowed by then. -/
def Accountable (ticks : List (List TrackerCall)) : Prop :=
  (ticks.getLast?.getD []).count .correctionMade ≤ 1 ∧ corrections ticks < 2 ^ 31 ∧
    ticksNoUpdates ticks < 2 ^ 31 ∧ ticks.length < 2 ^ 63

theorem written_eq_account_iff {ticks : List (List TrackerCall)} :
    written ticks = account ticks ↔ Accountable ticks := by
  simp only [written, account, CorrectionsRow.mk.injEq, toInt_mem_eq_count_iff,
    toInt32_ofNat_eq_iff, toInt64_ofNat_eq_iff, Accountable]
  tauto

/-- A tick and those before it, as a part of all ticks. -/
theorem corrections_take_le (ticks : List (List TrackerCall)) (k : ℕ) :
    corrections (ticks.take k) ≤ corrections ticks := by
  have hsplit := corrections_append (ticks.take k) (ticks.drop k)
  rw [List.take_append_drop] at hsplit
  exact hsplit ▸ Nat.le_add_right _ _

theorem ticksNoUpdates_take_le (ticks : List (List TrackerCall)) (k : ℕ) :
    ticksNoUpdates (ticks.take k) ≤ ticksNoUpdates ticks :=
  (List.take_sublist k ticks).countP_le

theorem getLast?_take_succ {ticks : List (List TrackerCall)} {k : ℕ} (hk : k < ticks.length) :
    (ticks.take (k + 1)).getLast?.getD [] = ticks[k] := by
  rw [List.take_succ_eq_append_getElem hk, List.getLast?_concat, Option.getD_some]

/-- All rows are right: no tick has two corrections and the counters suffice. -/
theorem accountable_take_iff {ticks : List (List TrackerCall)} :
    (∀ k < ticks.length, Accountable (ticks.take (k + 1))) ↔
      (∀ tick ∈ ticks, tick.count .correctionMade ≤ 1) ∧ corrections ticks < 2 ^ 31 ∧
        ticksNoUpdates ticks < 2 ^ 31 ∧ ticks.length < 2 ^ 63 := by
  constructor
  · intro h
    refine ⟨fun tick htick => ?_, ?_⟩
    · obtain ⟨k, hk, rfl⟩ := List.getElem_of_mem htick
      rw [← getLast?_take_succ hk]
      exact (h k hk).1
    · cases hlength : ticks.length with
      | zero =>
          rw [List.length_eq_zero_iff] at hlength
          subst hlength
          decide
      | succ last =>
          have hlast := h last (hlength ▸ Nat.lt_succ_self last)
          rw [List.take_of_length_le (le_of_eq hlength)] at hlast
          exact hlength ▸ hlast.2
  · rintro ⟨hone, hcorrections, hnoUpdates, hlength⟩ k hk
    refine ⟨?_, ?_, ?_, ?_⟩
    · rw [getLast?_take_succ hk]
      exact hone _ (List.getElem_mem hk)
    · exact lt_of_le_of_lt (corrections_take_le ticks _) hcorrections
    · exact lt_of_le_of_lt (ticksNoUpdates_take_le ticks _) hnoUpdates
    · rw [List.length_take]
      omega

/-- A list of rows, one for each tick, grows by the row of the new tick. -/
theorem map_range_concat {row : List (List TrackerCall) → CorrectionsRow}
    (ticks : List (List TrackerCall)) (tick : List TrackerCall) :
    (List.range (ticks ++ [tick]).length).map (fun k => row ((ticks ++ [tick]).take (k + 1))) =
      (List.range ticks.length).map (fun k => row (ticks.take (k + 1))) ++
        [row (ticks ++ [tick])] := by
  rw [List.length_append, List.length_singleton, List.range_succ, List.map_append]
  congr 1
  · apply List.map_congr_left
    intro k hk
    rw [List.take_append_of_le_length (List.mem_range.mp hk)]
  · rw [List.map_singleton, List.take_of_length_le (by simp)]

end TrackerCall

namespace CorrectionsTracker

open TrackerCall

/-- What the state of a tracker says about the calls that led to it. -/
structure Reflects (calls : List TrackerCall) (tracker : CorrectionsTracker) : Prop where
  outputFile : tracker.outputFile = (List.range (completedTicks calls).length).map fun k =>
    written ((completedTicks calls).take (k + 1))
  tick : tracker.tick = Int64.ofNat (completedTicks calls).length
  totalCorrections : tracker.totalCorrections =
    Int32.ofNat (corrections (completedTicks calls) + (currentTick calls).count .correctionMade)
  totalTicksNoUpdates : tracker.totalTicksNoUpdates =
    Int32.ofNat (ticksNoUpdates (completedTicks calls))
  updatesReceivedInThisTick : tracker.updatesReceivedInThisTick =
    decide (.updatesReceivedInTick ∈ currentTick calls)
  correctionsMadeInThisTick : tracker.correctionsMadeInThisTick =
    decide (.correctionMade ∈ currentTick calls)

/-- Every call keeps the state in step with the history. -/
theorem Reflects.perform {calls : List TrackerCall} {tracker : CorrectionsTracker}
    (h : Reflects calls tracker) (call : TrackerCall) :
    Reflects (calls ++ [call]) (tracker.perform call) := by
  cases call with
  | updatesReceivedInTick =>
      have hcall : TrackerCall.updatesReceivedInTick ≠ .writeLine := nofun
      constructor <;>
        simp only [CorrectionsTracker.perform, CorrectionsTracker.updatesReceivedInTick,
          completedTicks_concat _ hcall, currentTick_concat _ hcall]
      · exact h.outputFile
      · exact h.tick
      · rw [h.totalCorrections, List.count_append]
        rfl
      · exact h.totalTicksNoUpdates
      · simp
      · simp [h.correctionsMadeInThisTick]
  | correctionMade =>
      have hcall : TrackerCall.correctionMade ≠ .writeLine := nofun
      constructor <;>
        simp only [CorrectionsTracker.perform, CorrectionsTracker.correctionMade,
          completedTicks_concat _ hcall, currentTick_concat _ hcall]
      · exact h.outputFile
      · exact h.tick
      · rw [h.totalCorrections, List.count_append, List.count_singleton_self, ← Nat.add_assoc,
          Int32.ofNat_add (_ + _) 1]
        rfl
      · exact h.totalTicksNoUpdates
      · simp [h.updatesReceivedInThisTick]
      · simp
  | writeLine =>
      have htick : tracker.tick + 1 = Int64.ofNat ((completedTicks calls).length + 1) := by
        rw [h.tick, Int64.ofNat_add]
        rfl
      have hnoUpdates : (if tracker.updatesReceivedInThisTick then tracker.totalTicksNoUpdates
          else tracker.totalTicksNoUpdates + 1) =
          Int32.ofNat (ticksNoUpdates (completedTicks calls ++ [currentTick calls])) := by
        rw [h.updatesReceivedInThisTick, h.totalTicksNoUpdates, ticksNoUpdates_concat]
        by_cases hupdate : .updatesReceivedInTick ∈ currentTick calls
        · simp [hupdate]
        · simp [hupdate, Int32.ofNat_add]
      constructor <;>
        simp only [CorrectionsTracker.perform, CorrectionsTracker.writeLine,
          completedTicks_writeLine, currentTick_writeLine]
      · rw [map_range_concat, h.outputFile, htick, hnoUpdates, h.correctionsMadeInThisTick,
          h.totalCorrections]
        simp [written]
      · rw [htick, List.length_append, List.length_singleton]
      · rw [h.totalCorrections, corrections_concat, List.count_nil, Nat.add_zero]
      · exact hnoUpdates
      · simp
      · simp

theorem reflects_after (calls : List TrackerCall) : Reflects calls (after calls) := by
  induction calls using List.reverseRecOn with
  | nil => exact ⟨rfl, rfl, rfl, rfl, rfl, rfl⟩
  | append_singleton calls call ih =>
      rw [after_concat]
      exact ih.perform call

/-- The rows are what the history says: the number of the tick, its corrections,
all corrections so far and the ticks without updates so far. At every row the
corrections of the ticks so far add up to the total. -/
structure FaithfulAccount (calls : List TrackerCall) : Prop where
  rows : (after calls).outputFile = accounts (completedTicks calls)
  sums : ∀ k row, (after calls).outputFile[k]? = some row →
    (((after calls).outputFile.take (k + 1)).map CorrectionsRow.corrections).sum =
      row.totalCorrections

/-- Rows that are right add up. -/
theorem sum_corrections_accounts (ticks : List (List TrackerCall)) {k : ℕ}
    (hk : k ≤ ticks.length) :
    (((accounts ticks).take k).map CorrectionsRow.corrections).sum =
      (corrections (ticks.take k) : ℤ) := by
  induction k with
  | zero => rfl
  | succ k ih =>
      have hrow : (accounts ticks)[k]? = some (account (ticks.take (k + 1))) := by
        simp [accounts, List.getElem?_range (Nat.lt_of_succ_le hk)]
      rw [List.take_add_one, hrow, Option.toList_some, List.map_append, List.sum_append,
        ih (Nat.le_of_succ_le hk), List.map_singleton, List.sum_singleton, account,
        getLast?_take_succ (Nat.lt_of_succ_le hk),
        List.take_succ_eq_append_getElem (Nat.lt_of_succ_le hk), corrections_concat,
        Nat.cast_add]

/-- The log is a faithful account of the calls if and only if `correctionMade`
is called at most once in every tick that was written and the counters can hold
what they count. -/
theorem faithfulAccount_iff (calls : List TrackerCall) :
    FaithfulAccount calls ↔
      (∀ tick ∈ completedTicks calls, tick.count .correctionMade ≤ 1) ∧
        corrections (completedTicks calls) < 2 ^ 31 ∧
        ticksNoUpdates (completedTicks calls) < 2 ^ 31 ∧
        (completedTicks calls).length < 2 ^ 63 := by
  have hrows : (after calls).outputFile = accounts (completedTicks calls) ↔
      ∀ k < (completedTicks calls).length,
        Accountable ((completedTicks calls).take (k + 1)) := by
    rw [(reflects_after calls).outputFile, accounts, List.map_inj_left]
    simp only [List.mem_range, written_eq_account_iff]
  rw [← accountable_take_iff, ← hrows]
  constructor
  · exact FaithfulAccount.rows
  · intro h
    refine ⟨h, fun k row hrow => ?_⟩
    have hk : k < (completedTicks calls).length := by
      have hlt := (List.getElem?_eq_some_iff.mp hrow).1
      simpa [h, accounts] using hlt
    have haccount : account ((completedTicks calls).take (k + 1)) = row := by
      simpa [h, accounts, List.getElem?_range hk] using hrow
    rw [h, sum_corrections_accounts _ hk, ← haccount]
    rfl

/-- Two corrections in one tick are written as one. -/
theorem two_corrections_written_as_one :
    (after [.correctionMade, .correctionMade, .writeLine]).outputFile = [⟨1, 1, 2, 1⟩] ∧
      ¬ FaithfulAccount [.correctionMade, .correctionMade, .writeLine] :=
  ⟨by decide, fun h => absurd h.rows (by decide)⟩

end CorrectionsTracker

end LibBench
