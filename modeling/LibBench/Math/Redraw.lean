/-
# Drawing again until a draw will do

A loop draws from a random source until a draw will do, and has no other exit.
The source is a stream that never ends; a loop is given the draws it has read so
far and says whether it has ended with them. So the loop ends when it does for
some beginning of the stream.

What such a loop yields is decided by the first draw that will do. The stream
may be arbitrary: fairness is a property of it, not a part of the loop.
-/

import Mathlib.Data.List.Basic
import Mathlib.Data.Nat.Find

namespace LibBench.Math

universe uδ uβ

variable {δ : Type uδ} {β : Type uβ}

/-- The draws of a stream that have been read so far. -/
def drawn (draws : ℕ → δ) (count : ℕ) : List δ := (List.range count).map draws

/-- The loop ends on the stream, with this result. -/
def EndsWith (loop : List δ → Option β) (draws : ℕ → δ) (result : β) : Prop :=
  ∃ count, loop (drawn draws count) = some result

/-- This is the first draw of the stream that will do, and what it yields. -/
def FirstYield (yield : δ → Option β) (draws : ℕ → δ) (index : ℕ) (result : β) : Prop :=
  yield (draws index) = some result ∧ ∀ earlier < index, yield (draws earlier) = none

/-- Each of the draws that have the property comes again and again. -/
def InfinitelyOften (property : δ → Prop) (draws : ℕ → δ) : Prop :=
  ∀ start, ∃ index, start ≤ index ∧ property (draws index)

theorem drawn_succ (draws : ℕ → δ) (count : ℕ) :
    drawn draws (count + 1) = drawn draws count ++ [draws count] := by
  rw [drawn, List.range_succ, List.map_append, List.map_singleton, drawn]

theorem mem_drawn {draws : ℕ → δ} {count : ℕ} {draw : δ} :
    draw ∈ drawn draws count ↔ ∃ index < count, draws index = draw := by
  simp [drawn]

/-- A loop that goes on to make something of its result ends when it does. -/
theorem endsWith_map_iff {γ : Type*} {loop : List δ → Option β} {make : β → γ} {draws : ℕ → δ}
    {made : γ} :
    EndsWith (fun read => (loop read).map make) draws made ↔
      ∃ result, EndsWith loop draws result ∧ make result = made := by
  simp only [EndsWith, Option.map_eq_some_iff]
  constructor
  · rintro ⟨count, result, hresult, hmade⟩
    exact ⟨result, ⟨count, hresult⟩, hmade⟩
  · rintro ⟨result, ⟨count, hresult⟩, hmade⟩
    exact ⟨count, result, hresult, hmade⟩

section FirstYield

variable {yield : δ → Option β} {draws : ℕ → δ} {count index : ℕ} {result : β}

/-- Nothing that has been drawn will do. -/
theorem findSome?_drawn_eq_none_iff :
    (drawn draws count).findSome? yield = none ↔ ∀ index < count, yield (draws index) = none := by
  simp only [List.findSome?_eq_none_iff, mem_drawn, forall_exists_index, and_imp,
    forall_apply_eq_imp_iff₂]

/-- There is at most one first draw that will do. -/
theorem FirstYield.unique {other : ℕ} {otherResult : β}
    (h : FirstYield yield draws index result)
    (hother : FirstYield yield draws other otherResult) :
    index = other ∧ result = otherResult := by
  have hle {first second : ℕ} {yielded : β} (hyield : yield (draws first) = some yielded)
      (hnone : ∀ earlier < second, yield (draws earlier) = none) : second ≤ first := by
    by_contra hlt
    rw [hnone first (not_le.mp hlt)] at hyield
    cases hyield
  obtain rfl := le_antisymm (hle hother.1 h.2) (hle h.1 hother.2)
  exact ⟨rfl, Option.some.inj (h.1.symm.trans hother.1)⟩

/-- Searching what has been drawn finds the first draw that will do. -/
theorem findSome?_drawn_eq_some_iff :
    (drawn draws count).findSome? yield = some result ↔
      ∃ index < count, FirstYield yield draws index result := by
  induction count generalizing result with
  | zero => simp [drawn]
  | succ count ih =>
      rw [drawn_succ, List.findSome?_append]
      cases hbefore : (drawn draws count).findSome? yield with
      | some found =>
          obtain ⟨first, hlt, hfirst⟩ := ih.mp hbefore
          rw [Option.some_or, Option.some.injEq]
          constructor
          · rintro rfl
            exact ⟨first, Nat.lt_succ_of_lt hlt, hfirst⟩
          · rintro ⟨index, _, hindex⟩
            exact (hfirst.unique hindex).2
      | none =>
          have hnone := findSome?_drawn_eq_none_iff.mp hbefore
          rw [Option.none_or, List.findSome?_singleton]
          constructor
          · intro hyield
            exact ⟨count, Nat.lt_succ_self count, hyield, hnone⟩
          · rintro ⟨index, hindex, hfirst⟩
            rcases Nat.lt_succ_iff_lt_or_eq.mp hindex with hlt | rfl
            · exact absurd (hfirst.1.symm.trans (hnone index hlt)) (Option.some_ne_none result)
            · exact hfirst.1

/-- A draw that will do is preceded by, or is, the first that will. -/
theorem exists_firstYield_iff :
    (∃ index result, FirstYield yield draws index result) ↔
      ∃ index, (yield (draws index)).isSome := by
  constructor
  · rintro ⟨index, result, hfirst, _⟩
    exact ⟨index, by rw [hfirst, Option.isSome_some]⟩
  · intro hsome
    classical
    obtain ⟨result, hresult⟩ := Option.isSome_iff_exists.mp (Nat.find_spec hsome)
    refine ⟨Nat.find hsome, result, hresult, fun earlier hearlier => ?_⟩
    exact Option.not_isSome_iff_eq_none.mp (Nat.find_min hsome hearlier)

/-- A loop that searches its draws ends with the first one that will do. -/
theorem endsWith_findSome?_iff :
    EndsWith (List.findSome? yield) draws result ↔
      ∃ index, FirstYield yield draws index result := by
  simp only [EndsWith, findSome?_drawn_eq_some_iff]
  constructor
  · rintro ⟨_, index, _, hfirst⟩
    exact ⟨index, hfirst⟩
  · rintro ⟨index, hfirst⟩
    exact ⟨index + 1, index, Nat.lt_succ_self index, hfirst⟩

/-- It ends at all when there is one. -/
theorem exists_endsWith_findSome?_iff :
    (∃ result, EndsWith (List.findSome? yield) draws result) ↔
      ∃ index, (yield (draws index)).isSome := by
  simp only [endsWith_findSome?_iff, ← exists_firstYield_iff]
  exact exists_comm

end FirstYield

end LibBench.Math
