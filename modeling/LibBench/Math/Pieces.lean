/-
# Lists cut into pieces

A list is cut into pieces of one size, of which the last may be shorter, and each
piece is put into a buffer at the place that its number gives it. Pieces do not
overlap, so what the buffer holds depends only on which of them have been put in,
and with all of them it starts with the list.
-/

import Mathlib.Data.Finset.Insert
import Mathlib.Data.List.Basic

namespace LibBench.Math

variable {α : Type*}

/-- How many pieces of a size there are. -/
def pieceCount (size length : ℕ) : ℕ :=
  length / size + if length % size ≠ 0 then 1 else 0

/-- The piece with a number. -/
def piece (size : ℕ) (whole : List α) (i : ℕ) : List α :=
  (whole.drop (i * size)).take size

/-- Put data over what a buffer has at an offset, if it is long enough. -/
def overwrite (buffer : List α) (offset : ℕ) (data : List α) : Option (List α) :=
  if offset + data.length ≤ buffer.length then
    some (buffer.take offset ++ data ++ buffer.drop (offset + data.length))
  else none

/-- A buffer into which the pieces with these numbers have been put. -/
def filled (blank : α) (size capacity : ℕ) (whole : List α) (numbers : Finset ℕ) : List α :=
  (List.range capacity).map fun index =>
    if index / size ∈ numbers then whole[index]?.getD blank else blank

variable {size capacity length i : ℕ} {blank : α} {whole : List α} {numbers : Finset ℕ}

theorem lt_pieceCount_iff (hsize : 0 < size) : i < pieceCount size length ↔ i * size < length := by
  have hlength := Nat.div_add_mod' length size
  have hlt := Nat.mod_lt length hsize
  rw [pieceCount]
  split
  · next hrest =>
      constructor
      · intro hi
        have hle := Nat.mul_le_mul_right size (show i ≤ length / size by omega)
        omega
      · intro hi
        by_contra hge
        have hle := Nat.mul_le_mul_right size (show length / size + 1 ≤ i by omega)
        rw [Nat.succ_mul] at hle
        omega
  · next hrest =>
      rw [Nat.add_zero, ← Nat.mul_lt_mul_right hsize]
      omega

theorem pieceCount_pos (hsize : 0 < size) (hlength : 0 < length) : 0 < pieceCount size length :=
  (lt_pieceCount_iff hsize).mpr (by omega)

theorem length_piece (size : ℕ) (whole : List α) (i : ℕ) :
    (piece size whole i).length = min size (whole.length - i * size) := by
  rw [piece, List.length_take, List.length_drop]

/-- All pieces but the last have the size. -/
theorem length_piece_of_lt (hsize : 0 < size) (h : i + 1 < pieceCount size whole.length) :
    (piece size whole i).length = size := by
  have hnext := (lt_pieceCount_iff hsize).mp h
  rw [Nat.succ_mul] at hnext
  rw [length_piece]
  omega

/-- The last has the rest. -/
theorem length_piece_of_last (hsize : 0 < size) (h : i + 1 = pieceCount size whole.length) :
    i * size + (piece size whole i).length = whole.length := by
  have hlast : i * size < whole.length := (lt_pieceCount_iff hsize).mp (by omega)
  have hend : ¬(i + 1) * size < whole.length := mt (lt_pieceCount_iff hsize).mpr (by omega)
  rw [Nat.succ_mul] at hend
  rw [length_piece]
  omega

theorem length_filled : (filled blank size capacity whole numbers).length = capacity := by
  simp [filled]

theorem getElem?_filled (index : ℕ) :
    (filled blank size capacity whole numbers)[index]? =
      if index < capacity then
        some (if index / size ∈ numbers then whole[index]?.getD blank else blank)
      else none := by
  rw [filled, List.getElem?_map]
  split
  · next hin => simp [hin]
  · next hout => simp [hout]

theorem filled_empty : filled blank size capacity whole ∅ = List.replicate capacity blank := by
  simp [filled, List.map_const']

theorem length_of_overwrite {buffer data after : List α} {offset : ℕ}
    (h : overwrite buffer offset data = some after) : after.length = buffer.length := by
  rw [overwrite] at h
  split at h
  · next hroom =>
      obtain rfl := Option.some_inj.mp h
      simp only [List.length_append, List.length_take, List.length_drop]
      omega
  · cases h

theorem getElem?_of_overwrite {buffer data after : List α} {offset : ℕ}
    (h : overwrite buffer offset data = some after) (index : ℕ) :
    after[index]? =
      if offset ≤ index ∧ index < offset + data.length then data[index - offset]?
      else buffer[index]? := by
  rw [overwrite] at h
  split at h
  · next hroom =>
      obtain rfl := Option.some_inj.mp h
      have hbefore : (buffer.take offset).length = offset := List.length_take_of_le (by omega)
      have hmiddle : (buffer.take offset ++ data).length = offset + data.length := by
        rw [List.length_append, hbefore]
      by_cases hlow : index < offset
      · rw [if_neg (by omega), List.append_assoc, List.getElem?_append_left (by omega),
          List.getElem?_take_of_lt hlow]
      by_cases hhigh : index < offset + data.length
      · rw [if_pos (by omega), List.getElem?_append_left (by omega),
          List.getElem?_append_right (by omega), hbefore]
      · rw [if_neg (by omega), List.getElem?_append_right (by omega), hmiddle,
          List.getElem?_drop]
        congr 1
        omega
  · cases h

/-- One more piece is there, and the others as they were. -/
theorem overwrite_filled (hsize : 0 < size)
    (hroom : i * size + (piece size whole i).length ≤ capacity) :
    overwrite (filled blank size capacity whole numbers) (i * size) (piece size whole i) =
      some (filled blank size capacity whole (insert i numbers)) := by
  obtain ⟨after, hafter⟩ : ∃ after, overwrite (filled blank size capacity whole numbers)
      (i * size) (piece size whole i) = some after := by
    rw [overwrite, length_filled, if_pos hroom]
    exact ⟨_, rfl⟩
  rw [hafter]
  congr 1
  apply List.ext_getElem?
  intro index
  have hlength := length_piece size whole i
  rw [getElem?_of_overwrite hafter, getElem?_filled, getElem?_filled]
  have hnumber : index / size = i ↔ i * size ≤ index ∧ index < i * size + size := by
    rw [Nat.div_eq_iff hsize]
    omega
  by_cases hi : index / size = i
  · obtain ⟨hle, hlt⟩ := hnumber.mp hi
    rw [hi, if_pos (Finset.mem_insert_self i numbers)]
    by_cases hin : index < i * size + (piece size whole i).length
    · have hwhole : index < whole.length := by omega
      rw [if_pos ⟨hle, hin⟩, if_pos (by omega), piece, List.getElem?_take_of_lt (by omega),
        List.getElem?_drop, Nat.add_sub_cancel' hle, List.getElem?_eq_getElem hwhole,
        Option.getD_some]
    · rw [if_neg fun h => hin h.2, List.getElem?_eq_none (by omega), Option.getD_none, ite_self]
  · have hother : index / size ∈ insert i numbers ↔ index / size ∈ numbers := by
      rw [Finset.mem_insert, or_iff_right hi]
    simp only [hother]
    rw [if_neg fun h => hi (hnumber.mpr (by omega))]

/-- With all pieces there, the buffer begins with the list. -/
theorem take_filled (hsize : 0 < size) (hroom : whole.length ≤ capacity)
    (hall : ∀ i < pieceCount size whole.length, i ∈ numbers) :
    (filled blank size capacity whole numbers).take whole.length = whole := by
  apply List.ext_getElem?
  intro index
  rw [List.getElem?_take, getElem?_filled]
  split
  · next hin =>
      have hnumber : index / size ∈ numbers := by
        apply hall
        rw [lt_pieceCount_iff hsize]
        exact (Nat.div_mul_le_self index size).trans_lt hin
      rw [if_pos (by omega), if_pos hnumber, List.getElem?_eq_getElem hin, Option.getD_some]
  · next hout => rw [List.getElem?_eq_none (by omega)]

end LibBench.Math
