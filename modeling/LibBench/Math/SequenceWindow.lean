/-
# Windows of sequence numbers

Sequence numbers of sixteen bits come round again, so two of them are compared
by how far each lies beyond a third, the start of a window. Inside a window that
is no longer than half the numbers, that distance orders them as if they did not
come round.

A ring keeps the entry of a number at the number's remainder. When its size
divides the count of all numbers, the remainder does not jump where they come
round, and two numbers of a window as long as the ring never share a place.
-/

import Mathlib.Data.Nat.ModEq

namespace LibBench.Math

/-- How far a number lies beyond the start of a window. -/
def offset (start number : UInt16) : ℕ :=
  (number - start).toNat

section Window

variable {start first second : UInt16} {size : ℕ}

@[simp]
theorem offset_self (start : UInt16) : offset start start = 0 := by
  simp [offset]

theorem offset_eq (start number : UInt16) :
    offset start number = (65536 - start.toNat + number.toNat) % 65536 := by
  rw [offset, UInt16.toNat_sub]

/-- The distance and the start determine the number. -/
theorem toNat_eq_add_offset (start number : UInt16) :
    number.toNat = (start.toNat + offset start number) % 65536 := by
  have hstart := start.toNat_lt
  have hnumber := number.toNat_lt
  rw [offset_eq]
  omega

theorem eq_of_offset_eq (h : offset start first = offset start second) : first = second := by
  apply UInt16.toNat_inj.mp
  rw [toNat_eq_add_offset start first, h, ← toNat_eq_add_offset]

theorem offset_eq_zero_iff : offset start first = 0 ↔ first = start :=
  ⟨fun h => eq_of_offset_eq (h.trans (offset_self start).symm), fun h => h ▸ offset_self start⟩

/-- The end of a window moves on. -/
theorem offset_add_one (h : offset start first + 1 < 65536) :
    offset start (first + 1) = offset start first + 1 := by
  have hstart := start.toNat_lt
  have hfirst := first.toNat_lt
  rw [offset_eq] at h ⊢
  rw [offset_eq, UInt16.toNat_add, UInt16.toNat_one]
  omega

/-- So does its start. -/
theorem offset_start_add_one (h : first ≠ start) :
    offset (start + 1) first + 1 = offset start first := by
  have hne := mt offset_eq_zero_iff.mp h
  have hstart := start.toNat_lt
  have hfirst := first.toNat_lt
  rw [offset_eq] at hne ⊢
  rw [offset_eq, UInt16.toNat_add, UInt16.toNat_one]
  omega

variable (start) in
/-- The places of two numbers in a ring agree when their distances do. -/
theorem mod_eq_mod_iff_offset (hsize : size ∣ 65536) :
    first.toNat % size = second.toNat % size ↔
      offset start first % size = offset start second % size := by
  rw [toNat_eq_add_offset start first, toNat_eq_add_offset start second,
    Nat.mod_mod_of_dvd _ hsize, Nat.mod_mod_of_dvd _ hsize]
  exact ⟨Nat.ModEq.add_left_cancel' start.toNat, Nat.ModEq.add_left start.toNat⟩

/-- Two numbers of one window have places of their own. -/
theorem eq_of_mod_eq_mod (hsize : size ∣ 65536) (hfirst : offset start first < size)
    (hsecond : offset start second < size) (h : first.toNat % size = second.toNat % size) :
    first = second := by
  have hplaces := (mod_eq_mod_iff_offset start hsize).mp h
  rw [Nat.mod_eq_of_lt hfirst, Nat.mod_eq_of_lt hsecond] at hplaces
  exact eq_of_offset_eq hplaces

/-- A window as long as the ring ends where it starts. -/
theorem mod_eq_mod_of_offset_eq_size (hsize : size ∣ 65536) (h : offset start first = size) :
    first.toNat % size = start.toNat % size := by
  rw [mod_eq_mod_iff_offset start hsize, h, offset_self, Nat.mod_self, Nat.zero_mod]

end Window

end LibBench.Math
