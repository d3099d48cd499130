/-
# Protocols that count

A protocol numbers what it sends and keeps the numbers in a machine word, where
they come round. What it means by them is a count that does not. Code written
over `SequenceNumber` has both readings: with numbers of sixteen bits it is the
program, with integers it is the protocol that the program stands for.

`wrap` takes the second reading to the first. It commutes with adding, and with
a comparison as long as the two counts are less than half a turn apart; two
counts less than a whole turn apart have different numbers.
-/

import Mathlib.Algebra.Order.Group.Unbundled.Int
import Mathlib.Data.Int.ModEq

namespace LibBench.Math

/-- The integer type that sequence numbers are of: how it converts from and to
the arithmetic of `int`, and how two numbers are compared. -/
class SequenceNumber (ν : Type) where
  ofInt : ℤ → ν
  toInt : ν → ℤ
  greaterThan : ν → ν → Bool

/-- Numbers of sixteen bits. One is greater than another if the shorter way up
leads from the other to it. -/
instance : SequenceNumber UInt16 where
  ofInt := UInt16.ofInt
  toInt number := number.toNat
  greaterThan first second :=
    (second < first && first.toNat - second.toNat ≤ 32768) ||
      (first < second && 32768 < second.toNat - first.toNat)

/-- Numbers that never come round. -/
instance : SequenceNumber ℤ where
  ofInt number := number
  toInt number := number
  greaterThan first second := second < first

namespace SequenceNumber

variable {ν : Type} [SequenceNumber ν]

/-- A number so many places on, or back. -/
def add (number : ν) (distance : ℤ) : ν :=
  ofInt (toInt number + distance)

/-- The number is less than the other. -/
def lessThan (first second : ν) : Bool :=
  greaterThan second first

/-- The place of a number in a ring. -/
def place (number : ν) (size : ℕ) : ℕ :=
  (toInt number % size).toNat

/-- How far up it is from the first number to the second. -/
def distance (first second : ν) : ℤ :=
  toInt second + (if toInt second < toInt first then 65536 else 0) - toInt first

section Count

@[simp]
theorem ofInt_count (number : ℤ) : (ofInt number : ℤ) = number := rfl

@[simp]
theorem toInt_count (number : ℤ) : toInt number = number := rfl

@[simp]
theorem add_count (number distance : ℤ) : add number distance = number + distance := rfl

@[simp]
theorem greaterThan_count (first second : ℤ) :
    greaterThan first second = decide (second < first) := rfl

@[simp]
theorem lessThan_count (first second : ℤ) :
    lessThan first second = decide (first < second) := rfl

theorem distance_count {first second : ℤ} (h : first ≤ second) :
    distance first second = second - first := by
  simp only [distance, toInt_count]
  rw [if_neg (not_lt.mpr h), add_zero]

variable {size : ℕ} {first second : ℤ}

theorem place_lt (hsize : 0 < size) (number : ℤ) : place number size < size := by
  have hlt := Int.emod_lt_of_pos number (Int.natCast_pos.mpr hsize)
  rw [place, toInt_count]
  omega

/-- Two counts of one place are some turns of the ring apart. -/
theorem dvd_sub_of_place_eq (hsize : 0 < size) (h : place first size = place second size) :
    (size : ℤ) ∣ first - second := by
  have hne : (size : ℤ) ≠ 0 := by omega
  have hfirst := Int.emod_nonneg first hne
  have hsecond := Int.emod_nonneg second hne
  simp only [place, toInt_count] at h
  exact Int.ModEq.dvd (show second % size = first % size by omega)

/-- Less than one turn apart, they are the same. -/
theorem eq_of_place_eq (h : place first size = place second size)
    (hlt : first < second + size) (hgt : second < first + size) : first = second := by
  have hsize : 0 < size := by omega
  have hzero := Int.eq_zero_of_abs_lt_dvd (dvd_sub_of_place_eq hsize h)
    (abs_lt.mpr ⟨by omega, by omega⟩)
  omega

theorem place_add_size (number : ℤ) : place (number + size) size = place number size := by
  simp [place]

end Count

/-- The number of sixteen bits that stands for a count. -/
def wrap (count : ℤ) : UInt16 :=
  ofInt count

section Wrap

variable {first second : ℤ}

theorem greaterThan_sixteen (first second : UInt16) :
    greaterThan first second =
      ((second < first && first.toNat - second.toNat ≤ 32768) ||
        (first < second && 32768 < second.toNat - first.toNat) : Bool) := rfl

@[simp]
theorem toInt_wrap (count : ℤ) : toInt (wrap count) = count % 65536 := by
  have hnonneg := Int.emod_nonneg count (show (65536 : ℤ) ≠ 0 by decide)
  have hlt := Int.emod_lt_of_pos count (show (0 : ℤ) < 65536 by decide)
  change ((UInt16.ofNat (count % 65536).toNat).toNat : ℤ) = _
  have hsmall : (count % 65536).toNat < UInt16.size := by
    change _ < 65536
    omega
  rw [UInt16.toNat_ofNat_of_lt' hsmall, Int.toNat_of_nonneg hnonneg]

theorem wrap_eq_wrap_iff : wrap first = wrap second ↔ first % 65536 = second % 65536 := by
  rw [← toInt_wrap, ← toInt_wrap]
  constructor
  · exact congrArg toInt
  · exact fun h => UInt16.toNat_inj.mp (Int.ofNat_inj.mp h)

/-- Less than a whole turn apart, two counts have different numbers. -/
theorem eq_of_wrap_eq_wrap (h : wrap first = wrap second) (hlt : first < second + 65536)
    (hgt : second < first + 65536) : first = second := by
  have hmod := wrap_eq_wrap_iff.mp h
  omega

@[simp]
theorem ofInt_eq_wrap (count : ℤ) : (ofInt count : UInt16) = wrap count := rfl

theorem toInt_nonneg (number : UInt16) : 0 ≤ toInt number :=
  Int.natCast_nonneg _

theorem toInt_lt (number : UInt16) : toInt number < 65536 := by
  have hlt := number.toNat_lt
  change (number.toNat : ℤ) < 65536
  omega

@[simp]
theorem wrap_toInt (number : UInt16) : wrap (toInt number) = number := by
  have heq : toInt (wrap (toInt number)) = toInt number := by
    rw [toInt_wrap, Int.emod_eq_of_lt (toInt_nonneg number) (toInt_lt number)]
  exact UInt16.toNat_inj.mp (Int.ofNat_inj.mp heq)

@[simp]
theorem add_wrap (count distance : ℤ) : add (wrap count) distance = wrap (count + distance) := by
  rw [add, ofInt_eq_wrap, wrap_eq_wrap_iff, toInt_wrap, Int.emod_add_emod]

/-- Less than half a turn apart, two counts are ordered as their numbers are. -/
theorem greaterThan_wrap (hlt : first < second + 32768) (hgt : second < first + 32768) :
    greaterThan (wrap first) (wrap second) = greaterThan first second := by
  have hfirst : ((wrap first).toNat : ℤ) = first % 65536 := toInt_wrap first
  have hsecond : ((wrap second).toNat : ℤ) = second % 65536 := toInt_wrap second
  rw [Bool.eq_iff_iff, greaterThan_sixteen, greaterThan_count]
  simp only [UInt16.lt_iff_toNat_lt, Bool.or_eq_true, Bool.and_eq_true, decide_eq_true_eq]
  omega

theorem lessThan_wrap (hlt : first < second + 32768) (hgt : second < first + 32768) :
    lessThan (wrap first) (wrap second) = lessThan first second :=
  greaterThan_wrap hgt hlt

/-- A ring whose size divides the turn has no jump where the numbers come round. -/
theorem place_wrap {size : ℕ} (hsize : size ∣ 65536) (count : ℤ) :
    place (wrap count) size = place count size := by
  have hdvd : (size : ℤ) ∣ 65536 := by exact_mod_cast hsize
  rw [place, place, toInt_wrap, toInt_count, Int.emod_emod_of_dvd _ hdvd]

theorem distance_wrap (hle : first ≤ second) (hlt : second < first + 65536) :
    distance (wrap first) (wrap second) = distance first second := by
  rw [distance_count hle]
  simp only [distance, toInt_wrap]
  split <;> omega

end Wrap

end SequenceNumber

end LibBench.Math
