/-
# Fields packed into one number

Fields of given numbers of bits, put side by side without padding, are one
number: the first field is its lowest bits. A field is read off at its place,
which is where the fields before it end, and is not disturbed by what comes
before or after it as long as every field fits into its bits.

Memory holds such a number as words of 32 bits, the lowest word first.
-/

import Mathlib.Algebra.Order.Group.Nat
import Mathlib.Tactic.Ring

namespace LibBench.Math

/-- A value and the number of bits that it is stored in. -/
structure Field where
  value : ℕ
  bits : ℕ

namespace Field

/-- The value does not need more bits. -/
def Fits (field : Field) : Prop := field.value < 2 ^ field.bits

/-- The bits of some fields together. -/
def width (fields : List Field) : ℕ := (fields.map bits).sum

/-- The number that the fields make. -/
def pack : List Field → ℕ
  | [] => 0
  | field :: fields => field.value + 2 ^ field.bits * pack fields

@[simp]
theorem width_cons (field : Field) (fields : List Field) :
    width (field :: fields) = field.bits + width fields := rfl

@[simp]
theorem width_append (first second : List Field) :
    width (first ++ second) = width first + width second := by
  simp [width]

theorem pack_append (first second : List Field) :
    pack (first ++ second) = pack first + 2 ^ width first * pack second := by
  induction first with
  | nil => simp [pack, width]
  | cons field fields ih =>
      rw [List.cons_append, pack, ih, pack, width_cons]
      ring

/-- Fields that fit make a number that fits. -/
theorem pack_lt {fields : List Field} (h : ∀ field ∈ fields, field.Fits) :
    pack fields < 2 ^ width fields := by
  induction fields with
  | nil => exact Nat.one_pos
  | cons field fields ih =>
      obtain ⟨hfield, hrest⟩ := List.forall_mem_cons.mp h
      have hlt : pack fields + 1 ≤ 2 ^ width fields := ih hrest
      calc pack (field :: fields)
          < 2 ^ field.bits + 2 ^ field.bits * pack fields := Nat.add_lt_add_right hfield _
        _ = 2 ^ field.bits * (pack fields + 1) := by ring
        _ ≤ 2 ^ field.bits * 2 ^ width fields := Nat.mul_le_mul_left _ hlt
        _ = 2 ^ width (field :: fields) := by rw [width_cons, Nat.pow_add]

end Field

/-- The bits of a number from a place on. -/
def bitsAt (number place bits : ℕ) : ℕ :=
  number / 2 ^ place % 2 ^ bits

theorem bitsAt_lt (number place bits : ℕ) : bitsAt number place bits < 2 ^ bits :=
  Nat.mod_lt _ (Nat.two_pow_pos bits)

/-- The lower part of some bits. -/
theorem bitsAt_add_mod (number place lower upper : ℕ) :
    bitsAt number place (lower + upper) % 2 ^ lower = bitsAt number place lower := by
  rw [bitsAt, bitsAt, Nat.pow_add, Nat.mod_mul_right_mod]

/-- And the upper part. -/
theorem bitsAt_add_div (number place lower upper : ℕ) :
    bitsAt number place (lower + upper) / 2 ^ lower = bitsAt number (place + lower) upper := by
  rw [bitsAt, bitsAt, Nat.pow_add, Nat.mod_mul_right_div_self, Nat.div_div_eq_div_mul,
    ← Nat.pow_add]

/-- The two parts side by side. -/
theorem bitsAt_add (number place lower upper : ℕ) :
    bitsAt number place (lower + upper) =
      bitsAt number place lower + 2 ^ lower * bitsAt number (place + lower) upper := by
  rw [← bitsAt_add_mod number place lower upper, ← bitsAt_add_div, Nat.mod_add_div]

/-- Bits below the cut do not depend on what is above it. -/
theorem bitsAt_mod {number place bits cut : ℕ} (h : place + bits ≤ cut) :
    bitsAt (number % 2 ^ cut) place bits = bitsAt number place bits := by
  obtain ⟨further, rfl⟩ := Nat.exists_eq_add_of_le h
  rw [← bitsAt_add_mod (number % _) place bits further, ← bitsAt_add_mod number place bits further,
    bitsAt, bitsAt, Nat.add_assoc, Nat.pow_add 2 place, Nat.mod_mul_right_div_self, Nat.mod_mod]

/-- The first of the fields, where all of them are. -/
theorem bitsAt_of_cons {number place : ℕ} {field : Field} {fields : List Field}
    (hfits : field.Fits)
    (h : bitsAt number place (Field.width (field :: fields)) = Field.pack (field :: fields)) :
    bitsAt number place field.bits = field.value ∧
      bitsAt number (place + field.bits) (Field.width fields) = Field.pack fields := by
  rw [Field.width_cons, Field.pack] at h
  constructor
  · rw [← bitsAt_add_mod number place field.bits (Field.width fields), h,
      Nat.add_mul_mod_self_left, Nat.mod_eq_of_lt hfits]
  · rw [← bitsAt_add_div, h, Nat.add_mul_div_left _ _ (Nat.two_pow_pos _),
      Nat.div_eq_of_lt hfits, Nat.zero_add]

/-- Fields in the middle of others are read off where the ones before them end. -/
theorem bitsAt_pack {before middle after : List Field} (hbefore : ∀ field ∈ before, field.Fits)
    (hmiddle : ∀ field ∈ middle, field.Fits) :
    bitsAt (Field.pack (before ++ (middle ++ after))) (Field.width before) (Field.width middle) =
      Field.pack middle := by
  rw [bitsAt, Field.pack_append, Nat.add_mul_div_left _ _ (Nat.two_pow_pos _),
    Nat.div_eq_of_lt (Field.pack_lt hbefore), Nat.zero_add, Field.pack_append,
    Nat.add_mul_mod_self_left, Nat.mod_eq_of_lt (Field.pack_lt hmiddle)]

/-- The number that words of memory make. -/
def ofWords : List UInt32 → ℕ
  | [] => 0
  | word :: words => word.toNat + 2 ^ 32 * ofWords words

theorem ofWords_concat (words : List UInt32) (word : UInt32) :
    ofWords (words ++ [word]) = ofWords words + 2 ^ (32 * words.length) * word.toNat := by
  induction words with
  | nil => simp [ofWords]
  | cons first words ih =>
      rw [List.cons_append, ofWords, ih, ofWords, List.length_cons]
      ring

/-- A word is the bits at its place; behind the last one there are none. -/
theorem bitsAt_ofWords (words : List UInt32) (index : ℕ) :
    bitsAt (ofWords words) (32 * index) 32 = ((words[index]?).getD 0).toNat := by
  induction words generalizing index with
  | nil => simp [ofWords, bitsAt]
  | cons word words ih =>
      have hword := word.toNat_lt
      cases index with
      | zero =>
          rw [bitsAt, ofWords, Nat.mul_zero, Nat.pow_zero, Nat.div_one, Nat.add_mul_mod_self_left,
            Nat.mod_eq_of_lt hword]
          rfl
      | succ index =>
          have hplace : 2 ^ (32 * (index + 1)) = 2 ^ 32 * 2 ^ (32 * index) := by ring
          rw [bitsAt, ofWords, hplace, ← Nat.div_div_eq_div_mul,
            Nat.add_mul_div_left _ _ (by decide),
            Nat.div_eq_of_lt hword, Nat.zero_add]
          exact ih index

/-- The lowest words of a number. -/
def toWords : ℕ → ℕ → List UInt32
  | 0, _ => []
  | count + 1, value => UInt32.ofNat value :: toWords count (value / 2 ^ 32)

theorem ofWords_toWords (count value : ℕ) :
    ofWords (toWords count value) = value % 2 ^ (32 * count) := by
  induction count generalizing value with
  | zero => rw [Nat.mul_zero, Nat.pow_zero, Nat.mod_one, toWords, ofWords]
  | succ count ih =>
      rw [toWords, ofWords, ih, UInt32.toNat_ofNat', Nat.mul_succ, Nat.add_comm (32 * count),
        Nat.pow_add, Nat.mod_mul]

end LibBench.Math
