/-
# Numbers in byte strings

A number of a fixed width is stored as its bytes, the lowest first. A program that
reads a field of a record that it has received as bytes reads that many of them,
at the place where the layout puts the field, and what it reads is a number only
if all of them are there.
-/

import Mathlib.Data.Nat.Digits.Lemmas

namespace LibBench.Math

/-- The number that the bytes store, the lowest byte first. -/
def ofBytes (bytes : List UInt8) : ℕ := Nat.ofDigits 256 (bytes.map UInt8.toNat)

/-- The lowest bytes of a number, as many as the width says. -/
def toBytes : ℕ → ℕ → List UInt8
  | 0, _ => []
  | width + 1, value => UInt8.ofNat value :: toBytes width (value / 256)

/-- The bytes of a field at an offset, if the string is long enough to have
them. -/
def readField (data : List UInt8) (offset width : ℕ) : Option ℕ :=
  if offset + width ≤ data.length then some (ofBytes ((data.drop offset).take width)) else none

@[simp]
theorem length_toBytes (width value : ℕ) : (toBytes width value).length = width := by
  induction width generalizing value with
  | zero => rfl
  | succ width ih => rw [toBytes, List.length_cons, ih]

theorem ofBytes_cons (byte : UInt8) (bytes : List UInt8) :
    ofBytes (byte :: bytes) = byte.toNat + 256 * ofBytes bytes := rfl

/-- What does not fit into the width is lost. -/
theorem ofBytes_toBytes (width value : ℕ) :
    ofBytes (toBytes width value) = value % 256 ^ width := by
  induction width generalizing value with
  | zero => rw [Nat.pow_zero, Nat.mod_one, toBytes, ofBytes, List.map_nil, Nat.ofDigits_nil]
  | succ width ih =>
      calc ofBytes (toBytes (width + 1) value)
          = value % 256 + 256 * (value / 256 % 256 ^ width) := by
            rw [toBytes, ofBytes_cons, ih, UInt8.toNat_ofNat']
        _ = value % 256 ^ (width + 1) := by rw [Nat.pow_succ', Nat.mod_mul]

theorem ofBytes_toBytes_of_lt {width value : ℕ} (h : value < 256 ^ width) :
    ofBytes (toBytes width value) = value := by
  rw [ofBytes_toBytes, Nat.mod_eq_of_lt h]

theorem ofBytes_lt (bytes : List UInt8) : ofBytes bytes < 256 ^ bytes.length := by
  have hlt : Nat.ofDigits 256 (bytes.map UInt8.toNat) < 256 ^ (bytes.map UInt8.toNat).length := by
    refine Nat.ofDigits_lt_base_pow_length (by decide) fun digit hdigit => ?_
    obtain ⟨byte, _, rfl⟩ := List.mem_map.mp hdigit
    exact byte.toNat_lt
  rwa [List.length_map] at hlt

theorem readField_of_le {data : List UInt8} {offset width : ℕ}
    (h : offset + width ≤ data.length) :
    readField data offset width = some (ofBytes ((data.drop offset).take width)) := if_pos h

theorem readField_eq_none_iff {data : List UInt8} {offset width : ℕ} :
    readField data offset width = none ↔ data.length < offset + width := by
  rw [readField]
  split
  · next hle => simpa using hle
  · next hlt => simpa using hlt

/-- A field that begins behind a part of the string is a field of the rest. -/
theorem readField_append_of_length_le {before data : List UInt8} {offset width : ℕ}
    (h : before.length ≤ offset) :
    readField (before ++ data) offset width = readField data (offset - before.length) width := by
  obtain ⟨further, rfl⟩ := Nat.exists_eq_add_of_le h
  simp only [readField, List.length_append, Nat.add_assoc, Nat.add_le_add_iff_left,
    ← List.drop_drop, List.drop_left, Nat.add_sub_cancel_left]

/-- Reading where a number was written gives the number back. -/
theorem readField_toBytes_append {after : List UInt8} {width value : ℕ}
    (hvalue : value < 256 ^ width) :
    readField (toBytes width value ++ after) 0 width = some value := by
  rw [readField_of_le (by simp), List.drop_zero, List.take_left' (length_toBytes width value),
    ofBytes_toBytes_of_lt hvalue]

/-- A wide number is two narrower ones side by side. -/
theorem toBytes_add (lower upper value : ℕ) :
    toBytes (lower + upper) value = toBytes lower value ++ toBytes upper (value / 256 ^ lower) := by
  induction lower generalizing value with
  | zero => rw [Nat.zero_add, Nat.pow_zero, Nat.div_one, toBytes, List.nil_append]
  | succ lower ih =>
      rw [Nat.succ_add, toBytes, ih, toBytes, List.cons_append, Nat.div_div_eq_div_mul,
        ← Nat.pow_succ']

/-- The field at an offset of the memory that begins with a string. Behind what is
known of it there are zeros. -/
def fieldAt (memory : List UInt8) (offset width : ℕ) : ℕ :=
  (readField memory offset width).getD 0

theorem fieldAt_append_of_length_le {before memory : List UInt8} {offset width : ℕ}
    (h : before.length ≤ offset) :
    fieldAt (before ++ memory) offset width = fieldAt memory (offset - before.length) width := by
  rw [fieldAt, readField_append_of_length_le h, fieldAt]

theorem fieldAt_toBytes_append {after : List UInt8} {width value : ℕ}
    (hvalue : value < 256 ^ width) : fieldAt (toBytes width value ++ after) 0 width = value := by
  rw [fieldAt, readField_toBytes_append hvalue, Option.getD_some]

/-- A field that is all in the string does not depend on what is behind it. -/
theorem fieldAt_append_of_le {data after : List UInt8} {offset width : ℕ}
    (h : offset + width ≤ data.length) :
    fieldAt (data ++ after) offset width = fieldAt data offset width := by
  have hoffset : offset ≤ data.length := Nat.le_of_add_right_le h
  have hwidth : width ≤ (data.drop offset).length := by
    rw [List.length_drop]
    omega
  rw [fieldAt, fieldAt, readField_of_le h, readField_of_le (by rw [List.length_append]; omega),
    List.drop_append_of_le_length hoffset, List.take_append_of_le_length hwidth]

end LibBench.Math
