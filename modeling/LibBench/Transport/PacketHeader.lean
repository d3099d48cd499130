/-
# reliable.io: the header of a packet

A header is as short as its contents allow. The packet that it acknowledges is
written as the distance from its own number where that fits into a byte, and of
the ack bits only the bytes that are not full; the first byte says which.

Reading says where it would leave the memory of the packet, so that one can see
that it does not.
-/

import LibBench.Math.Bytes
import LibBench.Transport.Wrapping

namespace LibBench.Transport

open LibBench.Math SequenceNumber

/-- `RELIABLE_MAX_PACKET_HEADER_BYTES`. -/
def maxPacketHeaderBytes : ℕ := 9

/-- What can be wrong with a packet. -/
inductive PacketError
  /-- The code finds that it is invalid. -/
  | invalid
  /-- The code leaves the memory of the packet or of what it puts together. -/
  | outOfBounds
  /-- What has been put together is a fragment. -/
  | nested
  deriving DecidableEq, Repr

/-- A byte of the ack bits, as it is masked out. -/
def ackByte (ackBits i : ℕ) : ℕ :=
  ackBits / 256 ^ i % 256

/-- The distance from the acknowledged packet. -/
def sequenceDifference (header : PacketHeader UInt16) : ℤ :=
  distance header.ack header.sequence

/-- The first byte, which says what follows. -/
def prefixByte (header : PacketHeader UInt16) : ℕ :=
  let ackFlags := (List.range 4).foldl
    (fun flags i => if ackByte header.ackBits i ≠ 255 then flags ||| 1 <<< (i + 1) else flags) 0
  if sequenceDifference header ≤ 255 then ackFlags ||| 1 <<< 5 else ackFlags

/-- The acknowledged packet, as it is written. -/
def writeAck (header : PacketHeader UInt16) : List UInt8 :=
  if sequenceDifference header ≤ 255 then toBytes 1 (sequenceDifference header).toNat
  else toBytes 2 header.ack.toNat

/-- So many ack bytes, from this place on. -/
def writeAckBytes (ackBits : ℕ) : (places i : ℕ) → List UInt8
  | 0, _ => []
  | places + 1, i =>
      (if ackByte ackBits i ≠ 255 then toBytes 1 (ackByte ackBits i) else []) ++
        writeAckBytes ackBits places (i + 1)

/-- `reliable_write_packet_header`. -/
def writePacketHeader (header : PacketHeader UInt16) : List UInt8 :=
  toBytes 1 (prefixByte header) ++ toBytes 2 header.sequence.toNat ++ writeAck header ++
    writeAckBytes header.ackBits 4 0

/-- `reliable_read_uint8` and `reliable_read_uint16`, at a place of the packet. -/
def readUInt (width : ℕ) (data : List UInt8) (p : ℕ) : Except PacketError ℕ :=
  match readField data p width with
  | none => .error .outOfBounds
  | some value => .ok value

/-- The acknowledged packet, and where it ends. -/
def readAck (data : List UInt8) (packetBytes prefixByte : ℕ) (sequence : UInt16) :
    Except PacketError (UInt16 × ℕ) :=
  if prefixByte.testBit 5 then
    if packetBytes < 3 + 1 then .error .invalid
    else do
      let difference ← readUInt 1 data 3
      .ok (add sequence (-difference), 3 + 1)
  else if packetBytes < 3 + 2 then .error .invalid
  else do
    let ack ← readUInt 2 data 3
    .ok (ofInt ack, 3 + 2)

/-- How many ack bytes there should be from this place on. -/
def expectedBytes (prefixByte : ℕ) : (places i : ℕ) → ℕ
  | 0, _ => 0
  | places + 1, i =>
      (if prefixByte.testBit (i + 1) then 1 else 0) + expectedBytes prefixByte places (i + 1)

/-- So many ack bytes from this place on. A byte that is not there is full. -/
def readAckBytes (data : List UInt8) (prefixByte : ℕ) :
    (places i p : ℕ) → Except PacketError (ℕ × ℕ)
  | 0, _, p => .ok (0, p)
  | places + 1, i, p =>
      if prefixByte.testBit (i + 1) then do
        let byte ← readUInt 1 data p
        let (ackBits, p) ← readAckBytes data prefixByte places (i + 1) (p + 1)
        .ok (byte + 256 * ackBits, p)
      else do
        let (ackBits, p) ← readAckBytes data prefixByte places (i + 1) p
        .ok (255 + 256 * ackBits, p)

/-- `reliable_read_packet_header`: the header and how long it is. The length of the
packet is what the caller says. -/
def readPacketHeader (data : List UInt8) (packetBytes : ℕ) :
    Except PacketError (PacketHeader UInt16 × ℕ) :=
  if packetBytes < 3 then .error .invalid
  else do
    let prefixByte ← readUInt 1 data 0
    if prefixByte.testBit 0 then .error .invalid
    else do
      let sequence ← readUInt 2 data 1
      let (ack, p) ← readAck data packetBytes prefixByte (ofInt sequence)
      if packetBytes < p + expectedBytes prefixByte 4 0 then .error .invalid
      else do
        let (ackBits, p) ← readAckBytes data prefixByte 4 0 p
        .ok ({ sequence := ofInt sequence, ack, ackBits }, p)

section Bind

variable {α β : Type}

@[simp]
theorem ok_bind (value : α) (next : α → Except PacketError β) :
    (Except.ok value >>= next) = next value := rfl

@[simp]
theorem error_bind (error : PacketError) (next : α → Except PacketError β) :
    (Except.error error >>= next) = .error error := rfl

theorem bind_eq_ok {first : Except PacketError α} {next : α → Except PacketError β} {result : β} :
    (first >>= next) = .ok result ↔ ∃ value, first = .ok value ∧ next value = .ok result := by
  cases first with
  | error error => simp
  | ok value => simp

end Bind

/-! ## What is written is read -/

section Fields

variable {data : List UInt8} {width p : ℕ}

theorem readUInt_append {value : ℕ} (hvalue : value < 256 ^ width) (before after : List UInt8) :
    readUInt width (before ++ toBytes width value ++ after) before.length = .ok value := by
  rw [readUInt, List.append_assoc, readField_append_of_length_le le_rfl, Nat.sub_self,
    readField_toBytes_append hvalue]

theorem readUInt_take {count : ℕ} (h : p + width ≤ count) :
    readUInt width (data.take count) p = readUInt width data p := by
  have hfield : readField (data.take count) p width = readField data p width := by
    by_cases hlength : p + width ≤ data.length
    · have hcut : p + width ≤ (data.take count).length := by
        rw [List.length_take]
        omega
      rw [readField_of_le hlength, readField_of_le hcut, List.drop_take, List.take_take,
        min_eq_left (by omega)]
    · have hcut : (data.take count).length < p + width := by
        rw [List.length_take]
        omega
      rw [readField_eq_none_iff.mpr hcut, readField_eq_none_iff.mpr (by omega)]
  rw [readUInt, readUInt, hfield]

end Fields

section AckBytes

variable {ackBits flags places i : ℕ}

theorem ackByte_lt (ackBits i : ℕ) : ackByte ackBits i < 256 :=
  Nat.mod_lt _ (by decide)

/-- The ack bits from a place on begin with the byte of the place. -/
theorem ackByte_add (ackBits places i : ℕ) :
    ackByte ackBits i + 256 * (ackBits / 256 ^ (i + 1) % 256 ^ places) =
      ackBits / 256 ^ i % 256 ^ (places + 1) := by
  rw [pow_succ' 256 places, Nat.mod_mul, Nat.div_div_eq_div_mul, ← Nat.pow_succ]
  rfl

/-- The flags say of the bytes from this place on which of them are not full. -/
def FlagsFor (ackBits flags places i : ℕ) : Prop :=
  ∀ k < i + places, i ≤ k → flags.testBit (k + 1) = decide (ackByte ackBits k ≠ 255)

theorem FlagsFor.here (h : FlagsFor ackBits flags (places + 1) i) :
    flags.testBit (i + 1) = decide (ackByte ackBits i ≠ 255) :=
  h i (by omega) le_rfl

theorem FlagsFor.next (h : FlagsFor ackBits flags (places + 1) i) :
    FlagsFor ackBits flags places (i + 1) :=
  fun k hlt hle => h k (by omega) (by omega)

theorem readAckBytes_append (h : FlagsFor ackBits flags places i) (before after : List UInt8) :
    readAckBytes (before ++ writeAckBytes ackBits places i ++ after) flags places i
        before.length =
      .ok (ackBits / 256 ^ i % 256 ^ places,
        before.length + (writeAckBytes ackBits places i).length) := by
  induction places generalizing i before with
  | zero => simp [readAckBytes, writeAckBytes, Nat.mod_one]
  | succ places ih =>
      have hvalue := ackByte_add ackBits places i
      rw [readAckBytes, writeAckBytes, h.here]
      by_cases hfull : ackByte ackBits i = 255
      · have hnext := ih h.next before
        simp only [hfull, ne_eq, not_true_eq_false, decide_false, Bool.false_eq_true, if_false,
          List.nil_append, hnext] at hvalue ⊢
        simp [hvalue]
      · have hbyte : ackByte ackBits i < 256 ^ 1 := ackByte_lt ackBits i
        have hread := readUInt_append hbyte before (writeAckBytes ackBits places (i + 1) ++ after)
        have hnext := ih h.next (before ++ toBytes 1 (ackByte ackBits i))
        rw [List.length_append, length_toBytes] at hnext
        simp only [List.append_assoc] at hread hnext ⊢
        simp only [hfull, ne_eq, not_false_eq_true, decide_true, if_true, hread, hnext]
        simp [hvalue, Nat.add_assoc]

theorem FlagsFor.expectedBytes_eq (h : FlagsFor ackBits flags places i) :
    expectedBytes flags places i = (writeAckBytes ackBits places i).length := by
  induction places generalizing i with
  | zero => rfl
  | succ places ih =>
      rw [expectedBytes, writeAckBytes, List.length_append, ih h.next, h.here]
      by_cases hfull : ackByte ackBits i = 255 <;> simp [hfull]

end AckBytes

variable (header : PacketHeader UInt16)

/-- One flag for each place, above the lowest bit. -/
theorem testBit_flags (p : ℕ → Prop) [DecidablePred p] (count i : ℕ) :
    ((List.range count).foldl (fun flags k => if p k then flags ||| 1 <<< (k + 1) else flags)
      0).testBit i = decide (0 < i ∧ i ≤ count ∧ p (i - 1)) := by
  induction count with
  | zero => simp; omega
  | succ count ih =>
      rw [List.range_succ, List.foldl_append, List.foldl_cons, List.foldl_nil]
      by_cases heq : i = count + 1
      · subst heq
        split
        · next hset => simp [hset]
        · next hclear => simp [ih, hclear]
      · have hle : i ≤ count + 1 ↔ i ≤ count := by omega
        simp only [hle, ← ih]
        split
        · rw [Nat.testBit_or, Nat.one_shiftLeft, Nat.testBit_two_pow_of_ne (Ne.symm heq),
            Bool.or_false]
        · rfl

theorem testBit_prefixByte (i : ℕ) :
    (prefixByte header).testBit i =
      (decide (0 < i ∧ i ≤ 4 ∧ ackByte header.ackBits (i - 1) ≠ 255) ||
        decide (i = 5 ∧ sequenceDifference header ≤ 255)) := by
  rw [prefixByte, ← testBit_flags fun k => ackByte header.ackBits k ≠ 255]
  by_cases hnear : sequenceDifference header ≤ 255
  · rw [if_pos hnear, Nat.testBit_or, Nat.one_shiftLeft, Nat.testBit_two_pow]
    simp only [hnear, and_true, eq_comm]
  · simp [hnear]

/-- The first byte is not that of a fragment. -/
theorem testBit_zero_prefixByte : (prefixByte header).testBit 0 = false := by
  rw [testBit_prefixByte]
  rfl

theorem prefixByte_lt : prefixByte header < 256 := by
  have hlt : prefixByte header < 2 ^ 8 := Nat.lt_pow_two_of_testBit _ fun i hi => by
    rw [testBit_prefixByte]
    simp
    omega
  exact hlt

theorem flagsFor_prefixByte : FlagsFor header.ackBits (prefixByte header) 4 0 := by
  intro k hlt hle
  have hne : k + 1 ≠ 5 := by omega
  rw [testBit_prefixByte]
  simp [hne, show k + 1 ≤ 4 by omega]

theorem sequenceDifference_nonneg : 0 ≤ sequenceDifference header := by
  have hlt := toInt_lt header.ack
  have hge := toInt_nonneg header.sequence
  rw [sequenceDifference, distance]
  split <;> omega

/-- Going back by the distance leads to the acknowledged packet. -/
theorem add_neg_sequenceDifference :
    add header.sequence (-sequenceDifference header) = header.ack := by
  have hmod : wrap (toInt header.sequence + -sequenceDifference header) =
      wrap (toInt header.ack) := by
    rw [wrap_eq_wrap_iff, sequenceDifference, distance]
    split <;> omega
  rw [add, ofInt_eq_wrap, hmod, wrap_toInt]

theorem length_writeAck :
    (writeAck header).length = if sequenceDifference header ≤ 255 then 1 else 2 := by
  rw [writeAck]
  split <;> rw [length_toBytes]

/-- The acknowledged packet is read unless the packet ends before. -/
theorem readAck_writeAck (before : List UInt8) (hbefore : before.length = 3)
    (after : List UInt8) (packetBytes : ℕ) :
    readAck (before ++ writeAck header ++ after) packetBytes (prefixByte header) header.sequence =
      if packetBytes < 3 + (writeAck header).length then .error .invalid
      else .ok (header.ack, 3 + (writeAck header).length) := by
  rw [readAck, testBit_prefixByte, length_writeAck, writeAck]
  by_cases hnear : sequenceDifference header ≤ 255
  · have hnonneg := sequenceDifference_nonneg header
    have hsmall : (sequenceDifference header).toNat < 256 ^ 1 := by omega
    have hread := readUInt_append hsmall before after
    rw [hbefore, List.append_assoc] at hread
    have hback := add_neg_sequenceDifference header
    simp [hnear, hread, Int.toNat_of_nonneg hnonneg, hback]
  · have hsmall : header.ack.toNat < 256 ^ 2 := header.ack.toNat_lt
    have hread := readUInt_append hsmall before after
    rw [hbefore, List.append_assoc] at hread
    have hack : wrap header.ack.toNat = header.ack := wrap_toInt header.ack
    simp [hnear, hread, hack]

theorem length_writePacketHeader :
    (writePacketHeader header).length =
      3 + (writeAck header).length + (writeAckBytes header.ackBits 4 0).length := by
  simp only [writePacketHeader, List.length_append, length_toBytes]

theorem length_writeAckBytes_le (ackBits places i : ℕ) :
    (writeAckBytes ackBits places i).length ≤ places := by
  induction places generalizing i with
  | zero => rfl
  | succ places ih =>
      have hrest := ih (i + 1)
      rw [writeAckBytes, List.length_append]
      split
      · rw [length_toBytes]
        omega
      · rw [List.length_nil]
        omega

theorem length_writePacketHeader_le :
    (writePacketHeader header).length ≤ maxPacketHeaderBytes := by
  have hbytes := length_writeAckBytes_le header.ackBits 4 0
  have hack : (writeAck header).length ≤ 2 := by
    rw [length_writeAck]
    split <;> omega
  rw [length_writePacketHeader, maxPacketHeaderBytes]
  omega

variable {header}

theorem readUInt_prefixByte (payload : List UInt8) :
    readUInt 1 (writePacketHeader header ++ payload) 0 = .ok (prefixByte header) := by
  have hbyte : prefixByte header < 256 ^ 1 := prefixByte_lt header
  simpa [writePacketHeader] using readUInt_append hbyte []
    (toBytes 2 header.sequence.toNat ++ writeAck header ++
      writeAckBytes header.ackBits 4 0 ++ payload)

theorem readUInt_sequence (payload : List UInt8) :
    readUInt 2 (writePacketHeader header ++ payload) 1 = .ok header.sequence.toNat := by
  have hnumber : header.sequence.toNat < 256 ^ 2 := header.sequence.toNat_lt
  simpa [writePacketHeader] using readUInt_append hnumber (toBytes 1 (prefixByte header))
    (writeAck header ++ writeAckBytes header.ackBits 4 0 ++ payload)

/-- A header in memory is read unless the packet is said to end before it does. -/
theorem readPacketHeader_append (hbits : header.ackBits < 2 ^ 32) (payload : List UInt8)
    (packetBytes : ℕ) :
    readPacketHeader (writePacketHeader header ++ payload) packetBytes =
      if packetBytes < (writePacketHeader header).length then .error .invalid
      else .ok (header, (writePacketHeader header).length) := by
  have hack := readAck_writeAck header
    (toBytes 1 (prefixByte header) ++ toBytes 2 header.sequence.toNat)
    (by simp only [List.length_append, length_toBytes])
    (writeAckBytes header.ackBits 4 0 ++ payload) packetBytes
  have hackBytes := readAckBytes_append (flagsFor_prefixByte header)
    (toBytes 1 (prefixByte header) ++ toBytes 2 header.sequence.toNat ++ writeAck header) payload
  have hnumber : wrap header.sequence.toNat = header.sequence := wrap_toInt header.sequence
  have hall : header.ackBits % 256 ^ 4 = header.ackBits := Nat.mod_eq_of_lt hbits
  have hlength := length_writePacketHeader header
  rw [← List.append_assoc] at hack
  change readAck (writePacketHeader header ++ payload) _ _ _ = _ at hack
  change readAckBytes (writePacketHeader header ++ payload) _ _ _ _ = _ at hackBytes
  rw [List.length_append, List.length_append, length_toBytes, length_toBytes, Nat.pow_zero,
    Nat.div_one, hall] at hackBytes
  rw [readPacketHeader, readUInt_prefixByte, readUInt_sequence]
  simp only [ok_bind, testBit_zero_prefixByte, Bool.false_eq_true, if_false, ofInt_eq_wrap, hnumber,
    hack]
  by_cases hshort : packetBytes < 3
  · rw [if_pos hshort, if_pos (by omega)]
  by_cases hcut : packetBytes < 3 + (writeAck header).length
  · rw [if_neg hshort, if_pos hcut, if_pos (by omega), error_bind]
  rw [if_neg hshort, if_neg hcut, ok_bind, hlength]
  simp [hackBytes, (flagsFor_prefixByte header).expectedBytes_eq]

variable {data : List UInt8} {packetBytes flags places i p : ℕ}

theorem readAckBytes_take {count : ℕ} (h : p + expectedBytes flags places i ≤ count) :
    readAckBytes (data.take count) flags places i p = readAckBytes data flags places i p := by
  induction places generalizing i p with
  | zero => rfl
  | succ places ih =>
      rw [expectedBytes] at h
      rw [readAckBytes, readAckBytes]
      split
      · next hset =>
          rw [if_pos hset] at h
          rw [readUInt_take (by omega), ih (by omega)]
      · next hclear =>
          rw [if_neg hclear] at h
          rw [ih (by omega)]

theorem readAck_take (sequence : UInt16) :
    readAck (data.take packetBytes) packetBytes flags sequence =
      readAck data packetBytes flags sequence := by
  rw [readAck, readAck]
  split
  · split
    · rfl
    · rw [readUInt_take (by omega)]
  · split
    · rfl
    · rw [readUInt_take (by omega)]

/-- Nothing is read behind the end of the packet. -/
theorem readPacketHeader_take (data : List UInt8) (packetBytes : ℕ) :
    readPacketHeader (data.take packetBytes) packetBytes = readPacketHeader data packetBytes := by
  rw [readPacketHeader, readPacketHeader]
  split
  · rfl
  rw [readUInt_take (by omega), readUInt_take (by omega)]
  cases readUInt 1 data 0 with
  | error => rfl
  | ok prefixByte =>
      rw [ok_bind, ok_bind]
      split
      · rfl
      cases readUInt 2 data 1 with
      | error => rfl
      | ok sequence =>
          rw [ok_bind, ok_bind, readAck_take]
          cases readAck data packetBytes prefixByte (ofInt sequence) with
          | error => rfl
          | ok read =>
              rw [ok_bind, ok_bind]
              dsimp only
              split
              · rfl
              · rw [readAckBytes_take (by omega)]

theorem exists_readUInt {width : ℕ} (h : p + width ≤ data.length) :
    ∃ value < 256 ^ width, readUInt width data p = .ok value := by
  refine ⟨_, ?_, by rw [readUInt, readField_of_le h]⟩
  have hlt := ofBytes_lt ((data.drop p).take width)
  rwa [List.length_take, List.length_drop, min_eq_left (by omega)] at hlt

theorem writeAckBytes_shift {byte : ℕ} (hbyte : byte < 256) (ackBits places i : ℕ) :
    writeAckBytes (byte + 256 * ackBits) places (i + 1) = writeAckBytes ackBits places i := by
  induction places generalizing i with
  | zero => rfl
  | succ places ih =>
      have hdiv : (byte + 256 * ackBits) / 256 = ackBits := by omega
      have hsame : ackByte (byte + 256 * ackBits) (i + 1) = ackByte ackBits i := by
        rw [ackByte, ackByte, pow_succ', ← Nat.div_div_eq_div_mul, hdiv]
      rw [writeAckBytes, writeAckBytes, hsame, ih]

theorem length_writeAckBytes_succ {byte : ℕ} (hbyte : byte < 256) (ackBits places : ℕ) :
    (writeAckBytes (byte + 256 * ackBits) (places + 1) 0).length =
      (if byte = 255 then 0 else 1) + (writeAckBytes ackBits places 0).length := by
  have hfirst : ackByte (byte + 256 * ackBits) 0 = byte := by
    rw [ackByte, Nat.pow_zero, Nat.div_one]
    omega
  rw [writeAckBytes, List.length_append, hfirst, writeAckBytes_shift hbyte]
  by_cases hfull : byte = 255 <;> simp [hfull]

/-- An ack byte that is read may be full, which it would not be if it were written. -/
theorem exists_readAckBytes (h : p + expectedBytes flags places i ≤ data.length) :
    ∃ ackBits < 256 ^ places,
      readAckBytes data flags places i p = .ok (ackBits, p + expectedBytes flags places i) ∧
        (writeAckBytes ackBits places 0).length ≤ expectedBytes flags places i := by
  induction places generalizing i p with
  | zero => exact ⟨0, by decide, rfl, le_rfl⟩
  | succ places ih =>
      rw [expectedBytes] at h
      rw [readAckBytes, expectedBytes]
      split at h
      · next hset =>
          have hin : p + 1 ≤ data.length := by omega
          have hafter : p + 1 + expectedBytes flags places (i + 1) ≤ data.length := by omega
          obtain ⟨byte, hbyte, hread⟩ := exists_readUInt hin
          obtain ⟨ackBits, hlt, hrest, hle⟩ := ih hafter
          refine ⟨byte + 256 * ackBits, by rw [pow_succ']; omega, ?_, ?_⟩
          · simp [hset, hread, hrest, Nat.add_assoc]
          · rw [length_writeAckBytes_succ hbyte, if_pos hset]
            split <;> omega
      · next hclear =>
          have hafter : p + expectedBytes flags places (i + 1) ≤ data.length := by omega
          obtain ⟨ackBits, hlt, hrest, hle⟩ := ih hafter
          refine ⟨255 + 256 * ackBits, by rw [pow_succ']; omega, ?_, ?_⟩
          · simp [hclear, hrest]
          · rw [length_writeAckBytes_succ (by decide), if_neg hclear]
            simpa using hle

/-- The same of the acknowledged packet, which may be near and written in full. -/
theorem exists_readAck (h : packetBytes ≤ data.length) (flags : ℕ) (sequence : UInt16) :
    readAck data packetBytes flags sequence = .error .invalid ∨
      ∃ ack ackEnd, readAck data packetBytes flags sequence = .ok (ack, ackEnd) ∧
        ∀ ackBits, 3 + (writeAck { sequence, ack, ackBits }).length ≤ ackEnd := by
  rw [readAck]
  split
  · split
    · exact .inl rfl
    have hin : 3 + 1 ≤ data.length := by omega
    obtain ⟨difference, hlt, hread⟩ := exists_readUInt hin
    refine .inr ⟨_, _, by rw [hread, ok_bind], fun ackBits => ?_⟩
    have hnear : sequenceDifference { sequence, ack := add sequence (-difference), ackBits } ≤
        255 := by
      have hge := toInt_nonneg sequence
      have hsmall := toInt_lt sequence
      rw [sequenceDifference, distance, add, ofInt_eq_wrap, toInt_wrap]
      dsimp only
      split <;> omega
    rw [length_writeAck, if_pos hnear]
  · split
    · exact .inl rfl
    have hin : 3 + 2 ≤ data.length := by omega
    obtain ⟨ack, _, hread⟩ := exists_readUInt hin
    refine .inr ⟨_, _, by rw [hread, ok_bind], fun ackBits => ?_⟩
    rw [length_writeAck]
    split <;> omega

/-- A header is found invalid or read within the packet, and what is read is no
longer when it is written again. -/
theorem readPacketHeader_inBounds (h : packetBytes ≤ data.length) :
    readPacketHeader data packetBytes = .error .invalid ∨
      ∃ header headerBytes, readPacketHeader data packetBytes = .ok (header, headerBytes) ∧
        header.ackBits < 2 ^ 32 ∧ headerBytes ≤ packetBytes ∧
          (writePacketHeader header).length ≤ headerBytes := by
  rw [readPacketHeader]
  split
  · exact .inl rfl
  have hfirst : 0 + 1 ≤ data.length := by omega
  have hsecond : 1 + 2 ≤ data.length := by omega
  obtain ⟨prefixByte, _, hmark⟩ := exists_readUInt hfirst
  obtain ⟨sequence, _, hsequence⟩ := exists_readUInt hsecond
  rw [hmark, ok_bind]
  split
  · exact .inl rfl
  rw [hsequence, ok_bind]
  obtain hack | ⟨ack, ackEnd, hack, hackLength⟩ :=
    exists_readAck h prefixByte (ofInt sequence)
  · rw [hack]
    exact .inl rfl
  rw [hack, ok_bind]
  dsimp only
  split
  · exact .inl rfl
  have hin : ackEnd + expectedBytes prefixByte 4 0 ≤ data.length := by omega
  obtain ⟨ackBits, hbits, hackBytes, hle⟩ := exists_readAckBytes hin
  rw [hackBytes, ok_bind]
  refine .inr ⟨_, _, rfl, hbits, by omega, ?_⟩
  rw [length_writePacketHeader]
  have hackLength := hackLength ackBits
  dsimp only
  omega

theorem le_length_of_readUInt {value : ℕ} (h : readUInt width data p = .ok value) :
    p + width ≤ data.length := by
  by_contra hout
  rw [readUInt, readField_eq_none_iff.mpr (by omega)] at h
  cases h

theorem le_length_of_readAckBytes {result : ℕ × ℕ} (hp : p ≤ data.length)
    (h : readAckBytes data flags places i p = .ok result) :
    p + expectedBytes flags places i ≤ data.length := by
  induction places generalizing i p result with
  | zero => exact hp
  | succ places ih =>
      rw [readAckBytes] at h
      rw [expectedBytes]
      split at h
      · next hset =>
          obtain ⟨byte, hbyte, hrest⟩ := bind_eq_ok.mp h
          obtain ⟨_, hrest, _⟩ := bind_eq_ok.mp hrest
          have hle := ih (le_length_of_readUInt hbyte) hrest
          rw [if_pos hset]
          omega
      · next hclear =>
          obtain ⟨_, hrest, _⟩ := bind_eq_ok.mp h
          have hle := ih hp hrest
          rw [if_neg hclear]
          omega

/-- What is said to be the length of the packet does not matter if nothing is read
behind its end. -/
theorem readPacketHeader_length {result : PacketHeader UInt16 × ℕ}
    (h : readPacketHeader data packetBytes = .ok result) :
    readPacketHeader data data.length = .ok result := by
  rw [readPacketHeader] at h ⊢
  split at h
  · cases h
  obtain ⟨mark, hmark, h⟩ := bind_eq_ok.mp h
  split at h
  · cases h
  next heven =>
  obtain ⟨sequence, hsequence, h⟩ := bind_eq_ok.mp h
  have hthree : 1 + 2 ≤ data.length := le_length_of_readUInt hsequence
  obtain ⟨⟨ack, ackEnd⟩, hack, h⟩ := bind_eq_ok.mp h
  have hackAgain : readAck data data.length mark (ofInt sequence) = .ok (ack, ackEnd) ∧
      ackEnd ≤ data.length := by
    rw [readAck] at hack ⊢
    split at hack
    · next hnear =>
        split at hack
        · cases hack
        obtain ⟨difference, hread, heq⟩ := bind_eq_ok.mp hack
        have hfour : 3 + 1 ≤ data.length := le_length_of_readUInt hread
        obtain ⟨rfl, rfl⟩ := Prod.mk.inj (Except.ok.inj heq)
        exact ⟨by rw [if_pos hnear, if_neg (by omega), hread, ok_bind], hfour⟩
    · next hfar =>
        split at hack
        · cases hack
        obtain ⟨number, hread, heq⟩ := bind_eq_ok.mp hack
        have hfive : 3 + 2 ≤ data.length := le_length_of_readUInt hread
        obtain ⟨rfl, rfl⟩ := Prod.mk.inj (Except.ok.inj heq)
        exact ⟨by rw [if_neg hfar, if_neg (by omega), hread, ok_bind], hfive⟩
  dsimp only at h
  split at h
  · cases h
  have hbytes := h
  obtain ⟨_, hackBytes, _⟩ := bind_eq_ok.mp hbytes
  have hle := le_length_of_readAckBytes hackAgain.2 hackBytes
  rw [if_neg (by omega), hmark, ok_bind, if_neg heven, hsequence, ok_bind, hackAgain.1, ok_bind]
  dsimp only
  rw [if_neg (by omega)]
  exact h

/-- A header that has been read was all there, and is no longer when it is written
again. -/
theorem length_le_of_readPacketHeader {header : PacketHeader UInt16} {headerBytes : ℕ}
    (h : readPacketHeader data packetBytes = .ok (header, headerBytes)) :
    headerBytes ≤ data.length ∧ (writePacketHeader header).length ≤ headerBytes := by
  have hread := readPacketHeader_length h
  obtain hinvalid | ⟨_, _, hagain, _, hle, hshort⟩ :=
    readPacketHeader_inBounds (le_refl data.length)
  · rw [hread] at hinvalid
    cases hinvalid
  · rw [hread] at hagain
    obtain ⟨rfl, rfl⟩ := Prod.mk.inj (Except.ok.inj hagain)
    exact ⟨hle, hshort⟩

/-- A packet that starts with a header and ends somewhere is read if the header is
all there, and found invalid if not. -/
theorem readPacketHeader_writePacketHeader (header : PacketHeader UInt16)
    (hbits : header.ackBits < 2 ^ 32) (payload : List UInt8) (packetBytes : ℕ) :
    readPacketHeader ((writePacketHeader header ++ payload).take packetBytes) packetBytes =
      if packetBytes < (writePacketHeader header).length then .error .invalid
      else .ok (header, (writePacketHeader header).length) := by
  rw [readPacketHeader_take, readPacketHeader_append hbits]

/-- A header of five bytes, cut off after the fourth, and whole. -/
theorem readPacketHeader_writePacketHeader_five :
    (writePacketHeader { sequence := 9, ack := 7, ackBits := 0xFF0FFFFF }).length = 5 ∧
      readPacketHeader ((writePacketHeader { sequence := 9, ack := 7, ackBits := 0xFF0FFFFF } ++
        [1, 2]).take 4) 4 = .error .invalid ∧
      readPacketHeader ((writePacketHeader { sequence := 9, ack := 7, ackBits := 0xFF0FFFFF } ++
        [1, 2]).take 7) 7 = .ok ({ sequence := 9, ack := 7, ackBits := 0xFF0FFFFF }, 5) :=
  ⟨by decide, readPacketHeader_writePacketHeader _ (by decide) [1, 2] 4,
    readPacketHeader_writePacketHeader _ (by decide) [1, 2] 7⟩

end LibBench.Transport
