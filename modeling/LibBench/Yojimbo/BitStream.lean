/-
# Yojimbo: writing and reading bits

`BitWriter` and `BitReader`, and `SerializeInteger` of the two streams on top of
them, in a build without assertions. The writer collects bits in a scratch value
of 64 bits and moves a word of 32 to memory whenever there is one; the reader
takes a word from memory whenever it needs one. Neither looks at anything but
its own counters.

A value that does not fit into its bits is not stopped: it is ored into the bits
of the values behind it. When all values fit, the memory of the writer is the
number that they pack into, and the reader gets them back at their places.
-/

import LibBench.Math.BitPacking

namespace LibBench.Yojimbo

open LibBench.Math

/-- `bits_required`. -/
def bitsRequired (min max : UInt32) : ℕ :=
  if min = max then 0 else Nat.log2 (max - min).toNat + 1

/-- `BitWriter`: the words it has moved to memory, of which `m_wordIndex` is the
number, and the scratch value. -/
structure BitWriter where
  data : List UInt32 := []
  scratch : UInt64 := 0
  bitsWritten : ℕ := 0
  scratchBits : ℕ := 0
  deriving DecidableEq, Repr

namespace BitWriter

/-- `WriteBits`. -/
def writeBits (writer : BitWriter) (value : UInt32) (bits : ℕ) : BitWriter :=
  let scratch := writer.scratch ||| value.toUInt64 <<< UInt64.ofNat writer.scratchBits
  let scratchBits := writer.scratchBits + bits
  if 32 ≤ scratchBits then
    { data := writer.data ++ [scratch.toUInt32]
      scratch := scratch >>> 32
      bitsWritten := writer.bitsWritten + bits
      scratchBits := scratchBits - 32 }
  else { writer with scratch, scratchBits, bitsWritten := writer.bitsWritten + bits }

/-- `FlushBits`. -/
def flushBits (writer : BitWriter) : BitWriter :=
  if writer.scratchBits ≠ 0 then
    { writer with
      data := writer.data ++ [writer.scratch.toUInt32]
      scratch := writer.scratch >>> 32
      scratchBits := 0 }
  else writer

/-- `GetBytesWritten`. -/
def getBytesWritten (writer : BitWriter) : ℕ := (writer.bitsWritten + 7) / 8

/-- `WriteStream::SerializeInteger`. The integers are of type `int32_t`; only
their bits matter. -/
def serializeInteger (writer : BitWriter) (value min max : UInt32) : BitWriter :=
  writer.writeBits (value - min) (bitsRequired min max)

/-- The writer holds these fields and nothing else. -/
structure Holds (writer : BitWriter) (fields : List Field) : Prop where
  fits : ∀ field ∈ fields, field.Fits
  bitsWritten : writer.bitsWritten = Field.width fields
  scratchBits : writer.scratchBits < 32
  aligned : writer.bitsWritten = 32 * writer.data.length + writer.scratchBits
  packed : ofWords writer.data + 2 ^ (32 * writer.data.length) * writer.scratch.toNat =
    Field.pack fields

theorem holds_nil : Holds {} [] where
  fits := List.forall_mem_nil _
  bitsWritten := rfl
  scratchBits := by decide
  aligned := rfl
  packed := rfl

end BitWriter

/-- Bits that are ored in above the ones that are there. -/
theorem toNat_or_shiftLeft {scratch : UInt64} {bits : ℕ} (hscratch : scratch.toNat < 2 ^ bits)
    (hbits : bits < 32) (value : UInt32) :
    (scratch ||| value.toUInt64 <<< UInt64.ofNat bits).toNat =
      scratch.toNat + 2 ^ bits * value.toNat := by
  have hvalue := value.toNat_lt
  have hshift : value.toNat * 2 ^ bits < 2 ^ 64 := by
    calc value.toNat * 2 ^ bits
        < 2 ^ 32 * 2 ^ bits := Nat.mul_lt_mul_of_pos_right hvalue (Nat.two_pow_pos bits)
      _ ≤ 2 ^ 32 * 2 ^ 32 := Nat.mul_le_mul_left _ (Nat.pow_le_pow_right (by decide) hbits.le)
      _ = 2 ^ 64 := rfl
  have hamount : bits % 2 ^ 64 % 64 = bits := by omega
  rw [UInt64.toNat_or, UInt64.toNat_shiftLeft, UInt64.toNat_ofNat', hamount,
    UInt32.toNat_toUInt64, Nat.shiftLeft_eq, Nat.mod_eq_of_lt hshift, ← Nat.shiftLeft_eq,
    Nat.or_comm, ← Nat.shiftLeft_add_eq_or_of_lt hscratch, Nat.shiftLeft_eq]
  ring

namespace BitWriter

variable {writer : BitWriter} {fields : List Field}

/-- There are no bits in the scratch value but those that are counted. -/
theorem Holds.scratch_lt (h : writer.Holds fields) :
    writer.scratch.toNat < 2 ^ writer.scratchBits := by
  have hlt := Field.pack_lt h.fits
  rw [← h.packed, ← h.bitsWritten, h.aligned, Nat.pow_add] at hlt
  exact Nat.lt_of_mul_lt_mul_left (Nat.lt_of_le_of_lt (Nat.le_add_left _ _) hlt)

/-- Moving the lowest word of the scratch value to memory moves no bits. -/
theorem ofWords_concat_scratch (data : List UInt32) (scratch : UInt64) :
    ofWords (data ++ [scratch.toUInt32]) +
        2 ^ (32 * (data ++ [scratch.toUInt32]).length) * (scratch >>> 32).toNat =
      ofWords data + 2 ^ (32 * data.length) * scratch.toNat := by
  have hhigh : (scratch >>> 32).toNat = scratch.toNat / 2 ^ 32 := by
    rw [UInt64.toNat_shiftRight, Nat.shiftRight_eq_div_pow]
    rfl
  rw [ofWords_concat, UInt64.toNat_toUInt32, hhigh, List.length_append, List.length_singleton,
    Nat.mul_succ, Nat.pow_add, Nat.add_assoc, Nat.mul_assoc, ← Nat.mul_add, Nat.mod_add_div]

/-- A value that fits becomes the last field. -/
theorem Holds.writeBits (h : writer.Holds fields) {value : UInt32} {bits : ℕ}
    (hvalue : value.toNat < 2 ^ bits) (hbits : bits ≤ 32) :
    (writer.writeBits value bits).Holds (fields ++ [⟨value.toNat, bits⟩]) := by
  have hscratch := toNat_or_shiftLeft h.scratch_lt h.scratchBits value
  have hlt := h.scratchBits
  have haligned := h.aligned
  have hfits : ∀ field ∈ fields ++ [⟨value.toNat, bits⟩], field.Fits :=
    List.forall_mem_append.mpr ⟨h.fits, List.forall_mem_singleton.mpr hvalue⟩
  have hwidth : writer.bitsWritten + bits = Field.width (fields ++ [⟨value.toNat, bits⟩]) := by
    rw [Field.width_append, h.bitsWritten]
    rfl
  have hpacked : ofWords writer.data + 2 ^ (32 * writer.data.length) *
      (writer.scratch ||| value.toUInt64 <<< UInt64.ofNat writer.scratchBits).toNat =
        Field.pack (fields ++ [⟨value.toNat, bits⟩]) := by
    rw [hscratch, Field.pack_append, ← h.packed, ← h.bitsWritten, h.aligned, Nat.pow_add]
    simp only [Field.pack]
    ring
  rw [BitWriter.writeBits]
  split
  · refine ⟨hfits, hwidth, by dsimp only; omega, ?_, ?_⟩
    · rw [List.length_append, List.length_singleton]
      dsimp only
      omega
    · rw [ofWords_concat_scratch]
      exact hpacked
  · refine ⟨hfits, hwidth, by dsimp only; omega, ?_, hpacked⟩
    dsimp only
    omega

/-- After the flush everything is in memory. -/
theorem Holds.flushBits (h : writer.Holds fields) :
    ofWords writer.flushBits.data = Field.pack fields ∧
      8 * writer.flushBits.getBytesWritten ≤ 32 * writer.flushBits.data.length := by
  have hscratch := h.scratch_lt
  have hlt := h.scratchBits
  have haligned := h.aligned
  have hpacked := h.packed
  rw [BitWriter.flushBits]
  split
  · have hone : writer.scratch.toNat < 2 ^ 32 :=
      hscratch.trans (Nat.pow_lt_pow_right (by decide) hlt)
    constructor
    · rw [ofWords_concat, UInt64.toNat_toUInt32, Nat.mod_eq_of_lt hone]
      exact hpacked
    · simp only [getBytesWritten, List.length_append, List.length_singleton]
      omega
  · next hempty =>
      rw [not_not.mp hempty, Nat.pow_zero, Nat.lt_one_iff] at hscratch
      rw [hscratch, Nat.mul_zero, Nat.add_zero] at hpacked
      refine ⟨hpacked, ?_⟩
      rw [getBytesWritten]
      omega

end BitWriter

/-- `BitReader`: the memory, how many bytes of it are the packet, and the scratch
value. -/
structure BitReader where
  data : List UInt32
  numBytes : ℕ
  scratch : UInt64 := 0
  bitsRead : ℕ := 0
  scratchBits : ℕ := 0
  wordIndex : ℕ := 0
  deriving DecidableEq, Repr

namespace BitReader

/-- `WouldReadPastEnd`. -/
def wouldReadPastEnd (reader : BitReader) (bits : ℕ) : Bool :=
  reader.numBytes * 8 < reader.bitsRead + bits

/-- The part of `ReadBits` that takes a word from memory. -/
def fetch (reader : BitReader) (bits : ℕ) : BitReader :=
  if reader.scratchBits < bits then
    { reader with
      scratch := reader.scratch |||
        ((reader.data[reader.wordIndex]?).getD 0).toUInt64 <<< UInt64.ofNat reader.scratchBits
      scratchBits := reader.scratchBits + 32
      wordIndex := reader.wordIndex + 1 }
  else reader

/-- `ReadBits`. -/
def readBits (reader : BitReader) (bits : ℕ) : UInt32 × BitReader :=
  let fetched := reader.fetch bits
  ((fetched.scratch &&& (1 <<< UInt64.ofNat bits - 1)).toUInt32,
    { fetched with
      scratch := fetched.scratch >>> UInt64.ofNat bits
      bitsRead := reader.bitsRead + bits
      scratchBits := fetched.scratchBits - bits })

/-- `ReadStream::SerializeInteger`, none where it returns false. -/
def serializeInteger (reader : BitReader) (min max : UInt32) : Option (UInt32 × BitReader) :=
  if reader.wouldReadPastEnd (bitsRequired min max) then none
  else
    let (value, next) := reader.readBits (bitsRequired min max)
    some (value + min, next)

/-- The scratch value is the bits of the memory that come next. -/
structure Fetched (reader : BitReader) : Prop where
  aligned : reader.bitsRead + reader.scratchBits = 32 * reader.wordIndex
  scratch : reader.scratch.toNat =
    bitsAt (ofWords reader.data) reader.bitsRead reader.scratchBits

/-- And it has room for a word of memory. -/
structure Valid (reader : BitReader) : Prop extends reader.Fetched where
  scratchBits : reader.scratchBits < 32

variable {reader : BitReader} {bits : ℕ}

theorem data_fetch (reader : BitReader) (bits : ℕ) : (reader.fetch bits).data = reader.data := by
  rw [BitReader.fetch]
  split <;> rfl

theorem numBytes_fetch (reader : BitReader) (bits : ℕ) :
    (reader.fetch bits).numBytes = reader.numBytes := by
  rw [BitReader.fetch]
  split <;> rfl

theorem Valid.fetch (h : reader.Valid) (bits : ℕ) : (reader.fetch bits).Fetched := by
  rw [BitReader.fetch]
  split
  · have hscratch : reader.scratch.toNat < 2 ^ reader.scratchBits := by
      rw [h.scratch]
      exact bitsAt_lt _ _ _
    have haligned := h.aligned
    refine ⟨by dsimp only; omega, ?_⟩
    dsimp only
    rw [toNat_or_shiftLeft hscratch h.scratchBits, h.scratch, bitsAt_add, h.aligned,
      bitsAt_ofWords]
  · exact h.toFetched

/-- The mask of the lowest bits. -/
theorem toNat_and_mask (scratch : UInt64) (hbits : bits ≤ 32) :
    (scratch &&& (1 <<< UInt64.ofNat bits - 1)).toUInt32.toNat = scratch.toNat % 2 ^ bits := by
  have hpow : 2 ^ bits ≤ 2 ^ 32 := Nat.pow_le_pow_right (by decide) hbits
  have hpos := Nat.two_pow_pos bits
  have hamount : bits % 2 ^ 64 % 64 = bits := by omega
  have hone : (1 <<< UInt64.ofNat bits : UInt64).toNat = 2 ^ bits := by
    rw [UInt64.toNat_shiftLeft, UInt64.toNat_ofNat', hamount, UInt64.toNat_one, Nat.one_shiftLeft,
      Nat.mod_eq_of_lt (by omega)]
  have hmask : (1 <<< UInt64.ofNat bits - 1 : UInt64).toNat = 2 ^ bits - 1 := by
    rw [UInt64.toNat_sub_of_le _ _ (by rw [UInt64.le_iff_toNat_le, hone]; exact hpos), hone]
    rfl
  have hlt := Nat.mod_lt scratch.toNat hpos
  rw [UInt64.toNat_toUInt32, UInt64.toNat_and, hmask, Nat.and_two_pow_sub_one_eq_mod,
    Nat.mod_eq_of_lt (hlt.trans_le hpow)]

/-- Reading yields the next bits and leaves the ones after them. -/
theorem Valid.readBits (h : reader.Valid) (hbits : bits ≤ 32) :
    (reader.readBits bits).1.toNat = bitsAt (ofWords reader.data) reader.bitsRead bits ∧
      (reader.readBits bits).2.Valid := by
  have hlt := h.scratchBits
  have hfetched := h.fetch bits
  have hdata := data_fetch reader bits
  have hread : (reader.fetch bits).bitsRead = reader.bitsRead := by
    rw [BitReader.fetch]
    split <;> rfl
  have henough : bits ≤ (reader.fetch bits).scratchBits ∧
      (reader.fetch bits).scratchBits < bits + 32 := by
    rw [BitReader.fetch]
    split
    · dsimp only
      omega
    · omega
  obtain ⟨hmore, hless⟩ := henough
  obtain ⟨further, hfurther⟩ := Nat.exists_eq_add_of_le hmore
  have hscratch := hfetched.scratch
  have haligned := hfetched.aligned
  rw [hdata, hread, hfurther] at hscratch
  rw [hread] at haligned
  refine ⟨?_, ⟨?_, ?_⟩, ?_⟩
  · rw [BitReader.readBits, toNat_and_mask _ hbits, hscratch, bitsAt_add_mod]
  · simp only [BitReader.readBits]
    omega
  · have hamount : bits % 2 ^ 64 % 64 = bits := by omega
    simp only [BitReader.readBits]
    rw [UInt64.toNat_shiftRight, UInt64.toNat_ofNat', hamount, Nat.shiftRight_eq_div_pow, hscratch,
      bitsAt_add_div, hdata, hfurther, Nat.add_sub_cancel_left]
  · simp only [BitReader.readBits]
    omega

/-- These fields come next, and are all in the packet. -/
structure Reads (reader : BitReader) (fields : List Field) : Prop where
  valid : reader.Valid
  inPacket : reader.bitsRead + Field.width fields ≤ reader.numBytes * 8
  next : bitsAt (ofWords reader.data) reader.bitsRead (Field.width fields) = Field.pack fields

/-- The first of them can be read, and then the others come next. -/
theorem Reads.readBits {field : Field} {fields : List Field} (h : reader.Reads (field :: fields))
    (hfits : field.Fits) (hbits : field.bits ≤ 32) :
    reader.wouldReadPastEnd field.bits = false ∧
      (reader.readBits field.bits).1.toNat = field.value ∧
      (reader.readBits field.bits).2.Reads fields := by
  have hinPacket := h.inPacket
  rw [Field.width_cons] at hinPacket
  obtain ⟨hfield, hrest⟩ := bitsAt_of_cons hfits h.next
  obtain ⟨hvalue, hvalid⟩ := h.valid.readBits hbits
  refine ⟨?_, hvalue.trans hfield, hvalid, ?_, ?_⟩
  · rw [wouldReadPastEnd, decide_eq_false_iff_not]
    omega
  · simp only [BitReader.readBits, numBytes_fetch]
    omega
  · simp only [BitReader.readBits, data_fetch]
    exact hrest

/-- Read some fields and do not look at them. -/
def skip (reader : BitReader) (widths : List ℕ) : BitReader :=
  widths.foldl (fun reader bits => (reader.readBits bits).2) reader

theorem Reads.skip {before fields : List Field} (h : reader.Reads (before ++ fields))
    (hfits : ∀ field ∈ before, field.Fits ∧ field.bits ≤ 32) :
    (reader.skip (before.map Field.bits)).Reads fields := by
  induction before generalizing reader with
  | nil => exact h
  | cons field before ih =>
      obtain ⟨hfield, hrest⟩ := List.forall_mem_cons.mp hfits
      exact ih (h.readBits hfield.1 hfield.2).2.2 hrest

/-- The packet of a writer that holds some fields, wherever its bytes have been
put in memory: the rest of the last word may be anything. -/
theorem reads_of_holds {writer : BitWriter} {fields : List Field} (h : writer.Holds fields)
    {data : List UInt32}
    (hbytes : ofWords data % 2 ^ (8 * writer.flushBits.getBytesWritten) =
      ofWords writer.flushBits.data % 2 ^ (8 * writer.flushBits.getBytesWritten)) :
    Reads { data, numBytes := writer.flushBits.getBytesWritten } fields := by
  have hwritten : writer.flushBits.bitsWritten = Field.width fields := by
    rw [← h.bitsWritten, BitWriter.flushBits]
    split <;> rfl
  have hwidth : Field.width fields ≤ 8 * writer.flushBits.getBytesWritten := by
    rw [BitWriter.getBytesWritten, hwritten]
    omega
  have hplace : 0 + Field.width fields ≤ 8 * writer.flushBits.getBytesWritten := by omega
  refine ⟨⟨⟨rfl, ?_⟩, Nat.succ_pos 31⟩, by dsimp only; omega, ?_⟩
  · exact (Nat.mod_one _).symm
  · show bitsAt (ofWords data) 0 (Field.width fields) = Field.pack fields
    rw [← bitsAt_mod hplace, hbytes, bitsAt_mod hplace, h.flushBits.1, bitsAt, Nat.pow_zero,
      Nat.div_one, Nat.mod_eq_of_lt (Field.pack_lt h.fits)]

end BitReader

namespace BitWriter

/-- Write some fields. -/
def writeFields (writer : BitWriter) (fields : List Field) : BitWriter :=
  fields.foldl (fun writer field => writer.writeBits (UInt32.ofNat field.value) field.bits) writer

theorem Holds.writeFields {writer : BitWriter} {held fields : List Field} (h : writer.Holds held)
    (hfits : ∀ field ∈ fields, field.Fits ∧ field.bits ≤ 32) :
    (writer.writeFields fields).Holds (held ++ fields) := by
  induction fields generalizing writer held with
  | nil =>
      rw [List.append_nil]
      exact h
  | cons field fields ih =>
      obtain ⟨⟨hfield, hbits⟩, hrest⟩ := List.forall_mem_cons.mp hfits
      have hpow : 2 ^ field.bits ≤ 2 ^ 32 := Nat.pow_le_pow_right (by decide) hbits
      have hvalue : (UInt32.ofNat field.value).toNat = field.value := by
        rw [UInt32.toNat_ofNat', Nat.mod_eq_of_lt (Nat.lt_of_lt_of_le hfield hpow)]
      have hone := h.writeBits (hvalue.trans_lt hfield) hbits
      rw [hvalue] at hone
      rw [← List.singleton_append, ← List.append_assoc]
      exact ih hone hrest

end BitWriter

end LibBench.Yojimbo
