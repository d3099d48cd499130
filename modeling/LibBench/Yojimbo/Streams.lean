/-
# Yojimbo: streams

`WriteStream` and `ReadStream` over the bit writer and the bit reader. Writing
checks nothing. Reading checks that the packet does not end and that a value is
in its range, and where it fails the stream stays where it is: what is read next
is read from there.

A value is coded by some fields when it is written as these fields and read back
where they come next, whatever is before and behind them. The code of a whole is
put together from the codes of its parts.
-/

import LibBench.Math.Bytes
import LibBench.Yojimbo.BitStream

namespace LibBench.Yojimbo

open LibBench.Math

/-- What is read from a `ReadStream`, none where `Serialize` returns false, and the
stream as it is left. -/
abbrev ReadStream : Type → Type := OptionT (StateM BitReader)

namespace ReadStream

variable {α β τ : Type}

/-- Read from a reader. -/
def runOn (read : ReadStream α) (reader : BitReader) : Option α × BitReader :=
  (OptionT.run read).run reader

/-- `SerializeBits`. -/
def serializeBits (bits : ℕ) : ReadStream UInt32 :=
  OptionT.mk fun reader =>
    if reader.wouldReadPastEnd bits then (none, reader)
    else
      let (value, next) := reader.readBits bits
      (some value, next)

/-- `serialize_bool`. -/
def serializeBool : ReadStream Bool := do
  let value ← serializeBits 1
  return value ≠ 0

/-- `serialize_int`, into an integer of some type. -/
def serializeInt (narrow : UInt32 → τ) (toNat : τ → ℕ) (min max : UInt32) : ReadStream τ := do
  let unsignedValue ← serializeBits (bitsRequired min max)
  let value := narrow (unsignedValue + min)
  if toNat value < min.toNat ∨ max.toNat < toNat value then failure
  else return value

/-- `SerializeAlign`. The bits of the padding have to be zero. -/
def serializeAlign : ReadStream Unit := do
  let reader ← get
  let alignBits := (8 - reader.bitsRead % 8) % 8
  if alignBits ≠ 0 then
    let value ← serializeBits alignBits
    if value ≠ 0 then failure

/-- `SerializeCheckValue`. -/
def serializeCheckValue : UInt32 := 0x12345678

/-- `SerializeCheck`. -/
def serializeCheck : ReadStream Unit := do
  serializeAlign
  let value ← serializeBits 32
  if value ≠ serializeCheckValue then failure

/-- Go on even where something could not be read. -/
def attempt (read : ReadStream α) : ReadStream (Option α) :=
  OptionT.mk (some <$> OptionT.run read)

@[simp]
theorem runOn_pure (value : α) (reader : BitReader) :
    (pure value : ReadStream α).runOn reader = (some value, reader) := rfl

@[simp]
theorem runOn_failure (reader : BitReader) :
    (failure : ReadStream α).runOn reader = (none, reader) := rfl

@[simp]
theorem runOn_get (reader : BitReader) :
    (get : ReadStream BitReader).runOn reader = (some reader, reader) := rfl

@[simp]
theorem runOn_bind (read : ReadStream α) (rest : α → ReadStream β) (reader : BitReader) :
    (read >>= rest).runOn reader =
      match read.runOn reader with
      | (some value, next) => (rest value).runOn next
      | (none, next) => (none, next) := by
  cases hread : read.runOn reader with
  | mk value next =>
      have hrun : (OptionT.run read).run reader = pure (value, next) := hread
      rw [runOn, OptionT.run_bind, Option.elimM, StateT.run_bind, hrun, pure_bind]
      cases value <;> rfl

@[simp]
theorem runOn_map (f : α → β) (read : ReadStream α) (reader : BitReader) :
    (f <$> read).runOn reader = ((read.runOn reader).1.map f, (read.runOn reader).2) := by
  rw [← bind_pure_comp, runOn_bind]
  rcases read.runOn reader with ⟨_ | value, next⟩ <;> rfl

@[simp]
theorem runOn_attempt (read : ReadStream α) (reader : BitReader) :
    read.attempt.runOn reader = (some (read.runOn reader).1, (read.runOn reader).2) := rfl

end ReadStream

namespace BitWriter

/-- `serialize_bool` on a writing stream. -/
def serializeBool (writer : BitWriter) (value : Bool) : BitWriter :=
  writer.writeBits (if value then 1 else 0) 1

/-- `WriteAlign`. -/
def writeAlign (writer : BitWriter) : BitWriter :=
  let remainderBits := writer.bitsWritten % 8
  if remainderBits ≠ 0 then writer.writeBits 0 (8 - remainderBits) else writer

/-- `SerializeCheck` on a writing stream. -/
def serializeCheck (writer : BitWriter) : BitWriter :=
  writer.writeAlign.writeBits ReadStream.serializeCheckValue 32

/-- The bytes that the words in memory are, as far as they have been written. -/
def getData (writer : BitWriter) : List UInt8 :=
  toBytes writer.getBytesWritten (ofWords writer.data)

/-- What `WritePacket` makes of what it is given to serialize. -/
def writePacket (write : BitWriter → BitWriter) : List UInt8 :=
  (write {}).serializeCheck.flushBits.getData

end BitWriter

/-- A reader of some bytes. It takes whole words from memory, but does not look at
the bits that are not of the packet; they are zero here. -/
def BitReader.ofData (data : List UInt8) : BitReader where
  data := toWords ((data.length + 3) / 4) (ofBytes data)
  numBytes := data.length

/-- What `ReadPacket` reads, none if it fails. -/
def ReadStream.readPacket {α : Type} (read : ReadStream α) (data : List UInt8) : Option α :=
  let checked := do
    let value ← read
    serializeCheck
    return value
  (checked.runOn (.ofData data)).1

/-- This value is written as these fields, and read back from them. -/
structure Codes {α : Type} (write : BitWriter → BitWriter) (read : ReadStream α) (value : α)
    (fields : List Field) : Prop where
  holds : ∀ ⦃writer held⦄, writer.Holds held → (write writer).Holds (held ++ fields)
  reads : ∀ ⦃reader rest⦄, reader.Reads (fields ++ rest) →
    ∃ next, read.runOn reader = (some value, next) ∧ next.Reads rest ∧
      next.bitsRead = reader.bitsRead + Field.width fields

/-- It is coded by some fields, of so many bits together. -/
def Coded {α : Type} (bits : ℕ) (write : BitWriter → BitWriter) (read : ReadStream α)
    (value : α) : Prop :=
  ∃ fields, Codes write read value fields ∧ Field.width fields = bits

section Codes

variable {α β τ : Type} {bits restBits : ℕ} {write writeRest : BitWriter → BitWriter}
  {read : ReadStream α} {rest : α → ReadStream β} {value : α} {result : β} {fields : List Field}

theorem coded_pure (value : α) : Coded 0 id (pure value) value := by
  refine ⟨[], ⟨fun writer held h => ?_, fun reader rest h => ⟨reader, rfl, h, rfl⟩⟩, rfl⟩
  rwa [List.append_nil]

/-- First one value, and then what depends on it. -/
theorem Coded.bind (h : Coded bits write read value) {next : ReadStream β}
    (hnext : Coded restBits writeRest next result) (hrest : rest value = next) :
    Coded (bits + restBits) (fun writer => writeRest (write writer)) (read >>= rest) result := by
  subst hrest
  obtain ⟨fields, hcodes, rfl⟩ := h
  obtain ⟨restFields, hrestCodes, rfl⟩ := hnext
  refine ⟨fields ++ restFields, ⟨fun writer held hheld => ?_, fun reader behind hreads => ?_⟩,
    Field.width_append fields restFields⟩
  · rw [← List.append_assoc]
    exact hrestCodes.holds (hcodes.holds hheld)
  · rw [List.append_assoc] at hreads
    obtain ⟨between, hread, hbetween, hplace⟩ := hcodes.reads hreads
    obtain ⟨next, hresult, hnext, hend⟩ := hrestCodes.reads hbetween
    refine ⟨next, ?_, hnext, ?_⟩
    · rw [ReadStream.runOn_bind, hread]
      exact hresult
    · rw [hend, hplace, Field.width_append, Nat.add_assoc]

/-- First one value, and then nothing that depends on it. -/
theorem Coded.bind_pure (h : Coded bits write read value) (hrest : rest value = pure result) :
    Coded bits write (read >>= rest) result := by
  exact h.bind (coded_pure result) hrest

/-- The same value, made into another. -/
theorem Coded.map (h : Coded bits write read value) (f : α → β) :
    Coded bits write (f <$> read) (f value) := by
  rw [← bind_pure_comp]
  exact h.bind_pure rfl

theorem Coded.attempt (h : Coded bits write read value) :
    Coded bits write read.attempt (some value) := by
  obtain ⟨fields, hcodes, hbits⟩ := h
  refine ⟨fields, ⟨hcodes.holds, fun reader behind hreads => ?_⟩, hbits⟩
  obtain ⟨next, hread, hnext⟩ := hcodes.reads hreads
  refine ⟨next, ?_, hnext⟩
  rw [ReadStream.runOn_attempt, hread]

theorem codes_bits {value : UInt32} (hvalue : value.toNat < 2 ^ bits) (hbits : bits ≤ 32) :
    Codes (fun writer => writer.writeBits value bits) (ReadStream.serializeBits bits) value
      [⟨value.toNat, bits⟩] where
  holds writer held hheld := hheld.writeBits hvalue hbits
  reads reader rest hreads := by
    obtain ⟨hinside, hvalue, hnext⟩ := hreads.readBits hvalue hbits
    have hread : (reader.readBits bits).1 = value := UInt32.toNat_inj.mp hvalue
    refine ⟨(reader.readBits bits).2, ?_, hnext, rfl⟩
    change (if reader.wouldReadPastEnd bits then _ else _) = _
    rw [hinside, if_neg Bool.false_ne_true, ← hread]
    rfl

theorem coded_bits {value : UInt32} (hvalue : value.toNat < 2 ^ bits) (hbits : bits ≤ 32) :
    Coded bits (fun writer => writer.writeBits value bits) (ReadStream.serializeBits bits) value :=
  ⟨_, codes_bits hvalue hbits, rfl⟩

theorem coded_bool (value : Bool) :
    Coded 1 (fun writer => writer.serializeBool value) ReadStream.serializeBool value := by
  have hone : (1 : ℕ) ≤ 32 := by decide
  cases value with
  | false =>
      have hfits : (0 : UInt32).toNat < 2 ^ 1 := by decide
      exact (coded_bits hfits hone).bind_pure rfl
  | true =>
      have hfits : (1 : UInt32).toNat < 2 ^ 1 := by decide
      exact (coded_bits hfits hone).bind_pure rfl

/-- The bits that are required are enough. -/
theorem lt_two_pow_bitsRequired {min max value : UInt32} (hmin : min ≤ value) (hmax : value ≤ max) :
    (value - min).toNat < 2 ^ bitsRequired min max := by
  have hle : min ≤ max := UInt32.le_trans hmin hmax
  have hvalue : (value - min).toNat = value.toNat - min.toNat := UInt32.toNat_sub_of_le _ _ hmin
  have hrange : (max - min).toNat = max.toNat - min.toNat := UInt32.toNat_sub_of_le _ _ hle
  have hbelow : value.toNat ≤ max.toNat := UInt32.le_iff_toNat_le.mp hmax
  rw [bitsRequired]
  split
  · next heq =>
      subst heq
      rw [Nat.pow_zero]
      omega
  · calc (value - min).toNat
        ≤ (max - min).toNat := by omega
      _ < 2 ^ (Nat.log2 (max - min).toNat + 1) := Nat.lt_log2_self

theorem bitsRequired_le (min max : UInt32) : bitsRequired min max ≤ 32 := by
  rw [bitsRequired]
  split
  · exact Nat.zero_le 32
  · next hne =>
      have hpos : (max - min).toNat ≠ 0 := by
        intro hzero
        apply hne
        have hsub : max - min = 0 := UInt32.toNat_inj.mp hzero
        rw [← UInt32.sub_add_cancel max min, hsub, UInt32.zero_add]
      exact (Nat.log2_lt hpos).mpr (max - min).toNat_lt

/-- An integer in its range, if its type has it. -/
theorem coded_int {narrow : UInt32 → τ} {toNat : τ → ℕ} {min max unsigned : UInt32} {value : τ}
    (hmin : min ≤ unsigned) (hmax : unsigned ≤ max) (hvalue : narrow unsigned = value)
    (htoNat : toNat value = unsigned.toNat) :
    Coded (bitsRequired min max) (fun writer => writer.serializeInteger unsigned min max)
      (ReadStream.serializeInt narrow toNat min max) value := by
  have hbits := coded_bits (lt_two_pow_bitsRequired hmin hmax) (bitsRequired_le min max)
  have hnarrow : narrow (unsigned - min + min) = value := by
    rw [UInt32.sub_add_cancel, hvalue]
  have hrange : ¬(toNat value < min.toNat ∨ max.toNat < toNat value) := by
    have habove := UInt32.le_iff_toNat_le.mp hmin
    have hbelow := UInt32.le_iff_toNat_le.mp hmax
    omega
  apply hbits.bind_pure
  rw [hnarrow, if_neg hrange]

/-- Bytes in memory, taken as words, are the number that they were. -/
theorem ofWords_toWords_toBytes (bytes value : ℕ) :
    ofWords (toWords ((bytes + 3) / 4) (ofBytes (toBytes bytes value))) % 2 ^ (8 * bytes) =
      value % 2 ^ (8 * bytes) := by
  have hpow : 256 ^ bytes = 2 ^ (8 * bytes) := by
    rw [Nat.pow_mul]
  have hroom : 2 ^ (8 * bytes) ∣ 2 ^ (32 * ((bytes + 3) / 4)) := pow_dvd_pow 2 (by omega)
  rw [ofWords_toWords, ofBytes_toBytes, hpow, Nat.mod_mod_of_dvd _ hroom, Nat.mod_mod]

/-- What is written behind so many bits. -/
def checkFields (place : ℕ) : List Field :=
  (if place % 8 = 0 then [] else [⟨0, 8 - place % 8⟩]) ++
    [⟨ReadStream.serializeCheckValue.toNat, 32⟩]

theorem width_checkFields (place : ℕ) :
    place + Field.width (checkFields place) = 8 * ((place + 7) / 8 + 4) := by
  rw [checkFields]
  split
  · simp only [List.nil_append, Field.width_cons]
    change place + (32 + 0) = _
    omega
  · simp only [List.singleton_append, Field.width_cons]
    change place + (8 - place % 8 + (32 + 0)) = _
    omega

theorem BitWriter.Holds.serializeCheck {writer : BitWriter} (h : writer.Holds fields) :
    writer.serializeCheck.Holds (fields ++ checkFields (Field.width fields)) := by
  have hvalue : ReadStream.serializeCheckValue.toNat < 2 ^ 32 := UInt32.toNat_lt _
  rw [BitWriter.serializeCheck, writeAlign, checkFields, h.bitsWritten]
  by_cases haligned : Field.width fields % 8 = 0
  · rw [if_neg (not_not.mpr haligned), if_pos haligned, List.nil_append]
    exact h.writeBits hvalue le_rfl
  · rw [if_pos haligned, if_neg haligned, ← List.append_assoc]
    have hzero : (0 : UInt32).toNat < 2 ^ (8 - Field.width fields % 8) := Nat.two_pow_pos _
    exact (h.writeBits hzero (by omega)).writeBits hvalue le_rfl

theorem BitReader.Reads.serializeAlign {reader : BitReader} {rest : List Field}
    (h : reader.Reads ((if reader.bitsRead % 8 = 0 then [] else [⟨0, 8 - reader.bitsRead % 8⟩]) ++
      rest)) :
    ∃ next, ReadStream.serializeAlign.runOn reader = (some (), next) ∧ next.Reads rest := by
  rw [ReadStream.serializeAlign]
  by_cases haligned : reader.bitsRead % 8 = 0
  · rw [if_pos haligned, List.nil_append] at h
    refine ⟨reader, ?_, h⟩
    simp [haligned]
  · rw [if_neg haligned] at h
    have hzero : (0 : UInt32).toNat < 2 ^ (8 - reader.bitsRead % 8) := Nat.two_pow_pos _
    obtain ⟨next, hread, hnext, _⟩ := (codes_bits hzero (by omega)).reads h
    have hbits : (8 - reader.bitsRead % 8) % 8 = 8 - reader.bitsRead % 8 := by omega
    have hsome : 8 - reader.bitsRead % 8 ≠ 0 := by omega
    refine ⟨next, ?_, hnext⟩
    simp [hbits, hsome, hread]

theorem BitReader.Reads.serializeCheck {reader : BitReader} {rest : List Field}
    (h : reader.Reads (checkFields reader.bitsRead ++ rest)) :
    ∃ next, ReadStream.serializeCheck.runOn reader = (some (), next) := by
  rw [checkFields, List.append_assoc] at h
  obtain ⟨between, halign, hbetween⟩ := h.serializeAlign
  have hvalue : ReadStream.serializeCheckValue.toNat < 2 ^ 32 := UInt32.toNat_lt _
  obtain ⟨next, hread, _⟩ := (codes_bits hvalue le_rfl).reads hbetween
  refine ⟨next, ?_⟩
  rw [ReadStream.serializeCheck]
  simp [halign, hread]

/-- The number of bytes of a packet. -/
theorem Coded.length_writePacket (h : Coded bits write read value) :
    (BitWriter.writePacket write).length = (bits + 7) / 8 + 4 := by
  obtain ⟨fields, hcodes, rfl⟩ := h
  have hheld := (hcodes.holds BitWriter.holds_nil).serializeCheck
  have hwritten := hheld.bitsWritten
  have hwidth := width_checkFields (Field.width fields)
  have hflush : (write {}).serializeCheck.flushBits.bitsWritten =
      (write {}).serializeCheck.bitsWritten := by
    rw [BitWriter.flushBits]
    split <;> rfl
  rw [List.nil_append, Field.width_append] at hwritten
  rw [BitWriter.writePacket, BitWriter.getData, length_toBytes, BitWriter.getBytesWritten, hflush,
    hwritten, hwidth]
  omega

/-- A packet is read as what was written. -/
theorem Coded.readPacket_writePacket (h : Coded bits write read value) :
    read.readPacket (BitWriter.writePacket write) = some value := by
  obtain ⟨fields, hcodes, rfl⟩ := h
  have hheld := (hcodes.holds BitWriter.holds_nil).serializeCheck
  have hlength : (BitWriter.writePacket write).length =
      (write {}).serializeCheck.flushBits.getBytesWritten := by
    rw [BitWriter.writePacket, BitWriter.getData, length_toBytes]
  have hreads := BitReader.reads_of_holds hheld (ofWords_toWords_toBytes _ _)
  rw [List.nil_append, ← BitWriter.getData, ← BitWriter.writePacket, ← hlength] at hreads
  obtain ⟨between, hread, hbetween, hplace⟩ := hcodes.reads hreads
  rw [← Nat.zero_add (Field.width fields), ← hplace, ← List.append_nil (checkFields _)] at hbetween
  obtain ⟨next, hcheck⟩ := hbetween.serializeCheck
  rw [ReadStream.readPacket]
  simp [BitReader.ofData, hread, hcheck]

end Codes

end LibBench.Yojimbo
