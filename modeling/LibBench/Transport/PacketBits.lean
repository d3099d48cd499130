/-
# Yojimbo: the bits of a packet

`ConnectionPacket` on the wire: the entries of the channels, and in each its
messages. The reliable channel puts the numbers of its messages in front, each
after the first as what it is further on than the one before. What is read may be
anything, so an entry whose messages cannot be read is passed on as such, and the
channel takes it as an error.

A packet whose entries can be written comes back as it was, and takes no more than
what the channels have counted for it.
-/

import LibBench.Transport.Connection
import LibBench.Yojimbo.Streams

namespace LibBench.Transport

open LibBench.Math SequenceNumber
open LibBench.Yojimbo

/-- The ranges that `serialize_int_relative_internal` tries after a difference of
one, in this order. -/
def relativeRanges : List (UInt32 × UInt32) :=
  [(2, 6), (7, 23), (24, 280), (281, 4377), (4378, 69914)]

/-- Say for each range whether it is the one, and write the difference. -/
def writeDifference (current difference : UInt32) :
    List (UInt32 × UInt32) → BitWriter → BitWriter
  | [], writer => writer.writeBits current 32
  | (min, max) :: ranges, writer =>
      if difference ≤ max then (writer.serializeBool true).serializeInteger difference min max
      else writeDifference current difference ranges (writer.serializeBool false)

/-- Find the range, and read the difference. -/
def readDifference (previous : UInt32) : List (UInt32 × UInt32) → ReadStream UInt32
  | [] => ReadStream.serializeBits 32
  | (min, max) :: ranges => do
      let inRange ← ReadStream.serializeBool
      if inRange then
        let difference ← ReadStream.serializeInt id UInt32.toNat min max
        return previous + difference
      else readDifference previous ranges

/-- `serialize_int_relative_internal` on a writing stream. -/
def writeIntRelative (previous current : UInt32) (writer : BitWriter) : BitWriter :=
  let difference := current - previous
  if difference = 1 then writer.serializeBool true
  else writeDifference current difference relativeRanges (writer.serializeBool false)

/-- `serialize_int_relative_internal` on a reading stream. -/
def readIntRelative (previous : UInt32) : ReadStream UInt32 := do
  let oneBit ← ReadStream.serializeBool
  if oneBit then return previous + 1
  else readDifference previous relativeRanges

/-- `serialize_sequence_relative_internal` on a writing stream. -/
def writeSequenceRelative (sequence1 sequence2 : UInt16) : BitWriter → BitWriter :=
  writeIntRelative sequence1.toUInt32
    (sequence2.toUInt32 + if sequence2 < sequence1 then 65536 else 0)

/-- `serialize_sequence_relative_internal` on a reading stream. -/
def readSequenceRelative (sequence1 : UInt16) : ReadStream UInt16 := do
  let b ← readIntRelative sequence1.toUInt32
  return (if 65536 ≤ b then b - 65536 else b).toUInt16

/-- `MessageFactory`, with what `SerializeInternal` of each type does: write a
message, or create one of a type and read it. -/
structure MessageFactory (M : Type) where
  numTypes : ℕ
  getType : M → ℕ
  write : M → BitWriter → BitWriter
  read : ℕ → ReadStream M

section Serialize

variable {M τ : Type} (factory : MessageFactory M)

/-- The type of a message and the message, written. -/
def writeMessage (message : M) (writer : BitWriter) : BitWriter :=
  let maxMessageType := factory.numTypes - 1
  factory.write message
    (if 0 < maxMessageType then
      writer.serializeInteger (UInt32.ofNat (factory.getType message)) 0
        (UInt32.ofNat maxMessageType)
    else writer)

/-- The type of a message and the message, read. -/
def readMessage : ReadStream M := do
  let maxMessageType := factory.numTypes - 1
  let messageType ←
    if 0 < maxMessageType then
      ReadStream.serializeInt UInt32.toNat id 0 (UInt32.ofNat maxMessageType)
    else pure 0
  factory.read messageType

def writeMessages : List M → BitWriter → BitWriter
  | [], writer => writer
  | message :: messages, writer => writeMessages messages (writeMessage factory message writer)

def readMessages : ℕ → ReadStream (List M)
  | 0 => return []
  | numMessages + 1 => do
      let message ← readMessage factory
      let messages ← readMessages numMessages
      return message :: messages

def writeMessageIds (previous : UInt16) : List UInt16 → BitWriter → BitWriter
  | [], writer => writer
  | messageId :: messageIds, writer =>
      writeMessageIds messageId messageIds (writeSequenceRelative previous messageId writer)

def readMessageIds (previous : UInt16) : ℕ → ReadStream (List UInt16)
  | 0 => return []
  | numMessages + 1 => do
      let messageId ← readSequenceRelative previous
      let messageIds ← readMessageIds messageId numMessages
      return messageId :: messageIds

/-- `SerializeOrderedMessages` on a writing stream. -/
def writeOrderedMessages (maxMessagesPerPacket : ℕ) (messages : List (UInt16 × M))
    (writer : BitWriter) : BitWriter :=
  match messages.map Prod.fst with
  | [] => writer.serializeBool false
  | messageId :: messageIds =>
      let writer := (writer.serializeBool true).serializeInteger
        (UInt32.ofNat messages.length) 1 (UInt32.ofNat maxMessagesPerPacket)
      let writer := writer.writeBits messageId.toUInt32 16
      writeMessages factory (messages.map Prod.snd) (writeMessageIds messageId messageIds writer)

/-- `SerializeOrderedMessages` on a reading stream. -/
def readOrderedMessages (maxMessagesPerPacket : ℕ) : ReadStream (List (UInt16 × M)) := do
  let hasMessages ← ReadStream.serializeBool
  if hasMessages then
    let numMessages ←
      ReadStream.serializeInt UInt32.toNat id 1 (UInt32.ofNat maxMessagesPerPacket)
    let messageId ← UInt32.toUInt16 <$> ReadStream.serializeBits 16
    let messageIds ← readMessageIds messageId (numMessages - 1)
    let messages ← readMessages factory numMessages
    return (messageId :: messageIds).zip messages
  else return []

/-- `SerializeUnorderedMessages` on a writing stream. -/
def writeUnorderedMessages (maxMessagesPerPacket : ℕ) (messages : List M) (writer : BitWriter) :
    BitWriter :=
  if messages = [] then writer.serializeBool false
  else
    writeMessages factory messages ((writer.serializeBool true).serializeInteger
      (UInt32.ofNat messages.length) 1 (UInt32.ofNat maxMessagesPerPacket))

/-- `SerializeUnorderedMessages` on a reading stream. -/
def readUnorderedMessages (maxMessagesPerPacket : ℕ) : ReadStream (List M) := do
  let hasMessages ← ReadStream.serializeBool
  if hasMessages then
    let numMessages ←
      ReadStream.serializeInt UInt32.toNat id 1 (UInt32.ofNat maxMessagesPerPacket)
    readMessages factory numMessages
  else return []

/-- `ChannelPacketData` as it is read: what messages there are, none where one
failed to serialize. -/
inductive ChannelEntry (M : Type)
  | reliable (messages : Option (List (UInt16 × M)))
  | unreliable (messages : Option (List M))

/-- `ChannelPacketData` without an error. -/
def ChannelPacketData.entry : ChannelPacketData UInt16 M → ChannelEntry M
  | reliable messages => .reliable (some messages)
  | unreliable messages => .unreliable (some messages)

variable (config : ConnectionConfig M τ)

/-- `ChannelPacketData::Serialize` on a writing stream. -/
def writeEntry : ChannelPacketData UInt16 M → BitWriter → BitWriter
  | .reliable messages, writer =>
      writeOrderedMessages factory config.reliable.maxMessagesPerPacket messages
        ((writer.serializeInteger 0 0 1).serializeBool false)
  | .unreliable messages, writer =>
      writeUnorderedMessages factory config.unreliable.maxMessagesPerPacket messages
        ((writer.serializeInteger 1 0 1).serializeBool false)

/-- `ChannelPacketData::Serialize` on a reading stream, of an entry without blocks. -/
def readEntry : ReadStream (ChannelEntry M) := do
  let channelIndex ← ReadStream.serializeInt UInt32.toNat id 0 1
  let blockMessage ← ReadStream.serializeBool
  if blockMessage then failure
  else if channelIndex = 0 then
    ChannelEntry.reliable <$>
      (readOrderedMessages factory config.reliable.maxMessagesPerPacket).attempt
  else
    ChannelEntry.unreliable <$>
      (readUnorderedMessages factory config.unreliable.maxMessagesPerPacket).attempt

def writeEntries : List (ChannelPacketData UInt16 M) → BitWriter → BitWriter
  | [], writer => writer
  | entry :: entries, writer => writeEntries entries (writeEntry factory config entry writer)

def readEntries : ℕ → ReadStream (List (ChannelEntry M))
  | 0 => return []
  | numChannelEntries + 1 => do
      let entry ← readEntry factory config
      let entries ← readEntries numChannelEntries
      return entry :: entries

/-- `ConnectionPacket::Serialize` on a writing stream. -/
def writeConnectionPacket (channelEntry : List (ChannelPacketData UInt16 M))
    (writer : BitWriter) : BitWriter :=
  writeEntries factory config channelEntry
    (writer.serializeInteger (UInt32.ofNat channelEntry.length) 0 2)

/-- `ConnectionPacket::Serialize` on a reading stream. -/
def readConnectionPacket : ReadStream (List (ChannelEntry M)) := do
  let numChannelEntries ← ReadStream.serializeInt UInt32.toNat id 0 2
  readEntries factory config numChannelEntries

/-- `WritePacket`. -/
def writePacket (channelEntry : List (ChannelPacketData UInt16 M)) : List UInt8 :=
  BitWriter.writePacket (writeConnectionPacket factory config channelEntry)

/-- `ReadPacket`. -/
def readPacket (packetData : List UInt8) : Option (List (ChannelEntry M)) :=
  (readConnectionPacket factory config).readPacket packetData

end Serialize

/-! ## Processing -/

section Processing

variable {M τ : Type} {config : ConnectionConfig M τ}

/-- `ProcessPacketData` of a reliable channel, of messages that failed to serialize. -/
def ReliableOrderedChannel.failToSerialize {config : ChannelConfig M τ}
    (channel : ReliableOrderedChannel UInt16 config) : ReliableOrderedChannel UInt16 config :=
  if channel.errorLevel ≠ .none then channel
  else { channel with errorLevel := .failedToSerialize }

/-- `ProcessPacketData` of an unreliable channel, of messages that failed to serialize. -/
def UnreliableUnorderedChannel.failToSerialize {config : ChannelConfig M τ}
    (channel : UnreliableUnorderedChannel config) : UnreliableUnorderedChannel config :=
  if channel.errorLevel ≠ .none then channel
  else { channel with errorLevel := .failedToSerialize }

namespace Connection

/-- The loop of `ProcessPacket` over the entries as they have been read. -/
def processChannelEntries :
    List (ChannelEntry M) → Connection UInt16 config → Bool × Connection UInt16 config
  | [], connection => (true, connection)
  | .reliable messages :: entries, connection =>
      let reliable :=
        match messages with
        | some messages => connection.reliable.processPacketData messages
        | none => connection.reliable.failToSerialize
      let connection := { connection with reliable }
      if connection.reliable.errorLevel ≠ .none then (false, connection)
      else processChannelEntries entries connection
  | .unreliable messages :: entries, connection =>
      let unreliable :=
        match messages with
        | some messages => connection.unreliable.processPacketData messages
        | none => connection.unreliable.failToSerialize
      let connection := { connection with unreliable }
      if connection.unreliable.errorLevel ≠ .none then (false, connection)
      else processChannelEntries entries connection

/-- `ProcessPacket`, of the bytes of a packet. -/
def processPacketData (factory : MessageFactory M) (packetData : List UInt8)
    (connection : Connection UInt16 config) : Bool × Connection UInt16 config :=
  if connection.errorLevel ≠ .none then (false, connection)
  else
    match readPacket factory config packetData with
    | none => (false, { connection with errorLevel := .readPacketFailed })
    | some entries => processChannelEntries entries connection

theorem processChannelEntries_map_entry (entries : List (ChannelPacketData UInt16 M))
    (connection : Connection UInt16 config) :
    processChannelEntries (entries.map ChannelPacketData.entry) connection =
      processEntries entries connection := by
  induction entries generalizing connection with
  | nil => rfl
  | cons entry entries ih =>
      cases entry with
      | reliable messages | unreliable messages =>
          rw [List.map_cons, ChannelPacketData.entry, processChannelEntries, processEntries]
          simp only [ih]

end Connection

end Processing

/-! ## The codes of numbers -/

/-- The ranges follow one another from this number on. -/
def Contiguous : ℕ → List (UInt32 × UInt32) → Prop
  | _, [] => True
  | lower, (min, max) :: ranges => min.toNat = lower ∧ Contiguous (max.toNat + 1) ranges

/-- The bits of a difference. -/
def differenceBits (difference : UInt32) : List (UInt32 × UInt32) → ℕ
  | [] => 32
  | (min, max) :: ranges =>
      1 + if difference ≤ max then bitsRequired min max else differenceBits difference ranges

theorem coded_difference {previous current difference : UInt32}
    (hcurrent : previous + difference = current) {lower : ℕ} {ranges : List (UInt32 × UInt32)}
    (hranges : Contiguous lower ranges) (hlower : lower ≤ difference.toNat) :
    Coded (differenceBits difference ranges) (writeDifference current difference ranges)
      (readDifference previous ranges) current := by
  induction ranges generalizing lower with
  | nil => exact coded_bits current.toNat_lt le_rfl
  | cons range ranges ih =>
      obtain ⟨min, max⟩ := range
      obtain ⟨hmin, hrest⟩ := hranges
      simp only [differenceBits, writeDifference, readDifference]
      by_cases hmax : difference ≤ max
      · simp only [if_pos hmax]
        have habove : min ≤ difference := UInt32.le_iff_toNat_le.mpr (by omega)
        have hint : Coded (bitsRequired min max)
            (fun writer => writer.serializeInteger difference min max)
            (ReadStream.serializeInt id UInt32.toNat min max) difference :=
          coded_int habove hmax rfl rfl
        have hread : Coded (bitsRequired min max)
            (fun writer => writer.serializeInteger difference min max)
            (do
              let difference ← ReadStream.serializeInt id UInt32.toNat min max
              return previous + difference) current := hint.bind_pure (congrArg pure hcurrent)
        exact (coded_bool true).bind hread rfl
      · simp only [if_neg hmax]
        have hbeyond : max.toNat + 1 ≤ difference.toNat :=
          Nat.lt_of_not_le (mt UInt32.le_iff_toNat_le.mpr hmax)
        exact (coded_bool false).bind (ih hrest hbeyond) rfl

/-- The bits of a number relative to another. -/
theorem intRelativeBits_eq {difference : UInt32} (hpos : 0 < difference.toNat)
    (hlt : difference.toNat < 65536) :
    intRelativeBits difference.toNat =
      1 + if difference = 1 then 0 else differenceBits difference relativeRanges := by
  have hone : difference = 1 ↔ (difference.toNat : ℤ) = 1 := by
    rw [← UInt32.toNat_inj, Nat.cast_eq_one]
    rfl
  have hle : ∀ max : UInt32, difference ≤ max ↔ (difference.toNat : ℤ) ≤ max.toNat := by
    intro max
    rw [UInt32.le_iff_toNat_le, Nat.cast_le]
  simp only [intRelativeBits, differenceBits, relativeRanges, hone, hle]
  change (if (difference.toNat : ℤ) = 1 then 1 else _) =
    1 + if (difference.toNat : ℤ) = 1 then 0 else
      1 + if (difference.toNat : ℤ) ≤ 6 then bitsRequired 2 6 else
        1 + if (difference.toNat : ℤ) ≤ 23 then bitsRequired 7 23 else
          1 + if (difference.toNat : ℤ) ≤ 280 then bitsRequired 24 280 else
            1 + if (difference.toNat : ℤ) ≤ 4377 then bitsRequired 281 4377 else
              1 + if (difference.toNat : ℤ) ≤ 69914 then bitsRequired 4378 69914 else 32
  split_ifs <;> omega

/-- A number that is not the other. -/
theorem coded_sequenceRelative {sequence1 sequence2 : UInt16} (hne : sequence1 ≠ sequence2) :
    Coded (intRelativeBits (distance sequence1 sequence2))
      (writeSequenceRelative sequence1 sequence2) (readSequenceRelative sequence1) sequence2 := by
  have hfirst := sequence1.toNat_lt
  have hsecond := sequence2.toNat_lt
  have hother : sequence1.toNat ≠ sequence2.toNat := mt UInt16.toNat_inj.mp hne
  obtain ⟨current, hcurrent⟩ : ∃ current : UInt32,
      current = sequence2.toUInt32 + if sequence2 < sequence1 then 65536 else 0 := ⟨_, rfl⟩
  have htoNat : current.toNat =
      sequence2.toNat + if sequence2.toNat < sequence1.toNat then 65536 else 0 := by
    simp only [hcurrent, UInt16.lt_iff_toNat_lt]
    rw [UInt32.toNat_add, UInt16.toNat_toUInt32]
    split
    · exact Nat.mod_eq_of_lt (show sequence2.toNat + 65536 < 2 ^ 32 by omega)
    · exact Nat.mod_eq_of_lt (show sequence2.toNat + 0 < 2 ^ 32 by omega)
  have habove : sequence1.toUInt32 ≤ current := by
    rw [UInt32.le_iff_toNat_le, UInt16.toNat_toUInt32, htoNat]
    split <;> omega
  have hdifference : (current - sequence1.toUInt32).toNat = current.toNat - sequence1.toNat := by
    rw [UInt32.toNat_sub_of_le _ _ habove, UInt16.toNat_toUInt32]
  have hdistance : distance sequence1 sequence2 =
      ((current - sequence1.toUInt32).toNat : ℤ) := by
    change (sequence2.toNat : ℤ) + (if (sequence2.toNat : ℤ) < sequence1.toNat then 65536 else 0) -
      sequence1.toNat = _
    rw [hdifference, htoNat]
    split <;> split <;> omega
  have hback : (if 65536 ≤ current then current - 65536 else current).toUInt16 = sequence2 := by
    apply UInt16.toNat_inj.mp
    rw [UInt32.toNat_toUInt16]
    split
    · next hle =>
        have hturn := UInt32.le_iff_toNat_le.mp hle
        rw [UInt32.toNat_sub_of_le _ _ hle]
        change (current.toNat - 65536) % 2 ^ 16 = sequence2.toNat
        change 65536 ≤ current.toNat at hturn
        split at htoNat <;> omega
    · split at htoNat <;> omega
  have hpos : 0 < (current - sequence1.toUInt32).toNat := by
    rw [hdifference, htoNat]
    split <;> omega
  have hturn : (current - sequence1.toUInt32).toNat < 65536 := by
    rw [hdifference, htoNat]
    split <;> omega
  have hrelative : Coded (intRelativeBits (distance sequence1 sequence2))
      (writeIntRelative sequence1.toUInt32 current)
      (readIntRelative sequence1.toUInt32) current := by
    rw [hdistance, intRelativeBits_eq hpos hturn]
    have hsum : sequence1.toUInt32 + (current - sequence1.toUInt32) = current := by
      rw [UInt32.add_comm, UInt32.sub_add_cancel]
    rw [readIntRelative]
    by_cases hone : current - sequence1.toUInt32 = 1
    · have hwrite : writeIntRelative sequence1.toUInt32 current =
          fun writer => writer.serializeBool true := by
        funext writer
        exact if_pos hone
      have hnext : sequence1.toUInt32 + 1 = current := hone ▸ hsum
      rw [hwrite, if_pos hone, ← hnext]
      exact (coded_bool true).bind_pure rfl
    · have hwrite : writeIntRelative sequence1.toUInt32 current = fun writer =>
          writeDifference current (current - sequence1.toUInt32) relativeRanges
            (writer.serializeBool false) := by
        funext writer
        exact if_neg hone
      have hranges : Contiguous 2 relativeRanges := by
        simp only [relativeRanges, Contiguous]
        decide
      have hlower : 2 ≤ (current - sequence1.toUInt32).toNat := by
        have hne : (current - sequence1.toUInt32).toNat ≠ (1 : UInt32).toNat :=
          mt UInt32.toNat_inj.mp hone
        change _ ≠ 1 at hne
        omega
      rw [hwrite, if_neg hone]
      exact (coded_bool false).bind (coded_difference hsum hranges hlower) rfl
  rw [writeSequenceRelative, ← hcurrent]
  exact hrelative.bind_pure (congrArg pure hback)

/-- A message comes over the wire, in the bits that are counted for it. -/
def MessageFactory.Carries {M : Type} (factory : MessageFactory M) (measuredBits : M → ℕ)
    (message : M) : Prop :=
  factory.getType message < factory.numTypes ∧
    Coded (measuredBits message) (factory.write message) (factory.read (factory.getType message))
      message

/-- The bits of numbers, each relative to the one before. -/
def relativeIdBits {ν : Type} [SequenceNumber ν] (previous : ν) : List ν → ℕ
  | [] => 0
  | messageId :: messageIds =>
      intRelativeBits (distance previous messageId) + relativeIdBits messageId messageIds

/-- The bits of the numbers of a packet. -/
def messageIdBits {ν : Type} [SequenceNumber ν] : List ν → ℕ
  | [] => 0
  | messageId :: messageIds => 16 + relativeIdBits messageId messageIds

/-- The bits of messages and their types. -/
def messagesBits {M τ : Type} (config : ChannelConfig M τ) (messages : List M) : ℕ :=
  (messages.map fun message => config.messageTypeBits + config.measuredBits message).sum

theorem coded_messageIds {previous : UInt16} {messageIds : List UInt16}
    (h : (previous :: messageIds).IsChain (· ≠ ·)) :
    Coded (relativeIdBits previous messageIds) (writeMessageIds previous messageIds)
      (readMessageIds previous messageIds.length) messageIds := by
  induction messageIds generalizing previous with
  | nil => exact coded_pure []
  | cons messageId messageIds ih =>
      obtain ⟨hne, hrest⟩ := List.isChain_cons_cons.mp h
      have htail : Coded (relativeIdBits messageId messageIds)
          (writeMessageIds messageId messageIds)
          (do
            let messageIds ← readMessageIds messageId messageIds.length
            return messageId :: messageIds) (messageId :: messageIds) :=
        (ih hrest).bind_pure rfl
      exact (coded_sequenceRelative hne).bind htail rfl

section Messages

variable {M τ : Type} {factory : MessageFactory M} {config : ChannelConfig M τ}

/-- What the channel counts for a type is what it takes. -/
def CountsTypes (factory : MessageFactory M) (config : ChannelConfig M τ) : Prop :=
  factory.numTypes ≤ 2 ^ 31 ∧
    config.messageTypeBits = bitsRequired 0 (UInt32.ofNat (factory.numTypes - 1))

theorem coded_message (htypes : CountsTypes factory config) {message : M}
    (h : factory.Carries config.measuredBits message) :
    Coded (config.messageTypeBits + config.measuredBits message) (writeMessage factory message)
      (readMessage factory) message := by
  obtain ⟨hsmall, hbits⟩ := htypes
  obtain ⟨hlt, hmessage⟩ := h
  rw [readMessage]
  by_cases hmany : 0 < factory.numTypes - 1
  · have htoNat : (UInt32.ofNat (factory.getType message)).toNat = factory.getType message := by
      rw [UInt32.toNat_ofNat']
      omega
    have hmax : (UInt32.ofNat (factory.numTypes - 1)).toNat = factory.numTypes - 1 := by
      rw [UInt32.toNat_ofNat']
      omega
    have hle : UInt32.ofNat (factory.getType message) ≤ UInt32.ofNat (factory.numTypes - 1) := by
      rw [UInt32.le_iff_toNat_le]
      omega
    have hzero : (0 : UInt32) ≤ UInt32.ofNat (factory.getType message) := by
      rw [UInt32.le_iff_toNat_le]
      exact Nat.zero_le _
    have htype : Coded (bitsRequired 0 (UInt32.ofNat (factory.numTypes - 1)))
        (fun writer => writer.serializeInteger (UInt32.ofNat (factory.getType message)) 0
          (UInt32.ofNat (factory.numTypes - 1)))
        (ReadStream.serializeInt UInt32.toNat id 0 (UInt32.ofNat (factory.numTypes - 1)))
        (factory.getType message) := coded_int hzero hle htoNat htoNat.symm
    have hwrite : writeMessage factory message = fun writer =>
        factory.write message (writer.serializeInteger
          (UInt32.ofNat (factory.getType message)) 0 (UInt32.ofNat (factory.numTypes - 1))) := by
      funext writer
      rw [writeMessage, if_pos hmany]
    rw [hwrite, if_pos hmany, hbits]
    exact htype.bind hmessage rfl
  · have hone : factory.numTypes = 1 := by omega
    have hwrite : writeMessage factory message = factory.write message := by
      funext writer
      rw [writeMessage, if_neg hmany]
    have hnone : config.messageTypeBits = 0 := by
      rw [hbits, hone]
      rfl
    have htype : factory.getType message = 0 := by omega
    rw [hwrite, if_neg hmany, hnone]
    rw [htype] at hmessage
    exact (coded_pure 0).bind hmessage rfl

theorem coded_messages (htypes : CountsTypes factory config) {messages : List M}
    (h : ∀ message ∈ messages, factory.Carries config.measuredBits message) :
    Coded (messagesBits config messages) (writeMessages factory messages)
      (readMessages factory messages.length) messages := by
  induction messages with
  | nil => exact coded_pure []
  | cons message messages ih =>
      obtain ⟨hfirst, hrest⟩ := List.forall_mem_cons.mp h
      have htail : Coded (messagesBits config messages) (writeMessages factory messages)
          (do
            let messages ← readMessages factory messages.length
            return message :: messages) (message :: messages) :=
        (ih hrest).bind_pure rfl
      exact (coded_message htypes hfirst).bind htail rfl

/-- How many messages there are. -/
theorem coded_numMessages {maxMessagesPerPacket numMessages : ℕ} (hpos : 0 < numMessages)
    (hle : numMessages ≤ maxMessagesPerPacket) (hmax : maxMessagesPerPacket ≤ 2048) :
    Coded (bitsRequired 1 (UInt32.ofNat maxMessagesPerPacket))
      (fun writer => writer.serializeInteger (UInt32.ofNat numMessages) 1
        (UInt32.ofNat maxMessagesPerPacket))
      (ReadStream.serializeInt UInt32.toNat id 1 (UInt32.ofNat maxMessagesPerPacket))
      numMessages := by
  have htoNat : (UInt32.ofNat numMessages).toNat = numMessages := by
    rw [UInt32.toNat_ofNat']
    omega
  have hmaxNat : (UInt32.ofNat maxMessagesPerPacket).toNat = maxMessagesPerPacket := by
    rw [UInt32.toNat_ofNat']
    omega
  have hone : (1 : UInt32) ≤ UInt32.ofNat numMessages := by
    rw [UInt32.le_iff_toNat_le, htoNat]
    exact hpos
  have hrange : UInt32.ofNat numMessages ≤ UInt32.ofNat maxMessagesPerPacket := by
    rw [UInt32.le_iff_toNat_le, htoNat, hmaxNat]
    exact hle
  exact coded_int hone hrange htoNat htoNat.symm

/-- Not more than eleven bits say so. -/
theorem bitsRequired_numMessages_le {maxMessagesPerPacket : ℕ} (hpos : 0 < maxMessagesPerPacket)
    (hmax : maxMessagesPerPacket ≤ 2048) :
    bitsRequired 1 (UInt32.ofNat maxMessagesPerPacket) ≤ 11 := by
  have htoNat : (UInt32.ofNat maxMessagesPerPacket).toNat = maxMessagesPerPacket := by
    rw [UInt32.toNat_ofNat']
    omega
  have hone : (1 : UInt32) ≤ UInt32.ofNat maxMessagesPerPacket := by
    rw [UInt32.le_iff_toNat_le, htoNat]
    exact hpos
  have hrange : (UInt32.ofNat maxMessagesPerPacket - 1).toNat = maxMessagesPerPacket - 1 := by
    rw [UInt32.toNat_sub_of_le _ _ hone, htoNat]
    rfl
  rw [bitsRequired]
  split
  · decide
  · next hne =>
      have hmany : maxMessagesPerPacket - 1 ≠ 0 := by
        intro hzero
        apply hne
        apply UInt32.toNat_inj.mp
        rw [htoNat]
        change 1 = maxMessagesPerPacket
        omega
      rw [hrange]
      exact (Nat.log2_lt hmany).mpr (show _ < 2048 by omega)

/-- The number of the first message. -/
theorem coded_messageId (messageId : UInt16) :
    Coded 16 (fun writer => writer.writeBits messageId.toUInt32 16)
      (UInt32.toUInt16 <$> ReadStream.serializeBits 16) messageId := by
  have hfits : messageId.toUInt32.toNat < 2 ^ 16 := by
    rw [UInt16.toNat_toUInt32]
    exact messageId.toNat_lt
  have hbits : (16 : ℕ) ≤ 32 := by decide
  have hcoded := (coded_bits hfits hbits).map UInt32.toUInt16
  rwa [UInt16.toUInt16_toUInt32] at hcoded

theorem coded_orderedMessages (htypes : CountsTypes factory config) {messages : List (UInt16 × M)}
    (hmessages : messages ≠ []) (hle : messages.length ≤ config.maxMessagesPerPacket)
    (hmax : config.maxMessagesPerPacket ≤ 2048)
    (hids : (messages.map Prod.fst).IsChain (· ≠ ·))
    (h : ∀ pair ∈ messages, factory.Carries config.measuredBits pair.2) :
    Coded (1 + (bitsRequired 1 (UInt32.ofNat config.maxMessagesPerPacket) +
        (messageIdBits (messages.map Prod.fst) + messagesBits config (messages.map Prod.snd))))
      (writeOrderedMessages factory config.maxMessagesPerPacket messages)
      (readOrderedMessages factory config.maxMessagesPerPacket) messages := by
  obtain ⟨pair, rest, rfl⟩ := List.exists_cons_of_ne_nil hmessages
  have hcarried : ∀ message ∈ (pair :: rest).map Prod.snd,
      factory.Carries config.measuredBits message := by
    intro message hmem
    obtain ⟨other, hother, rfl⟩ := List.mem_map.mp hmem
    exact h other hother
  have hbodies := coded_messages htypes hcarried
  rw [List.length_map] at hbodies
  have hzip : (pair.1 :: rest.map Prod.fst).zip ((pair :: rest).map Prod.snd) = pair :: rest := by
    rw [← List.map_cons]
    exact (List.zip_of_prod rfl rfl).symm
  have hread : Coded (messagesBits config ((pair :: rest).map Prod.snd))
      (writeMessages factory ((pair :: rest).map Prod.snd))
      (do
        let messages ← readMessages factory (pair :: rest).length
        return (pair.1 :: rest.map Prod.fst).zip messages) (pair :: rest) :=
    hbodies.bind_pure (congrArg pure hzip)
  have hnumbers := coded_messageIds hids
  rw [List.length_map] at hnumbers
  have hothers : Coded
      (relativeIdBits pair.1 (rest.map Prod.fst) +
        messagesBits config ((pair :: rest).map Prod.snd))
      (fun writer => writeMessages factory ((pair :: rest).map Prod.snd)
        (writeMessageIds pair.1 (rest.map Prod.fst) writer))
      (do
        let messageIds ← readMessageIds pair.1 rest.length
        let messages ← readMessages factory (pair :: rest).length
        return (pair.1 :: messageIds).zip messages) (pair :: rest) :=
    hnumbers.bind hread rfl
  have hfirst : Coded
      (16 + (relativeIdBits pair.1 (rest.map Prod.fst) +
        messagesBits config ((pair :: rest).map Prod.snd)))
      (fun writer => writeMessages factory ((pair :: rest).map Prod.snd)
        (writeMessageIds pair.1 (rest.map Prod.fst) (writer.writeBits pair.1.toUInt32 16)))
      (do
        let messageId ← UInt32.toUInt16 <$> ReadStream.serializeBits 16
        let messageIds ← readMessageIds messageId rest.length
        let messages ← readMessages factory (pair :: rest).length
        return (messageId :: messageIds).zip messages) (pair :: rest) :=
    (coded_messageId pair.1).bind hothers rfl
  have hnumMessages := coded_numMessages (List.length_pos_iff.mpr hmessages) hle hmax
  rw [List.map_cons, messageIdBits, Nat.add_assoc]
  exact (coded_bool true).bind (hnumMessages.bind hfirst rfl) rfl

theorem coded_unorderedMessages (htypes : CountsTypes factory config) {messages : List M}
    (hmessages : messages ≠ []) (hle : messages.length ≤ config.maxMessagesPerPacket)
    (hmax : config.maxMessagesPerPacket ≤ 2048)
    (h : ∀ message ∈ messages, factory.Carries config.measuredBits message) :
    Coded (1 + (bitsRequired 1 (UInt32.ofNat config.maxMessagesPerPacket) +
        messagesBits config messages))
      (writeUnorderedMessages factory config.maxMessagesPerPacket messages)
      (readUnorderedMessages factory config.maxMessagesPerPacket) messages := by
  have hwrite : writeUnorderedMessages factory config.maxMessagesPerPacket messages =
      fun writer => writeMessages factory messages ((writer.serializeBool true).serializeInteger
        (UInt32.ofNat messages.length) 1 (UInt32.ofNat config.maxMessagesPerPacket)) := by
    funext writer
    exact if_neg hmessages
  have hnumMessages := coded_numMessages (List.length_pos_iff.mpr hmessages) hle hmax
  rw [hwrite]
  exact (coded_bool true).bind (hnumMessages.bind (coded_messages htypes h) rfl) rfl

end Messages

section Packets

variable {M τ : Type} {factory : MessageFactory M} {config : ConnectionConfig M τ}

/-- What the configuration has to be for packets to fit. -/
structure PacketsFit (factory : MessageFactory M) (config : ConnectionConfig M τ) : Prop where
  reliableTypes : CountsTypes factory config.reliable
  unreliableTypes : CountsTypes factory config.unreliable
  reliable_pos : 0 < config.reliable.maxMessagesPerPacket
  reliable_le : config.reliable.maxMessagesPerPacket ≤ 2048
  unreliable_le : config.unreliable.maxMessagesPerPacket ≤ 2048
  maxPacketSize_ge : 5 ≤ config.maxPacketSize

/-- An entry can be written. -/
def ChannelPacketData.Writable (factory : MessageFactory M) (config : ConnectionConfig M τ) :
    ChannelPacketData UInt16 M → Prop
  | reliable messages =>
      messages ≠ [] ∧ messages.length ≤ config.reliable.maxMessagesPerPacket ∧
        (messages.map Prod.fst).IsChain (· ≠ ·) ∧
        ∀ pair ∈ messages, factory.Carries config.reliable.measuredBits pair.2
  | unreliable messages =>
      messages ≠ [] ∧ messages.length ≤ config.unreliable.maxMessagesPerPacket ∧
        ∀ message ∈ messages, factory.Carries config.unreliable.measuredBits message

/-- The bits of what is in an entry. -/
def ChannelPacketData.bits {ν : Type} [SequenceNumber ν] (config : ConnectionConfig M τ) :
    ChannelPacketData ν M → ℕ
  | reliable messages =>
      messageIdBits (messages.map Prod.fst) +
        messagesBits config.reliable (messages.map Prod.snd)
  | unreliable messages => messagesBits config.unreliable messages

/-- An entry comes over the wire, with fourteen bits in front at most. -/
theorem coded_entry (hfit : PacketsFit factory config) {entry : ChannelPacketData UInt16 M}
    (h : entry.Writable factory config) :
    ∃ bits ≤ 14 + entry.bits config,
      Coded bits (writeEntry factory config entry) (readEntry factory config) entry.entry := by
  have hchannel : ∀ channelIndex : ℕ, ∀ unsigned : UInt32, unsigned.toNat = channelIndex →
      unsigned ≤ 1 → Coded 1 (fun writer => writer.serializeInteger unsigned 0 1)
        (ReadStream.serializeInt UInt32.toNat id 0 1) channelIndex :=
    fun channelIndex unsigned htoNat hle => coded_int UInt32.zero_le hle htoNat htoNat.symm
  cases entry with
  | reliable messages =>
      obtain ⟨hne, hlength, hids, hcarries⟩ := h
      have hpos := (List.length_pos_iff.mpr hne).trans_le hlength
      have hbits := bitsRequired_numMessages_le hpos hfit.reliable_le
      have hmessages := (coded_orderedMessages hfit.reliableTypes hne hlength hfit.reliable_le hids
        hcarries).attempt.map ChannelEntry.reliable
      refine ⟨_, ?_, (hchannel 0 0 rfl (by decide)).bind
        ((coded_bool false).bind hmessages rfl) rfl⟩
      simp only [ChannelPacketData.bits]
      omega
  | unreliable messages =>
      obtain ⟨hne, hlength, hcarries⟩ := h
      have hpos := (List.length_pos_iff.mpr hne).trans_le hlength
      have hbits := bitsRequired_numMessages_le hpos hfit.unreliable_le
      have hmessages := (coded_unorderedMessages hfit.unreliableTypes hne hlength
        hfit.unreliable_le hcarries).attempt.map ChannelEntry.unreliable
      refine ⟨_, ?_, (hchannel 1 1 rfl (by decide)).bind
        ((coded_bool false).bind hmessages rfl) rfl⟩
      simp only [ChannelPacketData.bits]
      omega

theorem coded_entries (hfit : PacketsFit factory config)
    {channelEntry : List (ChannelPacketData UInt16 M)}
    (h : ∀ entry ∈ channelEntry, entry.Writable factory config) :
    ∃ bits ≤ (channelEntry.map fun entry => 14 + entry.bits config).sum,
      Coded bits (writeEntries factory config channelEntry)
        (readEntries factory config channelEntry.length)
        (channelEntry.map ChannelPacketData.entry) := by
  induction channelEntry with
  | nil => exact ⟨0, le_rfl, coded_pure []⟩
  | cons entry entries ih =>
      obtain ⟨hfirst, hrest⟩ := List.forall_mem_cons.mp h
      obtain ⟨bits, hbits, hentry⟩ := coded_entry hfit hfirst
      obtain ⟨restBits, hrestBits, hentries⟩ := ih hrest
      have htail : Coded restBits (writeEntries factory config entries)
          (do
            let entries ← readEntries factory config entries.length
            return entry.entry :: entries)
          ((entry :: entries).map ChannelPacketData.entry) :=
        hentries.bind_pure rfl
      refine ⟨bits + restBits, ?_, hentry.bind htail rfl⟩
      rw [List.map_cons, List.sum_cons]
      exact Nat.add_le_add hbits hrestBits

/-- A packet comes over the wire. -/
theorem coded_connectionPacket (hfit : PacketsFit factory config)
    {channelEntry : List (ChannelPacketData UInt16 M)} (hlength : channelEntry.length ≤ 2)
    (h : ∀ entry ∈ channelEntry, entry.Writable factory config) :
    ∃ bits ≤ 2 + (channelEntry.map fun entry => 14 + entry.bits config).sum,
      Coded bits (writeConnectionPacket factory config channelEntry)
        (readConnectionPacket factory config) (channelEntry.map ChannelPacketData.entry) := by
  obtain ⟨bits, hbits, hentries⟩ := coded_entries hfit h
  have htoNat : (UInt32.ofNat channelEntry.length).toNat = channelEntry.length := by
    rw [UInt32.toNat_ofNat']
    omega
  have hle : UInt32.ofNat channelEntry.length ≤ 2 := by
    rw [UInt32.le_iff_toNat_le, htoNat]
    exact hlength
  have hnumber : Coded 2
      (fun writer => writer.serializeInteger (UInt32.ofNat channelEntry.length) 0 2)
      (ReadStream.serializeInt UInt32.toNat id 0 2) channelEntry.length :=
    coded_int UInt32.zero_le hle htoNat htoNat.symm
  exact ⟨2 + bits, Nat.add_le_add_left hbits 2, hnumber.bind hentries rfl⟩

/-- The entries of a packet that can be written, and leave room for the check. -/
structure EntriesFit (factory : MessageFactory M) (config : ConnectionConfig M τ)
    (channelEntry : List (ChannelPacketData UInt16 M)) : Prop where
  length_le : channelEntry.length ≤ 2
  writable : ∀ entry ∈ channelEntry, entry.Writable factory config
  bits_le : 2 + (channelEntry.map fun entry => 14 + entry.bits config).sum + 32 ≤
    8 * config.maxPacketSize

variable {channelEntry : List (ChannelPacketData UInt16 M)}

/-- A packet is read as it was written. -/
theorem EntriesFit.readPacket_writePacket (h : EntriesFit factory config channelEntry)
    (hfit : PacketsFit factory config) :
    readPacket factory config (writePacket factory config channelEntry) =
      some (channelEntry.map ChannelPacketData.entry) := by
  obtain ⟨bits, _, hcoded⟩ := coded_connectionPacket hfit h.length_le h.writable
  exact hcoded.readPacket_writePacket

/-- And it is not longer than the buffer. -/
theorem EntriesFit.length_writePacket_le (h : EntriesFit factory config channelEntry)
    (hfit : PacketsFit factory config) :
    (writePacket factory config channelEntry).length ≤ config.maxPacketSize := by
  obtain ⟨bits, hbits, hcoded⟩ := coded_connectionPacket hfit h.length_le h.writable
  have hroom := h.bits_le
  rw [writePacket, hcoded.length_writePacket]
  omega

/-- Nor is it empty. -/
theorem EntriesFit.writePacket_ne_nil (h : EntriesFit factory config channelEntry)
    (hfit : PacketsFit factory config) : writePacket factory config channelEntry ≠ [] := by
  obtain ⟨bits, _, hcoded⟩ := coded_connectionPacket hfit h.length_le h.writable
  apply List.ne_nil_of_length_pos
  rw [writePacket, hcoded.length_writePacket]
  omega

/-- The bytes of a packet are processed as the packet. -/
theorem EntriesFit.processPacketData_writePacket (h : EntriesFit factory config channelEntry)
    (hfit : PacketsFit factory config) :
    Connection.processPacketData factory (writePacket factory config channelEntry) =
      fun connection : Connection UInt16 config => connection.processPacket channelEntry := by
  funext connection
  rw [Connection.processPacketData, Connection.processPacket, h.readPacket_writePacket hfit]
  simp only [Connection.processChannelEntries_map_entry]

end Packets

end LibBench.Transport
