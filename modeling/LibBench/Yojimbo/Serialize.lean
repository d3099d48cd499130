/-
# Yojimbo: the messages on the wire

The `Serialize` functions of `yojimbo/shared.h`. Every field of every message is
declared to lie between 0 and 512 and is written in the ten bits that takes,
which have room for 1023. Whether a value lies in the range is asserted on
writing and tested on reading; a build without assertions writes whatever there
is. The test on reading comes after the conversion to the type of the field, so
for a player's id, which has eight bits, it says nothing.

A message survives the wire when its fields are in the range and it is read back
as it was wherever it stands in a packet, among whatever else is written there.
-/

import LibBench.Yojimbo.BitStream
import LibBench.Yojimbo.Messages

namespace LibBench.Yojimbo

open LibBench.Math

/-- `serialize_int` on a reading stream, for a field of a narrower type: none
where `Serialize` returns false. -/
def serializeInt {τ : Type} (narrow : UInt32 → τ) (toNat : τ → ℕ) (min max : UInt32)
    (reader : BitReader) : Option (τ × BitReader) :=
  match reader.serializeInteger min max with
  | none => none
  | some (value, next) =>
      if toNat (narrow value) < min.toNat ∨ max.toNat < toNat (narrow value) then none
      else some (narrow value, next)

/-- `serialize_int` into a `coord` or another integer of sixteen bits. -/
def serializeCoord : BitReader → Option (UInt16 × BitReader) :=
  serializeInt UInt32.toUInt16 UInt16.toNat 0 512

/-- `serialize_int` into a `clientID`. -/
def serializeClientID : BitReader → Option (ClientID × BitReader) :=
  serializeInt UInt32.toUInt8 UInt8.toNat 0 512

/-- `GameConfigMessage::Serialize` on a writing stream. -/
def GameConfigMessage.write (message : GameConfigMessage) (writer : BitWriter) : BitWriter :=
  ((writer.serializeInteger message.mapWidth.toUInt32 0 512).serializeInteger
    message.mapHeight.toUInt32 0 512).serializeInteger message.numPlayers.toUInt32 0 512

/-- `GameConfigMessage::Serialize` on a reading stream. -/
def GameConfigMessage.read (reader : BitReader) : Option (GameConfigMessage × BitReader) := do
  let (mapWidth, reader) ← serializeCoord reader
  let (mapHeight, reader) ← serializeCoord reader
  let (numPlayers, reader) ← serializeCoord reader
  return (⟨mapWidth, mapHeight, numPlayers⟩, reader)

/-- A position and a player's id, written. -/
def writePlayerPos (x y : UInt16) (playerID : ClientID) (writer : BitWriter) : BitWriter :=
  ((writer.serializeInteger x.toUInt32 0 512).serializeInteger y.toUInt32 0 512).serializeInteger
    playerID.toUInt32 0 512

/-- A position and a player's id, read into a message. -/
def readPlayerPos {τ : Type} (message : UInt16 → UInt16 → ClientID → τ) (reader : BitReader) :
    Option (τ × BitReader) := do
  let (x, reader) ← serializeCoord reader
  let (y, reader) ← serializeCoord reader
  let (playerID, reader) ← serializeClientID reader
  return (message x y playerID, reader)

/-- `PlayerSpawnAndIDMessage::Serialize`. -/
def PlayerSpawnAndIDMessage.write (message : PlayerSpawnAndIDMessage) : BitWriter → BitWriter :=
  writePlayerPos message.x message.y message.playerID

def PlayerSpawnAndIDMessage.read : BitReader → Option (PlayerSpawnAndIDMessage × BitReader) :=
  readPlayerPos PlayerSpawnAndIDMessage.mk

/-- `NewPlayerJoinedMessage::Serialize`. -/
def NewPlayerJoinedMessage.write (message : NewPlayerJoinedMessage) : BitWriter → BitWriter :=
  writePlayerPos message.x message.y message.playerID

def NewPlayerJoinedMessage.read : BitReader → Option (NewPlayerJoinedMessage × BitReader) :=
  readPlayerPos NewPlayerJoinedMessage.mk

/-- `PlayerMoveMessage::Serialize`. -/
def PlayerMoveMessage.write (message : PlayerMoveMessage) : BitWriter → BitWriter :=
  writePlayerPos message.x message.y message.playerID

def PlayerMoveMessage.read : BitReader → Option (PlayerMoveMessage × BitReader) :=
  readPlayerPos PlayerMoveMessage.mk

/-- `PlayerPositionMessage::Serialize`. -/
def PlayerPositionMessage.write (message : PlayerPositionMessage) : BitWriter → BitWriter :=
  writePlayerPos message.x message.y message.playerID

def PlayerPositionMessage.read : BitReader → Option (PlayerPositionMessage × BitReader) :=
  readPlayerPos PlayerPositionMessage.mk

/-- `TestMessageType`. A packet says which type each of its messages has. -/
inductive TestMessageType
  | gameConfigMessage
  | playerSpawnAndIDMessage
  | newPlayerJoined
  | playerMoveMessage
  | playerPositionMessage
  deriving DecidableEq, Repr

namespace Message

/-- `GetType`. -/
def getType : Message → TestMessageType
  | .gameConfig _ => .gameConfigMessage
  | .playerSpawnAndID _ => .playerSpawnAndIDMessage
  | .newPlayerJoined _ => .newPlayerJoined
  | .playerMove _ => .playerMoveMessage
  | .playerPosition _ => .playerPositionMessage

/-- `SerializeInternal` on a writing stream. -/
def write : Message → BitWriter → BitWriter
  | .gameConfig message => message.write
  | .playerSpawnAndID message => message.write
  | .newPlayerJoined message => message.write
  | .playerMove message => message.write
  | .playerPosition message => message.write

/-- `SerializeInternal` on a reading stream, for a message of the type that the
packet names. -/
def read : TestMessageType → BitReader → Option (Message × BitReader)
  | .gameConfigMessage, reader =>
      (GameConfigMessage.read reader).map fun (message, next) => (.gameConfig message, next)
  | .playerSpawnAndIDMessage, reader =>
      (PlayerSpawnAndIDMessage.read reader).map fun (message, next) =>
        (.playerSpawnAndID message, next)
  | .newPlayerJoined, reader =>
      (NewPlayerJoinedMessage.read reader).map fun (message, next) =>
        (.newPlayerJoined message, next)
  | .playerMoveMessage, reader =>
      (PlayerMoveMessage.read reader).map fun (message, next) => (.playerMove message, next)
  | .playerPositionMessage, reader =>
      (PlayerPositionMessage.read reader).map fun (message, next) =>
        (.playerPosition message, next)

/-- The values that are serialized, in order. -/
def values : Message → List ℕ
  | .gameConfig message =>
      [message.mapWidth.toNat, message.mapHeight.toNat, message.numPlayers.toNat]
  | .playerSpawnAndID ⟨x, y, playerID⟩ | .newPlayerJoined ⟨x, y, playerID⟩
  | .playerMove ⟨x, y, playerID⟩ | .playerPosition ⟨x, y, playerID⟩ =>
      [x.toNat, y.toNat, playerID.toNat]

/-- Every field is in the range that `Serialize` declares. -/
def InRange (message : Message) : Prop :=
  ∀ value ∈ message.values, value ≤ 512

instance (message : Message) : Decidable message.InRange :=
  inferInstanceAs (Decidable (∀ value ∈ message.values, value ≤ 512))

/-- The packet of a message with other fields before and after it. -/
def packet (message : Message) (before after : List Field) : BitWriter :=
  ((message.write (BitWriter.writeFields {} before)).writeFields after).flushBits

/-- The message is in the range, and wherever it stands in a packet it is read
back as it was. Of the memory that a packet is read from, only the bytes of the
packet are known. -/
def SurvivesWire (message : Message) : Prop :=
  message.InRange ∧ ∀ before after : List Field,
    (∀ field ∈ before ++ after, field.Fits ∧ field.bits ≤ 32) → ∀ data : List UInt32,
      ofWords data % 2 ^ (8 * (message.packet before after).getBytesWritten) =
          ofWords (message.packet before after).data %
            2 ^ (8 * (message.packet before after).getBytesWritten) →
        ∃ next, read message.getType (BitReader.skip
          { data, numBytes := (message.packet before after).getBytesWritten }
          (before.map Field.bits)) = some (message, next)

end Message

theorem bitsRequired_range : bitsRequired 0 512 = 10 := by decide

/-- Values in the range become fields of ten bits. -/
theorem holds_serializeInteger {writer : BitWriter} {fields : List Field}
    (h : writer.Holds fields) {value : UInt32} (hvalue : value.toNat ≤ 512) :
    (writer.serializeInteger value 0 512).Holds (fields ++ [⟨value.toNat, 10⟩]) := by
  rw [BitWriter.serializeInteger, bitsRequired_range, UInt32.sub_zero]
  exact h.writeBits (Nat.lt_of_le_of_lt hvalue (by decide)) (by decide)

/-- Three of them. -/
theorem holds_serializeIntegers {writer : BitWriter} {fields : List Field}
    (h : writer.Holds fields) {first second third : UInt32} (hfirst : first.toNat ≤ 512)
    (hsecond : second.toNat ≤ 512) (hthird : third.toNat ≤ 512) :
    (((writer.serializeInteger first 0 512).serializeInteger second 0 512).serializeInteger
      third 0 512).Holds
        (fields ++ [⟨first.toNat, 10⟩, ⟨second.toNat, 10⟩, ⟨third.toNat, 10⟩]) := by
  have hall := holds_serializeInteger
    (holds_serializeInteger (holds_serializeInteger h hfirst) hsecond) hthird
  rw [List.append_assoc, List.append_assoc] at hall
  exact hall

theorem holds_writePlayerPos {writer : BitWriter} {fields : List Field} (h : writer.Holds fields)
    {x y : UInt16} {playerID : ClientID} (hx : x.toNat ≤ 512) (hy : y.toNat ≤ 512) :
    (writePlayerPos x y playerID writer).Holds
      (fields ++ [⟨x.toNat, 10⟩, ⟨y.toNat, 10⟩, ⟨playerID.toNat, 10⟩]) :=
  holds_serializeIntegers h hx hy (playerID.toNat_lt.le.trans (by decide))

/-- A field is read as what the conversion makes of it, if that is in the range. -/
theorem exists_serializeInt {τ : Type} (narrow : UInt32 → τ) (toNat : τ → ℕ)
    {reader : BitReader} {value : UInt32} {fields : List Field}
    (h : reader.Reads (⟨value.toNat, 10⟩ :: fields)) (hvalue : value.toNat < 2 ^ 10) :
    ∃ next, next.Reads fields ∧ serializeInt narrow toNat 0 512 reader =
      if toNat (narrow value) ≤ 512 then some (narrow value, next) else none := by
  have hten : 10 ≤ 32 := by decide
  obtain ⟨hinside, hread, hnext⟩ := h.readBits hvalue hten
  have hbits : (reader.readBits 10).1 = value := UInt32.toNat_inj.mp hread
  refine ⟨(reader.readBits 10).2, hnext, ?_⟩
  have hinteger : reader.serializeInteger 0 512 = some (value, (reader.readBits 10).2) := by
    rw [BitReader.serializeInteger, bitsRequired_range, hinside, if_neg Bool.false_ne_true]
    dsimp only
    rw [hbits, UInt32.add_zero]
  have hmax : UInt32.toNat 512 = 512 := rfl
  simp only [serializeInt, hinteger, UInt32.toNat_zero, hmax, Nat.not_lt_zero, false_or]
  by_cases hrange : toNat (narrow value) ≤ 512
  · rw [if_pos hrange, if_neg (not_lt.mpr hrange)]
  · rw [if_neg hrange, if_pos (not_le.mp hrange)]

/-- A field in the range is read if the conversion keeps it. -/
theorem serializeInt_of_reads {τ : Type} (narrow : UInt32 → τ) (toNat : τ → ℕ)
    {reader : BitReader} {value : UInt32} {fields : List Field}
    (h : reader.Reads (⟨value.toNat, 10⟩ :: fields)) (hvalue : value.toNat ≤ 512)
    (hnarrow : toNat (narrow value) ≤ 512) :
    ∃ next, serializeInt narrow toNat 0 512 reader = some (narrow value, next) ∧
      next.Reads fields := by
  obtain ⟨next, hnext, hread⟩ :=
    exists_serializeInt narrow toNat h (Nat.lt_of_le_of_lt hvalue (by decide))
  exact ⟨next, by rw [hread, if_pos hnarrow], hnext⟩

theorem serializeCoord_of_reads {reader : BitReader} {value : UInt16} {fields : List Field}
    (h : reader.Reads (⟨value.toNat, 10⟩ :: fields)) (hvalue : value.toNat ≤ 512) :
    ∃ next, serializeCoord reader = some (value, next) ∧ next.Reads fields := by
  rw [← UInt16.toNat_toUInt32] at h hvalue
  have hread := serializeInt_of_reads UInt32.toUInt16 UInt16.toNat h hvalue
  rw [UInt16.toUInt16_toUInt32] at hread
  exact hread hvalue

theorem serializeClientID_of_reads {reader : BitReader} {value : ClientID} {fields : List Field}
    (h : reader.Reads (⟨value.toNat, 10⟩ :: fields)) :
    ∃ next, serializeClientID reader = some (value, next) ∧ next.Reads fields := by
  have hvalue : value.toNat ≤ 512 := value.toNat_lt.le.trans (by decide)
  rw [← UInt8.toNat_toUInt32] at h
  have hread := serializeInt_of_reads UInt32.toUInt8 UInt8.toNat h hvalue
  rw [UInt8.toUInt8_toUInt32] at hread
  exact hread hvalue

/-- What a conversion lets through is in the range. -/
theorem le_of_serializeInt {τ : Type} {narrow : UInt32 → τ} {toNat : τ → ℕ}
    {reader next : BitReader} {value : τ}
    (h : serializeInt narrow toNat 0 512 reader = some (value, next)) : toNat value ≤ 512 := by
  rw [serializeInt] at h
  split at h
  · cases h
  · split at h
    · cases h
    · next hrange =>
        obtain ⟨rfl, _⟩ := Prod.mk.inj (Option.some_inj.mp h)
        exact not_lt.mp fun hlt => hrange (Or.inr hlt)

theorem readPlayerPos_of_reads {τ : Type} (message : UInt16 → UInt16 → ClientID → τ)
    (make : τ → Message) {reader : BitReader} {x y : UInt16} {playerID : ClientID}
    {fields : List Field}
    (h : reader.Reads (⟨x.toNat, 10⟩ :: ⟨y.toNat, 10⟩ :: ⟨playerID.toNat, 10⟩ :: fields))
    (hx : x.toNat ≤ 512) (hy : y.toNat ≤ 512) :
    ∃ next, (readPlayerPos message reader).map (fun (message, next) => (make message, next)) =
      some (make (message x y playerID), next) := by
  obtain ⟨second, hfirst, hsecond⟩ := serializeCoord_of_reads h hx
  obtain ⟨third, hmiddle, hthird⟩ := serializeCoord_of_reads hsecond hy
  obtain ⟨next, hlast, _⟩ := serializeClientID_of_reads hthird
  refine ⟨next, ?_⟩
  simp [readPlayerPos, hfirst, hmiddle, hlast]

theorem GameConfigMessage.read_of_reads {message : GameConfigMessage} {reader : BitReader}
    {fields : List Field}
    (h : reader.Reads (⟨message.mapWidth.toNat, 10⟩ :: ⟨message.mapHeight.toNat, 10⟩ ::
      ⟨message.numPlayers.toNat, 10⟩ :: fields))
    (hwidth : message.mapWidth.toNat ≤ 512) (hheight : message.mapHeight.toNat ≤ 512)
    (hplayers : message.numPlayers.toNat ≤ 512) :
    ∃ next, GameConfigMessage.read reader = some (message, next) := by
  obtain ⟨second, hfirst, hsecond⟩ := serializeCoord_of_reads h hwidth
  obtain ⟨third, hmiddle, hthird⟩ := serializeCoord_of_reads hsecond hheight
  obtain ⟨next, hlast, _⟩ := serializeCoord_of_reads hthird hplayers
  refine ⟨next, ?_⟩
  simp [GameConfigMessage.read, hfirst, hmiddle, hlast]

/-- A position that is read is in the range, whatever was written. -/
theorem le_of_readPlayerPos {τ : Type} {message : UInt16 → UInt16 → ClientID → τ}
    {reader next : BitReader} {value : τ} (h : readPlayerPos message reader = some (value, next)) :
    ∃ x y playerID, value = message x y playerID ∧ x.toNat ≤ 512 ∧ y.toNat ≤ 512 := by
  simp only [readPlayerPos, Option.bind_eq_bind, Option.bind_eq_some_iff, Prod.exists,
    Option.pure_def, Option.some_inj, Prod.mk.injEq] at h
  obtain ⟨x, second, hx, y, third, hy, playerID, _, _, rfl, _⟩ := h
  exact ⟨x, y, playerID, rfl, le_of_serializeInt hx, le_of_serializeInt hy⟩

namespace Message

/-- The fields that a message is written as. -/
def fields (message : Message) : List Field :=
  message.values.map fun value => ⟨value, 10⟩

variable {message : Message}

theorem inRange_gameConfig_iff {config : GameConfigMessage} :
    (gameConfig config).InRange ↔ config.mapWidth.toNat ≤ 512 ∧ config.mapHeight.toNat ≤ 512 ∧
      config.numPlayers.toNat ≤ 512 := by
  simp [InRange, values]

/-- A player's id is always in the range. -/
theorem forall_mem_values_iff {x y : UInt16} {playerID : ClientID} :
    (∀ value ∈ [x.toNat, y.toNat, playerID.toNat], value ≤ 512) ↔
      x.toNat ≤ 512 ∧ y.toNat ≤ 512 := by
  have hplayerID : playerID.toNat ≤ 512 := playerID.toNat_lt.le.trans (by decide)
  simp [hplayerID]

/-- A message in the range is written as its fields. -/
theorem InRange.holds_write (hrange : message.InRange) {writer : BitWriter} {held : List Field}
    (h : writer.Holds held) : (message.write writer).Holds (held ++ message.fields) := by
  cases message with
  | gameConfig config =>
      obtain ⟨hwidth, hheight, hplayers⟩ := inRange_gameConfig_iff.mp hrange
      exact holds_serializeIntegers h hwidth hheight hplayers
  | playerSpawnAndID | newPlayerJoined | playerMove | playerPosition =>
      obtain ⟨hx, hy⟩ := forall_mem_values_iff.mp hrange
      exact holds_writePlayerPos h hx hy

/-- And is read back where its fields come next. -/
theorem InRange.read_of_reads (hrange : message.InRange) {reader : BitReader} {rest : List Field}
    (h : reader.Reads (message.fields ++ rest)) :
    ∃ next, read message.getType reader = some (message, next) := by
  cases message with
  | gameConfig config =>
      obtain ⟨hwidth, hheight, hplayers⟩ := inRange_gameConfig_iff.mp hrange
      obtain ⟨next, hread⟩ := GameConfigMessage.read_of_reads h hwidth hheight hplayers
      exact ⟨next, by rw [getType, read, hread, Option.map_some]⟩
  | playerSpawnAndID spawn =>
      obtain ⟨hx, hy⟩ := forall_mem_values_iff.mp hrange
      exact readPlayerPos_of_reads PlayerSpawnAndIDMessage.mk .playerSpawnAndID h hx hy
  | newPlayerJoined joined =>
      obtain ⟨hx, hy⟩ := forall_mem_values_iff.mp hrange
      exact readPlayerPos_of_reads NewPlayerJoinedMessage.mk .newPlayerJoined h hx hy
  | playerMove move =>
      obtain ⟨hx, hy⟩ := forall_mem_values_iff.mp hrange
      exact readPlayerPos_of_reads PlayerMoveMessage.mk .playerMove h hx hy
  | playerPosition position =>
      obtain ⟨hx, hy⟩ := forall_mem_values_iff.mp hrange
      exact readPlayerPos_of_reads PlayerPositionMessage.mk .playerPosition h hx hy

/-- A message survives the wire exactly when it is in the range. -/
theorem survivesWire_iff : message.SurvivesWire ↔ message.InRange := by
  refine ⟨And.left, fun hrange => ⟨hrange, fun before after hfits data hbytes => ?_⟩⟩
  obtain ⟨hbefore, hafter⟩ := List.forall_mem_append.mp hfits
  have hheld := BitWriter.holds_nil.writeFields hbefore
  have hwritten := (hrange.holds_write hheld).writeFields hafter
  rw [List.nil_append, List.append_assoc] at hwritten
  exact hrange.read_of_reads ((BitReader.reads_of_holds hwritten hbytes).skip hbefore)

/-- A move that the server has read is in the range. -/
theorem inRange_of_read {reader next : BitReader} {move : PlayerMoveMessage}
    (h : read .playerMoveMessage reader = some (.playerMove move, next)) :
    move.x.toNat ≤ 512 ∧ move.y.toNat ≤ 512 := by
  rw [read, Option.map_eq_some_iff] at h
  obtain ⟨⟨message, rest⟩, hread, heq⟩ := h
  obtain ⟨heq, _⟩ := Prod.mk.inj heq
  obtain rfl := Message.playerMove.inj heq
  obtain ⟨x, y, playerID, rfl, hx, hy⟩ := le_of_readPlayerPos hread
  exact ⟨hx, hy⟩

end Message

end LibBench.Yojimbo
