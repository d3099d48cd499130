/-
# The packets of the game

The messages of the game as what a connection carries: how each is read from a
stream, which also says where the stream is left when a field is not in its range.
A message in its range comes over the wire in the thirty bits that are counted for
it, so every packet of the game fits.
-/

import LibBench.Transport.Guarantees
import LibBench.Transport.PacketBits
import LibBench.Transport.Fragments
import LibBench.Yojimbo.Serialize

namespace LibBench.Transport

open LibBench.Math SequenceNumber
open LibBench.Yojimbo

/-- `serialize_int` of a `coord` on a reading stream. -/
def readCoord : ReadStream UInt16 :=
  ReadStream.serializeInt UInt32.toUInt16 UInt16.toNat 0 512

/-- `serialize_int` of a `clientID` on a reading stream. -/
def readClientID : ReadStream ClientID :=
  ReadStream.serializeInt UInt32.toUInt8 UInt8.toNat 0 512

/-- `GameConfigMessage::Serialize` on a reading stream. -/
def readGameConfigMessage : ReadStream GameConfigMessage := do
  let mapWidth ← readCoord
  let mapHeight ← readCoord
  let numPlayers ← readCoord
  return ⟨mapWidth, mapHeight, numPlayers⟩

/-- A position and a player's id on a reading stream, as the other messages have them. -/
def readPosAndID {τ : Type} (message : UInt16 → UInt16 → ClientID → τ) : ReadStream τ := do
  let x ← readCoord
  let y ← readCoord
  let playerID ← readClientID
  return message x y playerID

/-- `CreateMessage` and `SerializeInternal` on a reading stream. -/
def readTestMessage : TestMessageType → ReadStream Message
  | .gameConfigMessage => Message.gameConfig <$> readGameConfigMessage
  | .playerSpawnAndIDMessage =>
      Message.playerSpawnAndID <$> readPosAndID PlayerSpawnAndIDMessage.mk
  | .newPlayerJoined => Message.newPlayerJoined <$> readPosAndID NewPlayerJoinedMessage.mk
  | .playerMoveMessage => Message.playerMove <$> readPosAndID PlayerMoveMessage.mk
  | .playerPositionMessage =>
      Message.playerPosition <$> readPosAndID PlayerPositionMessage.mk

/-- The types in the order of `TestMessageType`. -/
def testMessageTypes : List TestMessageType :=
  [.gameConfigMessage, .playerSpawnAndIDMessage, .newPlayerJoined, .playerMoveMessage,
    .playerPositionMessage]

/-- `TestMessageFactory`. -/
def testMessageFactory : MessageFactory Message where
  numTypes := testMessageTypes.length
  getType message := testMessageTypes.idxOf message.getType
  write := Message.write
  read type :=
    match testMessageTypes[type]? with
    | none => failure
    | some type => readTestMessage type

/-- What is read, without where a stream is left that fails. -/
def readOption {α : Type} (read : ReadStream α) (reader : BitReader) : Option (α × BitReader) :=
  (read.runOn reader).1.map fun value => (value, (read.runOn reader).2)

section ReadOption

variable {α β τ : Type}

theorem readOption_pure (value : α) (reader : BitReader) :
    readOption (pure value) reader = some (value, reader) := rfl

theorem readOption_bind (read : ReadStream α) (rest : α → ReadStream β) (reader : BitReader) :
    readOption (read >>= rest) reader =
      (readOption read reader).bind fun (value, next) => readOption (rest value) next := by
  rw [readOption, readOption, ReadStream.runOn_bind]
  rcases read.runOn reader with ⟨_ | value, next⟩ <;> rfl

theorem readOption_map (f : α → β) (read : ReadStream α) (reader : BitReader) :
    readOption (f <$> read) reader =
      (readOption read reader).map fun (value, next) => (f value, next) := by
  rw [readOption, readOption, ReadStream.runOn_map]
  rcases read.runOn reader with ⟨_ | value, next⟩ <;> rfl

theorem readOption_serializeBits (bits : ℕ) (reader : BitReader) :
    readOption (ReadStream.serializeBits bits) reader =
      if reader.wouldReadPastEnd bits then none else some (reader.readBits bits) := by
  have hrun : (ReadStream.serializeBits bits).runOn reader =
      if reader.wouldReadPastEnd bits then (none, reader)
      else (some (reader.readBits bits).1, (reader.readBits bits).2) := rfl
  rw [readOption, hrun]
  split <;> rfl

theorem readOption_serializeInt (narrow : UInt32 → τ) (toNat : τ → ℕ) (min max : UInt32)
    (reader : BitReader) :
    readOption (ReadStream.serializeInt narrow toNat min max) reader =
      serializeInt narrow toNat min max reader := by
  rw [ReadStream.serializeInt, readOption_bind, readOption_serializeBits, serializeInt,
    BitReader.serializeInteger]
  by_cases hend : reader.wouldReadPastEnd (bitsRequired min max)
  · rw [if_pos hend, if_pos hend]
    rfl
  · rw [if_neg hend, if_neg hend, Option.bind_some]
    dsimp only
    split <;> rfl

/-- What is read is what `Message.read` reads. -/
theorem readOption_readTestMessage (type : TestMessageType) (reader : BitReader) :
    readOption (readTestMessage type) reader = Message.read type reader := by
  have hcoord : readOption readCoord = serializeCoord :=
    funext (readOption_serializeInt _ _ _ _)
  have hclientID : readOption readClientID = serializeClientID :=
    funext (readOption_serializeInt _ _ _ _)
  cases type <;>
    simp only [readTestMessage, readOption_map, readOption_bind, readGameConfigMessage,
      readPosAndID, hcoord, hclientID, readOption_pure] <;> rfl

end ReadOption

theorem coded_coord {value : UInt16} (hvalue : value.toNat ≤ 512) :
    Coded 10 (fun writer => writer.serializeInteger value.toUInt32 0 512) readCoord value := by
  have hmax : value.toUInt32 ≤ 512 := by
    rw [UInt32.le_iff_toNat_le, UInt16.toNat_toUInt32]
    exact hvalue
  have hcoded := coded_int UInt32.zero_le hmax (UInt16.toUInt16_toUInt32 value)
    (UInt16.toNat_toUInt32 value).symm
  rwa [bitsRequired_range] at hcoded

theorem coded_clientID (value : ClientID) :
    Coded 10 (fun writer => writer.serializeInteger value.toUInt32 0 512) readClientID value := by
  have hmax : value.toUInt32 ≤ 512 := by
    rw [UInt32.le_iff_toNat_le, UInt8.toNat_toUInt32]
    exact value.toNat_lt.le.trans (by decide)
  have hcoded := coded_int UInt32.zero_le hmax (UInt8.toUInt8_toUInt32 value)
    (UInt8.toNat_toUInt32 value).symm
  rwa [bitsRequired_range] at hcoded

/-- Three fields of ten bits. -/
theorem coded_fields {α β γ τ : Type} {readFirst : ReadStream α} {readSecond : ReadStream β}
    {readThird : ReadStream γ} {first : α} {second : β} {third : γ}
    {writeFirst writeSecond writeThird : BitWriter → BitWriter}
    (hfirst : Coded 10 writeFirst readFirst first)
    (hsecond : Coded 10 writeSecond readSecond second)
    (hthird : Coded 10 writeThird readThird third) (make : α → β → γ → τ) :
    Coded 30 (fun writer => writeThird (writeSecond (writeFirst writer)))
      (do
        let first ← readFirst
        let second ← readSecond
        let third ← readThird
        return make first second third) (make first second third) := by
  have hlast : Coded 10 writeThird (do
      let third ← readThird
      return make first second third) (make first second third) := hthird.bind_pure rfl
  have hmiddle : Coded 20 (fun writer => writeThird (writeSecond writer)) (do
      let second ← readSecond
      let third ← readThird
      return make first second third) (make first second third) := hsecond.bind hlast rfl
  exact hfirst.bind hmiddle rfl

theorem coded_posAndID {τ : Type} (message : UInt16 → UInt16 → ClientID → τ) {x y : UInt16}
    (hx : x.toNat ≤ 512) (hy : y.toNat ≤ 512) (playerID : ClientID) :
    Coded 30 (writePlayerPos x y playerID) (readPosAndID message) (message x y playerID) :=
  coded_fields (coded_coord hx) (coded_coord hy) (coded_clientID playerID) message

theorem getType_lt (message : Message) :
    testMessageFactory.getType message < testMessageFactory.numTypes := by
  have hmem : ∀ type : TestMessageType, type ∈ testMessageTypes := by
    intro type
    cases type <;> decide
  exact List.idxOf_lt_length_iff.mpr (hmem message.getType)

/-- A message in its range takes thirty bits. -/
theorem carries_of_inRange {message : Message} (h : message.InRange) :
    testMessageFactory.Carries (fun _ => 30) message := by
  refine ⟨getType_lt message, ?_⟩
  cases message with
  | gameConfig config =>
      obtain ⟨hwidth, hheight, hplayers⟩ := Message.inRange_gameConfig_iff.mp h
      exact (coded_fields (coded_coord hwidth) (coded_coord hheight) (coded_coord hplayers)
        GameConfigMessage.mk).map Message.gameConfig
  | playerSpawnAndID spawn =>
      obtain ⟨hx, hy⟩ := Message.forall_mem_values_iff.mp h
      exact (coded_posAndID PlayerSpawnAndIDMessage.mk hx hy spawn.playerID).map
        Message.playerSpawnAndID
  | newPlayerJoined joined =>
      obtain ⟨hx, hy⟩ := Message.forall_mem_values_iff.mp h
      exact (coded_posAndID NewPlayerJoinedMessage.mk hx hy joined.playerID).map
        Message.newPlayerJoined
  | playerMove move =>
      obtain ⟨hx, hy⟩ := Message.forall_mem_values_iff.mp h
      exact (coded_posAndID PlayerMoveMessage.mk hx hy move.playerID).map Message.playerMove
  | playerPosition position =>
      obtain ⟨hx, hy⟩ := Message.forall_mem_values_iff.mp h
      exact (coded_posAndID PlayerPositionMessage.mk hx hy position.playerID).map
        Message.playerPosition

/-- The sizes of packets and fragments in `ClientServerConfig`. -/
def gameFragmentConfig : FragmentConfig where
  maxPacketSize := 8 * 1024
  fragmentAbove := 1024
  maxFragments := 8
  fragmentSize := 1024
  fragmentReassemblyBufferSize := 64

theorem gameFragmentConfig_valid : gameFragmentConfig.Valid := by
  constructor <;> decide

theorem gameConnectionConfig_packetsFit {τ : Type} (neverSent : τ) (resendDue : τ → τ → Bool) :
    PacketsFit testMessageFactory (gameConnectionConfig 3 (fun _ => 30) neverSent resendDue) := by
  have htypes : testMessageFactory.numTypes ≤ 2 ^ 31 ∧
      3 = bitsRequired 0 (UInt32.ofNat (testMessageFactory.numTypes - 1)) := by decide
  constructor
  · exact htypes
  · exact htypes
  all_goals simp [gameConnectionConfig, defaultChannelConfig]

end LibBench.Transport
