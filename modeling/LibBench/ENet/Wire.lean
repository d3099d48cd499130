/-
# ENet: the messages as bytes

The packed structs of `enet/common/common.h` and `deserialize_struct`, which the
server and the client both have. A struct is sent as the bytes that it is in
memory, without padding: a tag of four bytes, then numbers of two.

Whatever arrives is copied into a `PositionUpdateMessage`, ten bytes from the
first byte of the packet on. For a position that is the inverse of sending it.
The join message is longer and has another layout, with a position inside: the
copy takes the tag of that position for the coordinates and its `x` for the id.
-/

import LibBench.ENet.Messages
import LibBench.Math.Bytes

namespace LibBench.ENet

open LibBench.Math

/-- The value of an enumerator. -/
def Event.code : Event → ℕ
  | .positionUpdate => 5
  | .receivedPosition => 6
  | .gameConfig => 7
  | .playerJoin => 8
  | .unknown => 255

/-- The enumerator of a tag. Tags without an enumerator count as unknown, from
which no switch tells them apart. -/
def Event.ofCode : ℕ → Event
  | 5 => .positionUpdate
  | 6 => .receivedPosition
  | 7 => .gameConfig
  | 8 => .playerJoin
  | _ => .unknown

@[simp]
theorem Event.ofCode_code (event : Event) : Event.ofCode event.code = event := by
  cases event <;> rfl

theorem Event.code_lt (event : Event) : event.code < 256 := by
  cases event <;> decide

/-- `NewPlayerJoinMessage` is broadcast to all clients when a new player joins. -/
structure NewPlayerJoinMessage where
  messageType : Event := .playerJoin
  spawnPoint : PositionUpdateMessage
  ownerId : UInt16
  deriving DecidableEq, Repr

/-- The constructor of `NewPlayerJoinMessage`. -/
def NewPlayerJoinMessage.ofSpawnPoint (spawnPoint : PositionUpdateMessage) :
    NewPlayerJoinMessage where
  spawnPoint := spawnPoint
  ownerId := spawnPoint.ownerId

/-- A `PositionUpdateMessage` in memory. -/
def PositionUpdateMessage.bytes (message : PositionUpdateMessage) : List UInt8 :=
  toBytes 4 message.messageType.code ++ (toBytes 2 message.x.toNat ++
    (toBytes 2 message.y.toNat ++ toBytes 2 message.ownerId.toNat))

/-- A `NewPlayerJoinMessage` in memory. -/
def NewPlayerJoinMessage.bytes (message : NewPlayerJoinMessage) : List UInt8 :=
  toBytes 4 message.messageType.code ++ (message.spawnPoint.bytes ++
    toBytes 2 message.ownerId.toNat)

/-- `sizeof(PositionUpdateMessage)`. -/
def sizeofPositionUpdateMessage : ℕ := 10

/-- `sizeof(NewPlayerJoinMessage)`. -/
def sizeofNewPlayerJoinMessage : ℕ := 16

@[simp]
theorem PositionUpdateMessage.length_bytes (message : PositionUpdateMessage) :
    message.bytes.length = sizeofPositionUpdateMessage := by
  simp [bytes, sizeofPositionUpdateMessage]

@[simp]
theorem NewPlayerJoinMessage.length_bytes (message : NewPlayerJoinMessage) :
    message.bytes.length = sizeofNewPlayerJoinMessage := by
  simp [bytes, sizeofNewPlayerJoinMessage, sizeofPositionUpdateMessage]

/-- `deserialize_struct`, on the memory from the first byte of a packet on. -/
def deserializeStruct (buffer : List UInt8) : PositionUpdateMessage where
  messageType := .ofCode (fieldAt buffer 0 4)
  x := .ofNat (fieldAt buffer 4 2)
  y := .ofNat (fieldAt buffer 6 2)
  ownerId := .ofNat (fieldAt buffer 8 2)

/-- A packet that is long enough is copied without what is behind it. -/
theorem deserializeStruct_append {data : List UInt8} (beyond : List UInt8)
    (h : sizeofPositionUpdateMessage ≤ data.length) :
    deserializeStruct (data ++ beyond) = deserializeStruct data := by
  rw [sizeofPositionUpdateMessage] at h
  simp only [deserializeStruct]
  rw [fieldAt_append_of_le (by omega), fieldAt_append_of_le (by omega),
    fieldAt_append_of_le (by omega), fieldAt_append_of_le (by omega)]

/-- A tag and three numbers, copied from the beginning of what is sent. -/
theorem deserializeStruct_fields {tag first second third : ℕ} (htag : tag < 256 ^ 4)
    (hfirst : first < 256 ^ 2) (hsecond : second < 256 ^ 2) (hthird : third < 256 ^ 2)
    (after : List UInt8) :
    deserializeStruct (toBytes 4 tag ++ (toBytes 2 first ++ (toBytes 2 second ++
      (toBytes 2 third ++ after)))) =
        { messageType := .ofCode tag
          x := .ofNat first
          y := .ofNat second
          ownerId := .ofNat third } := by
  -- each field begins where the ones before it end
  simp only [deserializeStruct, fieldAt_append_of_length_le, length_toBytes, Nat.reduceLeDiff,
    Nat.reduceSub]
  rw [fieldAt_toBytes_append htag, fieldAt_toBytes_append hfirst, fieldAt_toBytes_append hsecond,
    fieldAt_toBytes_append hthird]

theorem code_lt_pow (event : Event) {width : ℕ} (hwidth : 1 ≤ width) : event.code < 256 ^ width :=
  event.code_lt.trans_le (Nat.le_self_pow (Nat.ne_of_gt hwidth) 256)

/-- A position message is copied as it was sent. -/
theorem deserializeStruct_bytes (message : PositionUpdateMessage) (beyond : List UInt8) :
    deserializeStruct (message.bytes ++ beyond) = message := by
  have hfields := deserializeStruct_fields (code_lt_pow message.messageType (by decide))
    message.x.toNat_lt message.y.toNat_lt message.ownerId.toNat_lt beyond
  simpa [PositionUpdateMessage.bytes] using hfields

/-- Of a join message the copy has the tag, the halves of the tag of the spawn
point, and the spawn point's `x`. -/
theorem deserializeStruct_join_bytes (message : NewPlayerJoinMessage) (beyond : List UInt8) :
    deserializeStruct (message.bytes ++ beyond) =
      { messageType := message.messageType
        x := .ofNat message.spawnPoint.messageType.code
        y := 0
        ownerId := message.spawnPoint.x } := by
  have hsplit : toBytes 4 message.spawnPoint.messageType.code =
      toBytes 2 message.spawnPoint.messageType.code ++ toBytes 2 0 := by
    rw [toBytes_add 2 2, Nat.div_eq_of_lt (code_lt_pow _ (by decide))]
  have hfields := deserializeStruct_fields (code_lt_pow message.messageType (by decide))
    (code_lt_pow message.spawnPoint.messageType (by decide)) (Nat.two_pow_pos 16)
    message.spawnPoint.x.toNat_lt (toBytes 2 message.spawnPoint.y.toNat ++
      (toBytes 2 message.spawnPoint.ownerId.toNat ++ (toBytes 2 message.ownerId.toNat ++ beyond)))
  simpa [NewPlayerJoinMessage.bytes, PositionUpdateMessage.bytes, hsplit] using hfields

end LibBench.ENet
