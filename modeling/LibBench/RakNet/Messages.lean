/-
# RakNet: addresses, identifiers and messages

The vocabulary of `raknet/common/network_messages.h` and the few library
packets that the game handles. A packet is either a library packet, with an
identifier below `ID_USER_PACKET_ENUM`, or one of the game's own messages.

SLikeNet itself is not part of the repository. An address is only compared and
ordered; a network id is a 64-bit number of which one value is reserved.
-/

import LibBench.Game.Position

namespace LibBench.RakNet

/-- The address of a peer; only its order and equality matter. -/
abbrev SystemAddress := ℕ

/-- The id that `NetworkIDManager` tracks an object under. -/
abbrev NetworkID := UInt64

/-- `UNASSIGNED_NETWORK_ID`: the id of an object that is not tracked. -/
def unassignedNetworkID : NetworkID := 0xFFFFFFFFFFFFFFFF

/-- A player moved to a new position. -/
structure PlayerMoveMessage where
  playerID : NetworkID
  newPos : Position
  deriving DecidableEq, Repr

/-- The server's position of a player. -/
structure PlayerPositionMessage where
  playerID : NetworkID
  currentPos : Position
  deriving DecidableEq, Repr

/-- Sent when a client connects: the config of the current game. -/
structure GameConfigMessage where
  mapWidth : UInt16
  mapHeight : UInt16
  playerCount : UInt16
  deriving DecidableEq, Repr

/-- Sent when a client connects: where to spawn its player, and the player's
network id. -/
structure PlayerSpawnAndIDMessage where
  spawnPoint : Position
  networkID : NetworkID
  deriving DecidableEq, Repr

/-- Broadcast when a new player joins. -/
structure NewPlayerJoinMessage where
  spawnPoint : Position
  playerID : NetworkID
  deriving DecidableEq, Repr

/-- Broadcast if a player leaves, says its comment; no program sends or handles
it. -/
structure PlayerLeaveMessage where
  playerID : NetworkID
  deriving DecidableEq, Repr

/-- The game's messages. -/
inductive Message
  | gameConfig (message : GameConfigMessage)
  | playerSpawn (message : PlayerSpawnAndIDMessage)
  | playerJoin (message : NewPlayerJoinMessage)
  | playerLeave (message : PlayerLeaveMessage)
  | playerMove (message : PlayerMoveMessage)
  | playerPosition (message : PlayerPositionMessage)
  deriving DecidableEq, Repr

/-- The library packets that one of the two programs distinguishes, and one
more that neither does. -/
inductive LibraryPacket
  | connectionRequestAccepted
  | connectionAttemptFailed
  | newIncomingConnection
  | disconnectionNotification
  | connectionLost
  | other
  deriving DecidableEq, Repr

/-- A received packet. -/
inductive Packet
  | library (identifier : LibraryPacket)
  | custom (message : Message)
  deriving DecidableEq, Repr

/-- One call of `rakPeer->Send`: the ordering channel, the address and the
broadcast flag. No address stands for `UNASSIGNED_SYSTEM_ADDRESS`. -/
structure Send where
  message : Message
  orderingChannel : ℕ
  systemAddress : Option SystemAddress
  broadcast : Bool
  deriving DecidableEq, Repr

/-- A connected peer receives what is sent to it, and every broadcast that does
not except it. -/
def Send.reaches (send : Send) (address : SystemAddress) : Bool :=
  if send.broadcast then send.systemAddress != some address
  else send.systemAddress == some address

section Reaches

variable (message : Message) (orderingChannel : ℕ) (address other : SystemAddress)

@[simp]
theorem Send.reaches_unicast :
    (Send.mk message orderingChannel (some address) false).reaches other =
      decide (address = other) := by
  by_cases h : address = other <;> simp [Send.reaches, h]

@[simp]
theorem Send.reaches_broadcast :
    (Send.mk message orderingChannel none true).reaches other = true := rfl

@[simp]
theorem Send.reaches_broadcast_except :
    (Send.mk message orderingChannel (some address) true).reaches other =
      decide (address ≠ other) := by
  by_cases h : address = other <;> simp [Send.reaches, h, bne]

end Reaches

/-- Why a handler does not return. The first two are faults of the program; a
loop that asks for more draws than it is given is still going; and a step that
the library or the network would not take there is not enabled. -/
inductive Stop
  | nullPlayer
  | moduloByZero
  | drawsExhausted
  | notEnabled
  deriving DecidableEq, Repr

end LibBench.RakNet
