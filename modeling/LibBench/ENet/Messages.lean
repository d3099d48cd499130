/-
# ENet: events and messages

The vocabulary of `enet/common/common.h`. Both programs exchange one kind of
struct almost everywhere: a position, the id of the player it belongs to, and a
tag that says what the message is. The server knows a player by the number of
its peer, a client is told that number by every message about another player.
-/

import LibBench.Game.Position

namespace LibBench.ENet

/-- Basic events of the game: the tag of a message. -/
inductive Event
  | positionUpdate
  | receivedPosition
  | gameConfig
  | playerJoin
  | unknown
  deriving DecidableEq, Repr

/-- Update player position. -/
structure PositionUpdateMessage where
  messageType : Event := .positionUpdate
  x : UInt16
  y : UInt16
  ownerId : UInt16
  deriving DecidableEq, Repr

/-- What a map makes of an absent entry that is looked up with `[]`: every field
zero but the tag, which has an initializer. -/
def PositionUpdateMessage.valueInitialized : PositionUpdateMessage where
  x := 0
  y := 0
  ownerId := 0

/-- The cell that a message carries. -/
def PositionUpdateMessage.position (message : PositionUpdateMessage) : Position :=
  ⟨message.x, message.y⟩

/-- A direction to move in. -/
inductive PossibleMovements
  | playerMoveUp
  | playerMoveDown
  | playerMoveLeft
  | playerMoveRight
  deriving DecidableEq, Repr

/-- What `enet_host_service` reports: a received message, as the client copies
it out of the packet, or the end of the connection. The connection itself is
reported before the game begins. -/
inductive HostEvent
  | receive (data : PositionUpdateMessage)
  | disconnect
  | other
  deriving DecidableEq, Repr

/-- Why a tick does not end: the list of actions is indexed although it is
empty. -/
inductive Stop
  | noPossibleAction
  deriving DecidableEq, Repr

end LibBench.ENet
