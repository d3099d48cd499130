/-
# Yojimbo: slots, players and messages

The vocabulary of `yojimbo/shared.h`, which both programs include. A player is
known by the slot its client was accepted into, a number of eight bits; the
messages carry it in a field of that width.

The range that each message declares to the serializer is left to its module:
here a message that fails it is one that is lost.
-/

import LibBench.Game.Position

namespace LibBench.Yojimbo

/-- A slot of the server, and the id under which it knows a player. -/
abbrev ClientID := UInt8

/-- `MAX_CLIENTS`, the number of slots that the server loops over. The server
is started with `MaxClients`, which is the same number. -/
def maxClients : ℕ := 64

/-- The slots in the order of the server's loops. -/
def clientIndices : List ClientID := (List.range maxClients).map UInt8.ofNat

theorem nodup_clientIndices : clientIndices.Nodup := by
  decide

/-- `GameState`, the part that the two programs have in common. -/
structure GameState where
  mapWidth : UInt16
  mapHeight : UInt16
  numPlayers : UInt16
  deriving DecidableEq, Repr

/-- A player object. -/
structure Player where
  pos : Position
  deriving DecidableEq, Repr

/-- The config of the current game. -/
structure GameConfigMessage where
  mapWidth : UInt16
  mapHeight : UInt16
  numPlayers : UInt16
  deriving DecidableEq, Repr

/-- Where to spawn the local player, and its slot. -/
structure PlayerSpawnAndIDMessage where
  x : UInt16
  y : UInt16
  playerID : ClientID
  deriving DecidableEq, Repr

/-- A player has joined. -/
structure NewPlayerJoinedMessage where
  x : UInt16
  y : UInt16
  playerID : ClientID
  deriving DecidableEq, Repr

/-- A player moved to a new position. -/
structure PlayerMoveMessage where
  x : UInt16
  y : UInt16
  playerID : ClientID
  deriving DecidableEq, Repr

/-- The server's position of a player. -/
structure PlayerPositionMessage where
  x : UInt16
  y : UInt16
  playerID : ClientID
  deriving DecidableEq, Repr

/-- The message types. -/
inductive Message
  | gameConfig (message : GameConfigMessage)
  | playerSpawnAndID (message : PlayerSpawnAndIDMessage)
  | newPlayerJoined (message : NewPlayerJoinedMessage)
  | playerMove (message : PlayerMoveMessage)
  | playerPosition (message : PlayerPositionMessage)
  deriving DecidableEq, Repr

/-- The two channels of a connection, by their type: channel 0 is the reliable
one. -/
inductive ChannelType
  | reliableOrdered
  | unreliableUnordered
  deriving DecidableEq, Repr

/-- A message on a channel. -/
structure Envelope where
  channel : ChannelType
  message : Message
  deriving DecidableEq, Repr

/-- `gameConfig.reliableMessaging ? … : …`, the channel that a program sends
on. -/
def channelType (reliableMessaging : Bool) : ChannelType :=
  if reliableMessaging then .reliableOrdered else .unreliableUnordered

/-- Why a program does not get on. The first three are its faults; a loop that
asks for more draws than it is given is still going; and a step that the
library would not take there is not enabled. -/
inductive Stop
  | nullPlayer
  | nullTracker
  | moduloByZero
  | drawsExhausted
  | notEnabled
  deriving DecidableEq, Repr

end LibBench.Yojimbo
