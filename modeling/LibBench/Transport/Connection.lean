/-
# Yojimbo: two connected parties

`Connection` over an endpoint, at either end, as `BaseClient` and `BaseServer`
use them, and everything between. What one side has transmitted can reach the
other at any time, in any order, any number of times or never; a packet that is
cut into fragments first does so as the first of them.

A side also keeps what it has been handed and what it has handed out, so that one
can say what the connection does. No step looks at these records.
-/

import Mathlib.Logic.Function.Basic
import LibBench.Transport.Channel

namespace LibBench.Transport

open LibBench.Math SequenceNumber

/-- The configuration of a connection with a reliable and an unreliable channel. -/
structure ConnectionConfig (M τ : Type) where
  reliable : ChannelConfig M τ
  unreliable : ChannelConfig M τ
  endpoint : EndpointConfig
  maxPacketSize : ℕ

/-- `ChannelPacketData`, of the channel whose index it carries. -/
inductive ChannelPacketData (ν M : Type)
  | reliable (messages : List (ν × M))
  | unreliable (messages : List M)
  deriving DecidableEq, Repr

/-- A packet as it is transmitted. -/
structure Packet (ν M : Type) where
  header : PacketHeader ν
  channelEntry : List (ChannelPacketData ν M)
  deriving DecidableEq, Repr

/-- The errors of a connection that its channels and packets can lead to. -/
inductive ConnectionErrorLevel
  | none
  | channel
  | readPacketFailed
  deriving DecidableEq, Repr

variable {ν M τ : Type} [SequenceNumber ν] [DecidableEq ν] {config : ConnectionConfig M τ}

/-- `Connection`. -/
structure Connection (ν : Type) {M τ : Type} (config : ConnectionConfig M τ) where
  errorLevel : ConnectionErrorLevel
  reliable : ReliableOrderedChannel ν config.reliable
  unreliable : UnreliableUnorderedChannel config.unreliable

namespace Connection

/-- `ConservativePacketHeaderBits`. -/
def conservativePacketHeaderBits : ℤ := 16

/-- `ConservativeChannelHeaderBits`. -/
def conservativeChannelHeaderBits : ℤ := 32

/-- A connection as it is created. -/
def create (time : τ) : Connection ν config where
  errorLevel := .none
  reliable := .create time
  unreliable := {}

variable (connection : Connection ν config)

/-- `GeneratePacket`. -/
def generatePacket (packetSequence : ν) :
    Connection ν config × List (ChannelPacketData ν M) :=
  let availableBits : ℤ := config.maxPacketSize * 8 - conservativePacketHeaderBits
  let (reliable, reliableData) := connection.reliable.getPacketData packetSequence availableBits
  let availableBits :=
    match reliableData with
    | none => availableBits
    | some (_, packetDataBits) => availableBits - conservativeChannelHeaderBits - packetDataBits
  let (unreliable, unreliableData) := connection.unreliable.getPacketData availableBits
  ({ connection with reliable, unreliable },
    (reliableData.map fun data => ChannelPacketData.reliable data.1).toList ++
      (unreliableData.map fun data => ChannelPacketData.unreliable data.1).toList)

/-- The loop of `ProcessPacket` over the entries of a packet. -/
def processEntries : List (ChannelPacketData ν M) → Connection ν config → Bool × Connection ν config
  | [], connection => (true, connection)
  | .reliable messages :: entries, connection =>
      let connection :=
        { connection with reliable := connection.reliable.processPacketData messages }
      if connection.reliable.errorLevel ≠ .none then (false, connection)
      else processEntries entries connection
  | .unreliable messages :: entries, connection =>
      let connection :=
        { connection with unreliable := connection.unreliable.processPacketData messages }
      if connection.unreliable.errorLevel ≠ .none then (false, connection)
      else processEntries entries connection

/-- `ProcessPacket`. -/
def processPacket (entries : List (ChannelPacketData ν M)) : Bool × Connection ν config :=
  if connection.errorLevel ≠ .none then (false, connection)
  else processEntries entries connection

/-- `ProcessAcks`. An unreliable channel does nothing with an acknowledgement. -/
def processAcks (acks : List ν) : Connection ν config :=
  { connection with
    reliable := acks.foldl ReliableOrderedChannel.processAck connection.reliable }

/-- `AdvanceTime`. -/
def advanceTime (time : τ) : Connection ν config :=
  let connection := { connection with reliable := { connection.reliable with time } }
  if connection.reliable.errorLevel ≠ .none then { connection with errorLevel := .channel }
  else if connection.unreliable.errorLevel ≠ .none then { connection with errorLevel := .channel }
  else connection

end Connection

/-- One side of a connection and its records. -/
structure Node (ν : Type) {M τ : Type} (config : ConnectionConfig M τ) where
  endpoint : Endpoint ν config.endpoint
  connection : Connection ν config
  /-- The messages that the reliable channel has accepted. -/
  sent : List M
  /-- The messages that it has handed out. -/
  received : List M
  /-- The same of the unreliable channel. -/
  sentUnreliable : List M
  receivedUnreliable : List M
  /-- The packets transmitted. -/
  transmitted : List (Packet ν M)
  /-- Which packets of the other side have been processed. -/
  processed : List ℕ
  /-- The packets that the connection has been told are acknowledged. -/
  acked : List ν

namespace Node

/-- A side as it is created. -/
def create (time : τ) : Node ν config where
  endpoint := .create
  connection := .create time
  sent := []
  received := []
  sentUnreliable := []
  receivedUnreliable := []
  transmitted := []
  processed := []
  acked := []

variable (node : Node ν config)

/-- `SendMessage` on the reliable channel. -/
def sendMessage (message : M) : Node ν config :=
  let channel := node.connection.reliable
  { node with
    connection := { node.connection with reliable := channel.sendMessage message }
    sent :=
      if channel.errorLevel = .none ∧ channel.canSendMessage then node.sent ++ [message]
      else node.sent }

/-- `ReceiveMessage` on the reliable channel. -/
def receiveMessage : Node ν config :=
  match node.connection.reliable.receiveMessage with
  | none => node
  | some (message, reliable) =>
      { node with
        connection := { node.connection with reliable }
        received := node.received ++ [message] }

/-- `SendMessage` on the unreliable channel. -/
def sendUnreliable (message : M) : Node ν config :=
  let channel := node.connection.unreliable
  { node with
    connection := { node.connection with unreliable := channel.sendMessage message }
    sentUnreliable :=
      if channel.errorLevel = .none ∧
          channel.messageSendQueue.length ≠ config.unreliable.messageSendQueueSize then
        node.sentUnreliable ++ [message]
      else node.sentUnreliable }

/-- `ReceiveMessage` on the unreliable channel. -/
def receiveUnreliable : Node ν config :=
  match node.connection.unreliable.receiveMessage with
  | none => node
  | some (message, unreliable) =>
      { node with
        connection := { node.connection with unreliable }
        receivedUnreliable := node.receivedUnreliable ++ [message] }

/-- `SendPackets`. A side whose connection is in error has disconnected. -/
def sendPacket : Node ν config :=
  if node.connection.errorLevel ≠ .none then node
  else
    let (connection, channelEntry) := node.connection.generatePacket node.endpoint.sequence
    let (endpoint, header) := node.endpoint.sendPacket
    { node with
      endpoint
      connection
      transmitted := node.transmitted ++ [{ header, channelEntry }] }

/-- `ReceivePackets`, of the packet that the other side transmitted at this
position. -/
def receivePacket (position : ℕ) (packet : Packet ν M) : Node ν config :=
  if node.connection.errorLevel ≠ .none then node
  else
    let processPacket (connection : Connection ν config) :=
      connection.processPacket packet.channelEntry
    let (endpoint, connection) :=
      node.endpoint.receivePacket processPacket node.connection packet.header
    { node with
      endpoint
      connection
      processed :=
        if testInsert node.endpoint.receivedPackets packet.header.sequence ∧
            (processPacket node.connection).1 then node.processed ++ [position]
        else node.processed }

/-- `ReceivePackets`, of the first fragment of this packet. -/
def receiveFragment (packet : Packet ν M) : Node ν config :=
  if node.connection.errorLevel ≠ .none then node
  else { node with endpoint := node.endpoint.receiveFragment packet.header.sequence }

/-- `AdvanceTime`. -/
def advanceTime (time : τ) : Node ν config :=
  if node.connection.errorLevel ≠ .none then node
  else
    let connection := node.connection.advanceTime time
    if connection.errorLevel ≠ .none then { node with connection }
    else
      { node with
        endpoint := node.endpoint.clearAcks
        connection := connection.processAcks node.endpoint.acks
        acked := node.acked ++ node.endpoint.acks }

end Node

/-- The two sides. -/
inductive Side
  | client
  | server
  deriving DecidableEq, Repr

/-- The other side. -/
def Side.other : Side → Side
  | client => server
  | server => client

/-- What can happen, and on which side. -/
inductive Action (M τ : Type)
  | sendMessage (side : Side) (message : M)
  | receiveMessage (side : Side)
  | sendUnreliable (side : Side) (message : M)
  | receiveUnreliable (side : Side)
  | sendPacket (side : Side)
  /-- The side receives the packet that the other transmitted at the position. -/
  | receivePacket (side : Side) (position : ℕ)
  | receiveFragment (side : Side) (position : ℕ)
  | advanceTime (side : Side) (time : τ)
  deriving DecidableEq, Repr

/-- The side on which it happens. -/
def Action.side : Action M τ → Side
  | sendMessage side _ => side
  | receiveMessage side => side
  | sendUnreliable side _ => side
  | receiveUnreliable side => side
  | sendPacket side => side
  | receivePacket side _ => side
  | receiveFragment side _ => side
  | advanceTime side _ => side

/-- Both sides of a connection. -/
abbrev Network (ν : Type) {M τ : Type} (config : ConnectionConfig M τ) : Type :=
  Side → Node ν config

namespace Network

/-- Both sides as they are created. -/
def create (time : τ) : Network ν config :=
  fun _ => .create time

variable (network : Network ν config)

/-- What becomes of the side on which something happens. -/
def perform : Action M τ → Node ν config
  | .sendMessage side message => (network side).sendMessage message
  | .receiveMessage side => (network side).receiveMessage
  | .sendUnreliable side message => (network side).sendUnreliable message
  | .receiveUnreliable side => (network side).receiveUnreliable
  | .sendPacket side => (network side).sendPacket
  | .receivePacket side position =>
      match (network side.other).transmitted[position]? with
      | none => network side
      | some packet => (network side).receivePacket position packet
  | .receiveFragment side position =>
      match (network side.other).transmitted[position]? with
      | none => network side
      | some packet => (network side).receiveFragment packet
  | .advanceTime side time => (network side).advanceTime time

/-- What happens on one side leaves the other as it is. -/
def next (action : Action M τ) : Network ν config :=
  Function.update network action.side (network.perform action)

/-- Every action can happen. -/
def step (action : Action M τ) : Except Empty (Network ν config) :=
  .ok (network.next action)

end Network

end LibBench.Transport
