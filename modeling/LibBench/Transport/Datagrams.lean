/-
# Yojimbo: two parties and their datagrams

The two sides of a connection with nothing between them but datagrams: byte
strings, each of which can reach the other side at any time, in any order, any
number of times or never. A side writes its packets and cuts them into fragments,
and puts together and reads what comes.

A step is an error where the program would read or write outside of its memory.
What happens is compared with the packets of two sides that count: for each
datagram that comes, the packets that it begins or completes.
-/

import LibBench.Transport.PacketBudget
import LibBench.Transport.Reassembly

namespace LibBench.Transport

open LibBench.Math SequenceNumber

variable {M τ : Type} {config : ConnectionConfig M τ} {sizes : FragmentConfig}

/-- One side, and what it has transmitted. Its packets are not recorded. -/
structure DatagramNode {M τ : Type} (config : ConnectionConfig M τ) (sizes : FragmentConfig) where
  node : Node UInt16 config
  fragmentReassembly :
    SequenceRing UInt16 FragmentReassemblyData sizes.fragmentReassemblyBufferSize
  /-- The datagrams of each packet. -/
  datagrams : List (List (List UInt8))

namespace DatagramNode

variable (factory : MessageFactory M) (side : DatagramNode config sizes)

/-- A side as it is created. -/
def create (time : τ) : DatagramNode config sizes where
  node := .create time
  fragmentReassembly := .empty
  datagrams := []

/-- What does not concern the wire. -/
def onNode (act : Node UInt16 config → Node UInt16 config) : DatagramNode config sizes :=
  { side with node := act side.node }

/-- `SendPackets`. A packet that is too large is not sent. -/
def sendPacket : DatagramNode config sizes :=
  if side.node.connection.errorLevel ≠ .none then side
  else
    let (connection, channelEntry) :=
      side.node.connection.generatePacket side.node.endpoint.sequence
    let packetData := writePacket factory config channelEntry
    if sizes.maxPacketSize < packetData.length then
      { side with node := { side.node with connection } }
    else
      let (endpoint, header) := side.node.endpoint.sendPacket
      { side with
        node := { side.node with endpoint, connection }
        datagrams := side.datagrams ++ [transmitPacket sizes header packetData] }

/-- `ReceivePackets`, of one datagram. -/
def receiveDatagram (data : List UInt8) : Except PacketError (DatagramNode config sizes) :=
  if side.node.connection.errorLevel ≠ .none then .ok side
  else do
    let endpoint : FragmentEndpoint config.endpoint sizes :=
      { endpoint := side.node.endpoint, fragmentReassembly := side.fragmentReassembly }
    let (endpoint, connection) ←
      endpoint.receivePacketData (Connection.processPacketData factory) side.node.connection data
    .ok { side with
      node := { side.node with endpoint := endpoint.endpoint, connection }
      fragmentReassembly := endpoint.fragmentReassembly }

end DatagramNode

/-- What can happen, and on which side. -/
inductive DatagramAction (M τ : Type)
  | sendMessage (side : Side) (message : M)
  | receiveMessage (side : Side)
  | sendUnreliable (side : Side) (message : M)
  | receiveUnreliable (side : Side)
  | sendPacket (side : Side)
  /-- The side receives a datagram of a packet that the other has transmitted. -/
  | receiveDatagram (side : Side) (position i : ℕ)
  | advanceTime (side : Side) (time : τ)
  deriving DecidableEq, Repr

/-- The side on which it happens. -/
def DatagramAction.side : DatagramAction M τ → Side
  | sendMessage side _ => side
  | receiveMessage side => side
  | sendUnreliable side _ => side
  | receiveUnreliable side => side
  | sendPacket side => side
  | receiveDatagram side _ _ => side
  | advanceTime side _ => side

/-- A message that is to be sent is in its range. -/
def DatagramAction.Carried (factory : MessageFactory M) (config : ConnectionConfig M τ) :
    DatagramAction M τ → Prop
  | sendMessage _ message => factory.Carries config.reliable.measuredBits message
  | sendUnreliable _ message => factory.Carries config.unreliable.measuredBits message
  | _ => True

/-- Both sides of a connection. -/
abbrev DatagramNetwork {M τ : Type} (config : ConnectionConfig M τ) (sizes : FragmentConfig) :
    Type :=
  Side → DatagramNode config sizes

namespace DatagramNetwork

/-- Both sides as they are created. -/
def create (time : τ) : DatagramNetwork config sizes :=
  fun _ => .create time

variable (factory : MessageFactory M) (network : DatagramNetwork config sizes)

/-- A datagram that the other side has transmitted. -/
def datagram? (side : Side) (position i : ℕ) : Option (List UInt8) :=
  (network side.other).datagrams[position]?.bind fun datagrams => datagrams[i]?

/-- What becomes of the side on which something happens. -/
def perform : DatagramAction M τ → Except PacketError (DatagramNode config sizes)
  | .sendMessage side message => .ok ((network side).onNode fun node => node.sendMessage message)
  | .receiveMessage side => .ok ((network side).onNode Node.receiveMessage)
  | .sendUnreliable side message =>
      .ok ((network side).onNode fun node => node.sendUnreliable message)
  | .receiveUnreliable side => .ok ((network side).onNode Node.receiveUnreliable)
  | .sendPacket side => .ok ((network side).sendPacket factory)
  | .receiveDatagram side position i =>
      match network.datagram? side position i with
      | none => .ok (network side)
      | some data => (network side).receiveDatagram factory data
  | .advanceTime side time => .ok ((network side).onNode fun node => node.advanceTime time)

/-- What happens on one side leaves the other as it is. -/
def step (action : DatagramAction M τ) : Except PacketError (DatagramNetwork config sizes) := do
  let after ← network.perform factory action
  .ok (Function.update network action.side after)

end DatagramNetwork

/-- A side without the records of its packets. -/
def Node.withoutPackets {ν : Type} (node : Node ν config) : Node ν config :=
  { node with transmitted := [], processed := [] }

/-- The payload of a packet. -/
def Packet.payload (factory : MessageFactory M) (config : ConnectionConfig M τ)
    (packet : Packet UInt16 M) : List UInt8 :=
  writePacket factory config packet.channelEntry

/-- What is transmitted of a packet. -/
def Packet.datagrams (factory : MessageFactory M) (config : ConnectionConfig M τ)
    (sizes : FragmentConfig) (packet : Packet UInt16 M) : List (List UInt8) :=
  transmitPacket sizes packet.header (packet.payload factory config)

/-- The side of the program that has transmitted these packets. -/
def DatagramNode.ofNode (factory : MessageFactory M) (node : Node UInt16 config)
    (fragmentReassembly :
      SequenceRing UInt16 FragmentReassemblyData sizes.fragmentReassemblyBufferSize) :
    DatagramNode config sizes where
  node := node.withoutPackets
  fragmentReassembly
  datagrams := node.transmitted.map (Packet.datagrams factory config sizes)

/-- Two sides that count, and what each has of packets of which not all fragments have
come. -/
structure PendingNetwork {M τ : Type} (config : ConnectionConfig M τ) (sizes : FragmentConfig) where
  network : Network ℤ config
  pendings : Side → SequenceRing ℤ PendingPacket sizes.fragmentReassemblyBufferSize

namespace PendingNetwork

/-- Both sides as they are created. -/
def create (time : τ) : PendingNetwork config sizes where
  network := .create time
  pendings _ := .empty

variable (factory : MessageFactory M) (pending : PendingNetwork config sizes)

/-- The endpoint of a side. -/
def endpoint (side : Side) : PendingEndpoint config.endpoint sizes where
  endpoint := (pending.network side).endpoint.wrapped
  pendings := pending.pendings side

/-- The packet that the other side has transmitted at a position, if the datagram is
one of it and the side is not in error. -/
def packet? (side : Side) (position i : ℕ) : Option (Packet ℤ M) :=
  if (pending.network side).connection.errorLevel ≠ .none then none
  else (pending.network side.other).transmitted[position]?.filter fun packet =>
    i < (packet.wrapped.datagrams factory config sizes).length

/-- What a datagram means for the packets. -/
def packetActions : DatagramAction M τ → List (Action M τ)
  | .sendMessage side message => [.sendMessage side message]
  | .receiveMessage side => [.receiveMessage side]
  | .sendUnreliable side message => [.sendUnreliable side message]
  | .receiveUnreliable side => [.receiveUnreliable side]
  | .sendPacket side => [.sendPacket side]
  | .receiveDatagram side position i =>
      match pending.packet? factory side position i with
      | none => []
      | some packet =>
          let payload := packet.wrapped.payload factory config
          (if (pending.endpoint side).Begins position payload then
            [.receiveFragment side position] else []) ++
          (if (pending.endpoint side).Completes position payload i then
            [.receivePacket side position] else [])
  | .advanceTime side time => [.advanceTime side time]

/-- What a datagram of a packet does to a side. -/
def arrival (side : Side) (position : ℕ) (packet : Packet ℤ M) (i : ℕ) :
    PendingEndpoint config.endpoint sizes × Connection UInt16 config :=
  (pending.endpoint side).receiveDatagram (Connection.processPacketData factory)
    (pending.network side).connection.wrapped position packet.wrapped.header
    (packet.wrapped.payload factory config) i

/-- What becomes of the fragments of a side. -/
def pendingsAfter :
    DatagramAction M τ → SequenceRing ℤ PendingPacket sizes.fragmentReassemblyBufferSize
  | .receiveDatagram side position i =>
      match pending.packet? factory side position i with
      | none => pending.pendings side
      | some packet => (pending.arrival factory side position packet i).1.pendings
  | action => pending.pendings action.side

/-- What happens on one side leaves the other as it is. -/
def next (action : DatagramAction M τ) : PendingNetwork config sizes where
  network := (pending.packetActions factory action).foldl Network.next pending.network
  pendings := Function.update pending.pendings action.side (pending.pendingsAfter factory action)

/-- Every action can happen. -/
def step (action : DatagramAction M τ) : Except PacketError (PendingNetwork config sizes) :=
  .ok (pending.next factory action)

/-- What has to be timely in a step: what it means for the packets is, and a fragment
is less than half a turn from the others. -/
def Timely (action : DatagramAction M τ) : Prop :=
  StepsMeet Network.step Network.Timely pending.network (pending.packetActions factory action) ∧
    match action with
    | .receiveDatagram side position _ => Near (pending.pendings side) position
    | _ => True

/-- The sides of the program. -/
def stored : DatagramNetwork config sizes := fun side =>
  .ofNode factory (pending.network side).wrapped
    ((pending.pendings side).wrapped fun pending => pending.stored sizes.fragmentSize)

end PendingNetwork

end LibBench.Transport
