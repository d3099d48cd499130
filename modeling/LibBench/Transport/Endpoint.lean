/-
# reliable.io: acknowledging packets

The endpoint numbers the packets it sends, remembers the newest ones it has
sent and the newest ones it has received, and writes into the header of every
packet which of the last 32 packets before the newest received one it has. What
a header acknowledges is reported to the program once.

An endpoint is written over the type of its numbers. With `UInt16` it is the
code; with integers it is the protocol that the code stands for as long as no
number comes half a turn late. Times, sizes and statistics are left out, and so
is how a packet is cut into fragments: of a fragment there is what it does to
the packets received.
-/

import Mathlib.Data.Nat.Bitwise
import LibBench.Math.SequenceRing

namespace LibBench.Transport

open LibBench.Math SequenceNumber

section SequenceBuffer

variable {ν : Type} [SequenceNumber ν] [DecidableEq ν] {α : Type*} {size : ℕ}
  (buffer : SequenceRing ν α size) (sequence : ν)

/-- `reliable_sequence_buffer_test_insert`. -/
def testInsert : Bool :=
  !buffer.isStale sequence

/-- `reliable_sequence_buffer_insert`, with what the caller writes to the entry. -/
def bufferInsert (data : α) : Option (SequenceRing ν α size) :=
  buffer.insertUnlessStale sequence 65536 data

/-- `reliable_sequence_buffer_advance`. -/
def bufferAdvance : SequenceRing ν α size :=
  buffer.advance sequence 65536

/-- `reliable_sequence_buffer_exists`. -/
def bufferExists : Bool :=
  (buffer.find sequence).isSome

/-- The bits that `reliable_sequence_buffer_generate_ack_bits` sets: bit `i`
stands for the number `i` places before the acknowledged one. -/
def ackBitsUpTo (ack : ν) (count : ℕ) : ℕ :=
  (List.range count).foldl
    (fun ackBits (i : ℕ) =>
      if bufferExists buffer (add ack (-i)) then ackBits ||| 1 <<< i else ackBits) 0

/-- `reliable_sequence_buffer_generate_ack_bits`: the newest number and the bits. -/
def generateAckBits : ν × ℕ :=
  let ack := add buffer.sequence (-1)
  (ack, ackBitsUpTo buffer ack 32)

end SequenceBuffer

/-- The sizes in `reliable_config_t`. -/
structure EndpointConfig where
  sentPacketsBufferSize : ℕ
  receivedPacketsBufferSize : ℕ
  ackBufferSize : ℕ

/-- What the header of a packet says. -/
structure PacketHeader (ν : Type) where
  sequence : ν
  ack : ν
  ackBits : ℕ
  deriving DecidableEq, Repr

/-- `reliable_sent_packet_data_t`. -/
structure SentPacketData where
  acked : Bool
  deriving DecidableEq, Repr

/-- `reliable_endpoint_t`. -/
structure Endpoint (ν : Type) (config : EndpointConfig) where
  /-- The acknowledged packets that have not been reported yet. -/
  acks : List ν
  sequence : ν
  sentPackets : SequenceRing ν SentPacketData config.sentPacketsBufferSize
  receivedPackets : SequenceRing ν Unit config.receivedPacketsBufferSize

namespace Endpoint

variable {ν : Type} [SequenceNumber ν] [DecidableEq ν] {config : EndpointConfig}

/-- `reliable_endpoint_create`. -/
def create : Endpoint ν config where
  acks := []
  sequence := ofInt 0
  sentPackets := .empty
  receivedPackets := .empty

variable (endpoint : Endpoint ν config)

/-- `reliable_endpoint_send_packet`, up to what is transmitted with the payload. -/
def sendPacket : Endpoint ν config × PacketHeader ν :=
  let sequence := endpoint.sequence
  let (ack, ackBits) := generateAckBits endpoint.receivedPackets
  match bufferInsert endpoint.sentPackets sequence { acked := false } with
  | none => (endpoint, { sequence, ack, ackBits }) -- the source asserts an entry
  | some sentPackets =>
      ({ endpoint with sequence := add sequence 1, sentPackets }, { sequence, ack, ackBits })

/-- One acknowledged packet in the loop of `reliable_endpoint_receive_packet`. -/
def ackPacket (sequence : ν) : Endpoint ν config :=
  match endpoint.sentPackets.find sequence with
  | none => endpoint
  | some sentPacketData =>
      if !sentPacketData.acked && endpoint.acks.length < config.ackBufferSize then
        { endpoint with
          acks := endpoint.acks ++ [sequence]
          sentPackets := endpoint.sentPackets.modify sequence fun _ => { acked := true } }
      else endpoint

/-- One bit of a header. -/
def processAckBit (header : PacketHeader ν) (endpoint : Endpoint ν config) (i : ℕ) :
    Endpoint ν config :=
  if header.ackBits.testBit i then endpoint.ackPacket (add header.ack (-i)) else endpoint

/-- The loop over the ack bits of a header. -/
def processAckBits (header : PacketHeader ν) : Endpoint ν config :=
  (List.range 32).foldl (processAckBit header) endpoint

/-- `reliable_endpoint_receive_packet`, of a packet that is not a fragment. The
function that processes its payload says whether it succeeded. -/
def receivePacket {σ : Type*} (processPacket : σ → Bool × σ) (context : σ)
    (header : PacketHeader ν) : Endpoint ν config × σ :=
  if testInsert endpoint.receivedPackets header.sequence then
    let (success, context) := processPacket context
    if success then
      match bufferInsert endpoint.receivedPackets header.sequence () with
      | none => (endpoint, context) -- excluded by `testInsert`
      | some receivedPackets =>
          (({ endpoint with receivedPackets }).processAckBits header, context)
    else (endpoint, context)
  else (endpoint, context)

/-- `reliable_endpoint_receive_packet`, of the first fragment of a packet. -/
def receiveFragment (sequence : ν) : Endpoint ν config :=
  { endpoint with receivedPackets := bufferAdvance endpoint.receivedPackets sequence }

/-- `reliable_endpoint_clear_acks`. -/
def clearAcks : Endpoint ν config :=
  { endpoint with acks := [] }

end Endpoint

section AckBits

variable {ν : Type} [SequenceNumber ν] [DecidableEq ν] {α : Type*} {size : ℕ}
  {buffer : SequenceRing ν α size} {ack : ν}

theorem testBit_ackBitsUpTo (count i : ℕ) :
    (ackBitsUpTo buffer ack count).testBit i =
      (decide (i < count) && bufferExists buffer (add ack (-i))) := by
  induction count with
  | zero => simp [ackBitsUpTo]
  | succ count ih =>
      have hstep : ackBitsUpTo buffer ack (count + 1) =
          if bufferExists buffer (add ack (-count)) then
            ackBitsUpTo buffer ack count ||| 1 <<< count
          else ackBitsUpTo buffer ack count := by
        simp [ackBitsUpTo, List.range_succ]
      by_cases heq : i = count
      · subst heq
        rw [hstep]
        split
        · next hexists => simp [Nat.testBit_or, Nat.one_shiftLeft, hexists]
        · next hmissing => simp [ih, hmissing]
      · have hlt : decide (i < count + 1) = decide (i < count) := by
          rw [decide_eq_decide]
          omega
        rw [hstep, hlt, ← ih]
        split
        · simp [Nat.testBit_or, Nat.one_shiftLeft, Nat.testBit_two_pow_of_ne (Ne.symm heq)]
        · rfl

theorem ackBitsUpTo_lt (count : ℕ) : ackBitsUpTo buffer ack count < 2 ^ count := by
  apply Nat.lt_pow_two_of_testBit
  intro i hi
  rw [testBit_ackBitsUpTo, decide_eq_false (not_lt.mpr hi), Bool.false_and]

theorem Endpoint.ackBits_sendPacket_lt {config : EndpointConfig} (endpoint : Endpoint ν config) :
    endpoint.sendPacket.2.ackBits < 2 ^ 32 := by
  rw [Endpoint.sendPacket]
  dsimp only
  split <;> exact ackBitsUpTo_lt 32

end AckBits

end LibBench.Transport
