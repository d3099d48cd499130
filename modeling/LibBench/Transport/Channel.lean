/-
# Yojimbo: the channels of a connection

The game opens one reliable channel and one unreliable one. The reliable channel
keeps a message until a packet that carried it is acknowledged, and sends it
again meanwhile; on the other side it waits in a queue until all messages before
it have been taken. The unreliable channel sends a message once.

What a message is and how many bits it takes are parameters, and so is the clock,
of which only one thing matters: whether it is time to send a message again. None
of the messages of the game carries a block, and what is only there for blocks is
left out.
-/

import LibBench.Transport.Endpoint
import LibBench.Yojimbo.BitStream

namespace LibBench.Transport

open LibBench.Math SequenceNumber
open LibBench.Yojimbo (bitsRequired)

/-- The errors of a channel that messages without blocks can lead to. -/
inductive ChannelErrorLevel
  | none
  | desync
  | sendQueueFull
  | failedToSerialize
  deriving DecidableEq, Repr

/-- `ChannelConfig`, and what the channel asks of its messages and its clock. -/
structure ChannelConfig (M τ : Type) where
  sentPacketBufferSize : ℕ
  messageSendQueueSize : ℕ
  messageReceiveQueueSize : ℕ
  maxMessagesPerPacket : ℕ
  packetBudget : ℤ
  /-- `bits_required( 0, GetNumTypes() - 1 )`. -/
  messageTypeBits : ℕ
  /-- What a `MeasureStream` counts for the message. -/
  measuredBits : M → ℕ
  /-- The time last sent of a message that has not been sent. -/
  neverSent : τ
  /-- `timeLastSent + messageResendTime <= time`. -/
  resendDue : (timeLastSent time : τ) → Bool

/-- What a `MeasureStream` counts in `serialize_int_relative_internal`. -/
def intRelativeBits (difference : ℤ) : ℕ :=
  if difference = 1 then 1
  else if difference ≤ 6 then 2 + bitsRequired 2 6
  else if difference ≤ 23 then 3 + bitsRequired 7 23
  else if difference ≤ 280 then 4 + bitsRequired 24 280
  else if difference ≤ 4377 then 5 + bitsRequired 281 4377
  else if difference ≤ 69914 then 6 + bitsRequired 4378 69914
  else 6 + 32

/-- `ConservativeMessageHeaderBits`. -/
def conservativeMessageHeaderBits : ℤ := 32

/-- The budget of a packet for a channel. -/
def budgetBits (packetBudget availableBits : ℤ) : ℤ :=
  if 0 < packetBudget then min (packetBudget * 8) availableBits else availableBits

/-- `MessageSendQueueEntry`. -/
structure MessageSendQueueEntry (M τ : Type) where
  message : M
  measuredBits : ℕ
  timeLastSent : τ
  deriving DecidableEq, Repr

/-- `ReliableOrderedChannel`. A sent packet is remembered by the numbers of its
messages. -/
structure ReliableOrderedChannel (ν : Type) {M τ : Type} (config : ChannelConfig M τ) where
  errorLevel : ChannelErrorLevel
  time : τ
  sendMessageId : ν
  receiveMessageId : ν
  oldestUnackedMessageId : ν
  sentPackets : SequenceRing ν (List ν) config.sentPacketBufferSize
  messageSendQueue : SequenceRing ν (MessageSendQueueEntry M τ) config.messageSendQueueSize
  messageReceiveQueue : SequenceRing ν M config.messageReceiveQueueSize

/-- What `GetMessagesToSend` has chosen so far. -/
structure Selection (ν M τ : Type) (size : ℕ) where
  messageSendQueue : SequenceRing ν (MessageSendQueueEntry M τ) size
  messageIds : List ν
  previousMessageId : ν
  usedBits : ℤ
  giveUpCounter : ℕ

section SequenceBuffer

variable {ν : Type} [SequenceNumber ν] [DecidableEq ν] {α : Type*} {size : ℕ}

/-- `SequenceBuffer::Insert`, with what the caller writes to the entry. -/
def sequenceBufferInsert (buffer : SequenceRing ν α size) (sequence : ν) (data : α) :
    Option (SequenceRing ν α size) :=
  buffer.insert sequence 65535 data

end SequenceBuffer

namespace ReliableOrderedChannel

variable {ν M τ : Type} [SequenceNumber ν] [DecidableEq ν] {config : ChannelConfig M τ}

/-- `Reset`. -/
def create (time : τ) : ReliableOrderedChannel ν config where
  errorLevel := .none
  time
  sendMessageId := ofInt 0
  receiveMessageId := ofInt 0
  oldestUnackedMessageId := ofInt 0
  sentPackets := .empty
  messageSendQueue := .empty
  messageReceiveQueue := .empty

variable (channel : ReliableOrderedChannel ν config)

/-- `CanSendMessage`. -/
def canSendMessage : Bool :=
  channel.messageSendQueue.available channel.sendMessageId

/-- `SendMessage`, in a build without assertions. -/
def sendMessage (message : M) : ReliableOrderedChannel ν config :=
  if channel.errorLevel ≠ .none then channel
  else if !channel.canSendMessage then { channel with errorLevel := .sendQueueFull }
  else
    match sequenceBufferInsert channel.messageSendQueue channel.sendMessageId
        { message, measuredBits := config.measuredBits message
          timeLastSent := config.neverSent } with
    | none => channel -- the source asserts an entry
    | some messageSendQueue =>
        { channel with messageSendQueue, sendMessageId := add channel.sendMessageId 1 }

/-- `ReceiveMessage`: the message, if it is there. -/
def receiveMessage : Option (M × ReliableOrderedChannel ν config) :=
  if channel.errorLevel ≠ .none then none
  else
    match channel.messageReceiveQueue.find channel.receiveMessageId with
    | none => none
    | some message =>
        some (message, { channel with
          messageReceiveQueue := channel.messageReceiveQueue.remove channel.receiveMessageId
          receiveMessageId := add channel.receiveMessageId 1 })

/-- `HasMessagesToSend`. -/
def hasMessagesToSend : Bool :=
  channel.oldestUnackedMessageId ≠ channel.sendMessageId

/-- The bits that `GetMessagesToSend` counts for one more message. -/
def messageBits {size : ℕ} (config : ChannelConfig M τ) (selection : Selection ν M τ size)
    (messageId : ν) (entry : MessageSendQueueEntry M τ) : ℤ :=
  entry.measuredBits + config.messageTypeBits +
    if selection.messageIds = [] then 16
    else intRelativeBits (distance selection.previousMessageId messageId)

/-- The loop of `GetMessagesToSend`, with so many rounds to go. -/
def selectMessages (config : ChannelConfig M τ) (time : τ) (oldestUnackedMessageId : ν)
    (availableBits : ℤ) :
    (rounds i : ℕ) → Selection ν M τ config.messageSendQueueSize →
      Selection ν M τ config.messageSendQueueSize
  | 0, _, selection => selection
  | rounds + 1, i, selection =>
      let next := selectMessages config time oldestUnackedMessageId availableBits rounds (i + 1)
      -- `giveUpBits` is four bytes
      if availableBits - selection.usedBits < 32 then selection
      else if config.messageSendQueueSize < selection.giveUpCounter then selection
      else
        let messageId := add oldestUnackedMessageId i
        match selection.messageSendQueue.find messageId with
        | none => next selection
        | some entry =>
            if config.resendDue entry.timeLastSent time ∧ entry.measuredBits ≤ availableBits then
              let usedBits := selection.usedBits + messageBits config selection messageId entry
              if availableBits < usedBits then
                next { selection with giveUpCounter := selection.giveUpCounter + 1 }
              else
                let selection :=
                  { selection with
                    usedBits
                    messageIds := selection.messageIds ++ [messageId]
                    previousMessageId := messageId
                    messageSendQueue := selection.messageSendQueue.modify messageId
                      fun entry => { entry with timeLastSent := time } }
                if selection.messageIds.length = config.maxMessagesPerPacket then selection
                else next selection
            else if selection.messageIds.length = config.maxMessagesPerPacket then selection
            else next selection

/-- `GetMessagesToSend`. -/
def getMessagesToSend (availableBits : ℤ) : Selection ν M τ config.messageSendQueueSize :=
  selectMessages config channel.time channel.oldestUnackedMessageId
    (budgetBits config.packetBudget availableBits)
    (min config.messageSendQueueSize config.messageReceiveQueueSize) 0
    { messageSendQueue := channel.messageSendQueue
      messageIds := []
      previousMessageId := ofInt 0
      usedBits := conservativeMessageHeaderBits
      giveUpCounter := 0 }

/-- `GetMessagePacketData`: the messages with their numbers. -/
def getMessagePacketData (messageIds : List ν) : List (ν × M) :=
  messageIds.filterMap fun messageId =>
    (channel.messageSendQueue.find messageId).map fun entry => (messageId, entry.message)

/-- `AddMessagePacketEntry`. -/
def addMessagePacketEntry (messageIds : List ν) (sequence : ν) :
    ReliableOrderedChannel ν config :=
  match sequenceBufferInsert channel.sentPackets sequence messageIds with
  | none => channel
  | some sentPackets => { channel with sentPackets }

/-- `GetPacketData`: the messages and the bits they take, if there are any. -/
def getPacketData (packetSequence : ν) (availableBits : ℤ) :
    ReliableOrderedChannel ν config × Option (List (ν × M) × ℤ) :=
  if channel.hasMessagesToSend then
    let selection := channel.getMessagesToSend availableBits
    let channel := { channel with messageSendQueue := selection.messageSendQueue }
    if selection.messageIds = [] then (channel, none)
    else
      (channel.addMessagePacketEntry selection.messageIds packetSequence,
        some (channel.getMessagePacketData selection.messageIds, selection.usedBits))
  else (channel, none)

/-- The loop of `ProcessPacketMessages`. -/
def processMessages (minMessageId maxMessageId : ν) :
    List (ν × M) → ReliableOrderedChannel ν config → ReliableOrderedChannel ν config
  | [], channel => channel
  | (messageId, message) :: messages, channel =>
      if lessThan messageId minMessageId then
        processMessages minMessageId maxMessageId messages channel
      else if greaterThan messageId maxMessageId then { channel with errorLevel := .desync }
      else if (channel.messageReceiveQueue.find messageId).isSome then
        processMessages minMessageId maxMessageId messages channel
      else
        match sequenceBufferInsert channel.messageReceiveQueue messageId message with
        | none => { channel with errorLevel := .desync }
        | some messageReceiveQueue =>
            processMessages minMessageId maxMessageId messages
              { channel with messageReceiveQueue }

/-- `ProcessPacketData`. -/
def processPacketData (messages : List (ν × M)) : ReliableOrderedChannel ν config :=
  if channel.errorLevel ≠ .none then channel
  else
    processMessages channel.receiveMessageId
      (add channel.receiveMessageId (config.messageReceiveQueueSize - 1)) messages channel

/-- The loop of `UpdateOldestUnackedMessageId`. It ends at `stopMessageId` if not
before. -/
def nextUnacked {size : ℕ} (messageSendQueue : SequenceRing ν (MessageSendQueueEntry M τ) size)
    (stopMessageId : ν) : ℕ → ν → ν
  | 0, messageId => messageId
  | fuel + 1, messageId =>
      if messageId = stopMessageId ∨ (messageSendQueue.find messageId).isSome then messageId
      else nextUnacked messageSendQueue stopMessageId fuel (add messageId 1)

/-- `UpdateOldestUnackedMessageId`. -/
def updateOldestUnackedMessageId : ReliableOrderedChannel ν config :=
  let stopMessageId := channel.messageSendQueue.sequence
  { channel with
    oldestUnackedMessageId := nextUnacked channel.messageSendQueue stopMessageId
      (distance channel.oldestUnackedMessageId stopMessageId).toNat
      channel.oldestUnackedMessageId }

/-- One message in the loop of `ProcessAck`. -/
def ackMessage (messageId : ν) : ReliableOrderedChannel ν config :=
  if (channel.messageSendQueue.find messageId).isSome then
    { channel with messageSendQueue := channel.messageSendQueue.remove messageId
      }.updateOldestUnackedMessageId
  else channel

/-- `ProcessAck`. -/
def processAck (ack : ν) : ReliableOrderedChannel ν config :=
  match channel.sentPackets.find ack with
  | none => channel
  | some messageIds => messageIds.foldl ackMessage channel

end ReliableOrderedChannel

/-- `UnreliableUnorderedChannel`. -/
structure UnreliableUnorderedChannel {M τ : Type} (config : ChannelConfig M τ) where
  errorLevel : ChannelErrorLevel := .none
  messageSendQueue : List M := []
  messageReceiveQueue : List M := []

namespace UnreliableUnorderedChannel

variable {M τ : Type} {config : ChannelConfig M τ} (channel : UnreliableUnorderedChannel config)

/-- `SendMessage`, in a build without assertions. -/
def sendMessage (message : M) : UnreliableUnorderedChannel config :=
  if channel.errorLevel ≠ .none then channel
  else if channel.messageSendQueue.length = config.messageSendQueueSize then
    { channel with errorLevel := .sendQueueFull }
  else { channel with messageSendQueue := channel.messageSendQueue ++ [message] }

/-- `ReceiveMessage`: the message, if there is one. -/
def receiveMessage : Option (M × UnreliableUnorderedChannel config) :=
  if channel.errorLevel ≠ .none then none
  else
    match channel.messageReceiveQueue with
    | [] => none
    | message :: messages => some (message, { channel with messageReceiveQueue := messages })

/-- The loop of `GetPacketData`: what goes out, the bits it takes, and what stays
in the queue. A message that is too large is dropped. -/
def takeMessages (config : ChannelConfig M τ) (availableBits : ℤ) :
    List M → List M → ℤ → List M × ℤ × List M
  | [], messages, usedBits => (messages, usedBits, [])
  | message :: queue, messages, usedBits =>
      -- `giveUpBits` is four bytes
      if availableBits - usedBits < 32 then (messages, usedBits, message :: queue)
      else if messages.length = config.maxMessagesPerPacket then
        (messages, usedBits, message :: queue)
      else
        let messageBits : ℤ := config.messageTypeBits + config.measuredBits message
        if availableBits < usedBits + messageBits then
          takeMessages config availableBits queue messages usedBits
        else
          takeMessages config availableBits queue (messages ++ [message]) (usedBits + messageBits)

/-- What goes into a packet and what stays were in the queue, in this order. -/
theorem takeMessages_sublist (availableBits : ℤ) (queue messages : List M) (usedBits : ℤ) :
    ∃ taken bits rest,
      takeMessages config availableBits queue messages usedBits = (messages ++ taken, bits, rest) ∧
        (taken ++ rest).Sublist queue := by
  induction queue generalizing messages usedBits with
  | nil => exact ⟨[], usedBits, [], by simp [takeMessages], List.Sublist.refl _⟩
  | cons message queue ih =>
      rw [takeMessages]
      split
      · exact ⟨[], usedBits, message :: queue, by simp, List.Sublist.refl _⟩
      split
      · exact ⟨[], usedBits, message :: queue, by simp, List.Sublist.refl _⟩
      dsimp only
      split
      · obtain ⟨taken, bits, rest, heq, hsublist⟩ := ih messages usedBits
        exact ⟨taken, bits, rest, heq, hsublist.cons _⟩
      · obtain ⟨taken, bits, rest, heq, hsublist⟩ := ih (messages ++ [message])
          (usedBits + (config.messageTypeBits + config.measuredBits message))
        refine ⟨message :: taken, bits, rest, ?_, hsublist.cons_cons message⟩
        rw [heq, List.append_assoc, List.singleton_append]

/-- `GetPacketData`: the messages and the bits they take, if there are any. -/
def getPacketData (availableBits : ℤ) :
    UnreliableUnorderedChannel config × Option (List M × ℤ) :=
  let (messages, usedBits, messageSendQueue) :=
    takeMessages config (budgetBits config.packetBudget availableBits) channel.messageSendQueue []
      conservativeMessageHeaderBits
  ({ channel with messageSendQueue },
    if messages = [] then none else some (messages, usedBits))

/-- `ProcessPacketData`: what does not fit into the queue is dropped. -/
def processPacketData (messages : List M) : UnreliableUnorderedChannel config :=
  if channel.errorLevel ≠ .none then channel
  else
    { channel with
      messageReceiveQueue := messages.foldl
        (fun queue message =>
          if queue.length = config.messageReceiveQueueSize then queue else queue ++ [message])
        channel.messageReceiveQueue }

end UnreliableUnorderedChannel

end LibBench.Transport
