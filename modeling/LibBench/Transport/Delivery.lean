/-
# The reliable channel delivers

Two connected parties with numbers that do not come round, in any order of what
can happen to them. `Direction` says what holds of one side as the source of
messages and the other as their target: nothing that the source has accepted is
missing on both sides, a packet is acknowledged only when all its messages are
held, and what has been handed out is a first part of what was accepted.
-/

import LibBench.Transport.Connection
import LibBench.Transport.ReceiveWindow
import LibBench.Transport.Acknowledgements

namespace LibBench.Transport

open LibBench.Math SequenceNumber

/-- The sizes that a connection is configured with. -/
structure ConnectionConfig.Valid {M τ : Type} (config : ConnectionConfig M τ) : Prop where
  reliable : config.reliable.Valid
  endpoint : config.endpoint.Valid

section Entries

variable {ν M τ : Type}

/-- The messages that an entry of a packet has for the reliable channel. -/
def ChannelPacketData.messages : ChannelPacketData ν M → List (ν × M)
  | reliable messages => messages
  | unreliable _ => []

/-- The messages of a packet for the reliable channel. -/
def Packet.messages (packet : Packet ν M) : List (ν × M) :=
  packet.channelEntry.flatMap ChannelPacketData.messages

end Entries

variable {M τ : Type} {config : ConnectionConfig M τ}

/-- What processing a packet does to the reliable channel. -/
theorem Connection.processEntries_spec {received sent : List M}
    (hsize : 0 < config.reliable.messageReceiveQueueSize)
    (entries : List (ChannelPacketData ℤ M)) (connection : Connection ℤ config)
    (h : connection.reliable.Receiving received sent)
    (hmessages : ∀ pair ∈ entries.flatMap ChannelPacketData.messages,
      0 ≤ pair.1 ∧ sent[pair.1.toNat]? = some pair.2)
    {success : Bool} {after : Connection ℤ config}
    (hafter : Connection.processEntries entries connection = (success, after)) :
    after.reliable.Receiving received sent ∧
      (∀ messageId, connection.reliable.Held messageId → after.reliable.Held messageId) ∧
      (success = true → ∀ pair ∈ entries.flatMap ChannelPacketData.messages,
        after.reliable.Held pair.1) ∧
      ∃ errorLevel messageReceiveQueue unreliable,
        after = { connection with
          reliable := { connection.reliable with errorLevel, messageReceiveQueue }
          unreliable } := by
  induction entries generalizing connection with
  | nil =>
      obtain ⟨rfl, rfl⟩ := Prod.mk.inj hafter
      exact ⟨h, fun _ hheld => hheld, fun _ _ hmem => (by cases hmem),
        connection.reliable.errorLevel, connection.reliable.messageReceiveQueue,
        connection.unreliable, rfl⟩
  | cons entry entries ih =>
      have hrest : ∀ pair ∈ entries.flatMap ChannelPacketData.messages,
          0 ≤ pair.1 ∧ sent[pair.1.toNat]? = some pair.2 :=
        fun pair hmem => hmessages pair (List.mem_append_right _ hmem)
      cases entry with
      | reliable messages =>
          have hfirst : ∀ pair ∈ messages, 0 ≤ pair.1 ∧ sent[pair.1.toNat]? = some pair.2 :=
            fun pair hmem => hmessages pair (List.mem_append_left _ hmem)
          obtain ⟨hreceiving, hmono, hheld⟩ := h.processPacketData hsize hfirst
          obtain ⟨level, queue, hframe⟩ :=
            ReliableOrderedChannel.processPacketData_eq connection.reliable messages
          rw [Connection.processEntries] at hafter
          dsimp only at hafter
          split at hafter
          · obtain ⟨rfl, rfl⟩ := Prod.mk.inj hafter
            exact ⟨hreceiving, hmono, fun hfalse => (by cases hfalse), level, queue,
              connection.unreliable, by rw [← hframe]⟩
          · next hnone =>
              obtain ⟨hlater, hlaterMono, hlaterHeld, laterLevel, laterQueue, unreliable, heq⟩ :=
                ih _ hreceiving hrest hafter
              refine ⟨hlater, fun id hid => hlaterMono id (hmono id hid), fun htrue pair hmem => ?_,
                laterLevel, laterQueue, unreliable, ?_⟩
              · obtain hmem | hmem := List.mem_append.mp hmem
                · exact hlaterMono _ (hheld (not_not.mp hnone) pair hmem)
                · exact hlaterHeld htrue pair hmem
              · rw [heq]
                dsimp only
                rw [hframe]
      | unreliable messages =>
          rw [Connection.processEntries] at hafter
          dsimp only at hafter
          split at hafter
          · obtain ⟨rfl, rfl⟩ := Prod.mk.inj hafter
            exact ⟨h, fun _ hheld => hheld, fun hfalse => (by cases hfalse), _, _, _, rfl⟩
          · exact ih
              { connection with unreliable := connection.unreliable.processPacketData messages }
              h hrest hafter

/-- The packet has been processed, and all its messages for the reliable channel
are held on the other side. -/
def Confirmed (source target : Node ℤ config) (sequence : ℤ) : Prop :=
  0 ≤ sequence ∧ sequence.toNat ∈ target.processed ∧
    ∃ packet, source.transmitted[sequence.toNat]? = some packet ∧
      ∀ pair ∈ packet.messages, target.connection.reliable.Held pair.1

/-- One side as the source of messages, and the other as their target. -/
structure Direction (source target : Node ℤ config) : Prop where
  sending : source.connection.reliable.Sending source.sent
  receiving : target.connection.reliable.Receiving target.received source.sent
  /-- What has left the send queue has arrived. -/
  kept : ∀ messageId : ℤ, 0 ≤ messageId → messageId < source.sent.length →
    source.connection.reliable.messageSendQueue.find messageId = none →
    target.connection.reliable.Held messageId
  counting : source.endpoint.Counting source.transmitted.length
    (source.acked ++ source.endpoint.acks)
  collecting : target.endpoint.Collecting (Confirmed source target)
  behind : target.endpoint.receivedPackets.sequence ≤ source.transmitted.length
  reported : ∀ sequence ∈ source.acked ++ source.endpoint.acks, Confirmed source target sequence
  sequence : ∀ ⦃position : ℕ⦄ ⦃packet : Packet ℤ M⦄,
    source.transmitted[position]? = some packet → packet.header.sequence = position
  message : ∀ packet ∈ source.transmitted, ∀ pair ∈ packet.messages,
    0 ≤ pair.1 ∧ source.sent[pair.1.toNat]? = some pair.2
  recordedWindowed : source.connection.reliable.sentPackets.Windowed
  recordedBehind : source.connection.reliable.sentPackets.sequence ≤ source.transmitted.length
  recorded : ∀ ⦃sequence messageIds⦄,
    source.connection.reliable.sentPackets.find sequence = some messageIds →
    0 ≤ sequence ∧ ∃ packet, source.transmitted[sequence.toNat]? = some packet ∧
      packet.messages.map Prod.fst = messageIds
  acknowledged : ∀ packet ∈ target.transmitted, ∀ ⦃sequence⦄,
    packet.header.Acknowledges sequence → Confirmed source target sequence

/-- What has been handed out is a first part of what was accepted. -/
theorem Direction.isPrefix {source target : Node ℤ config} (h : Direction source target) :
    target.received <+: source.sent :=
  h.receiving.isPrefix

theorem direction_create (time : τ) :
    Direction (.create time : Node ℤ config) (.create time) where
  sending := ReliableOrderedChannel.sending_create time
  receiving := ReliableOrderedChannel.receiving_create time
  kept _ hge hlt _ := by
    simp only [Node.create, List.length_nil] at hlt
    omega
  counting := Endpoint.counting_create
  collecting := Endpoint.collecting_create _
  behind := le_rfl
  reported _ hmem := by cases hmem
  sequence _ _ hpacket := by cases hpacket
  message _ hmem := by cases hmem
  recordedWindowed := SequenceRing.windowed_empty
  recordedBehind := le_rfl
  recorded _ _ hfind := by cases hfind
  acknowledged _ hmem := by cases hmem

/-! ## What a step leaves alone

A step that is none of the source's business leaves the source as it is, however
the rest of its side changes, and likewise for the target. -/

/-- Nothing of a side that matters to it as a source has changed. -/
structure SameSource (before after : Node ℤ config) : Prop where
  sendMessageId : after.connection.reliable.sendMessageId =
    before.connection.reliable.sendMessageId
  oldestUnackedMessageId : after.connection.reliable.oldestUnackedMessageId =
    before.connection.reliable.oldestUnackedMessageId
  messageSendQueue : after.connection.reliable.messageSendQueue =
    before.connection.reliable.messageSendQueue
  recordedPackets : after.connection.reliable.sentPackets = before.connection.reliable.sentPackets
  sent : after.sent = before.sent
  sequence : after.endpoint.sequence = before.endpoint.sequence
  sentPackets : after.endpoint.sentPackets = before.endpoint.sentPackets
  acks : after.endpoint.acks = before.endpoint.acks
  transmitted : after.transmitted = before.transmitted
  acked : after.acked = before.acked

/-- Nothing of a side that matters to it as a target has changed. -/
structure SameTarget (before after : Node ℤ config) : Prop where
  receiveMessageId : after.connection.reliable.receiveMessageId =
    before.connection.reliable.receiveMessageId
  messageReceiveQueue : after.connection.reliable.messageReceiveQueue =
    before.connection.reliable.messageReceiveQueue
  received : after.received = before.received
  receivedPackets : after.endpoint.receivedPackets = before.endpoint.receivedPackets
  transmitted : after.transmitted = before.transmitted
  processed : after.processed = before.processed

variable {source target after : Node ℤ config}

theorem SameTarget.held_iff (h : SameTarget target after) (messageId : ℤ) :
    after.connection.reliable.Held messageId ↔ target.connection.reliable.Held messageId := by
  rw [ReliableOrderedChannel.Held, ReliableOrderedChannel.Held, h.receiveMessageId,
    h.messageReceiveQueue]

theorem SameTarget.confirmed_iff (h : SameTarget target after) (sequence : ℤ) :
    Confirmed source after sequence ↔ Confirmed source target sequence := by
  simp only [Confirmed, h.held_iff, h.processed]

theorem SameSource.confirmed_iff (h : SameSource source after) (sequence : ℤ) :
    Confirmed after target sequence ↔ Confirmed source target sequence := by
  simp only [Confirmed, h.transmitted]

theorem Direction.of_sameSource (h : Direction source target) (hsame : SameSource source after) :
    Direction after target where
  sending :=
    { sendMessageId := by rw [hsame.sendMessageId, hsame.sent, h.sending.sendMessageId]
      sequence := by rw [hsame.messageSendQueue, hsame.sent, h.sending.sequence]
      windowed := by
        rw [hsame.messageSendQueue]
        exact h.sending.windowed
      oldest_nonneg := by
        rw [hsame.oldestUnackedMessageId]
        exact h.sending.oldest_nonneg
      oldest_le := by
        rw [hsame.oldestUnackedMessageId, hsame.sent]
        exact h.sending.oldest_le
      oldest := by
        rw [hsame.oldestUnackedMessageId, hsame.sent, hsame.messageSendQueue]
        exact h.sending.oldest
      entry := by
        rw [hsame.oldestUnackedMessageId, hsame.sent, hsame.messageSendQueue]
        exact h.sending.entry }
  receiving := by
    rw [hsame.sent]
    exact h.receiving
  kept := by
    rw [hsame.sent, hsame.messageSendQueue]
    exact h.kept
  counting :=
    { sequence := by rw [hsame.sequence, hsame.transmitted, h.counting.sequence]
      sentSequence := by rw [hsame.sentPackets, hsame.transmitted, h.counting.sentSequence]
      windowed := by
        rw [hsame.sentPackets]
        exact h.counting.windowed
      nonneg := by
        rw [hsame.sentPackets]
        exact h.counting.nonneg
      nodup := by
        rw [hsame.acked, hsame.acks]
        exact h.counting.nodup
      bounds := by
        rw [hsame.acked, hsame.acks, hsame.transmitted]
        exact h.counting.bounds
      acked := by
        rw [hsame.acked, hsame.acks, hsame.sentPackets]
        exact h.counting.acked }
  collecting := h.collecting.mono fun _ => (hsame.confirmed_iff _).mpr
  behind := by
    rw [hsame.transmitted]
    exact h.behind
  reported := by
    rw [hsame.acked, hsame.acks]
    exact fun sequence hmem => (hsame.confirmed_iff _).mpr (h.reported sequence hmem)
  sequence := by
    rw [hsame.transmitted]
    exact h.sequence
  message := by
    rw [hsame.transmitted, hsame.sent]
    exact h.message
  recordedWindowed := by
    rw [hsame.recordedPackets]
    exact h.recordedWindowed
  recordedBehind := by
    rw [hsame.recordedPackets, hsame.transmitted]
    exact h.recordedBehind
  recorded := by
    rw [hsame.recordedPackets, hsame.transmitted]
    exact h.recorded
  acknowledged packet hmem _ hack := (hsame.confirmed_iff _).mpr (h.acknowledged packet hmem hack)

theorem Direction.of_sameTarget (h : Direction source target) (hsame : SameTarget target after) :
    Direction source after where
  sending := h.sending
  receiving :=
    { receiveMessageId := by
        rw [hsame.receiveMessageId, hsame.received, h.receiving.receiveMessageId]
      windowed := by
        rw [hsame.messageReceiveQueue]
        exact h.receiving.windowed
      le_sequence := by
        rw [hsame.received, hsame.messageReceiveQueue]
        exact h.receiving.le_sequence
      sequence_le := by
        rw [hsame.received, hsame.messageReceiveQueue]
        exact h.receiving.sequence_le
      entry := by
        rw [hsame.received, hsame.messageReceiveQueue]
        exact h.receiving.entry
      isPrefix := by
        rw [hsame.received]
        exact h.receiving.isPrefix }
  kept messageId hge hlt hnone := (hsame.held_iff _).mpr (h.kept messageId hge hlt hnone)
  counting := h.counting
  collecting :=
    { windowed := by
        rw [hsame.receivedPackets]
        exact h.collecting.windowed
      nonneg := by
        rw [hsame.receivedPackets]
        exact h.collecting.nonneg
      marked := by
        rw [hsame.receivedPackets]
        exact fun _ hfind => (hsame.confirmed_iff _).mpr (h.collecting.marked hfind) }
  behind := by
    rw [hsame.receivedPackets]
    exact h.behind
  reported sequence hmem := (hsame.confirmed_iff _).mpr (h.reported sequence hmem)
  sequence := h.sequence
  message := h.message
  recordedWindowed := h.recordedWindowed
  recordedBehind := h.recordedBehind
  recorded := h.recorded
  acknowledged := by
    rw [hsame.transmitted]
    exact fun packet hmem _ hack => (hsame.confirmed_iff _).mpr (h.acknowledged packet hmem hack)

end LibBench.Transport
