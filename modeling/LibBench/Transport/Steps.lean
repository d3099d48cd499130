/-
# The reliable channel delivers: messages and packets out

Accepting messages, handing them out and sending packets keep what holds of a
side as a source and as a target. Accepting a message is the source's business,
handing one out the target's; a packet that is sent is both, since it takes
messages one way and acknowledgements the other.
-/

import LibBench.Transport.Delivery

namespace LibBench.Transport

open LibBench.Math SequenceNumber

namespace ReliableOrderedChannel

variable {ν M τ : Type} [SequenceNumber ν] {config : ChannelConfig M τ}
  (channel : ReliableOrderedChannel ν config)

/-- Accepting a message changes the sending half. -/
theorem sendMessage_eq (message : M) :
    ∃ errorLevel sendMessageId messageSendQueue,
      channel.sendMessage message =
        { channel with errorLevel, sendMessageId, messageSendQueue } := by
  rw [sendMessage]
  split
  · exact ⟨channel.errorLevel, channel.sendMessageId, channel.messageSendQueue, rfl⟩
  split
  · exact ⟨.sendQueueFull, channel.sendMessageId, channel.messageSendQueue, rfl⟩
  split
  · exact ⟨channel.errorLevel, channel.sendMessageId, channel.messageSendQueue, rfl⟩
  · exact ⟨_, _, _, rfl⟩

/-- A message that is not accepted changes the error level. -/
theorem sendMessage_of_refused (message : M)
    (h : ¬(channel.errorLevel = .none ∧ channel.canSendMessage = true)) :
    ∃ errorLevel, channel.sendMessage message = { channel with errorLevel } := by
  rw [sendMessage]
  split
  · exact ⟨channel.errorLevel, rfl⟩
  split
  · exact ⟨.sendQueueFull, rfl⟩
  · next hlevel hcan =>
      exact absurd ⟨not_not.mp hlevel, by simpa using hcan⟩ h

variable [DecidableEq ν]

/-- Handing a message out changes the receiving half. -/
theorem receiveMessage_eq {message : M} {after : ReliableOrderedChannel ν config}
    (h : channel.receiveMessage = some (message, after)) :
    ∃ receiveMessageId messageReceiveQueue,
      after = { channel with receiveMessageId, messageReceiveQueue } := by
  rw [receiveMessage] at h
  split at h
  · cases h
  split at h
  · cases h
  · obtain ⟨_, rfl⟩ := Prod.mk.inj (Option.some_inj.mp h)
    exact ⟨_, _, rfl⟩

theorem ackMessage_eq (messageId : ν) :
    ∃ oldestUnackedMessageId messageSendQueue,
      channel.ackMessage messageId =
        { channel with oldestUnackedMessageId, messageSendQueue } := by
  rw [ackMessage]
  split
  · exact ⟨_, _, rfl⟩
  · exact ⟨channel.oldestUnackedMessageId, channel.messageSendQueue, rfl⟩

theorem foldl_ackMessage_eq (messageIds : List ν) :
    ∃ oldestUnackedMessageId messageSendQueue,
      messageIds.foldl ackMessage channel =
        { channel with oldestUnackedMessageId, messageSendQueue } := by
  induction messageIds generalizing channel with
  | nil => exact ⟨channel.oldestUnackedMessageId, channel.messageSendQueue, rfl⟩
  | cons messageId messageIds ih =>
      obtain ⟨oldest, queue, hack⟩ := channel.ackMessage_eq messageId
      obtain ⟨oldestLater, queueLater, hlater⟩ := ih (channel.ackMessage messageId)
      exact ⟨oldestLater, queueLater, by rw [List.foldl_cons, hlater, hack]⟩

/-- Taking note of an acknowledgement changes the window of the send queue. -/
theorem processAck_eq (ack : ν) :
    ∃ oldestUnackedMessageId messageSendQueue,
      channel.processAck ack = { channel with oldestUnackedMessageId, messageSendQueue } := by
  rw [processAck]
  split
  · exact ⟨channel.oldestUnackedMessageId, channel.messageSendQueue, rfl⟩
  · exact foldl_ackMessage_eq channel _

theorem foldl_processAck_eq (acks : List ν) :
    ∃ oldestUnackedMessageId messageSendQueue,
      acks.foldl processAck channel =
        { channel with oldestUnackedMessageId, messageSendQueue } := by
  induction acks generalizing channel with
  | nil => exact ⟨channel.oldestUnackedMessageId, channel.messageSendQueue, rfl⟩
  | cons ack acks ih =>
      obtain ⟨oldest, queue, hack⟩ := channel.processAck_eq ack
      obtain ⟨oldestLater, queueLater, hlater⟩ := ih (channel.processAck ack)
      exact ⟨oldestLater, queueLater, by rw [List.foldl_cons, hlater, hack]⟩

end ReliableOrderedChannel

variable {M τ : Type} {config : ConnectionConfig M τ} {source target node : Node ℤ config}

theorem sameTarget_sendMessage (message : M) : SameTarget node (node.sendMessage message) := by
  obtain ⟨level, id, queue, heq⟩ := node.connection.reliable.sendMessage_eq message
  constructor <;> simp [Node.sendMessage, heq]

theorem Direction.sendMessage (h : Direction source target) (hvalid : config.Valid) (message : M) :
    Direction (source.sendMessage message) target := by
  by_cases haccept : source.connection.reliable.errorLevel = .none ∧
      source.connection.reliable.canSendMessage = true
  · have hpos : 0 < config.reliable.messageSendQueueSize :=
      Nat.pos_of_dvd_of_pos hvalid.reliable.messageSendQueueSize_dvd (by decide)
    obtain ⟨hsending, hnew, hold⟩ := h.sending.sendMessage hpos haccept.1 haccept.2 message
    obtain ⟨level, id, queue, heq⟩ := source.connection.reliable.sendMessage_eq message
    have hsent : (source.sendMessage message).sent = source.sent ++ [message] := if_pos haccept
    have hgrow : source.sent <+: source.sent ++ [message] := List.prefix_append _ _
    have hpackets : (source.connection.reliable.sendMessage message).sentPackets =
        source.connection.reliable.sentPackets := by rw [heq]
    refine
      { sending := ?_
        receiving := ?_
        kept := ?_
        counting := h.counting
        collecting := h.collecting
        behind := h.behind
        reported := h.reported
        sequence := h.sequence
        message := ?_
        recordedWindowed := ?_
        recordedBehind := ?_
        recorded := ?_
        acknowledged := h.acknowledged }
    · rw [hsent]
      exact hsending
    · rw [hsent]
      exact h.receiving.mono hgrow
    · rw [hsent]
      intro messageId hge hlt hnone
      simp only [List.length_append, List.length_singleton] at hlt
      obtain hbefore | heq := lt_or_eq_of_le (show messageId ≤ source.sent.length by omega)
      · exact h.kept messageId hge hbefore ((hold messageId hbefore).symm.trans hnone)
      · subst heq
        exact absurd hnone hnew
    · rw [hsent]
      exact fun packet hpacket pair hpair =>
        (h.message packet hpacket pair hpair).imp_right (getElem?_of_isPrefix hgrow)
    · change (source.connection.reliable.sendMessage message).sentPackets.Windowed
      rw [hpackets]
      exact h.recordedWindowed
    · change (source.connection.reliable.sendMessage message).sentPackets.sequence ≤ _
      rw [hpackets]
      exact h.recordedBehind
    · intro sequence messageIds hfind
      change (source.connection.reliable.sendMessage message).sentPackets.find _ = _ at hfind
      rw [hpackets] at hfind
      exact h.recorded hfind
  · obtain ⟨level, heq⟩ := source.connection.reliable.sendMessage_of_refused message haccept
    refine h.of_sameSource ?_
    constructor <;> simp [Node.sendMessage, heq, haccept]

theorem sameSource_receiveMessage : SameSource node node.receiveMessage := by
  rw [Node.receiveMessage]
  split
  · constructor <;> rfl
  · next message after hreceive =>
      obtain ⟨id, queue, rfl⟩ := node.connection.reliable.receiveMessage_eq hreceive
      constructor <;> rfl

theorem Confirmed.mono {sequence : ℤ} (h : Confirmed source target sequence) {after : Node ℤ config}
    (hheld : ∀ messageId, target.connection.reliable.Held messageId →
      after.connection.reliable.Held messageId)
    (hprocessed : target.processed ⊆ after.processed) : Confirmed source after sequence := by
  obtain ⟨hge, hmem, packet, hpacket, hall⟩ := h
  exact ⟨hge, hprocessed hmem, packet, hpacket, fun pair hpair => hheld _ (hall pair hpair)⟩

theorem Direction.receiveMessage (h : Direction source target) :
    Direction source target.receiveMessage := by
  rw [Node.receiveMessage]
  split
  · exact h
  · next message after hreceive =>
      obtain ⟨hreceiving, hheld⟩ := h.receiving.receiveMessage hreceive
      have hconfirmed : ∀ sequence, Confirmed source target sequence →
          Confirmed source { target with
            connection := { target.connection with reliable := after }
            received := target.received ++ [message] } sequence :=
        fun sequence hbefore => hbefore.mono hheld (List.Subset.refl _)
      exact
        { sending := h.sending
          receiving := hreceiving
          kept := fun messageId hge hlt hnone => hheld _ (h.kept messageId hge hlt hnone)
          counting := h.counting
          collecting := h.collecting.mono hconfirmed
          behind := h.behind
          reported := fun sequence hmem => hconfirmed _ (h.reported sequence hmem)
          sequence := h.sequence
          message := h.message
          recordedWindowed := h.recordedWindowed
          recordedBehind := h.recordedBehind
          recorded := h.recorded
          acknowledged := fun packet hmem _ hack => hconfirmed _ (h.acknowledged packet hmem hack) }

theorem sameSource_sendUnreliable (message : M) :
    SameSource node (node.sendUnreliable message) := by
  constructor <;> rfl

theorem sameTarget_sendUnreliable (message : M) :
    SameTarget node (node.sendUnreliable message) := by
  constructor <;> rfl

theorem sameSource_receiveUnreliable : SameSource node node.receiveUnreliable := by
  rw [Node.receiveUnreliable]
  split <;> constructor <;> rfl

theorem sameTarget_receiveUnreliable : SameTarget node node.receiveUnreliable := by
  rw [Node.receiveUnreliable]
  split <;> constructor <;> rfl

/-- The messages of a packet for the reliable channel are what the channel puts
into it. -/
theorem messages_packet (header : PacketHeader ℤ) (reliableData : Option (List (ℤ × M) × ℤ))
    (unreliableData : Option (List M × ℤ)) :
    Packet.messages
      { header
        channelEntry :=
          (reliableData.map fun data => ChannelPacketData.reliable data.1).toList ++
            (unreliableData.map fun data => ChannelPacketData.unreliable data.1).toList } =
      ReliableOrderedChannel.packetMessages reliableData := by
  cases reliableData <;> cases unreliableData <;>
    simp [Packet.messages, ChannelPacketData.messages, ReliableOrderedChannel.packetMessages]

/-- What sending a packet does to the side that sends it. -/
theorem Direction.sendPacket_eq (h : Direction source target) (hvalid : config.Valid)
    (hlevel : source.connection.errorLevel = .none) :
    ∃ messageSendQueue recorded unreliable packet,
      source.sendPacket =
        { source with
          endpoint := source.endpoint.sendPacket.1
          connection := { source.connection with
            reliable := { source.connection.reliable with
              messageSendQueue, sentPackets := recorded }
            unreliable }
          transmitted := source.transmitted ++ [packet] } ∧
      packet.header = source.endpoint.sendPacket.2 ∧
      ReliableOrderedChannel.SameMessages source.connection.reliable.messageSendQueue
        messageSendQueue ∧
      recorded.Windowed ∧ recorded.sequence ≤ source.transmitted.length + 1 ∧
      (∀ pair ∈ packet.messages, 0 ≤ pair.1 ∧ source.sent[pair.1.toNat]? = some pair.2) ∧
      (∀ pair ∈ packet.messages, pair.1 <
        source.connection.reliable.oldestUnackedMessageId +
          config.reliable.messageReceiveQueueSize) ∧
      ∀ sequence messageIds, recorded.find sequence = some messageIds →
        source.connection.reliable.sentPackets.find sequence = some messageIds ∨
          sequence = source.transmitted.length ∧ packet.messages.map Prod.fst = messageIds := by
  have hpos : 0 < config.reliable.sentPacketBufferSize :=
    Nat.pos_of_dvd_of_pos hvalid.reliable.sentPacketBufferSize_dvd (by decide)
  have hbehind := h.recordedBehind
  rw [← h.counting.sequence] at hbehind
  obtain ⟨queue, recorded, data, hdata, hsame, hwindowed, hsequence, hmessages, hreach,
    hrecorded⟩ :=
    h.sending.getPacketData hpos h.recordedWindowed hbehind
      (config.maxPacketSize * 8 - Connection.conservativePacketHeaderBits)
  rw [h.counting.sequence] at hsequence hrecorded
  have hpacket : source.sendPacket = _ :=
    if_neg (not_not.mpr hlevel)
  simp only [Connection.generatePacket, hdata] at hpacket
  refine ⟨queue, recorded, _, _, hpacket, rfl, hsame, hwindowed, hsequence, ?_, ?_, ?_⟩
  · rw [messages_packet]
    exact hmessages
  · rw [messages_packet]
    exact hreach
  · rw [messages_packet]
    exact hrecorded

theorem Node.sendPacket_of_error (hlevel : node.connection.errorLevel ≠ .none) :
    node.sendPacket = node :=
  if_pos hlevel

theorem Confirmed.of_isPrefix {sequence : ℤ} (h : Confirmed source target sequence)
    {after : Node ℤ config} (htransmitted : source.transmitted <+: after.transmitted) :
    Confirmed after target sequence := by
  obtain ⟨hge, hmem, packet, hpacket, hall⟩ := h
  exact ⟨hge, hmem, packet, getElem?_of_isPrefix htransmitted hpacket, hall⟩

theorem Direction.sendPacket (h : Direction source target) (hvalid : config.Valid) :
    Direction source.sendPacket target := by
  by_cases hlevel : source.connection.errorLevel = .none
  · have hpos : 0 < config.endpoint.sentPacketsBufferSize :=
      Nat.pos_of_dvd_of_pos hvalid.endpoint.sentPacketsBufferSize_dvd (by decide)
    obtain ⟨queue, recorded, unreliable, packet, heq, hheader, hsame, hwindowed, hrecordedBehind,
      hmessages, _, hrecorded⟩ := h.sendPacket_eq hvalid hlevel
    obtain ⟨sentPackets, hsend, hnumber, _⟩ := h.counting.sendPacket_eq hpos
    have hgrow : source.transmitted <+: source.transmitted ++ [packet] := List.prefix_append _ _
    have hconfirmed : ∀ sequence, Confirmed source target sequence →
        Confirmed source.sendPacket target sequence := by
      intro sequence hbefore
      refine hbefore.of_isPrefix ?_
      rw [heq]
      exact hgrow
    rw [heq] at hconfirmed ⊢
    have hcounting := h.counting.sendPacket hpos
    have hreceived : source.endpoint.sendPacket.1.acks = source.endpoint.acks := by rw [hsend]
    refine
      { sending := h.sending.of_sameMessages hsame recorded
        receiving := h.receiving
        kept := fun messageId hge hlt hnone =>
          h.kept messageId hge hlt ((hsame.find_eq_none_iff _).mp hnone)
        counting := ?_
        collecting := h.collecting.mono hconfirmed
        behind := ?_
        reported := ?_
        sequence := ?_
        message := ?_
        recordedWindowed := hwindowed
        recordedBehind := by simpa using hrecordedBehind
        recorded := ?_
        acknowledged := fun packet hmem _ hack => hconfirmed _ (h.acknowledged packet hmem hack) }
    · simpa [hreceived] using hcounting
    · have hbehind := h.behind
      simp only [List.length_append, List.length_singleton]
      omega
    · dsimp only
      rw [hreceived]
      exact fun sequence hmem => hconfirmed _ (h.reported sequence hmem)
    · intro position other hother
      dsimp only at hother
      obtain hlt | hge := lt_or_ge position source.transmitted.length
      · rw [List.getElem?_append_left hlt] at hother
        exact h.sequence hother
      · rw [List.getElem?_append_right hge, List.getElem?_singleton] at hother
        split at hother
        · next hzero =>
            obtain rfl := Option.some_inj.mp hother
            rw [hheader, hnumber]
            omega
        · cases hother
    · intro other hmem
      obtain hmem | hmem := List.mem_append.mp hmem
      · exact h.message other hmem
      · obtain rfl := List.mem_singleton.mp hmem
        exact hmessages
    · intro sequence messageIds hfind
      obtain hbefore | ⟨rfl, hids⟩ := hrecorded sequence messageIds hfind
      · obtain ⟨hge, other, hother, hotherIds⟩ := h.recorded hbefore
        exact ⟨hge, other, getElem?_of_isPrefix hgrow hother, hotherIds⟩
      · exact ⟨by omega, packet, by simp, hids⟩
  · rw [Node.sendPacket_of_error hlevel]
    exact h

/-- The header of a packet acknowledges what the sending side has processed. -/
theorem Direction.sendPacket_target (h : Direction source target)
    (hother : Direction target source) (hvalid : config.Valid) :
    Direction source target.sendPacket := by
  by_cases hlevel : target.connection.errorLevel = .none
  · have hpos : 0 < config.endpoint.sentPacketsBufferSize :=
      Nat.pos_of_dvd_of_pos hvalid.endpoint.sentPacketsBufferSize_dvd (by decide)
    obtain ⟨queue, recorded, unreliable, packet, heq, hheader, _⟩ :=
      hother.sendPacket_eq hvalid hlevel
    obtain ⟨sentPackets, hsend, _⟩ := hother.counting.sendPacket_eq hpos
    rw [heq]
    have hreceived : target.endpoint.sendPacket.1.receivedPackets =
        target.endpoint.receivedPackets := by rw [hsend]
    refine
      { sending := h.sending
        receiving := ⟨h.receiving.receiveMessageId, h.receiving.windowed, h.receiving.le_sequence,
          h.receiving.sequence_le, h.receiving.entry, h.receiving.isPrefix⟩
        kept := h.kept
        counting := h.counting
        collecting := ⟨?_, ?_, ?_⟩
        behind := ?_
        reported := h.reported
        sequence := h.sequence
        message := h.message
        recordedWindowed := h.recordedWindowed
        recordedBehind := h.recordedBehind
        recorded := h.recorded
        acknowledged := ?_ }
    · dsimp only
      rw [hreceived]
      exact h.collecting.windowed
    · dsimp only
      rw [hreceived]
      exact h.collecting.nonneg
    · dsimp only
      rw [hreceived]
      exact h.collecting.marked
    · dsimp only
      rw [hreceived]
      exact h.behind
    · intro other hmem sequence hack
      obtain hmem | hmem := List.mem_append.mp hmem
      · exact h.acknowledged other hmem hack
      · obtain rfl := List.mem_singleton.mp hmem
        rw [hheader] at hack
        exact h.collecting.acknowledges hack
  · rw [Node.sendPacket_of_error hlevel]
    exact h

end LibBench.Transport
