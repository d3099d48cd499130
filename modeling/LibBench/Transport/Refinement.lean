/-
# Numbers that come round: both sides

What happens in the program is the image of what happens with integers, step by
step, as long as every step is timely: no packet arrives half a turn late, no
acknowledgement comes back a turn late, and a side with messages to send does not
go half a turn without remembering a packet.
-/

import LibBench.Math.Execution
import LibBench.Transport.Network
import LibBench.Transport.WrappedChannel

namespace LibBench.Transport

open LibBench.Math SequenceNumber

section Images

variable {M τ : Type} {config : ConnectionConfig M τ}

/-- The entry of the program that stands for an entry of a packet. -/
def ChannelPacketData.wrapped : ChannelPacketData ℤ M → ChannelPacketData UInt16 M
  | reliable messages => .reliable (messages.map (Prod.map wrap id))
  | unreliable messages => .unreliable messages

/-- The packet of the program that stands for a packet. -/
def Packet.wrapped (packet : Packet ℤ M) : Packet UInt16 M where
  header := packet.header.wrapped
  channelEntry := packet.channelEntry.map ChannelPacketData.wrapped

/-- The connection of the program that stands for a connection. -/
def Connection.wrapped (connection : Connection ℤ config) : Connection UInt16 config where
  errorLevel := connection.errorLevel
  reliable := connection.reliable.wrapped
  unreliable := connection.unreliable

/-- The side of the program that stands for a side. -/
def Node.wrapped (node : Node ℤ config) : Node UInt16 config where
  endpoint := node.endpoint.wrapped
  connection := node.connection.wrapped
  sent := node.sent
  received := node.received
  sentUnreliable := node.sentUnreliable
  receivedUnreliable := node.receivedUnreliable
  transmitted := node.transmitted.map Packet.wrapped
  processed := node.processed
  acked := node.acked.map wrap

/-- Both sides of the program. -/
def Network.wrapped (network : Network ℤ config) : Network UInt16 config :=
  fun side => (network side).wrapped

end Images

variable {M τ : Type} {config : ConnectionConfig M τ} {source target node : Node ℤ config}

namespace Node

/-- A packet that takes messages is less than half a turn after the last one that
the channel remembers. -/
def SendsInTime (node : Node ℤ config) : Prop :=
  node.connection.reliable.hasMessagesToSend = true →
    node.endpoint.sequence + 1 < node.connection.reliable.sentPackets.sequence + 32768

/-- A packet arrives less than half a turn from the others, and so do its messages;
what it acknowledges is of the last turn. -/
def ArrivesInTime (node : Node ℤ config) (packet : Packet ℤ M) : Prop :=
  Near node.endpoint.receivedPackets packet.header.sequence ∧
    (∀ pair ∈ packet.messages,
      node.connection.reliable.receiveMessageId + config.reliable.messageReceiveQueueSize ≤
        pair.1 + 32768) ∧
    ∀ i < 32, packet.header.ackBits.testBit i = true →
      node.endpoint.sequence ≤ packet.header.ack - i + 65536

/-- What the endpoint has to report is of the last turn. -/
def ReportsInTime (node : Node ℤ config) : Prop :=
  ∀ ack ∈ node.endpoint.acks,
    node.connection.reliable.sentPackets.WithinTurn ack ∧
      ∀ messageIds ∈ node.connection.reliable.sentPackets.find ack, ∀ messageId ∈ messageIds,
        node.connection.reliable.sendMessageId ≤ messageId + 65536

instance (node : Node ℤ config) : Decidable node.SendsInTime :=
  inferInstanceAs (Decidable (_ → _))

instance (node : Node ℤ config) (packet : Packet ℤ M) : Decidable (node.ArrivesInTime packet) :=
  have : Decidable (∀ i < 32, packet.header.ackBits.testBit i = true →
      node.endpoint.sequence ≤ packet.header.ack - i + 65536) := Nat.decidableBallLT 32 _
  inferInstanceAs (Decidable (_ ∧ _ ∧ _))

instance (node : Node ℤ config) : Decidable node.ReportsInTime :=
  decidableForallMemList _

end Node

namespace Network

/-- What has to be timely in a step. -/
def Timely (network : Network ℤ config) : Action M τ → Prop
  | .sendPacket side => (network side).SendsInTime
  | .receivePacket side position =>
      ∀ packet ∈ (network side.other).transmitted[position]?, (network side).ArrivesInTime packet
  | .receiveFragment side position =>
      ∀ packet ∈ (network side.other).transmitted[position]?,
        Near (network side).endpoint.receivedPackets packet.header.sequence
  | .advanceTime side _ => (network side).ReportsInTime
  | _ => True

instance (network : Network ℤ config) : (action : Action M τ) → Decidable (network.Timely action)
  | .sendMessage _ _ | .receiveMessage _ | .sendUnreliable _ _ | .receiveUnreliable _ =>
      isTrue trivial
  | .sendPacket side => inferInstanceAs (Decidable (network side).SendsInTime)
  | .receivePacket _ _ => decidableForallMemOption _
  | .receiveFragment _ _ => decidableForallMemOption _
  | .advanceTime side _ => inferInstanceAs (Decidable (network side).ReportsInTime)

end Network

/-- What the source has accepted is no further on than both windows reach. -/
theorem Direction.length_le (h : Direction source target) :
    (source.sent.length : ℤ) ≤ target.connection.reliable.receiveMessageId +
      config.reliable.messageReceiveQueueSize + config.reliable.messageSendQueueSize := by
  have hlength := h.sending.length_le
  have hle := h.sending.oldest_le
  have hid := h.receiving.receiveMessageId
  have hsequence := h.receiving.sequence_le
  by_contra hlong
  have hnone : source.connection.reliable.messageSendQueue.find
      (target.connection.reliable.receiveMessageId +
        config.reliable.messageReceiveQueueSize) = none := by
    by_contra hsome
    obtain ⟨found, hfind⟩ := Option.ne_none_iff_exists'.mp hsome
    have hge := (h.sending.entry hfind).1
    omega
  obtain hbefore | hwaits := h.kept _ (by omega) (by omega) hnone
  · omega
  · obtain ⟨found, hfind⟩ := Option.ne_none_iff_exists'.mp hwaits
    have hin := (h.receiving.windowed.inWindow hfind).1
    omega

namespace Connection

variable {connection : Connection ℤ config} {received sent : List M}

@[simp]
theorem errorLevel_wrapped : connection.wrapped.errorLevel = connection.errorLevel := rfl

@[simp]
theorem reliable_wrapped : connection.wrapped.reliable = connection.reliable.wrapped := rfl

@[simp]
theorem unreliable_wrapped : connection.wrapped.unreliable = connection.unreliable := rfl

theorem generatePacket_wrapped (h : connection.reliable.Sending sent)
    (hwindowed : connection.reliable.sentPackets.Windowed) (hvalid : config.Valid)
    {packetSequence : ℤ}
    (hlate : connection.reliable.sentPackets.sequence ≤ packetSequence)
    (hearly : connection.reliable.hasMessagesToSend = true →
      packetSequence + 1 < connection.reliable.sentPackets.sequence + 32768) :
    connection.wrapped.generatePacket (wrap packetSequence) =
      Prod.map wrapped (List.map ChannelPacketData.wrapped)
        (connection.generatePacket packetSequence) := by
  have hdata := ReliableOrderedChannel.getPacketData_wrapped h hwindowed hvalid.reliable hlate
    hearly (config.maxPacketSize * 8 - conservativePacketHeaderBits)
  rw [generatePacket, generatePacket, reliable_wrapped, hdata]
  obtain ⟨reliable, reliableData⟩ := connection.reliable.getPacketData packetSequence
    (config.maxPacketSize * 8 - conservativePacketHeaderBits)
  cases reliableData with
  | none =>
      simp only [Prod.map_apply, Option.map_none, unreliable_wrapped]
      rcases connection.unreliable.getPacketData _ with ⟨unreliable, _ | data⟩ <;> rfl
  | some reliableData =>
      obtain ⟨messages, usedBits⟩ := reliableData
      simp only [Prod.map_apply, Option.map_some, id_eq, unreliable_wrapped]
      rcases connection.unreliable.getPacketData _ with ⟨unreliable, _ | data⟩ <;> rfl

theorem processEntries_wrapped (hvalid : config.Valid) (entries : List (ChannelPacketData ℤ M))
    (h : connection.reliable.Receiving received sent)
    (hmessages : ∀ pair ∈ entries.flatMap ChannelPacketData.messages,
      0 ≤ pair.1 ∧ sent[pair.1.toNat]? = some pair.2)
    (hlate : ∀ pair ∈ entries.flatMap ChannelPacketData.messages,
      connection.reliable.receiveMessageId + config.reliable.messageReceiveQueueSize ≤
        pair.1 + 32768)
    (hearly : ∀ pair ∈ entries.flatMap ChannelPacketData.messages,
      pair.1 < connection.reliable.receiveMessageId + 32768) :
    processEntries (entries.map ChannelPacketData.wrapped) connection.wrapped =
      Prod.map id wrapped (processEntries entries connection) := by
  have hpos : 0 < config.reliable.messageReceiveQueueSize :=
    Nat.pos_of_dvd_of_pos hvalid.reliable.messageReceiveQueueSize_dvd (by decide)
  induction entries generalizing connection with
  | nil => rfl
  | cons entry entries ih =>
      have hfirst : ∀ pair ∈ entry.messages, pair ∈
          (entry :: entries).flatMap ChannelPacketData.messages :=
        fun pair hmem => List.mem_append_left _ hmem
      have hrest : ∀ pair ∈ entries.flatMap ChannelPacketData.messages, pair ∈
          (entry :: entries).flatMap ChannelPacketData.messages :=
        fun pair hmem => List.mem_append_right _ hmem
      cases entry with
      | reliable messages =>
          have hprocess : connection.reliable.wrapped.processPacketData
              (messages.map (Prod.map wrap id)) =
                (connection.reliable.processPacketData messages).wrapped :=
            ReliableOrderedChannel.processPacketData_wrapped h hvalid.reliable
              (fun pair hmem => hmessages pair (hfirst pair hmem))
              (fun pair hmem => hlate pair (hfirst pair hmem))
              (fun pair hmem => hearly pair (hfirst pair hmem))
          obtain ⟨hreceiving, _⟩ := h.processPacketData hpos
            fun pair hmem => hmessages pair (hfirst pair hmem)
          obtain ⟨level, queue, hframe⟩ :=
            ReliableOrderedChannel.processPacketData_eq connection.reliable messages
          let after : Connection ℤ config :=
            { connection with reliable := connection.reliable.processPacketData messages }
          have hafter : after.reliable.Receiving received sent := hreceiving
          have hid : after.reliable.receiveMessageId = connection.reliable.receiveMessageId := by
            simp only [after, hframe]
          have hlater := ih hafter
            (fun pair hmem => hmessages pair (hrest pair hmem))
            (fun pair hmem => hid ▸ hlate pair (hrest pair hmem))
            (fun pair hmem => hid ▸ hearly pair (hrest pair hmem))
          rw [List.map_cons, ChannelPacketData.wrapped, processEntries, processEntries]
          simp only [reliable_wrapped, hprocess, ReliableOrderedChannel.errorLevel_wrapped]
          split
          · rfl
          · exact hlater
      | unreliable messages =>
          let after : Connection ℤ config :=
            { connection with unreliable := connection.unreliable.processPacketData messages }
          have hafter : after.reliable.Receiving received sent := h
          have hlater := ih hafter
            (fun pair hmem => hmessages pair (hrest pair hmem))
            (fun pair hmem => hlate pair (hrest pair hmem))
            (fun pair hmem => hearly pair (hrest pair hmem))
          rw [List.map_cons, ChannelPacketData.wrapped, processEntries, processEntries]
          change (if after.wrapped.unreliable.errorLevel ≠ .none then (false, after.wrapped)
              else processEntries (entries.map ChannelPacketData.wrapped) after.wrapped) =
            Prod.map id wrapped
              (if after.unreliable.errorLevel ≠ .none then (false, after)
                else processEntries entries after)
          rw [unreliable_wrapped, hlater]
          split <;> rfl

theorem advanceTime_wrapped (time : τ) :
    connection.wrapped.advanceTime time = (connection.advanceTime time).wrapped := by
  by_cases hreliable : connection.reliable.errorLevel = .none <;>
    by_cases hunreliable : connection.unreliable.errorLevel = .none <;>
      simp [advanceTime, wrapped, ReliableOrderedChannel.wrapped, hreliable, hunreliable]

end Connection

namespace ReliableOrderedChannel

variable {config : ChannelConfig M τ} {channel : ReliableOrderedChannel ℤ config} {sent : List M}

theorem processAcks_wrapped (h : channel.Sending sent) (hwindowed : channel.sentPackets.Windowed)
    (hvalid : config.Valid) {acks : List ℤ}
    (hacks : ∀ ack ∈ acks, channel.sentPackets.WithinTurn ack)
    (hnear : ∀ ack ∈ acks, ∀ messageIds, channel.sentPackets.find ack = some messageIds →
      ∀ messageId ∈ messageIds, (sent.length : ℤ) ≤ messageId + 65536 ∧ messageId < sent.length) :
    (acks.map wrap).foldl processAck channel.wrapped = (acks.foldl processAck channel).wrapped := by
  induction acks generalizing channel with
  | nil => rfl
  | cons ack acks ih =>
      have hack := processAck_wrapped h hwindowed hvalid (hacks ack List.mem_cons_self)
        (hnear ack List.mem_cons_self)
      have hsending : (channel.processAck ack).Sending sent := (h.processAcks [ack]).1
      obtain ⟨_, _, hframe⟩ := channel.processAck_eq ack
      have hpackets : (channel.processAck ack).sentPackets = channel.sentPackets := by rw [hframe]
      rw [List.map_cons, List.foldl_cons, List.foldl_cons, hack]
      rw [← hpackets] at hwindowed hacks hnear
      exact ih hsending hwindowed (fun other hmem => hacks other (List.mem_cons_of_mem _ hmem))
        fun other hmem => hnear other (List.mem_cons_of_mem _ hmem)

end ReliableOrderedChannel

namespace Node

@[simp]
theorem endpoint_wrapped : node.wrapped.endpoint = node.endpoint.wrapped := rfl

@[simp]
theorem connection_wrapped : node.wrapped.connection = node.connection.wrapped := rfl

theorem sendMessage_wrapped (h : Direction node target) (hvalid : config.Valid) (message : M) :
    node.wrapped.sendMessage message = (node.sendMessage message).wrapped := by
  have hsend := ReliableOrderedChannel.sendMessage_wrapped h.sending hvalid.reliable message
  have hcan : node.connection.reliable.wrapped.canSendMessage =
      node.connection.reliable.canSendMessage :=
    ReliableOrderedChannel.canSendMessage_wrapped hvalid.reliable
  simp [sendMessage, wrapped, Connection.wrapped, hsend, hcan]

theorem receiveMessage_wrapped (h : Direction source node) (hvalid : config.Valid) :
    node.wrapped.receiveMessage = node.receiveMessage.wrapped := by
  have hreceive := ReliableOrderedChannel.receiveMessage_wrapped h.receiving hvalid.reliable
  rw [receiveMessage, receiveMessage, connection_wrapped, Connection.reliable_wrapped, hreceive]
  cases node.connection.reliable.receiveMessage with
  | none => rfl
  | some result => rfl

theorem sendUnreliable_wrapped (message : M) :
    node.wrapped.sendUnreliable message = (node.sendUnreliable message).wrapped := rfl

theorem receiveUnreliable_wrapped :
    node.wrapped.receiveUnreliable = node.receiveUnreliable.wrapped := by
  rw [receiveUnreliable, receiveUnreliable, connection_wrapped, Connection.unreliable_wrapped]
  cases node.connection.unreliable.receiveMessage with
  | none => rfl
  | some result => rfl

theorem sendPacket_wrapped (h : Direction node target) (hother : Direction target node)
    (hvalid : config.Valid) (htimely : node.SendsInTime) :
    node.wrapped.sendPacket = node.sendPacket.wrapped := by
  have hbehind := h.recordedBehind
  rw [← h.counting.sequence] at hbehind
  have hpacket := Connection.generatePacket_wrapped h.sending h.recordedWindowed hvalid hbehind
    htimely
  have hheader := Endpoint.sendPacket_wrapped h.counting hother.collecting hvalid.endpoint
  have hnumber : node.endpoint.wrapped.sequence = wrap node.endpoint.sequence := rfl
  rw [sendPacket, sendPacket, connection_wrapped, Connection.errorLevel_wrapped, endpoint_wrapped,
    hnumber, hpacket, hheader]
  split
  · rfl
  · simp [wrapped, Packet.wrapped]

theorem receivePacket_wrapped (h : Direction source node) (hother : Direction node source)
    (hvalid : config.Valid) {position : ℕ} {packet : Packet ℤ M}
    (hpacket : source.transmitted[position]? = some packet) (htimely : node.ArrivesInTime packet) :
    node.wrapped.receivePacket position packet.wrapped =
      (node.receivePacket position packet).wrapped := by
  have hmem := List.mem_of_getElem? hpacket
  have hsmall := hvalid.endpoint.sentPacketsBufferSize_le
  obtain ⟨hnear, hmessages, hturn⟩ := htimely
  have hacks : ∀ i < 32, packet.header.ackBits.testBit i = true →
      node.endpoint.sentPackets.WithinTurn (packet.header.ack - i) := by
    intro i hi hbit
    obtain ⟨hge, _, other, hsent, _⟩ := hother.acknowledged packet hmem ⟨i, hi, hbit, rfl⟩
    have hlt := (List.getElem?_eq_some_iff.mp hsent).1
    have hlate := hturn i hi hbit
    have hsequence := hother.counting.sequence
    have hbuffer := hother.counting.sentSequence
    constructor <;> omega
  have hearly : ∀ pair ∈ packet.messages,
      pair.1 < node.connection.reliable.receiveMessageId + 32768 := by
    intro pair hpair
    obtain ⟨hge, hsent⟩ := h.message packet hmem pair hpair
    have hlt := (List.getElem?_eq_some_iff.mp hsent).1
    have hlength := h.length_le
    have hqueue := hvalid.reliable.messageSendQueueSize_le
    have hwindow := hvalid.reliable.messageReceiveQueueSize_le
    omega
  have hprocess : node.connection.wrapped.processPacket packet.wrapped.channelEntry =
      Prod.map id Connection.wrapped (node.connection.processPacket packet.channelEntry) := by
    rw [Connection.processPacket, Connection.processPacket, Connection.errorLevel_wrapped]
    split
    · rfl
    · exact Connection.processEntries_wrapped hvalid packet.channelEntry h.receiving
        (h.message packet hmem) hmessages hearly
  have hreceive : node.endpoint.wrapped.receivePacket
      (fun connection => connection.processPacket packet.wrapped.channelEntry)
        node.connection.wrapped packet.header.wrapped =
      Prod.map Endpoint.wrapped Connection.wrapped
        (node.endpoint.receivePacket
          (fun connection => connection.processPacket packet.channelEntry)
          node.connection packet.header) :=
    Endpoint.receivePacket_wrapped hvalid.endpoint h.collecting.windowed
      hother.counting.windowed hnear hacks hprocess
  have htest : testInsert node.endpoint.wrapped.receivedPackets packet.wrapped.header.sequence =
      testInsert node.endpoint.receivedPackets packet.header.sequence :=
    testInsert_wrapped (Nat.pos_of_dvd_of_pos hvalid.endpoint.receivedPacketsBufferSize_dvd
      (by decide)) hnear
  have hheader : packet.wrapped.header = packet.header.wrapped := rfl
  rw [receivePacket, receivePacket, connection_wrapped, Connection.errorLevel_wrapped,
    endpoint_wrapped, htest, hheader]
  split
  · rfl
  · simp only [hreceive, hprocess, Prod.map_fst, Prod.map_snd, id_eq]
    rfl

theorem receiveFragment_wrapped (h : Direction source node) (hvalid : config.Valid)
    {packet : Packet ℤ M}
    (hnear : Near node.endpoint.receivedPackets packet.header.sequence) :
    node.wrapped.receiveFragment packet.wrapped = (node.receiveFragment packet).wrapped := by
  have hreceive := Endpoint.receiveFragment_wrapped hvalid.endpoint h.collecting.windowed hnear
  have hheader : packet.wrapped.header.sequence = wrap packet.header.sequence := rfl
  rw [receiveFragment, receiveFragment, connection_wrapped, Connection.errorLevel_wrapped,
    endpoint_wrapped, hheader, hreceive]
  split <;> rfl

theorem advanceTime_wrapped (h : Direction node target) (hvalid : config.Valid) (time : τ)
    (htimely : node.ReportsInTime) :
    node.wrapped.advanceTime time = (node.advanceTime time).wrapped := by
  have hid := h.sending.sendMessageId
  have hnear : ∀ ack ∈ node.endpoint.acks, ∀ messageIds,
      node.connection.reliable.sentPackets.find ack = some messageIds →
      ∀ messageId ∈ messageIds,
        (node.sent.length : ℤ) ≤ messageId + 65536 ∧ messageId < node.sent.length := by
    intro ack hack messageIds hfind messageId hmem
    have hlate := (htimely ack hack).2 messageIds hfind messageId hmem
    obtain ⟨_, packet, hpacket, hids⟩ := h.recorded hfind
    rw [← hids] at hmem
    obtain ⟨pair, hpair, rfl⟩ := List.mem_map.mp hmem
    obtain ⟨hge, hsent⟩ := h.message packet (List.mem_of_getElem? hpacket) pair hpair
    have hlt := (List.getElem?_eq_some_iff.mp hsent).1
    exact ⟨by omega, by omega⟩
  obtain ⟨level, hframe⟩ := node.connection.advanceTime_eq time
  let channel : ReliableOrderedChannel ℤ config.reliable := { node.connection.reliable with time }
  have hchannel : (node.connection.advanceTime time).reliable = channel := by
    rw [hframe]
  have hsending : channel.Sending node.sent :=
    ⟨h.sending.sendMessageId, h.sending.sequence, h.sending.windowed, h.sending.oldest_nonneg,
      h.sending.oldest_le, h.sending.oldest, h.sending.entry⟩
  have hprocess := ReliableOrderedChannel.processAcks_wrapped hsending h.recordedWindowed
    hvalid.reliable (fun ack hack => (htimely ack hack).1) hnear
  have hacks :
      (node.connection.advanceTime time).wrapped.processAcks (node.endpoint.acks.map wrap) =
      ((node.connection.advanceTime time).processAcks node.endpoint.acks).wrapped := by
    rw [Connection.processAcks, Connection.reliable_wrapped, hchannel, hprocess,
      Connection.processAcks, hchannel]
    rfl
  rw [advanceTime, advanceTime, connection_wrapped, Connection.errorLevel_wrapped,
    Connection.advanceTime_wrapped]
  split
  · rfl
  by_cases hlevel : (node.connection.advanceTime time).errorLevel = .none
  · have hreported : node.wrapped.endpoint.acks = node.endpoint.acks.map wrap := rfl
    simp only [Connection.errorLevel_wrapped, hlevel, ne_eq, not_true, if_false, hreported, hacks]
    simp [wrapped, Endpoint.clearAcks, Endpoint.wrapped]
  · simp only [Connection.errorLevel_wrapped, ne_eq, hlevel, not_false_iff, if_true]
    rfl

end Node

namespace Network

variable {network : Network ℤ config}

theorem wrapped_create (time : τ) : (create time : Network ℤ config).wrapped = create time := rfl

theorem perform_wrapped (h : network.Consistent) (hvalid : config.Valid) {action : Action M τ}
    (htimely : network.Timely action) :
    network.wrapped.perform action = (network.perform action).wrapped := by
  have hsource : ∀ side, Direction (network side) (network side.other) := h
  have htarget : ∀ side, Direction (network side.other) (network side) := fun side => by
    simpa using h side.other
  have htransmitted : ∀ side position, (network.wrapped side).transmitted[position]? =
      (network side).transmitted[position]?.map Packet.wrapped :=
    fun side position => List.getElem?_map
  cases action with
  | sendMessage side message => exact Node.sendMessage_wrapped (hsource side) hvalid message
  | receiveMessage side => exact Node.receiveMessage_wrapped (htarget side) hvalid
  | sendUnreliable side message => exact Node.sendUnreliable_wrapped message
  | receiveUnreliable side => exact Node.receiveUnreliable_wrapped
  | sendPacket side =>
      exact Node.sendPacket_wrapped (hsource side) (htarget side) hvalid htimely
  | receivePacket side position =>
      simp only [perform, htransmitted]
      cases hpacket : (network side.other).transmitted[position]? with
      | none => rfl
      | some packet =>
          exact Node.receivePacket_wrapped (htarget side) (hsource side) hvalid hpacket
            (htimely packet hpacket)
  | receiveFragment side position =>
      simp only [perform, htransmitted]
      cases hpacket : (network side.other).transmitted[position]? with
      | none => rfl
      | some packet =>
          exact Node.receiveFragment_wrapped (htarget side) hvalid (htimely packet hpacket)
  | advanceTime side time => exact Node.advanceTime_wrapped (hsource side) hvalid time htimely

/-- A timely step of the program is the image of the step with integers. -/
theorem next_wrapped (h : network.Consistent) (hvalid : config.Valid) {action : Action M τ}
    (htimely : network.Timely action) :
    network.wrapped.next action = (network.next action).wrapped := by
  funext side
  rw [next, perform_wrapped h hvalid htimely, wrapped, next]
  by_cases heq : side = action.side
  · subst heq
    rw [Function.update_self, Function.update_self]
  · rw [Function.update_of_ne heq, Function.update_of_ne heq, wrapped]

/-- Both machines run side by side. -/
theorem run_wrapped (h : network.Consistent) (hvalid : config.Valid) {actions : List (Action M τ)}
    (htimely : StepsMeet step Timely network actions) :
    ∃ after, run step network actions = .ok after ∧ after.Consistent ∧
      run step network.wrapped actions = .ok after.wrapped := by
  have hpreserved (before : Network ℤ config) (action : Action M τ) (hbefore : before.Consistent)
      (_ : before.Timely action) : (before.next action).Consistent := hbefore.next hvalid action
  have himage (before : Network ℤ config) (action : Action M τ) (hbefore : before.Consistent)
      (htimely : before.Timely action) :
      step before.wrapped action = .ok (before.next action).wrapped :=
    congrArg Except.ok (next_wrapped hbefore hvalid htimely)
  obtain ⟨hafter, hwrapped⟩ := run_image hpreserved himage h htimely
  exact ⟨actions.foldl next network, run_eq_foldl next network actions, hafter, hwrapped⟩

/-- What is asked of the program along a run is asked of the images. -/
theorem stepsMeet_of_wrapped (h : network.Consistent) (hvalid : config.Valid)
    {actions : List (Action M τ)} (htimely : StepsMeet step Timely network actions)
    {guard : Network UInt16 config → Action M τ → Prop}
    (hguard : StepsMeet step guard network.wrapped actions) :
    StepsMeet step (fun network action => guard network.wrapped action) network actions := by
  induction actions generalizing network with
  | nil => trivial
  | cons action actions ih =>
      obtain ⟨hfirst, hrest⟩ := htimely
      obtain ⟨hguardFirst, hguardRest⟩ := hguard
      refine ⟨hguardFirst, fun next hnext => ?_⟩
      obtain rfl := Except.ok.inj hnext
      refine ih (h.next hvalid action) (hrest _ rfl) (hguardRest _ ?_)
      rw [step, next_wrapped h hvalid hfirst]

end Network

end LibBench.Transport
