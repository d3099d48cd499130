/-
# The reliable channel delivers: packets in

A packet that arrives, whole or in fragments, keeps what holds of the side it
reaches, as a target because of the messages in it and as a source because of the
acknowledgements in its header. So does time that goes by, when the channel takes
note of the acknowledgements.
-/

import LibBench.Transport.Steps

namespace LibBench.Transport

open LibBench.Math SequenceNumber

variable {M τ : Type} {config : ConnectionConfig M τ} {source target node after : Node ℤ config}

namespace Endpoint

variable {config : EndpointConfig} {endpoint : Endpoint ℤ config} {transmitted : ℕ}
  {reported : List ℤ} {marked : ℤ → Prop}

/-- A packet that is marked can go into the buffer. -/
theorem Collecting.bufferInsert (h : endpoint.Collecting marked)
    (hsize : 0 < config.receivedPacketsBufferSize) {sequence : ℤ} (hnonneg : 0 ≤ sequence)
    (hmarked : marked sequence)
    {receivedPackets : SequenceRing ℤ Unit config.receivedPacketsBufferSize}
    (hinsert : Transport.bufferInsert endpoint.receivedPackets sequence () = some receivedPackets) :
    Collecting { endpoint with receivedPackets } marked ∧
      receivedPackets.sequence = max endpoint.receivedPackets.sequence (sequence + 1) := by
  rw [Transport.bufferInsert, SequenceRing.insertUnlessStale_eq_insert] at hinsert
  have hfresh :
      endpoint.receivedPackets.sequence ≤ sequence + config.receivedPacketsBufferSize := by
    by_contra hstale
    rw [SequenceRing.insert_eq, if_pos (not_le.mp hstale)] at hinsert
    cases hinsert
  obtain ⟨inserted, hinserted, hwindowed, hsequence, hfind⟩ :=
    h.windowed.exists_insert hsize 65536 () hfresh
  obtain rfl := Option.some_inj.mp (hinserted.symm.trans hinsert)
  refine ⟨⟨hwindowed, ?_, fun other hsome => ?_⟩, hsequence⟩
  · change 0 ≤ inserted.sequence
    rw [hsequence]
    omega
  · change inserted.find other ≠ none at hsome
    rw [hfind] at hsome
    split at hsome
    · next heq => rwa [heq]
    · split at hsome
      · exact h.marked hsome
      · exact absurd rfl hsome

/-- A buffer that moves on forgets packets, and no more. -/
theorem Collecting.receiveFragment (h : endpoint.Collecting marked)
    (hsize : 0 < config.receivedPacketsBufferSize) (sequence : ℤ) :
    (endpoint.receiveFragment sequence).Collecting marked where
  windowed := h.windowed.advance hsize sequence 65536
  nonneg := by
    have hnonneg := h.nonneg
    change 0 ≤ (endpoint.receivedPackets.advance sequence 65536).sequence
    rw [SequenceRing.sequence_advance]
    omega
  marked other hsome := by
    change (endpoint.receivedPackets.advance sequence 65536).find other ≠ none at hsome
    rw [h.windowed.find_advance hsize] at hsome
    split at hsome
    · exact h.marked hsome
    · exact absurd rfl hsome

theorem Collecting.of_receivedPackets (h : endpoint.Collecting marked)
    {after : Endpoint ℤ config} (heq : after.receivedPackets = endpoint.receivedPackets) :
    after.Collecting marked where
  windowed := by
    rw [heq]
    exact h.windowed
  nonneg := by
    rw [heq]
    exact h.nonneg
  marked := by
    rw [heq]
    exact h.marked

/-- What an endpoint has received does not matter to what it has sent. -/
theorem Counting.of_receivedPackets (h : endpoint.Counting transmitted reported)
    (receivedPackets : SequenceRing ℤ Unit config.receivedPacketsBufferSize) :
    Counting { endpoint with receivedPackets } transmitted reported :=
  ⟨h.sequence, h.sentSequence, h.windowed, h.nonneg, h.nodup, h.bounds, h.acked⟩

end Endpoint

/-- A packet is passed over, or fails, or is processed. -/
theorem Node.receivePacket_cases {ν : Type} [SequenceNumber ν] [DecidableEq ν]
    (node : Node ν config) (position : ℕ) (packet : Packet ν M) :
    node.receivePacket position packet = node ∨
      ∃ success connection,
        node.connection.processPacket packet.channelEntry = (success, connection) ∧
        node.connection.errorLevel = .none ∧
        testInsert node.endpoint.receivedPackets packet.header.sequence = true ∧
        (success = false ∧ node.receivePacket position packet = { node with connection } ∨
          success = true ∧ ∃ receivedPackets,
            bufferInsert node.endpoint.receivedPackets packet.header.sequence () =
              some receivedPackets ∧
            node.receivePacket position packet =
              { node with
                endpoint :=
                  ({ node.endpoint with receivedPackets }).processAckBits packet.header
                connection
                processed := node.processed ++ [position] }) := by
  rw [Node.receivePacket]
  split
  · exact .inl rfl
  next hlevel =>
    by_cases htest : testInsert node.endpoint.receivedPackets packet.header.sequence = true
    · right
      obtain ⟨success, connection, hresult⟩ : ∃ success connection,
          node.connection.processPacket packet.channelEntry = (success, connection) :=
        ⟨_, _, rfl⟩
      refine ⟨success, connection, hresult, not_not.mp hlevel, htest, ?_⟩
      cases success with
      | false => exact .inl ⟨rfl, by simp [Endpoint.receivePacket, htest, hresult]⟩
      | true =>
          have hfresh : node.endpoint.receivedPackets.isStale packet.header.sequence ≠ true := by
            simpa [testInsert] using htest
          refine .inr ⟨rfl, _, if_neg hfresh, ?_⟩
          simp [Endpoint.receivePacket, htest, hresult, bufferInsert,
            SequenceRing.insertUnlessStale, hfresh]
    · left
      simp [Endpoint.receivePacket, htest]

/-- What a side has received and processed only grows. -/
theorem Direction.of_held (h : Direction source target)
    (hreceiving : after.connection.reliable.Receiving after.received source.sent)
    (hheld : ∀ messageId, target.connection.reliable.Held messageId →
      after.connection.reliable.Held messageId)
    (hprocessed : target.processed ⊆ after.processed)
    (htransmitted : after.transmitted = target.transmitted)
    (hcollecting : after.endpoint.Collecting (Confirmed source after))
    (hbehind : after.endpoint.receivedPackets.sequence ≤ source.transmitted.length) :
    Direction source after :=
  { h with
    receiving := hreceiving
    kept := fun messageId hge hlt hnone => hheld _ (h.kept messageId hge hlt hnone)
    collecting := hcollecting
    behind := hbehind
    reported := fun sequence hmem => (h.reported sequence hmem).mono hheld hprocessed
    acknowledged := fun packet hmem _ hack =>
      (h.acknowledged packet (htransmitted ▸ hmem) hack).mono hheld hprocessed }

theorem Direction.receivePacket (h : Direction source target) (hvalid : config.Valid)
    {position : ℕ} {packet : Packet ℤ M} (hpacket : source.transmitted[position]? = some packet) :
    Direction source (target.receivePacket position packet) := by
  have hqueue : 0 < config.reliable.messageReceiveQueueSize :=
    Nat.pos_of_dvd_of_pos hvalid.reliable.messageReceiveQueueSize_dvd (by decide)
  have hbuffer : 0 < config.endpoint.receivedPacketsBufferSize :=
    Nat.pos_of_dvd_of_pos hvalid.endpoint.receivedPacketsBufferSize_dvd (by decide)
  have hposition : position < source.transmitted.length := (List.getElem?_eq_some_iff.mp hpacket).1
  have hsequence : packet.header.sequence = position := h.sequence hpacket
  obtain heq | ⟨success, connection, hprocess, hlevel, htest, houtcome⟩ :=
    target.receivePacket_cases position packet
  · rw [heq]
    exact h
  rw [Connection.processPacket, if_neg (not_not.mpr hlevel)] at hprocess
  obtain ⟨hreceiving, hheld, hall, _⟩ :=
    Connection.processEntries_spec hqueue packet.channelEntry target.connection h.receiving
      (h.message packet (List.mem_of_getElem? hpacket)) hprocess
  obtain ⟨rfl, heq⟩ | ⟨rfl, receivedPackets, hinsert, heq⟩ := houtcome
  · rw [heq]
    exact h.of_held hreceiving hheld (List.Subset.refl _) rfl
      (h.collecting.mono fun _ hbefore => hbefore.mono hheld (List.Subset.refl _)) h.behind
  · have hprocessed : target.processed ⊆ target.processed ++ [position] :=
      List.subset_append_left _ _
    have hconfirmed : ∀ sequence, Confirmed source target sequence →
        Confirmed source (target.receivePacket position packet) sequence := by
      intro sequence hbefore
      rw [heq]
      exact hbefore.mono hheld hprocessed
    have hnew : Confirmed source (target.receivePacket position packet) position := by
      rw [heq]
      exact ⟨by omega, by simp, packet, hpacket, hall rfl⟩
    rw [hsequence] at hinsert
    obtain ⟨hcollecting, hafter⟩ :=
      (h.collecting.mono hconfirmed).bufferInsert hbuffer (by omega) hnew hinsert
    have hreceived : (Endpoint.processAckBits { target.endpoint with receivedPackets }
        packet.header).receivedPackets = receivedPackets :=
      Endpoint.receivedPackets_processAckBits packet.header
    rw [heq] at hcollecting ⊢
    refine h.of_held hreceiving hheld hprocessed rfl
      (hcollecting.of_receivedPackets hreceived) ?_
    have hbehind := h.behind
    change (Endpoint.processAckBits _ _).receivedPackets.sequence ≤ _
    rw [hreceived, hafter]
    omega

/-- The acknowledgements in the header of a packet are reported. -/
theorem Direction.receivePacket_source (h : Direction source target)
    (hother : Direction target source) (hvalid : config.Valid) {position : ℕ}
    {packet : Packet ℤ M} (hpacket : target.transmitted[position]? = some packet) :
    Direction (source.receivePacket position packet) target := by
  have hqueue : 0 < config.reliable.messageReceiveQueueSize :=
    Nat.pos_of_dvd_of_pos hvalid.reliable.messageReceiveQueueSize_dvd (by decide)
  have hmem := List.mem_of_getElem? hpacket
  obtain heq | ⟨success, connection, hprocess, hlevel, _, houtcome⟩ :=
    source.receivePacket_cases position packet
  · rw [heq]
    exact h
  rw [Connection.processPacket, if_neg (not_not.mpr hlevel)] at hprocess
  obtain ⟨_, _, _, level, queue, unreliable, rfl⟩ :=
    Connection.processEntries_spec hqueue packet.channelEntry source.connection hother.receiving
      (hother.message packet hmem) hprocess
  obtain ⟨rfl, heq⟩ | ⟨rfl, receivedPackets, _, heq⟩ := houtcome
  · rw [heq]
    exact h.of_sameSource (by constructor <;> rfl)
  · rw [heq]
    obtain ⟨new, hacks, hnew, hcounting⟩ :=
      (h.counting.of_receivedPackets receivedPackets).processAckBits packet.header
    rw [List.append_assoc, ← hacks] at hcounting
    have hsame : SameSource source
        { source with
          connection := { source.connection with
            reliable := { source.connection.reliable with
              errorLevel := level, messageReceiveQueue := queue }
            unreliable }
          processed := source.processed ++ [position] } := by
      constructor <;> rfl
    exact
      { h.of_sameSource hsame with
        counting := hcounting
        reported := fun sequence hsequence => by
          rw [hacks, ← List.append_assoc] at hsequence
          obtain hbefore | hlater := List.mem_append.mp hsequence
          · exact h.reported sequence hbefore
          · exact h.acknowledged packet hmem (hnew sequence hlater) }

theorem sameSource_receiveFragment (packet : Packet ℤ M) :
    SameSource node (node.receiveFragment packet) := by
  rw [Node.receiveFragment]
  split <;> constructor <;> rfl

theorem Direction.receiveFragment (h : Direction source target) (hvalid : config.Valid)
    {position : ℕ} {packet : Packet ℤ M} (hpacket : source.transmitted[position]? = some packet) :
    Direction source (target.receiveFragment packet) := by
  have hbuffer : 0 < config.endpoint.receivedPacketsBufferSize :=
    Nat.pos_of_dvd_of_pos hvalid.endpoint.receivedPacketsBufferSize_dvd (by decide)
  have hposition : position < source.transmitted.length := (List.getElem?_eq_some_iff.mp hpacket).1
  rw [Node.receiveFragment]
  split
  · exact h
  · refine h.of_held h.receiving (fun _ hheld => hheld) (List.Subset.refl _) rfl
      (h.collecting.receiveFragment hbuffer packet.header.sequence) ?_
    have hbehind := h.behind
    change (target.endpoint.receivedPackets.advance _ _).sequence ≤ _
    rw [SequenceRing.sequence_advance, h.sequence hpacket]
    omega

namespace ReliableOrderedChannel

variable {config : ChannelConfig M τ} {channel : ReliableOrderedChannel ℤ config} {sent : List M}

/-- A message leaves the send queue with an acknowledged packet that it was in. -/
theorem Sending.processAcks (h : channel.Sending sent) (acks : List ℤ) :
    (acks.foldl processAck channel).Sending sent ∧
      ∀ messageId, (acks.foldl processAck channel).messageSendQueue.find messageId = none →
        channel.messageSendQueue.find messageId = none ∨
          ∃ ack ∈ acks, ∃ messageIds, channel.sentPackets.find ack = some messageIds ∧
            messageId ∈ messageIds := by
  induction acks generalizing channel with
  | nil => exact ⟨h, fun _ hnone => .inl hnone⟩
  | cons ack acks ih =>
      have hfirst : (channel.processAck ack).Sending sent ∧
          ∀ messageId, (channel.processAck ack).messageSendQueue.find messageId = none →
            channel.messageSendQueue.find messageId = none ∨
              ∃ messageIds, channel.sentPackets.find ack = some messageIds ∧
                messageId ∈ messageIds := by
        rw [processAck]
        split
        · exact ⟨h, fun _ hnone => .inl hnone⟩
        · next messageIds hfind =>
            obtain ⟨hsending, hgone⟩ := h.ackMessages messageIds
            refine ⟨hsending, fun messageId hnone => ?_⟩
            rw [hgone] at hnone
            split at hnone
            · next hmem => exact .inr ⟨messageIds, hfind, hmem⟩
            · exact .inl hnone
      obtain ⟨_, _, hframe⟩ := channel.processAck_eq ack
      have hpackets : (channel.processAck ack).sentPackets = channel.sentPackets := by rw [hframe]
      obtain ⟨hrest, hgone⟩ := ih hfirst.1
      refine ⟨hrest, fun messageId hnone => ?_⟩
      obtain hbefore | ⟨other, hother, messageIds, hfind, hmem⟩ := hgone messageId hnone
      · obtain hstart | ⟨messageIds, hfind, hmem⟩ := hfirst.2 messageId hbefore
        · exact .inl hstart
        · exact .inr ⟨ack, List.mem_cons_self, messageIds, hfind, hmem⟩
      · rw [hpackets] at hfind
        exact .inr ⟨other, List.mem_cons_of_mem _ hother, messageIds, hfind, hmem⟩

end ReliableOrderedChannel

theorem Connection.advanceTime_eq {ν : Type} [SequenceNumber ν] (connection : Connection ν config)
    (time : τ) :
    ∃ errorLevel, connection.advanceTime time =
      { connection with errorLevel, reliable := { connection.reliable with time } } := by
  rw [Connection.advanceTime]
  dsimp only
  split
  · exact ⟨.channel, rfl⟩
  split
  · exact ⟨.channel, rfl⟩
  · exact ⟨connection.errorLevel, rfl⟩

/-- A message that leaves the send queue is held on the other side. -/
theorem Direction.advanceTime (h : Direction source target) (time : τ) :
    Direction (source.advanceTime time) target := by
  rw [Node.advanceTime]
  split
  · exact h
  obtain ⟨level, hframe⟩ := source.connection.advanceTime_eq time
  dsimp only
  rw [hframe]
  split
  · exact h.of_sameSource (by constructor <;> rfl)
  · have hsame : SameSource source
        { source with
          connection := { source.connection with
            errorLevel := level, reliable := { source.connection.reliable with time } } } := by
      constructor <;> rfl
    have hbefore := h.of_sameSource hsame
    obtain ⟨hsending, hgone⟩ := hbefore.sending.processAcks source.endpoint.acks
    obtain ⟨_, _, hacked⟩ := ReliableOrderedChannel.foldl_processAck_eq
      { source.connection.reliable with time } source.endpoint.acks
    have hpackets : (Connection.processAcks
        { source.connection with
          errorLevel := level, reliable := { source.connection.reliable with time } }
        source.endpoint.acks).reliable.sentPackets = source.connection.reliable.sentPackets := by
      rw [Connection.processAcks, hacked]
    have hreports : source.acked ++ source.endpoint.acks ++ [] =
        source.acked ++ source.endpoint.acks := List.append_nil _
    refine
      { hbefore with
        sending := hsending
        kept := fun messageId hge hlt hnone => ?_
        counting := ?_
        reported := ?_
        recordedWindowed := ?_
        recordedBehind := ?_
        recorded := ?_ }
    · obtain hmissing | ⟨ack, hack, messageIds, hfind, hmem⟩ := hgone messageId hnone
      · exact h.kept messageId hge hlt hmissing
      · obtain ⟨_, _, packet, hpacket, hheld⟩ := h.reported ack (List.mem_append_right _ hack)
        obtain ⟨_, other, hother, hids⟩ := h.recorded hfind
        obtain rfl := Option.some_inj.mp (hpacket.symm.trans hother)
        rw [← hids] at hmem
        obtain ⟨pair, hpair, rfl⟩ := List.mem_map.mp hmem
        exact hheld pair hpair
    · change Endpoint.Counting _ _ (_ ++ [])
      rw [hreports]
      exact ⟨h.counting.sequence, h.counting.sentSequence, h.counting.windowed, h.counting.nonneg,
        h.counting.nodup, h.counting.bounds, h.counting.acked⟩
    · change ∀ sequence ∈ _ ++ [], _
      rw [hreports]
      exact h.reported
    · rw [hpackets]
      exact h.recordedWindowed
    · rw [hpackets]
      exact h.recordedBehind
    · intro sequence messageIds hfind
      rw [hpackets] at hfind
      exact h.recorded hfind

theorem sameTarget_advanceTime (time : τ) : SameTarget node (node.advanceTime time) := by
  rw [Node.advanceTime]
  split
  · constructor <;> rfl
  obtain ⟨level, hframe⟩ := node.connection.advanceTime_eq time
  dsimp only
  rw [hframe]
  split
  · constructor <;> rfl
  · obtain ⟨_, _, hacked⟩ := ReliableOrderedChannel.foldl_processAck_eq
      { node.connection.reliable with time } node.endpoint.acks
    constructor <;> simp [Connection.processAcks, Endpoint.clearAcks, hacked]

end LibBench.Transport
