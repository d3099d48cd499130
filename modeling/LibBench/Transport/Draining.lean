/-
# The reliable channel does not lose step

A side that takes all the messages it can before it sends a packet acknowledges
only what it has taken, and a little more that waits behind a gap. So the other
side never moves its window beyond what this side has handed out, and no message
arrives for which the receive queue has no room.
-/

import LibBench.Transport.Network

namespace LibBench.Transport

open LibBench.Math SequenceNumber

section Level

variable {M τ : Type}

/-- Messages that the queue has room for do not lead to an error. -/
theorem ReliableOrderedChannel.errorLevel_processMessages {config : ChannelConfig M τ}
    {channel : ReliableOrderedChannel ℤ config} {received sent : List M}
    (h : channel.Receiving received sent) (hsize : 0 < config.messageReceiveQueueSize)
    {messages : List (ℤ × M)}
    (hmessages : ∀ pair ∈ messages, 0 ≤ pair.1 ∧ sent[pair.1.toNat]? = some pair.2)
    (hreach : ∀ pair ∈ messages,
      pair.1 < channel.receiveMessageId + config.messageReceiveQueueSize)
    {maxMessageId : ℤ}
    (hmax : maxMessageId = channel.receiveMessageId + (config.messageReceiveQueueSize - 1)) :
    (processMessages channel.receiveMessageId maxMessageId messages channel).errorLevel =
      channel.errorLevel := by
  induction messages generalizing channel with
  | nil => rfl
  | cons pair messages ih =>
      obtain ⟨messageId, message⟩ := pair
      have hfirst := hreach _ List.mem_cons_self
      have hrest : ∀ pair ∈ messages, 0 ≤ pair.1 ∧ sent[pair.1.toNat]? = some pair.2 :=
        fun pair hmem => hmessages pair (List.mem_cons_of_mem _ hmem)
      have hlater : ∀ pair ∈ messages,
          pair.1 < channel.receiveMessageId + config.messageReceiveQueueSize :=
        fun pair hmem => hreach pair (List.mem_cons_of_mem _ hmem)
      rw [processMessages, lessThan_count, greaterThan_count]
      split
      · exact ih h hrest hlater hmax
      split
      · next hbeyond =>
          rw [decide_eq_true_eq] at hbeyond
          omega
      split
      · exact ih h hrest hlater hmax
      · next hge _ _ =>
          rw [decide_eq_true_eq, not_lt] at hge
          obtain ⟨queue, hinsert, hnext, _⟩ := h.insert hsize hge (by omega)
            (hmessages _ List.mem_cons_self).2
          rw [hinsert]
          exact ih hnext hrest hlater hmax

/-- Nothing happens to the channel once it is in error. -/
theorem Connection.processEntries_of_error {ν : Type} [SequenceNumber ν] [DecidableEq ν]
    {config : ConnectionConfig M τ} (entries : List (ChannelPacketData ν M))
    {connection : Connection ν config} (hlevel : connection.reliable.errorLevel ≠ .none) :
    (processEntries entries connection).2.reliable.errorLevel = connection.reliable.errorLevel := by
  induction entries generalizing connection with
  | nil => rfl
  | cons entry entries ih =>
      cases entry with
      | reliable messages =>
          have hsame : connection.reliable.processPacketData messages = connection.reliable :=
            if_pos hlevel
          simp [processEntries, hsame, hlevel]
      | unreliable messages =>
          rw [processEntries]
          dsimp only
          split
          · rfl
          · let after : Connection ν config :=
              { connection with unreliable := connection.unreliable.processPacketData messages }
            have hafter : after.reliable.errorLevel ≠ .none := hlevel
            exact ih hafter

theorem Connection.errorLevel_processEntries {config : ConnectionConfig M τ}
    {received sent : List M}
    (hsize : 0 < config.reliable.messageReceiveQueueSize) (entries : List (ChannelPacketData ℤ M))
    {connection : Connection ℤ config} (h : connection.reliable.Receiving received sent)
    (hlevel : connection.reliable.errorLevel = .none)
    (hmessages : ∀ pair ∈ entries.flatMap ChannelPacketData.messages,
      0 ≤ pair.1 ∧ sent[pair.1.toNat]? = some pair.2)
    (hreach : ∀ pair ∈ entries.flatMap ChannelPacketData.messages,
      pair.1 < connection.reliable.receiveMessageId + config.reliable.messageReceiveQueueSize) :
    (processEntries entries connection).2.reliable.errorLevel = .none := by
  induction entries generalizing connection with
  | nil => exact hlevel
  | cons entry entries ih =>
      have hfirst : ∀ pair ∈ entry.messages, pair ∈
          (entry :: entries).flatMap ChannelPacketData.messages :=
        fun pair hmem => List.mem_append_left _ hmem
      have hrest : ∀ pair ∈ entries.flatMap ChannelPacketData.messages, pair ∈
          (entry :: entries).flatMap ChannelPacketData.messages :=
        fun pair hmem => List.mem_append_right _ hmem
      rw [processEntries.eq_def]
      cases entry with
      | reliable messages =>
          let after : Connection ℤ config :=
            { connection with reliable := connection.reliable.processPacketData messages }
          obtain ⟨hreceiving, _⟩ := h.processPacketData hsize
            fun pair hmem => hmessages pair (hfirst pair hmem)
          obtain ⟨level, queue, hframe⟩ :=
            ReliableOrderedChannel.processPacketData_eq connection.reliable messages
          have hafter : after.reliable.Receiving received sent := hreceiving
          have hid : after.reliable.receiveMessageId = connection.reliable.receiveMessageId := by
            simp only [after, hframe]
          have hnone : after.reliable.errorLevel = .none := by
            have hprocess := ReliableOrderedChannel.errorLevel_processMessages h hsize
              (fun pair hmem => hmessages pair (hfirst pair hmem))
              (fun pair hmem => hreach pair (hfirst pair hmem)) rfl
            exact (congrArg ReliableOrderedChannel.errorLevel
              (if_neg (not_not.mpr hlevel))).trans (hprocess.trans hlevel)
          have hlater := ih hafter hnone (fun pair hmem => hmessages pair (hrest pair hmem))
            (fun pair hmem => hid ▸ hreach pair (hrest pair hmem))
          dsimp only
          split
          · exact hnone
          · exact hlater
      | unreliable messages =>
          let after : Connection ℤ config :=
            { connection with unreliable := connection.unreliable.processPacketData messages }
          have hafter : after.reliable.Receiving received sent := h
          have hnone : after.reliable.errorLevel = .none := hlevel
          have hlater := ih hafter hnone (fun pair hmem => hmessages pair (hrest pair hmem))
            (fun pair hmem => hreach pair (hrest pair hmem))
          dsimp only
          split
          · exact hlevel
          · exact hlater

end Level

variable {M τ : Type} {config : ConnectionConfig M τ} {source target node after : Node ℤ config}

/-- A packet of the target acknowledges the packet of the source. -/
def Acknowledged (target : Node ℤ config) (sequence : ℤ) : Prop :=
  ∃ packet ∈ target.transmitted, packet.header.Acknowledges sequence

/-- The message was in a packet that is acknowledged. -/
def Settled (source target : Node ℤ config) (messageId : ℤ) : Prop :=
  ∃ sequence, Acknowledged target sequence ∧
    ∃ packet, source.transmitted[sequence.toNat]? = some packet ∧
      messageId ∈ packet.messages.map Prod.fst

/-- All messages before the bound were. -/
def SettledBelow (source target : Node ℤ config) (bound : ℤ) : Prop :=
  ∀ messageId, 0 ≤ messageId → messageId < bound → Settled source target messageId

/-- What drains the target: what leaves the send queue is settled, what is settled
up to a message has been handed out up to it, and no packet reaches further than
the receive queue does from there. -/
structure Draining (source target : Node ℤ config) : Prop where
  settled : ∀ messageId : ℤ, 0 ≤ messageId → messageId < source.sent.length →
    source.connection.reliable.messageSendQueue.find messageId = none →
    Settled source target messageId
  reported : ∀ sequence ∈ source.acked ++ source.endpoint.acks, Acknowledged target sequence
  reach : ∀ packet ∈ source.transmitted, ∀ pair ∈ packet.messages, ∃ bound,
    SettledBelow source target bound ∧ pair.1 < bound + config.reliable.messageReceiveQueueSize
  drained : target.connection.reliable.errorLevel = .none → ∀ bound,
    SettledBelow source target bound → bound ≤ target.connection.reliable.receiveMessageId
  synced : target.connection.reliable.errorLevel ≠ .desync

theorem draining_create (time : τ) :
    Draining (.create time : Node ℤ config) (.create time) where
  settled _ hge hlt _ := by
    simp only [Node.create, List.length_nil] at hlt
    omega
  reported _ hmem := by cases hmem
  reach _ hmem := by cases hmem
  drained _ bound hbound := by
    by_contra hpos
    obtain ⟨_, ⟨_, hmem, _⟩, _⟩ := hbound 0 le_rfl (not_le.mp hpos)
    cases hmem
  synced := nofun

/-- What a step keeps that sends nothing. -/
theorem Draining.of_transmitted (h : Draining source target) {later : Node ℤ config}
    (hsource : later.transmitted = source.transmitted)
    (htarget : after.transmitted = target.transmitted)
    (hsettled : ∀ messageId : ℤ, 0 ≤ messageId → messageId < later.sent.length →
      later.connection.reliable.messageSendQueue.find messageId = none →
      Settled source target messageId)
    (hreported : ∀ sequence ∈ later.acked ++ later.endpoint.acks, Acknowledged target sequence)
    (hid : target.connection.reliable.receiveMessageId ≤
      after.connection.reliable.receiveMessageId)
    (hlevel : after.connection.reliable.errorLevel = .none →
      target.connection.reliable.errorLevel = .none)
    (hsynced : after.connection.reliable.errorLevel ≠ .desync) : Draining later after := by
  have hacknowledged : ∀ sequence, Acknowledged after sequence ↔ Acknowledged target sequence :=
    fun sequence => by rw [Acknowledged, Acknowledged, htarget]
  have hsame : ∀ messageId, Settled later after messageId ↔ Settled source target messageId :=
    fun messageId => by simp only [Settled, hacknowledged, hsource]
  have hbelow : ∀ bound, SettledBelow later after bound ↔ SettledBelow source target bound :=
    fun bound => by simp only [SettledBelow, hsame]
  exact
    { settled := fun messageId hge hlt hnone => (hsame _).mpr (hsettled messageId hge hlt hnone)
      reported := fun sequence hmem => (hacknowledged _).mpr (hreported sequence hmem)
      reach := by
        simp only [hsource, hbelow]
        exact h.reach
      drained := fun hnone bound hbound =>
        (h.drained (hlevel hnone) bound ((hbelow bound).mp hbound)).trans hid
      synced := hsynced }

theorem Draining.of_sameSource (h : Draining source target) (hsame : SameSource source after) :
    Draining after target := by
  refine h.of_transmitted hsame.transmitted rfl ?_ ?_ le_rfl (fun hnone => hnone) h.synced
  · rw [hsame.sent, hsame.messageSendQueue]
    exact h.settled
  · rw [hsame.acked, hsame.acks]
    exact h.reported

theorem Draining.of_sameTarget (h : Draining source target) (hsame : SameTarget target after)
    (hlevel : after.connection.reliable.errorLevel = .none →
      target.connection.reliable.errorLevel = .none)
    (hsynced : after.connection.reliable.errorLevel ≠ .desync) : Draining source after :=
  h.of_transmitted rfl hsame.transmitted h.settled h.reported hsame.receiveMessageId.ge hlevel
    hsynced

theorem Draining.sendMessage (h : Draining source target) (hdirection : Direction source target)
    (hvalid : config.Valid) (message : M) : Draining (source.sendMessage message) target := by
  have hpos : 0 < config.reliable.messageSendQueueSize :=
    Nat.pos_of_dvd_of_pos hvalid.reliable.messageSendQueueSize_dvd (by decide)
  by_cases haccept : source.connection.reliable.errorLevel = .none ∧
      source.connection.reliable.canSendMessage = true
  · obtain ⟨_, hnew, hold⟩ :=
      hdirection.sending.sendMessage hpos haccept.1 haccept.2 message
    have hsent : (source.sendMessage message).sent = source.sent ++ [message] := if_pos haccept
    refine h.of_transmitted rfl rfl ?_ h.reported le_rfl (fun hnone => hnone) h.synced
    rw [hsent]
    intro messageId hge hlt hnone
    simp only [List.length_append, List.length_singleton] at hlt
    obtain hbefore | heq := lt_or_eq_of_le (show messageId ≤ source.sent.length by omega)
    · exact h.settled messageId hge hbefore ((hold messageId hbefore).symm.trans hnone)
    · subst heq
      exact absurd hnone hnew
  · obtain ⟨level, heq⟩ := source.connection.reliable.sendMessage_of_refused message haccept
    refine h.of_sameSource ?_
    constructor <;> simp [Node.sendMessage, heq, haccept]

/-- Sending too many messages is an error of its own. -/
theorem ReliableOrderedChannel.errorLevel_sendMessage {ν : Type} [SequenceNumber ν]
    {config : ChannelConfig M τ} (channel : ReliableOrderedChannel ν config) (message : M) :
    (channel.sendMessage message).errorLevel = channel.errorLevel ∨
      channel.errorLevel = .none ∧ (channel.sendMessage message).errorLevel = .sendQueueFull := by
  rw [ReliableOrderedChannel.sendMessage]
  split
  · exact .inl rfl
  next hlevel =>
    split
    · exact .inr ⟨not_not.mp hlevel, rfl⟩
    split <;> exact .inl rfl

theorem Draining.sendMessage_target (h : Draining source target) (message : M) :
    Draining source (target.sendMessage message) := by
  have hsynced := h.synced
  obtain hsame | ⟨hbefore, hfull⟩ := target.connection.reliable.errorLevel_sendMessage message
  · refine h.of_sameTarget (sameTarget_sendMessage message) ?_ ?_
    · exact fun hnone => hsame.symm.trans hnone
    · exact fun hdesync => hsynced (hsame.symm.trans hdesync)
  · refine h.of_sameTarget (sameTarget_sendMessage message) (fun _ => hbefore) ?_
    exact fun hdesync => nomatch hfull.symm.trans hdesync

theorem Draining.receiveMessage_target (h : Draining source target) :
    Draining source target.receiveMessage := by
  rw [Node.receiveMessage]
  split
  · exact h
  · next message after hreceive =>
      rw [ReliableOrderedChannel.receiveMessage] at hreceive
      split at hreceive
      · cases hreceive
      split at hreceive
      · cases hreceive
      · obtain ⟨_, rfl⟩ := Prod.mk.inj (Option.some_inj.mp hreceive)
        refine h.of_transmitted rfl rfl h.settled h.reported ?_ (fun hnone => hnone) h.synced
        change _ ≤ add target.connection.reliable.receiveMessageId 1
        rw [add_count]
        omega

theorem Draining.receiveUnreliable_target (h : Draining source target) :
    Draining source target.receiveUnreliable := by
  refine h.of_sameTarget sameTarget_receiveUnreliable ?_ ?_ <;> rw [Node.receiveUnreliable] <;>
    split
  · exact fun hnone => hnone
  · exact fun hnone => hnone
  · exact h.synced
  · exact h.synced

/-- What is acknowledged was transmitted. -/
theorem Acknowledged.confirmed {sequence : ℤ} (hacknowledged : Acknowledged target sequence)
    (h : Direction source target) : Confirmed source target sequence := by
  obtain ⟨packet, hmem, hack⟩ := hacknowledged
  exact h.acknowledged packet hmem hack

theorem Draining.sendPacket (h : Draining source target) (hdirection : Direction source target)
    (hvalid : config.Valid) : Draining source.sendPacket target := by
  by_cases hlevel : source.connection.errorLevel = .none
  · obtain ⟨queue, recorded, unreliable, packet, heq, _, hsame, _, _, _, hreach, _⟩ :=
      hdirection.sendPacket_eq hvalid hlevel
    have hgrow : source.transmitted <+: source.transmitted ++ [packet] := List.prefix_append _ _
    have hpos : 0 < config.endpoint.sentPacketsBufferSize :=
      Nat.pos_of_dvd_of_pos hvalid.endpoint.sentPacketsBufferSize_dvd (by decide)
    obtain ⟨_, hsend, _⟩ := hdirection.counting.sendPacket_eq hpos
    have hacks : source.endpoint.sendPacket.1.acks = source.endpoint.acks := by rw [hsend]
    -- nothing that is acknowledged is in the new packet
    have hiff : ∀ messageId, Settled source.sendPacket target messageId ↔
        Settled source target messageId := by
      intro messageId
      rw [heq]
      refine exists_congr fun sequence => and_congr_right fun hack => ?_
      obtain ⟨_, _, other, hother, _⟩ := hack.confirmed hdirection
      have hlater : (source.transmitted ++ [packet])[sequence.toNat]? =
          source.transmitted[sequence.toNat]? := by
        rw [hother]
        exact getElem?_of_isPrefix hgrow hother
      simp only [hlater]
    have hbelow : ∀ bound, SettledBelow source.sendPacket target bound ↔
        SettledBelow source target bound := fun bound => by simp only [SettledBelow, hiff]
    rw [heq] at hiff hbelow ⊢
    refine
      { settled := fun messageId hge hlt hnone =>
          (hiff _).mpr (h.settled messageId hge hlt ((hsame.find_eq_none_iff _).mp hnone))
        reported := ?_
        reach := fun other hmem pair hpair => ?_
        drained := fun hnone bound hbound => h.drained hnone bound ((hbelow bound).mp hbound)
        synced := h.synced }
    · dsimp only
      rw [hacks]
      exact h.reported
    · obtain hmem | hmem := List.mem_append.mp hmem
      · obtain ⟨bound, hbound, hlt⟩ := h.reach other hmem pair hpair
        exact ⟨bound, (hbelow bound).mpr hbound, hlt⟩
      · obtain rfl := List.mem_singleton.mp hmem
        refine ⟨source.connection.reliable.oldestUnackedMessageId, (hbelow _).mpr ?_,
          hreach pair hpair⟩
        intro messageId hge hlt
        have hle := hdirection.sending.oldest_le
        refine h.settled messageId hge (by omega) ?_
        by_contra hsome
        obtain ⟨found, hfind⟩ := Option.ne_none_iff_exists'.mp hsome
        have hoverdue := (hdirection.sending.entry hfind).1
        omega
  · rw [Node.sendPacket_of_error hlevel]
    exact h

/-- A side that has taken all it can acknowledges nothing beyond the message it
waits for without having it. -/
theorem Draining.sendPacket_target (h : Draining source target)
    (hdirection : Direction source target) (hother : Direction target source)
    (hvalid : config.Valid) (hdrained : target.connection.reliable.receiveMessage = none) :
    Draining source target.sendPacket := by
  by_cases hlevel : target.connection.errorLevel = .none
  · have hafter := hdirection.sendPacket_target hother hvalid
    obtain ⟨queue, recorded, unreliable, packet, heq, _⟩ := hother.sendPacket_eq hvalid hlevel
    rw [heq] at hafter ⊢
    have hsettled : ∀ messageId, Settled source target messageId → Settled source
        { target with
          endpoint := target.endpoint.sendPacket.1
          connection := { target.connection with
            reliable := { target.connection.reliable with
              messageSendQueue := queue, sentPackets := recorded }
            unreliable }
          transmitted := target.transmitted ++ [packet] } messageId := by
      rintro messageId ⟨sequence, ⟨other, hmem, hack⟩, hpacket⟩
      exact ⟨sequence, ⟨other, List.mem_append_left _ hmem, hack⟩, hpacket⟩
    refine
      { settled := fun messageId hge hlt hnone => hsettled _ (h.settled messageId hge hlt hnone)
        reported := fun sequence hmem => ?_
        reach := fun other hmem pair hpair => ?_
        drained := fun hnone bound hbound => ?_
        synced := h.synced }
    · obtain ⟨other, hmem, hack⟩ := h.reported sequence hmem
      exact ⟨other, List.mem_append_left _ hmem, hack⟩
    · obtain ⟨bound, hbound, hlt⟩ := h.reach other hmem pair hpair
      exact ⟨bound, fun messageId hge hbefore => hsettled _ (hbound messageId hge hbefore), hlt⟩
    · have hid := hdirection.receiving.receiveMessageId
      by_contra hbeyond
      dsimp only at hbeyond
      obtain ⟨sequence, hack, other, hotherPacket, hmem⟩ :=
        hbound target.connection.reliable.receiveMessageId (by omega) (not_le.mp hbeyond)
      obtain ⟨_, _, confirmed, hconfirmed, hheld⟩ := hack.confirmed hafter
      obtain rfl := Option.some_inj.mp (hconfirmed.symm.trans hotherPacket)
      obtain ⟨pair, hpair, hfirst⟩ := List.mem_map.mp hmem
      obtain hbefore | hwaits := hheld pair hpair
      · rw [hfirst] at hbefore
        exact absurd hbefore (lt_irrefl _)
      · rw [hfirst] at hwaits
        rw [ReliableOrderedChannel.receiveMessage, if_neg (not_not.mpr hnone)] at hdrained
        split at hdrained
        · next hmissing => exact hwaits hmissing
        · cases hdrained
  · rw [Node.sendPacket_of_error hlevel]
    exact h

theorem Draining.receivePacket_target (h : Draining source target)
    (hdirection : Direction source target) (hvalid : config.Valid) {position : ℕ}
    {packet : Packet ℤ M} (hpacket : source.transmitted[position]? = some packet) :
    Draining source (target.receivePacket position packet) := by
  have hqueue : 0 < config.reliable.messageReceiveQueueSize :=
    Nat.pos_of_dvd_of_pos hvalid.reliable.messageReceiveQueueSize_dvd (by decide)
  have hmem := List.mem_of_getElem? hpacket
  have hmessages := hdirection.message packet hmem
  obtain heq | ⟨success, connection, hprocess, hlevel, _, houtcome⟩ :=
    target.receivePacket_cases position packet
  · rw [heq]
    exact h
  rw [Connection.processPacket, if_neg (not_not.mpr hlevel)] at hprocess
  obtain ⟨_, _, _, level, queue, unreliable, hframe⟩ :=
    Connection.processEntries_spec hqueue packet.channelEntry target.connection
      hdirection.receiving hmessages hprocess
  have hid : connection.reliable.receiveMessageId =
      target.connection.reliable.receiveMessageId := by rw [hframe]
  have hlevels : connection.reliable.errorLevel = target.connection.reliable.errorLevel := by
    have hresult : (Connection.processEntries packet.channelEntry target.connection).2 =
        connection := by rw [hprocess]
    rw [← hresult]
    by_cases hnone : target.connection.reliable.errorLevel = .none
    · rw [hnone]
      refine Connection.errorLevel_processEntries hqueue packet.channelEntry hdirection.receiving
        hnone hmessages fun pair hpair => ?_
      obtain ⟨bound, hbound, hlt⟩ := h.reach packet hmem pair hpair
      have hle := h.drained hnone bound hbound
      omega
    · exact Connection.processEntries_of_error packet.channelEntry hnone
  have hsynced : connection.reliable.errorLevel ≠ .desync := hlevels ▸ h.synced
  obtain ⟨rfl, heq⟩ | ⟨rfl, receivedPackets, _, heq⟩ := houtcome
  · rw [heq]
    exact h.of_transmitted rfl rfl h.settled h.reported hid.ge hlevels.symm.trans hsynced
  · rw [heq]
    exact h.of_transmitted rfl rfl h.settled h.reported hid.ge hlevels.symm.trans hsynced

theorem Draining.receivePacket (h : Draining source target) (hdirection : Direction source target)
    (hother : Direction target source) (hvalid : config.Valid) {position : ℕ}
    {packet : Packet ℤ M} (hpacket : target.transmitted[position]? = some packet) :
    Draining (source.receivePacket position packet) target := by
  have hqueue : 0 < config.reliable.messageReceiveQueueSize :=
    Nat.pos_of_dvd_of_pos hvalid.reliable.messageReceiveQueueSize_dvd (by decide)
  have hmem := List.mem_of_getElem? hpacket
  obtain heq | ⟨success, connection, hprocess, hlevel, _, houtcome⟩ :=
    source.receivePacket_cases position packet
  · rw [heq]
    exact h
  rw [Connection.processPacket, if_neg (not_not.mpr hlevel)] at hprocess
  obtain ⟨_, _, _, level, queue, unreliable, rfl⟩ :=
    Connection.processEntries_spec hqueue packet.channelEntry source.connection hother.receiving
      (hother.message packet hmem) hprocess
  obtain ⟨rfl, heq⟩ | ⟨rfl, receivedPackets, _, heq⟩ := houtcome
  · rw [heq]
    exact h.of_sameSource (by constructor <;> rfl)
  · rw [heq]
    obtain ⟨new, hacks, hnew, _⟩ :=
      (hdirection.counting.of_receivedPackets receivedPackets).processAckBits packet.header
    refine h.of_transmitted rfl rfl h.settled (fun sequence hsequence => ?_) le_rfl
      (fun hnone => hnone) h.synced
    dsimp only at hsequence
    rw [hacks, ← List.append_assoc] at hsequence
    obtain hbefore | hlater := List.mem_append.mp hsequence
    · exact h.reported sequence hbefore
    · exact ⟨packet, hmem, hnew sequence hlater⟩

theorem Draining.receiveFragment_target (h : Draining source target) (packet : Packet ℤ M) :
    Draining source (target.receiveFragment packet) := by
  rw [Node.receiveFragment]
  split
  · exact h
  · exact h.of_transmitted rfl rfl h.settled h.reported le_rfl (fun hnone => hnone) h.synced

theorem Draining.advanceTime (h : Draining source target) (hdirection : Direction source target)
    (time : τ) : Draining (source.advanceTime time) target := by
  rw [Node.advanceTime]
  split
  · exact h
  obtain ⟨level, hframe⟩ := source.connection.advanceTime_eq time
  dsimp only
  rw [hframe]
  split
  · exact h.of_sameSource (by constructor <;> rfl)
  · let channel : ReliableOrderedChannel ℤ config.reliable :=
      { source.connection.reliable with time }
    have hsending : channel.Sending source.sent :=
      ⟨hdirection.sending.sendMessageId, hdirection.sending.sequence,
        hdirection.sending.windowed, hdirection.sending.oldest_nonneg,
        hdirection.sending.oldest_le, hdirection.sending.oldest, hdirection.sending.entry⟩
    obtain ⟨_, hgone⟩ := hsending.processAcks source.endpoint.acks
    refine h.of_transmitted rfl rfl (fun messageId hge hlt hnone => ?_) (fun sequence hmem => ?_)
      le_rfl (fun hnone => hnone) h.synced
    · obtain hmissing | ⟨ack, hack, messageIds, hfind, hmem⟩ := hgone messageId hnone
      · exact h.settled messageId hge hlt hmissing
      · obtain ⟨_, packet, hpacket, hids⟩ := hdirection.recorded hfind
        exact ⟨ack, h.reported ack (List.mem_append_right _ hack), packet, hpacket, hids ▸ hmem⟩
    · change sequence ∈ source.acked ++ source.endpoint.acks ++ [] at hmem
      rw [List.append_nil] at hmem
      exact h.reported sequence hmem

theorem Draining.advanceTime_target (h : Draining source target) (time : τ) :
    Draining source (target.advanceTime time) := by
  have hlevel : (target.advanceTime time).connection.reliable.errorLevel =
      target.connection.reliable.errorLevel := by
    rw [Node.advanceTime]
    split
    · rfl
    obtain ⟨level, hframe⟩ := target.connection.advanceTime_eq time
    dsimp only
    rw [hframe]
    split
    · rfl
    · obtain ⟨_, _, hacked⟩ := ReliableOrderedChannel.foldl_processAck_eq
        { target.connection.reliable with time } target.endpoint.acks
      rw [Connection.processAcks, hacked]
  have hsynced := h.synced
  exact h.of_sameTarget (sameTarget_advanceTime time) hlevel.symm.trans (hlevel ▸ hsynced)

namespace Network

/-- A side sends a packet only when it has taken all the messages it can. -/
def Drains {ν : Type} [SequenceNumber ν] [DecidableEq ν] (network : Network ν config) :
    Action M τ → Prop
  | .sendPacket side => (network side).connection.reliable.receiveMessage.isNone = true
  | _ => True

instance {ν : Type} [SequenceNumber ν] [DecidableEq ν] (network : Network ν config) :
    (action : Action M τ) → Decidable (network.Drains action)
  | .sendMessage _ _ | .receiveMessage _ | .sendUnreliable _ _ | .receiveUnreliable _ |
    .receivePacket _ _ | .receiveFragment _ _ | .advanceTime _ _ => isTrue trivial
  | .sendPacket _ => inferInstanceAs (Decidable (_ = true))

/-- Both sides drain the other. -/
def Synced (network : Network ℤ config) : Prop :=
  ∀ side, Draining (network side) (network side.other)

variable {network : Network ℤ config}

theorem synced_create (time : τ) : (create time : Network ℤ config).Synced :=
  fun _ => draining_create time

theorem Synced.next (h : network.Synced) (hconsistent : network.Consistent)
    (hvalid : config.Valid) {action : Action M τ} (hdrains : network.Drains action) :
    (network.next action).Synced := by
  have hout : ∀ side, Direction (network side) (network side.other) := hconsistent
  have hin : ∀ side, Direction (network side.other) (network side) := fun side => by
    simpa using hconsistent side.other
  have hsource : ∀ side, Draining (network side) (network side.other) := h
  have htarget : ∀ side, Draining (network side.other) (network side) := fun side => by
    simpa using h side.other
  cases action with
  | sendMessage side message =>
      exact forall_update side ((hsource side).sendMessage (hout side) hvalid message)
        ((htarget side).sendMessage_target message)
  | receiveMessage side =>
      exact forall_update side ((hsource side).of_sameSource sameSource_receiveMessage)
        (htarget side).receiveMessage_target
  | sendUnreliable side message =>
      exact forall_update side ((hsource side).of_sameSource (sameSource_sendUnreliable message))
        ((htarget side).of_sameTarget (sameTarget_sendUnreliable message) (fun hnone => hnone)
          (htarget side).synced)
  | receiveUnreliable side =>
      exact forall_update side ((hsource side).of_sameSource sameSource_receiveUnreliable)
        (htarget side).receiveUnreliable_target
  | sendPacket side =>
      exact forall_update side ((hsource side).sendPacket (hout side) hvalid)
        ((htarget side).sendPacket_target (hin side) (hout side) hvalid
          (Option.isNone_iff_eq_none.mp hdrains))
  | receivePacket side position =>
      refine forall_update side ?_ ?_ <;> rw [perform] <;> split
      · exact hsource side
      · next hpacket =>
          exact (hsource side).receivePacket (hout side) (hin side) hvalid hpacket
      · exact htarget side
      · next hpacket => exact (htarget side).receivePacket_target (hin side) hvalid hpacket
  | receiveFragment side position =>
      refine forall_update side ?_ ?_ <;> rw [perform] <;> split
      · exact hsource side
      · exact (hsource side).of_sameSource (sameSource_receiveFragment _)
      · exact htarget side
      · exact (htarget side).receiveFragment_target _
  | advanceTime side time =>
      exact forall_update side ((hsource side).advanceTime (hout side) time)
        ((htarget side).advanceTime_target time)

end Network

end LibBench.Transport
