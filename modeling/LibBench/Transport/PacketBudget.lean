/-
# Yojimbo: what a packet takes

The channels count the bits of a packet before it is written, from the bits that
each message was measured to take. What they count is what is written, except for
a few bits in front of each entry, for which they keep some in reserve. So a
packet that a connection generates fits into the buffer that it is written to, and
comes back as it was, as long as its messages are in their ranges.
-/

import LibBench.Transport.PacketBits
import LibBench.Transport.Steps
import LibBench.Transport.Arrivals
import LibBench.Transport.Refinement

namespace LibBench.Transport

open LibBench.Math SequenceNumber
open LibBench.Yojimbo

theorem relativeIdBits_concat {ν : Type} [SequenceNumber ν] (previous : ν) (messageIds : List ν)
    (messageId : ν) :
    relativeIdBits previous (messageIds ++ [messageId]) =
      relativeIdBits previous messageIds +
        intRelativeBits (distance (messageIds.getLastD previous) messageId) := by
  induction messageIds generalizing previous with
  | nil => simp [relativeIdBits]
  | cons other messageIds ih =>
      rw [List.cons_append, relativeIdBits, ih, relativeIdBits, List.getLastD_cons, Nat.add_assoc]

/-- One more number at the end. -/
theorem messageIdBits_concat {ν : Type} [SequenceNumber ν] {messageIds : List ν} {last : ν}
    (hlast : messageIds.getLast? = some last) (messageId : ν) :
    messageIdBits (messageIds ++ [messageId]) =
      messageIdBits messageIds + intRelativeBits (distance last messageId) := by
  cases messageIds with
  | nil => cases hlast
  | cons first messageIds =>
      rw [List.getLast?_cons, Option.some_inj] at hlast
      rw [List.cons_append, messageIdBits, messageIdBits, relativeIdBits_concat, Nat.add_assoc,
        List.getLastD_eq_getLast?, hlast]

theorem relativeIdBits_wrap {previous : ℤ} {messageIds : List ℤ}
    (hincreasing : (previous :: messageIds).Pairwise (· < ·))
    (hturn : ∀ messageId ∈ messageIds, messageId < previous + 65536) :
    relativeIdBits (wrap previous) (messageIds.map wrap) = relativeIdBits previous messageIds := by
  induction messageIds generalizing previous with
  | nil => rfl
  | cons messageId messageIds ih =>
      obtain ⟨hfirst, hrest⟩ := List.pairwise_cons.mp hincreasing
      have hlt := hfirst messageId List.mem_cons_self
      have hnear := hturn messageId List.mem_cons_self
      have hlater := ih hrest fun other hmem => by
        have hother := hturn other (List.mem_cons_of_mem _ hmem)
        omega
      rw [List.map_cons, relativeIdBits, relativeIdBits, hlater, distance_wrap hlt.le hnear]

/-- Numbers that come round take the same bits. -/
theorem messageIdBits_wrap {messageIds : List ℤ} (hincreasing : messageIds.Pairwise (· < ·))
    (hturn : ∀ first ∈ messageIds, ∀ second ∈ messageIds, second < first + 65536) :
    messageIdBits (messageIds.map wrap) = messageIdBits messageIds := by
  cases messageIds with
  | nil => rfl
  | cons messageId messageIds =>
      rw [List.map_cons, messageIdBits, messageIdBits, relativeIdBits_wrap hincreasing]
      exact fun other hmem => hturn _ List.mem_cons_self other (List.mem_cons_of_mem _ hmem)

/-- One after the other, they are different numbers. -/
theorem isChain_ne_map_wrap {messageIds : List ℤ} (hincreasing : messageIds.Pairwise (· < ·))
    (hturn : ∀ first ∈ messageIds, ∀ second ∈ messageIds, second < first + 65536) :
    (messageIds.map wrap).IsChain (· ≠ ·) := by
  apply List.Pairwise.isChain
  rw [List.pairwise_map]
  refine hincreasing.imp_of_mem fun {first second} hfirst hsecond hlt heq => ?_
  have hnear := hturn first hfirst second hsecond
  rw [wrap_eq_wrap_iff] at heq
  omega

theorem messagesBits_append {M τ : Type} (config : ChannelConfig M τ) (first second : List M) :
    messagesBits config (first ++ second) =
      messagesBits config first + messagesBits config second := by
  rw [messagesBits, List.map_append, List.sum_append, messagesBits, messagesBits]

theorem messagesBits_singleton {M τ : Type} (config : ChannelConfig M τ) (message : M) :
    messagesBits config [message] = config.messageTypeBits + config.measuredBits message := by
  rw [messagesBits, List.map_singleton, List.sum_singleton]

namespace ReliableOrderedChannel

variable {M τ : Type} {config : ChannelConfig M τ} {channel : ReliableOrderedChannel ℤ config}
  {sent : List M}

/-- The bits in the queue are those of the messages. -/
def Measured (config : ChannelConfig M τ)
    (queue : SequenceRing ℤ (MessageSendQueueEntry M τ) config.messageSendQueueSize) : Prop :=
  ∀ ⦃messageId found⦄, queue.find messageId = some found →
    found.measuredBits = config.measuredBits found.message

variable {queue : SequenceRing ℤ (MessageSendQueueEntry M τ) config.messageSendQueueSize}
  {oldest availableBits : ℤ} {i : ℕ} {selection : Selection ℤ M τ config.messageSendQueueSize}

/-- What `GetMessagesToSend` counts are the bits of what it has chosen, and they are
in the budget. -/
structure Spent (config : ChannelConfig M τ)
    (queue : SequenceRing ℤ (MessageSendQueueEntry M τ) config.messageSendQueueSize)
    (oldest availableBits : ℤ) (i : ℕ)
    (selection : Selection ℤ M τ config.messageSendQueueSize) : Prop where
  chosen : Chosen queue oldest i selection
  measured : Measured config selection.messageSendQueue
  usedBits : selection.usedBits = conservativeMessageHeaderBits +
    (messageIdBits selection.messageIds + messagesBits config
      (selection.messageIds.filterMap fun messageId =>
        (queue.find messageId).map MessageSendQueueEntry.message) : ℕ)
  usedBits_le : selection.messageIds ≠ [] → selection.usedBits ≤ availableBits

theorem Spent.add (h : Spent config queue oldest availableBits i selection) (time : τ)
    {entry : MessageSendQueueEntry M τ}
    (hfind : selection.messageSendQueue.find (oldest + i) = some entry)
    (hfits : selection.usedBits + messageBits config selection (oldest + i) entry ≤ availableBits) :
    Spent config queue oldest availableBits (i + 1)
      { selection with
        usedBits := selection.usedBits + messageBits config selection (oldest + i) entry
        messageIds := selection.messageIds ++ [oldest + i]
        previousMessageId := oldest + i
        messageSendQueue := selection.messageSendQueue.modify (oldest + i)
          fun entry => { entry with timeLastSent := time } } where
  chosen := h.chosen.add _ _ hfind
  measured messageId found hfound := by
    rw [h.chosen.sameMessages.windowed.find_modify] at hfound
    split at hfound
    · obtain ⟨before, hbefore, rfl⟩ := Option.map_eq_some_iff.mp hfound
      have hbits := h.measured hbefore
      exact hbits
    · exact h.measured hfound
  usedBits := by
    have hmessage := h.chosen.sameMessages.message (oldest + i)
    have hmeasured := h.measured hfind
    rw [hfind, Option.map_some] at hmessage
    have hids : (messageIdBits (selection.messageIds ++ [oldest + i]) : ℤ) =
        messageIdBits selection.messageIds +
          (if selection.messageIds = [] then 16
            else intRelativeBits (distance selection.previousMessageId (oldest + i)) : ℕ) := by
      by_cases hempty : selection.messageIds = []
      · rw [if_pos hempty, hempty]
        rfl
      · rw [if_neg hempty, messageIdBits_concat (h.chosen.previous hempty), Nat.cast_add]
    rw [List.filterMap_append, messagesBits_append]
    simp only [List.filterMap_cons, ← hmessage, List.filterMap_nil, messagesBits_singleton]
    rw [h.usedBits, messageBits, hmeasured]
    simp only [Nat.cast_add, hids]
    ring
  usedBits_le _ := hfits

/-- A packet takes no more messages than it has room for. -/
theorem length_messageIds_selectMessages_le {ν : Type} [SequenceNumber ν] [DecidableEq ν]
    (time : τ) (oldest : ν) (availableBits : ℤ) (rounds i : ℕ)
    {selection : Selection ν M τ config.messageSendQueueSize}
    (h : selection.messageIds.length < config.maxMessagesPerPacket) :
    (selectMessages config time oldest availableBits rounds i selection).messageIds.length ≤
      config.maxMessagesPerPacket := by
  induction rounds generalizing i selection with
  | zero => exact h.le
  | succ rounds ih =>
      rw [selectMessages]
      dsimp only
      split
      · exact h.le
      split
      · exact h.le
      split
      · exact ih _ h
      split
      · split
        · exact ih _ h
        · split
          · next hfull => exact hfull.le
          · next hroom =>
              rw [List.length_append, List.length_singleton] at hroom
              apply ih
              rw [List.length_append, List.length_singleton]
              omega
      · split
        · exact h.le
        · exact ih _ h

theorem Sending.spent (h : channel.Sending sent)
    (hmeasured : Measured config channel.messageSendQueue)
    (availableBits : ℤ) :
    Spent config channel.messageSendQueue channel.oldestUnackedMessageId
      (budgetBits config.packetBudget availableBits)
      (min config.messageSendQueueSize config.messageReceiveQueueSize)
      (channel.getMessagesToSend availableBits) := by
  have hstart : Spent config channel.messageSendQueue channel.oldestUnackedMessageId
      (budgetBits config.packetBudget availableBits) 0
      ⟨channel.messageSendQueue, [], 0, conservativeMessageHeaderBits, 0⟩ :=
    ⟨Chosen.start h.windowed _, hmeasured, (add_zero _).symm, fun hne => absurd rfl hne⟩
  have hall := selectMessages_rule channel.time (budgetBits config.packetBudget availableBits)
    (fun _ _ h => ⟨h.chosen.skip, h.measured, h.usedBits, h.usedBits_le⟩)
    (fun _ _ h => ⟨h.chosen.giveUp, h.measured, h.usedBits, h.usedBits_le⟩)
    (fun _ _ _ h hfind _ hfits => h.add _ hfind hfits)
    (min config.messageSendQueueSize config.messageReceiveQueueSize) hstart
  rwa [Nat.zero_add] at hall

theorem budgetBits_le (packetBudget availableBits : ℤ) :
    budgetBits packetBudget availableBits ≤ availableBits := by
  rw [budgetBits]
  split
  · exact min_le_right _ _
  · exact le_rfl

theorem map_snd_getMessagePacketData (channel : ReliableOrderedChannel ℤ config)
    (messageIds : List ℤ) :
    (channel.getMessagePacketData messageIds).map Prod.snd =
      messageIds.filterMap fun messageId =>
        (channel.messageSendQueue.find messageId).map MessageSendQueueEntry.message := by
  rw [getMessagePacketData, List.map_filterMap]
  apply List.filterMap_congr
  intro messageId _
  rw [Option.map_map]
  rfl

/-- The messages of a packet, with the bits that they take. -/
structure Packed (config : ChannelConfig M τ) (sent : List M) (availableBits : ℤ)
    (messages : List (ℤ × M)) (usedBits : ℤ) : Prop where
  ne_nil : messages ≠ []
  length_le : messages.length ≤ config.maxMessagesPerPacket
  increasing : (messages.map Prod.fst).Pairwise (· < ·)
  turn : ∀ first ∈ messages.map Prod.fst, ∀ second ∈ messages.map Prod.fst, second < first + 65536
  mem_sent : ∀ pair ∈ messages, pair.2 ∈ sent
  usedBits_eq : usedBits = conservativeMessageHeaderBits +
    (messageIdBits (messages.map Prod.fst) + messagesBits config (messages.map Prod.snd) : ℕ)
  usedBits_le : usedBits ≤ availableBits

theorem Sending.packed (h : channel.Sending sent)
    (hmeasured : Measured config channel.messageSendQueue) (hvalid : config.Valid)
    (hmax : 0 < config.maxMessagesPerPacket) {packetSequence availableBits usedBits : ℤ}
    {messages : List (ℤ × M)} {after : ReliableOrderedChannel ℤ config}
    (heq : channel.getPacketData packetSequence availableBits =
      (after, some (messages, usedBits))) :
    Packed config sent availableBits messages usedBits := by
  have hspent := h.spent hmeasured availableBits
  have hsame := hspent.chosen.sameMessages
  rw [ReliableOrderedChannel.getPacketData] at heq
  split at heq
  swap
  · cases heq
  dsimp only at heq
  split at heq
  · cases heq
  next hne =>
    obtain ⟨_, hsome⟩ := Prod.mk.inj heq
    obtain ⟨rfl, rfl⟩ := Prod.mk.inj (Option.some_inj.mp hsome)
    have hfound : ∀ messageId ∈ (channel.getMessagesToSend availableBits).messageIds,
        (channel.getMessagesToSend availableBits).messageSendQueue.find messageId ≠ none :=
      fun messageId hmem => mt (hsame.find_eq_none_iff _).mp (hspent.chosen.found messageId hmem)
    let selected : ReliableOrderedChannel ℤ config :=
      { channel with
        messageSendQueue := (channel.getMessagesToSend availableBits).messageSendQueue }
    have hids : (selected.getMessagePacketData
        (channel.getMessagesToSend availableBits).messageIds).map Prod.fst = _ :=
      map_fst_getMessagePacketData hfound
    have hbodies : (selected.getMessagePacketData
        (channel.getMessagesToSend availableBits).messageIds).map Prod.snd =
          (channel.getMessagesToSend availableBits).messageIds.filterMap fun messageId =>
            (channel.messageSendQueue.find messageId).map MessageSendQueueEntry.message := by
      rw [map_snd_getMessagePacketData]
      simp only [selected, hsame.message]
    have hlength : (selected.getMessagePacketData
        (channel.getMessagesToSend availableBits).messageIds).length =
          (channel.getMessagesToSend availableBits).messageIds.length := by
      rw [← hids, List.length_map, hids]
    refine ⟨?_, ?_, ?_, ?_, ?_, ?_, ?_⟩
    · intro hnil
      apply hne
      rw [← hids]
      exact List.map_eq_nil_iff.mpr hnil
    · exact hlength.trans_le
        (length_messageIds_selectMessages_le channel.time _ _ _ 0 hmax)
    · rw [hids]
      exact hspent.chosen.increasing
    · rw [hids]
      intro first hfirst second hsecond
      have hge := (hspent.chosen.bounds first hfirst).1
      have hlt := (hspent.chosen.bounds second hsecond).2
      have hsmall := hvalid.messageSendQueueSize_le
      omega
    · intro pair hmem
      obtain ⟨entry, hentry, hmessage⟩ := mem_getMessagePacketData hmem
      obtain ⟨other, hother, hotherMessage⟩ := hsame.exists_find hentry
      have hsent := (h.entry hother).2
      rw [hotherMessage, hmessage] at hsent
      exact List.mem_of_getElem? hsent
    · rw [hids, hbodies]
      exact hspent.usedBits
    · exact (hspent.usedBits_le hne).trans (budgetBits_le _ _)

end ReliableOrderedChannel

namespace UnreliableUnorderedChannel

variable {M τ : Type} {config : ChannelConfig M τ}

/-- The loop of `GetPacketData` counts the bits of what it takes. -/
theorem takeMessages_spent {availableBits usedBits bits : ℤ} {queue messages taken rest : List M}
    (hlength : messages.length ≤ config.maxMessagesPerPacket)
    (heq : takeMessages config availableBits queue messages usedBits =
      (messages ++ taken, bits, rest)) :
    bits = usedBits + messagesBits config taken ∧
      (messages ++ taken).length ≤ config.maxMessagesPerPacket ∧
      (taken ≠ [] → bits ≤ availableBits) := by
  have hstop : ∀ {left messages taken : List M} {usedBits : ℤ},
      messages.length ≤ config.maxMessagesPerPacket →
      (messages, usedBits, left) = (messages ++ taken, bits, rest) →
      bits = usedBits + messagesBits config taken ∧
        (messages ++ taken).length ≤ config.maxMessagesPerPacket ∧
        (taken ≠ [] → bits ≤ availableBits) := by
    intro left messages taken usedBits hlength h
    obtain ⟨hnone, hrest⟩ := Prod.mk.inj h
    obtain ⟨rfl, _⟩ := Prod.mk.inj hrest
    obtain rfl := List.self_eq_append_right.mp hnone
    exact ⟨by simp [messagesBits], by simpa, by simp⟩
  induction queue generalizing messages usedBits taken with
  | nil => exact hstop hlength heq
  | cons message queue ih =>
      rw [takeMessages] at heq
      dsimp only at heq
      split at heq
      · exact hstop hlength heq
      split at heq
      · exact hstop hlength heq
      next hroom =>
        split at heq
        · exact ih hlength heq
        · next hfits =>
            have hlonger : (messages ++ [message]).length ≤ config.maxMessagesPerPacket := by
              rw [List.length_append, List.length_singleton]
              omega
            obtain ⟨others, _, _, hothers, _⟩ := takeMessages_sublist availableBits queue
              (messages ++ [message])
              (usedBits + (config.messageTypeBits + config.measuredBits message))
            have hsame := congrArg Prod.fst (hothers.symm.trans heq)
            rw [List.append_assoc, List.singleton_append] at hsame
            obtain rfl := List.append_cancel_left hsame
            have hsplit : messages ++ message :: others = messages ++ [message] ++ others :=
              List.append_cons messages message others
            rw [hsplit] at heq ⊢
            obtain ⟨hbits, hbound, hle⟩ := ih hlonger heq
            have hsum : bits = usedBits + messagesBits config (message :: others) := by
              rw [hbits, ← List.singleton_append, messagesBits_append, messagesBits_singleton]
              push_cast
              ring
            refine ⟨hsum, hbound, fun _ => ?_⟩
            by_cases hempty : others = []
            · rw [hbits, hempty]
              change _ + ((0 : ℕ) : ℤ) ≤ availableBits
              omega
            · exact hle hempty

end UnreliableUnorderedChannel

section Packets

variable {M τ : Type} {factory : MessageFactory M} {config : ConnectionConfig M τ}

/-- The messages of the reliable channel make an entry that can be written. -/
theorem ReliableOrderedChannel.Packed.writable {sent : List M} {availableBits usedBits : ℤ}
    {messages : List (ℤ × M)}
    (h : Packed config.reliable sent availableBits messages usedBits)
    (hsent : ∀ message ∈ sent, factory.Carries config.reliable.measuredBits message) :
    (ChannelPacketData.reliable messages).wrapped.Writable factory config ∧
      (32 + (ChannelPacketData.reliable messages).wrapped.bits config : ℕ) = usedBits := by
  have hids : (messages.map (Prod.map wrap id)).map Prod.fst =
      (messages.map Prod.fst).map wrap := by
    rw [List.map_map, List.map_map]
    rfl
  have hbodies : (messages.map (Prod.map (wrap : ℤ → UInt16) (id : M → M))).map Prod.snd =
      messages.map Prod.snd := by
    rw [List.map_map]
    rfl
  constructor
  · refine ⟨?_, ?_, ?_, ?_⟩
    · exact mt List.map_eq_nil_iff.mp h.ne_nil
    · rw [List.length_map]
      exact h.length_le
    · rw [hids]
      exact isChain_ne_map_wrap h.increasing h.turn
    · intro pair hmem
      obtain ⟨other, hother, rfl⟩ := List.mem_map.mp hmem
      exact hsent _ (h.mem_sent other hother)
  · rw [ChannelPacketData.wrapped, ChannelPacketData.bits, hids, hbodies,
      messageIdBits_wrap h.increasing h.turn, h.usedBits_eq, Nat.cast_add]
    rfl

/-- What the unreliable channel puts into a packet. -/
theorem UnreliableUnorderedChannel.getPacketData_fits
    (channel : UnreliableUnorderedChannel config.unreliable)
    (hqueue : ∀ message ∈ channel.messageSendQueue,
      factory.Carries config.unreliable.measuredBits message) (availableBits : ℤ) :
    (channel.getPacketData availableBits).1.messageSendQueue ⊆ channel.messageSendQueue ∧
      ∀ messages usedBits, (channel.getPacketData availableBits).2 = some (messages, usedBits) →
        (ChannelPacketData.unreliable messages).Writable factory config ∧
          (32 + (ChannelPacketData.unreliable messages : ChannelPacketData UInt16 M).bits config :
            ℕ) = usedBits ∧
          usedBits ≤ availableBits := by
  obtain ⟨taken, bits, rest, heq, hsublist⟩ := takeMessages_sublist
    (budgetBits config.unreliable.packetBudget availableBits) channel.messageSendQueue []
    conservativeMessageHeaderBits
  have hnone : ([] : List M).length ≤ config.unreliable.maxMessagesPerPacket := Nat.zero_le _
  obtain ⟨rfl, hlength, hbits⟩ := takeMessages_spent hnone heq
  have hqueued := hsublist.subset
  rw [List.nil_append] at heq hlength
  rw [getPacketData, heq]
  refine ⟨fun message hmem => hqueued (List.mem_append_right taken hmem),
    fun messages usedBits hsome => ?_⟩
  dsimp only at hsome
  split at hsome
  · cases hsome
  next hne =>
    obtain ⟨rfl, rfl⟩ := Prod.mk.inj (Option.some_inj.mp hsome)
    refine ⟨⟨hne, hlength, fun message hmem =>
      hqueue message (hqueued (List.mem_append_left rest hmem))⟩, ?_, ?_⟩
    · rw [ChannelPacketData.bits, Nat.cast_add]
      rfl
    · exact (hbits hne).trans (ReliableOrderedChannel.budgetBits_le _ _)

/-- What a connection generates fits. -/
theorem Connection.generatePacket_fits {connection : Connection ℤ config} {sent : List M}
    (hsending : connection.reliable.Sending sent)
    (hmeasured : ReliableOrderedChannel.Measured config.reliable
      connection.reliable.messageSendQueue)
    (hvalid : config.Valid) (hfit : PacketsFit factory config)
    (hsent : ∀ message ∈ sent, factory.Carries config.reliable.measuredBits message)
    (hqueue : ∀ message ∈ connection.unreliable.messageSendQueue,
      factory.Carries config.unreliable.measuredBits message) (packetSequence : ℤ) :
    EntriesFit factory config
      ((connection.generatePacket packetSequence).2.map ChannelPacketData.wrapped) := by
  have hsize := hfit.maxPacketSize_ge
  rw [generatePacket]
  cases hreliable : connection.reliable.getPacketData packetSequence
      (config.maxPacketSize * 8 - conservativePacketHeaderBits) with
  | mk reliable reliableData =>
      cases reliableData with
      | none =>
          obtain ⟨_, hunreliable⟩ := connection.unreliable.getPacketData_fits hqueue
            (config.maxPacketSize * 8 - conservativePacketHeaderBits)
          dsimp only
          cases hdata : (connection.unreliable.getPacketData
              (config.maxPacketSize * 8 - conservativePacketHeaderBits)).2 with
          | none =>
              refine ⟨Nat.zero_le 2, List.forall_mem_nil _, ?_⟩
              change 2 + 0 + 32 ≤ 8 * config.maxPacketSize
              omega
          | some data =>
              obtain ⟨hwritable, hbits, hle⟩ := hunreliable data.1 data.2 hdata
              refine ⟨Nat.le_succ 1, List.forall_mem_singleton.mpr hwritable, ?_⟩
              change 2 + (14 + (ChannelPacketData.unreliable data.1).bits config + 0) + 32 ≤
                8 * config.maxPacketSize
              rw [conservativePacketHeaderBits] at hle
              omega
      | some reliableData =>
          obtain ⟨messages, packetDataBits⟩ := reliableData
          have hpacked := hsending.packed hmeasured hvalid.reliable hfit.reliable_pos hreliable
          obtain ⟨hwritable, hbits⟩ := hpacked.writable hsent
          have hle := hpacked.usedBits_le
          obtain ⟨_, hunreliable⟩ := connection.unreliable.getPacketData_fits hqueue
            (config.maxPacketSize * 8 - conservativePacketHeaderBits -
              conservativeChannelHeaderBits - packetDataBits)
          rw [conservativePacketHeaderBits] at hle
          dsimp only
          cases hdata : (connection.unreliable.getPacketData
              (config.maxPacketSize * 8 - conservativePacketHeaderBits -
                conservativeChannelHeaderBits - packetDataBits)).2 with
          | none =>
              refine ⟨Nat.le_succ 1, List.forall_mem_singleton.mpr hwritable, ?_⟩
              change 2 + (14 + (ChannelPacketData.reliable messages).wrapped.bits config + 0) + 32 ≤
                8 * config.maxPacketSize
              omega
          | some data =>
              obtain ⟨hwritableOther, hbitsOther, hleOther⟩ := hunreliable data.1 data.2 hdata
              refine ⟨le_rfl, List.forall_mem_cons.mpr
                ⟨hwritable, List.forall_mem_singleton.mpr hwritableOther⟩, ?_⟩
              change 2 + (14 + (ChannelPacketData.reliable messages).wrapped.bits config +
                (14 + (ChannelPacketData.unreliable data.1).bits config + 0)) + 32 ≤
                  8 * config.maxPacketSize
              rw [conservativePacketHeaderBits, conservativeChannelHeaderBits] at hleOther
              omega

end Packets

/-! ## Every packet of a run -/

namespace ReliableOrderedChannel

variable {M τ : Type} {config : ChannelConfig M τ} {channel : ReliableOrderedChannel ℤ config}
  {sent : List M}

theorem Measured.sendMessage (h : Measured config channel.messageSendQueue)
    (hsending : channel.Sending sent) (hsize : 0 < config.messageSendQueueSize) (message : M) :
    Measured config (channel.sendMessage message).messageSendQueue := by
  obtain ⟨after, hinsert, _, _, hfind⟩ :=
    hsending.windowed.exists_insert hsize 65535
      ⟨message, config.measuredBits message, config.neverSent⟩
      (show _ ≤ channel.sendMessageId + _ by
        rw [hsending.sequence, hsending.sendMessageId]
        omega)
  rw [ReliableOrderedChannel.sendMessage]
  split
  · exact h
  split
  · exact h
  rw [sequenceBufferInsert, hinsert]
  intro messageId found hfound
  rw [hfind] at hfound
  split at hfound
  · obtain rfl := Option.some_inj.mp hfound
    rfl
  · split at hfound
    · exact h hfound
    · cases hfound

theorem Measured.ackMessages (h : Measured config channel.messageSendQueue) (messageIds : List ℤ) :
    Measured config (messageIds.foldl ackMessage channel).messageSendQueue := by
  induction messageIds generalizing channel with
  | nil => exact h
  | cons messageId messageIds ih =>
      apply ih
      rw [ackMessage]
      split
      · exact fun _ _ hfound => h (SequenceRing.find_of_find_remove hfound)
      · exact h

theorem Measured.processAcks (h : Measured config channel.messageSendQueue) (acks : List ℤ) :
    Measured config (acks.foldl processAck channel).messageSendQueue := by
  induction acks generalizing channel with
  | nil => exact h
  | cons ack acks ih =>
      apply ih
      rw [processAck]
      split
      · exact h
      · exact h.ackMessages _

theorem Measured.getPacketData (h : Measured config channel.messageSendQueue)
    (hsending : channel.Sending sent) (packetSequence availableBits : ℤ) :
    Measured config
      (channel.getPacketData packetSequence availableBits).1.messageSendQueue := by
  have hspent := hsending.spent h availableBits
  rw [ReliableOrderedChannel.getPacketData]
  split
  · dsimp only
    split
    · exact hspent.measured
    · rw [addMessagePacketEntry]
      split
      · exact hspent.measured
      · exact hspent.measured
  · exact h

end ReliableOrderedChannel

section Runs

variable {M τ : Type} {factory : MessageFactory M} {config : ConnectionConfig M τ}
  {node after target : Node ℤ config}

/-- A message that is to be sent is in its range. -/
def Action.Carried (factory : MessageFactory M) (config : ConnectionConfig M τ) :
    Action M τ → Prop
  | sendMessage _ message => factory.Carries config.reliable.measuredBits message
  | sendUnreliable _ message => factory.Carries config.unreliable.measuredBits message
  | _ => True

/-- All messages of a side are in their ranges, and all its packets fit. -/
structure Node.Fitting (factory : MessageFactory M) (node : Node ℤ config) : Prop where
  sent : ∀ message ∈ node.sent, factory.Carries config.reliable.measuredBits message
  queued : ∀ message ∈ node.connection.unreliable.messageSendQueue,
    factory.Carries config.unreliable.measuredBits message
  measured : ReliableOrderedChannel.Measured config.reliable
    node.connection.reliable.messageSendQueue
  packets : ∀ packet ∈ node.transmitted, EntriesFit factory config packet.wrapped.channelEntry
  headers : ∀ packet ∈ node.transmitted, packet.header.ackBits < 2 ^ 32

namespace Node

theorem fitting_create (time : τ) : (create time : Node ℤ config).Fitting factory where
  sent := List.forall_mem_nil _
  queued := List.forall_mem_nil _
  measured _ _ hfound := by cases hfound
  packets := List.forall_mem_nil _
  headers := List.forall_mem_nil _

theorem Fitting.of_same (h : node.Fitting factory) (hsent : after.sent = node.sent)
    (hqueue : after.connection.unreliable.messageSendQueue =
      node.connection.unreliable.messageSendQueue)
    (hreliable : after.connection.reliable.messageSendQueue =
      node.connection.reliable.messageSendQueue)
    (htransmitted : after.transmitted = node.transmitted) : after.Fitting factory where
  sent := hsent ▸ h.sent
  queued := hqueue ▸ h.queued
  measured := hreliable ▸ h.measured
  packets := htransmitted ▸ h.packets
  headers := htransmitted ▸ h.headers

theorem Fitting.sendMessage (h : node.Fitting factory) (hdirection : Direction node target)
    (hvalid : config.Valid) {message : M}
    (hcarries : factory.Carries config.reliable.measuredBits message) :
    (node.sendMessage message).Fitting factory where
  sent other hmem := by
    rw [Node.sendMessage] at hmem
    dsimp only at hmem
    split at hmem
    · obtain hmem | hmem := List.mem_append.mp hmem
      · exact h.sent other hmem
      · obtain rfl := List.mem_singleton.mp hmem
        exact hcarries
    · exact h.sent other hmem
  queued := h.queued
  measured := h.measured.sendMessage hdirection.sending
    (Nat.pos_of_dvd_of_pos hvalid.reliable.messageSendQueueSize_dvd (by decide)) message
  packets := h.packets
  headers := h.headers

theorem Fitting.receiveMessage (h : node.Fitting factory) :
    node.receiveMessage.Fitting factory := by
  rw [Node.receiveMessage]
  split
  · exact h
  · next message reliable hreceive =>
      obtain ⟨id, queue, rfl⟩ := node.connection.reliable.receiveMessage_eq hreceive
      exact h.of_same rfl rfl rfl rfl

theorem Fitting.sendUnreliable (h : node.Fitting factory) {message : M}
    (hcarries : factory.Carries config.unreliable.measuredBits message) :
    (node.sendUnreliable message).Fitting factory where
  sent := h.sent
  queued other hmem := by
    change other ∈ (node.connection.unreliable.sendMessage message).messageSendQueue at hmem
    rw [UnreliableUnorderedChannel.sendMessage] at hmem
    split at hmem
    · exact h.queued other hmem
    split at hmem
    · exact h.queued other hmem
    obtain hmem | hmem := List.mem_append.mp hmem
    · exact h.queued other hmem
    · obtain rfl := List.mem_singleton.mp hmem
      exact hcarries
  measured := h.measured
  packets := h.packets
  headers := h.headers

theorem Fitting.receiveUnreliable (h : node.Fitting factory) :
    node.receiveUnreliable.Fitting factory := by
  rw [Node.receiveUnreliable]
  split
  · exact h
  · next message unreliable hreceive =>
      rw [UnreliableUnorderedChannel.receiveMessage] at hreceive
      split at hreceive
      · cases hreceive
      split at hreceive
      · cases hreceive
      obtain ⟨rfl, rfl⟩ := Prod.mk.inj (Option.some_inj.mp hreceive)
      exact h.of_same rfl rfl rfl rfl

/-- The packet that is sent fits. -/
theorem Fitting.sendPacket (h : node.Fitting factory) (hdirection : Direction node target)
    (hvalid : config.Valid) (hfit : PacketsFit factory config) :
    node.sendPacket.Fitting factory := by
  rw [Node.sendPacket]
  split
  · exact h
  have hentries := Connection.generatePacket_fits hdirection.sending h.measured hvalid hfit h.sent
    h.queued node.endpoint.sequence
  have hheader := node.endpoint.ackBits_sendPacket_lt
  refine ⟨h.sent, fun message hmem => ?_, ?_, fun packet hmem => ?_, fun packet hmem => ?_⟩
  · exact h.queued message ((node.connection.unreliable.getPacketData_fits h.queued _).1 hmem)
  · exact h.measured.getPacketData hdirection.sending _ _
  · obtain hmem | hmem := List.mem_append.mp hmem
    · exact h.packets packet hmem
    · obtain rfl := List.mem_singleton.mp hmem
      exact hentries
  · obtain hmem | hmem := List.mem_append.mp hmem
    · exact h.headers packet hmem
    · obtain rfl := List.mem_singleton.mp hmem
      exact hheader

/-- Processing a packet leaves what is to be sent as it is. -/
theorem processEntries_queues {ν : Type} [SequenceNumber ν] [DecidableEq ν]
    (entries : List (ChannelPacketData ν M)) (connection : Connection ν config) :
    (Connection.processEntries entries connection).2.reliable.messageSendQueue =
        connection.reliable.messageSendQueue ∧
      (Connection.processEntries entries connection).2.unreliable.messageSendQueue =
        connection.unreliable.messageSendQueue := by
  induction entries generalizing connection with
  | nil => exact ⟨rfl, rfl⟩
  | cons entry entries ih =>
      cases entry with
      | reliable messages =>
          obtain ⟨level, queue, hframe⟩ := connection.reliable.processPacketData_eq messages
          rw [Connection.processEntries]
          dsimp only
          split
          · simp [hframe]
          · have hrest := ih
              { connection with reliable := connection.reliable.processPacketData messages }
            simpa [hframe] using hrest
      | unreliable messages =>
          have hqueue : (connection.unreliable.processPacketData messages).messageSendQueue =
              connection.unreliable.messageSendQueue := by
            rw [UnreliableUnorderedChannel.processPacketData]
            split <;> rfl
          rw [Connection.processEntries]
          dsimp only
          split
          · exact ⟨rfl, hqueue⟩
          · obtain ⟨hreliable, hunreliable⟩ := ih
              { connection with unreliable := connection.unreliable.processPacketData messages }
            exact ⟨hreliable, hunreliable.trans hqueue⟩

theorem Fitting.receivePacket (h : node.Fitting factory) (position : ℕ) (packet : Packet ℤ M) :
    (node.receivePacket position packet).Fitting factory := by
  obtain heq | ⟨success, connection, hprocess, hlevel, _, houtcome⟩ :=
    node.receivePacket_cases position packet
  · rw [heq]
    exact h
  rw [Connection.processPacket, if_neg (not_not.mpr hlevel)] at hprocess
  obtain ⟨hreliable, hunreliable⟩ := processEntries_queues packet.channelEntry node.connection
  rw [hprocess] at hreliable hunreliable
  obtain ⟨_, heq⟩ | ⟨_, receivedPackets, _, heq⟩ := houtcome
  · rw [heq]
    exact h.of_same rfl hunreliable hreliable rfl
  · rw [heq]
    exact h.of_same rfl hunreliable hreliable rfl

theorem Fitting.receiveFragment (h : node.Fitting factory) (packet : Packet ℤ M) :
    (node.receiveFragment packet).Fitting factory := by
  rw [Node.receiveFragment]
  split
  · exact h
  · exact h.of_same rfl rfl rfl rfl

theorem Fitting.advanceTime (h : node.Fitting factory) (time : τ) :
    (node.advanceTime time).Fitting factory := by
  rw [Node.advanceTime]
  split
  · exact h
  obtain ⟨level, hframe⟩ := node.connection.advanceTime_eq time
  dsimp only
  rw [hframe]
  split
  · exact h.of_same rfl rfl rfl rfl
  · let later : ReliableOrderedChannel ℤ config.reliable :=
      { node.connection.reliable with time }
    have hmeasured : ReliableOrderedChannel.Measured config.reliable later.messageSendQueue :=
      h.measured
    exact ⟨h.sent, h.queued, hmeasured.processAcks node.endpoint.acks, h.packets, h.headers⟩

end Node

namespace Network

variable {network : Network ℤ config}

/-- Both sides are. -/
def Fitting (factory : MessageFactory M) (network : Network ℤ config) : Prop :=
  ∀ side, (network side).Fitting factory

theorem fitting_create (time : τ) : (create time : Network ℤ config).Fitting factory :=
  fun _ => Node.fitting_create time

theorem Fitting.next (h : network.Fitting factory) (hconsistent : network.Consistent)
    (hvalid : config.Valid) (hfit : PacketsFit factory config) {action : Action M τ}
    (hcarried : action.Carried factory config) : (network.next action).Fitting factory := by
  have hafter : (network.perform action).Fitting factory := by
    cases action with
    | sendMessage side message => exact (h side).sendMessage (hconsistent side) hvalid hcarried
    | receiveMessage side => exact (h side).receiveMessage
    | sendUnreliable side message => exact (h side).sendUnreliable hcarried
    | receiveUnreliable side => exact (h side).receiveUnreliable
    | sendPacket side => exact (h side).sendPacket (hconsistent side) hvalid hfit
    | receivePacket side position =>
        rw [perform]
        split
        · exact h side
        · exact (h side).receivePacket position _
    | receiveFragment side position =>
        rw [perform]
        split
        · exact h side
        · exact (h side).receiveFragment _
    | advanceTime side time => exact (h side).advanceTime time
  intro side
  rw [Network.next, Function.update_apply]
  split
  · exact hafter
  · exact h side

end Network

end Runs

end LibBench.Transport
