/-
# The reliable channel: receiving

What the receiving half of a reliable channel holds, with numbers that do not
come round. The queue is a window that begins with the next message to be handed
out. A message that has arrived is held: it has been handed out already, or it
waits in the queue, and neither is ever undone.
-/

import LibBench.Transport.SendWindow

namespace LibBench.Transport

open LibBench.Math SequenceNumber

namespace ReliableOrderedChannel

section Frame

variable {ν M τ : Type} [SequenceNumber ν] [DecidableEq ν] {config : ChannelConfig M τ}

/-- Processing messages changes the receive queue and the error level. -/
theorem processMessages_eq (minMessageId maxMessageId : ν) (messages : List (ν × M))
    (channel : ReliableOrderedChannel ν config) :
    ∃ errorLevel messageReceiveQueue,
      processMessages minMessageId maxMessageId messages channel =
        { channel with errorLevel, messageReceiveQueue } := by
  induction messages generalizing channel with
  | nil => exact ⟨channel.errorLevel, channel.messageReceiveQueue, rfl⟩
  | cons pair messages ih =>
      obtain ⟨messageId, message⟩ := pair
      rw [processMessages]
      split
      · exact ih channel
      split
      · exact ⟨.desync, channel.messageReceiveQueue, rfl⟩
      split
      · exact ih channel
      split
      · exact ⟨.desync, channel.messageReceiveQueue, rfl⟩
      · next messageReceiveQueue _ => exact ih { channel with messageReceiveQueue }

theorem processPacketData_eq (channel : ReliableOrderedChannel ν config)
    (messages : List (ν × M)) :
    ∃ errorLevel messageReceiveQueue,
      channel.processPacketData messages = { channel with errorLevel, messageReceiveQueue } := by
  rw [processPacketData]
  split
  · exact ⟨channel.errorLevel, channel.messageReceiveQueue, rfl⟩
  · exact processMessages_eq _ _ _ _

end Frame

variable {M τ : Type} {config : ChannelConfig M τ} {channel : ReliableOrderedChannel ℤ config}
  {received sent : List M}

/-- The message has arrived: it has been handed out, or it waits in the queue. -/
def Held (channel : ReliableOrderedChannel ℤ config) (messageId : ℤ) : Prop :=
  messageId < channel.receiveMessageId ∨ channel.messageReceiveQueue.find messageId ≠ none

/-- The receiving half of a channel that has handed out the one list of messages,
with the other list accepted on the other side. -/
structure Receiving (channel : ReliableOrderedChannel ℤ config) (received sent : List M) :
    Prop where
  receiveMessageId : channel.receiveMessageId = received.length
  windowed : channel.messageReceiveQueue.Windowed
  le_sequence : (received.length : ℤ) ≤ channel.messageReceiveQueue.sequence
  sequence_le : channel.messageReceiveQueue.sequence ≤
    received.length + config.messageReceiveQueueSize
  entry : ∀ ⦃messageId message⦄, channel.messageReceiveQueue.find messageId = some message →
    (received.length : ℤ) ≤ messageId ∧ sent[messageId.toNat]? = some message
  isPrefix : received <+: sent

theorem receiving_create (time : τ) :
    (create time : ReliableOrderedChannel ℤ config).Receiving [] [] where
  receiveMessageId := rfl
  windowed := SequenceRing.windowed_empty
  le_sequence := le_rfl
  sequence_le := by simp [create, SequenceRing.empty]
  entry _ _ h := by cases h
  isPrefix := List.prefix_rfl

theorem Receiving.mono (h : channel.Receiving received sent) {later : List M}
    (hsent : sent <+: later) : channel.Receiving received later :=
  { h with
    entry := fun _ _ hfind => (h.entry hfind).imp_right (getElem?_of_isPrefix hsent)
    isPrefix := h.isPrefix.trans hsent }

/-- Handing out the next message keeps the order in which the messages were
accepted. -/
theorem Receiving.receiveMessage (h : channel.Receiving received sent) {message : M}
    {after : ReliableOrderedChannel ℤ config}
    (hreceive : channel.receiveMessage = some (message, after)) :
    after.Receiving (received ++ [message]) sent ∧
      ∀ messageId, channel.Held messageId → after.Held messageId := by
  rw [ReliableOrderedChannel.receiveMessage] at hreceive
  split at hreceive
  · cases hreceive
  split at hreceive
  · cases hreceive
  next other hfind =>
    obtain ⟨rfl, rfl⟩ := Prod.mk.inj (Option.some_inj.mp hreceive)
    have hin := h.windowed.inWindow hfind
    have hnext := (h.entry hfind).2
    have hwindow := hin.1
    rw [h.receiveMessageId] at hwindow hnext
    obtain ⟨rest, rfl⟩ := h.isPrefix
    rw [Int.toNat_natCast, List.getElem?_append_right le_rfl, Nat.sub_self] at hnext
    obtain ⟨rest, rfl⟩ : ∃ later, rest = other :: later := by
      cases rest with
      | nil => cases hnext
      | cons first later => exact ⟨later, by rw [Option.some_inj.mp hnext]⟩
    have hremove : ∀ messageId,
        (channel.messageReceiveQueue.remove channel.receiveMessageId).find messageId =
          if messageId = channel.receiveMessageId then none
          else channel.messageReceiveQueue.find messageId :=
      fun messageId => h.windowed.find_remove hin
    refine ⟨⟨?_, h.windowed.remove, ?_, ?_, fun messageId found hfound => ?_, ?_⟩,
      fun messageId hheld => ?_⟩
    · simp [h.receiveMessageId]
    · simp only [List.length_append, List.length_singleton]
      exact hwindow
    · have hle := h.sequence_le
      simp only [List.length_append, List.length_singleton]
      change channel.messageReceiveQueue.sequence ≤ _
      omega
    · change (channel.messageReceiveQueue.remove _).find _ = _ at hfound
      rw [hremove] at hfound
      split at hfound
      · cases hfound
      · next hne =>
          obtain ⟨hle, hsent⟩ := h.entry hfound
          rw [h.receiveMessageId] at hne
          refine ⟨?_, hsent⟩
          simp only [List.length_append, List.length_singleton]
          omega
    · exact ⟨rest, by simp⟩
    · obtain hbefore | hwaits := hheld
      · exact .inl (hbefore.trans (by simp))
      · by_cases heq : messageId = channel.receiveMessageId
        · exact .inl (by simp [heq])
        · right
          change (channel.messageReceiveQueue.remove _).find _ ≠ none
          rwa [hremove, if_neg heq]

/-- A message that the queue has room for goes into it. -/
theorem Receiving.insert (h : channel.Receiving received sent)
    (hsize : 0 < config.messageReceiveQueueSize) {messageId : ℤ} {message : M}
    (hge : channel.receiveMessageId ≤ messageId)
    (hle : messageId ≤ channel.receiveMessageId + (config.messageReceiveQueueSize - 1))
    (hsent : sent[messageId.toNat]? = some message) :
    ∃ queue, sequenceBufferInsert channel.messageReceiveQueue messageId message = some queue ∧
      Receiving { channel with messageReceiveQueue := queue } received sent ∧
      queue.find messageId ≠ none ∧
      ∀ other, channel.messageReceiveQueue.find other ≠ none → queue.find other ≠ none := by
  have hreceive := h.receiveMessageId
  have hsequence := h.sequence_le
  obtain ⟨queue, hinsert, hwindowed, hqueue, hfind⟩ :=
    h.windowed.exists_insert hsize 65535 message (show _ ≤ messageId + _ by omega)
  refine ⟨queue, hinsert,
    ⟨hreceive, hwindowed, ?_, ?_, fun other found hfound => ?_, h.isPrefix⟩, by simp [hfind],
    fun other hwaits => ?_⟩
  · change _ ≤ queue.sequence
    have hlower := h.le_sequence
    omega
  · change queue.sequence ≤ _
    omega
  · change queue.find other = some found at hfound
    rw [hfind] at hfound
    split at hfound
    · next heq =>
        obtain rfl := Option.some_inj.mp hfound
        subst heq
        exact ⟨by omega, hsent⟩
    · split at hfound
      · exact h.entry hfound
      · cases hfound
  · obtain ⟨found, hfound⟩ := Option.ne_none_iff_exists'.mp hwaits
    have hother := (h.entry hfound).1
    rw [hfind]
    split
    · exact Option.some_ne_none _
    · rwa [if_pos (by omega)]

/-- Processing the messages of a packet, from the first of them on. -/
theorem Receiving.processMessages (h : channel.Receiving received sent)
    (hsize : 0 < config.messageReceiveQueueSize) {messages : List (ℤ × M)}
    (hmessages : ∀ pair ∈ messages, 0 ≤ pair.1 ∧ sent[pair.1.toNat]? = some pair.2)
    {maxMessageId : ℤ}
    (hmax : maxMessageId = channel.receiveMessageId + (config.messageReceiveQueueSize - 1))
    {after : ReliableOrderedChannel ℤ config}
    (hafter : ReliableOrderedChannel.processMessages channel.receiveMessageId maxMessageId messages
      channel = after) :
    after.Receiving received sent ∧ (∀ messageId, channel.Held messageId → after.Held messageId) ∧
      (after.errorLevel = .none → ∀ pair ∈ messages, after.Held pair.1) := by
  induction messages generalizing channel with
  | nil =>
      subst hafter
      exact ⟨h, fun _ hheld => hheld, fun _ _ hmem => by cases hmem⟩
  | cons pair messages ih =>
      obtain ⟨messageId, message⟩ := pair
      obtain ⟨hnonneg, hsent⟩ := hmessages _ List.mem_cons_self
      have hrest : ∀ pair ∈ messages, 0 ≤ pair.1 ∧ sent[pair.1.toNat]? = some pair.2 :=
        fun pair hmem => hmessages pair (List.mem_cons_of_mem _ hmem)
      -- the first message is held before the others are processed
      have hgo : ∀ next : ReliableOrderedChannel ℤ config, next.Receiving received sent →
          next.receiveMessageId = channel.receiveMessageId → next.Held messageId →
          (∀ other, channel.Held other → next.Held other) →
          ReliableOrderedChannel.processMessages channel.receiveMessageId maxMessageId messages
            next = after →
          after.Receiving received sent ∧
            (∀ other, channel.Held other → after.Held other) ∧
            (after.errorLevel = .none → ∀ pair ∈ (messageId, message) :: messages,
              after.Held pair.1) := by
        intro next hnext hid hheld hmono hrun
        rw [← hid] at hmax hrun
        obtain ⟨hreceiving, hlater, hall⟩ := ih hnext hrest hmax hrun
        refine ⟨hreceiving, fun other hother => hlater other (hmono other hother), ?_⟩
        rintro hnone pair hmem
        obtain rfl | hmem := List.mem_cons.mp hmem
        · exact hlater _ hheld
        · exact hall hnone pair hmem
      rw [ReliableOrderedChannel.processMessages, lessThan_count, greaterThan_count] at hafter
      split at hafter
      · next hbefore =>
          exact hgo channel h rfl (.inl (of_decide_eq_true hbefore)) (fun _ hheld => hheld) hafter
      split at hafter
      · subst hafter
        exact ⟨⟨h.receiveMessageId, h.windowed, h.le_sequence, h.sequence_le, h.entry, h.isPrefix⟩,
          fun _ hheld => hheld, fun hnone => by cases hnone⟩
      split at hafter
      · next hsome =>
          exact hgo channel h rfl (.inr (Option.isSome_iff_ne_none.mp hsome))
            (fun _ hheld => hheld) hafter
      next hge hle hmissing =>
        have hge : channel.receiveMessageId ≤ messageId := not_lt.mp (mt decide_eq_true hge)
        have hle : messageId ≤ maxMessageId := not_lt.mp (mt decide_eq_true hle)
        obtain ⟨queue, hinsert, hnext, hnew, hkept⟩ := h.insert hsize hge (hmax ▸ hle) hsent
        rw [hinsert] at hafter
        exact hgo { channel with messageReceiveQueue := queue } hnext rfl (.inr hnew)
          (fun other hother => hother.imp_right (hkept other)) hafter

/-- Processing a packet: without an error, all its messages are held. -/
theorem Receiving.processPacketData (h : channel.Receiving received sent)
    (hsize : 0 < config.messageReceiveQueueSize) {messages : List (ℤ × M)}
    (hmessages : ∀ pair ∈ messages, 0 ≤ pair.1 ∧ sent[pair.1.toNat]? = some pair.2) :
    (channel.processPacketData messages).Receiving received sent ∧
      (∀ messageId, channel.Held messageId →
        (channel.processPacketData messages).Held messageId) ∧
      ((channel.processPacketData messages).errorLevel = .none →
        ∀ pair ∈ messages, (channel.processPacketData messages).Held pair.1) := by
  rw [ReliableOrderedChannel.processPacketData]
  split
  · next herror => exact ⟨h, fun _ hheld => hheld, fun hnone => absurd hnone herror⟩
  · exact h.processMessages hsize hmessages rfl rfl

end ReliableOrderedChannel

end LibBench.Transport
