/-
# The reliable channel: sending

What the sending half of a reliable channel holds, with numbers that do not come
round. The queue is a window on the messages that the channel has accepted: from
the oldest one that is not acknowledged, which it holds, to the newest. A message
is the one accepted under its number, and leaves the queue in no other way than
by an acknowledgement of a packet that carried it.
-/

import LibBench.Transport.Channel

namespace LibBench.Transport

open LibBench.Math SequenceNumber

/-- The sizes that a channel is configured with. The source asserts that they
divide the turn of the numbers; it does not ask for more than one window to fit
into a turn. -/
structure ChannelConfig.Valid {M τ : Type} (config : ChannelConfig M τ) : Prop where
  sentPacketBufferSize_dvd : config.sentPacketBufferSize ∣ 65536
  messageSendQueueSize_dvd : config.messageSendQueueSize ∣ 65536
  messageReceiveQueueSize_dvd : config.messageReceiveQueueSize ∣ 65536
  sentPacketBufferSize_le : config.sentPacketBufferSize ≤ 16384
  messageSendQueueSize_le : config.messageSendQueueSize ≤ 16384
  messageReceiveQueueSize_le : config.messageReceiveQueueSize ≤ 16384

/-- What a list holds at a position it also holds when it has grown. -/
theorem getElem?_of_isPrefix {α : Type*} {before after : List α} (h : before <+: after) {i : ℕ}
    {member : α} (hmember : before[i]? = some member) : after[i]? = some member := by
  obtain ⟨rest, rfl⟩ := h
  rwa [List.getElem?_append_left (List.getElem?_eq_some_iff.mp hmember).1]

namespace ReliableOrderedChannel

variable {M τ : Type} {config : ChannelConfig M τ} {channel : ReliableOrderedChannel ℤ config}
  {sent : List M}

/-- The sending half of a channel that has accepted these messages. -/
structure Sending (channel : ReliableOrderedChannel ℤ config) (sent : List M) : Prop where
  sendMessageId : channel.sendMessageId = sent.length
  sequence : channel.messageSendQueue.sequence = sent.length
  windowed : channel.messageSendQueue.Windowed
  oldest_nonneg : 0 ≤ channel.oldestUnackedMessageId
  oldest_le : channel.oldestUnackedMessageId ≤ sent.length
  oldest : channel.oldestUnackedMessageId < sent.length →
    channel.messageSendQueue.find channel.oldestUnackedMessageId ≠ none
  entry : ∀ ⦃messageId found⦄, channel.messageSendQueue.find messageId = some found →
    channel.oldestUnackedMessageId ≤ messageId ∧ sent[messageId.toNat]? = some found.message

theorem sending_create (time : τ) : (create time : ReliableOrderedChannel ℤ config).Sending [] where
  sendMessageId := rfl
  sequence := rfl
  windowed := SequenceRing.windowed_empty
  oldest_nonneg := le_rfl
  oldest_le := le_rfl
  oldest h := absurd h (lt_irrefl _)
  entry _ _ h := by cases h

/-- The window is no longer than the queue. -/
theorem Sending.length_le (h : channel.Sending sent) :
    (sent.length : ℤ) ≤ channel.oldestUnackedMessageId + config.messageSendQueueSize := by
  have hle := h.oldest_le
  obtain hlt | heq := lt_or_eq_of_le hle
  · obtain ⟨found, hfind⟩ := Option.ne_none_iff_exists'.mp (h.oldest hlt)
    have hin := (h.windowed.inWindow hfind).2
    rwa [h.sequence] at hin
  · omega

theorem Sending.canSendMessage_iff (h : channel.Sending sent)
    (hsize : 0 < config.messageSendQueueSize) :
    channel.canSendMessage = true ↔
      (sent.length : ℤ) < channel.oldestUnackedMessageId + config.messageSendQueueSize := by
  have hiff := h.windowed.available_sequence_iff hsize
  rw [h.sequence, ← h.sendMessageId] at hiff
  rw [canSendMessage, hiff, h.sendMessageId]
  have hlength := h.length_le
  constructor
  · intro hnone
    by_contra hfull
    have holdest : channel.oldestUnackedMessageId = sent.length - config.messageSendQueueSize := by
      omega
    have hfound := h.oldest (by omega)
    rw [holdest] at hfound
    exact hfound hnone
  · intro hlt
    by_contra hsome
    obtain ⟨found, hfind⟩ := Option.ne_none_iff_exists'.mp hsome
    have hle := (h.entry hfind).1
    omega

/-- What accepting a message does. -/
theorem Sending.sendMessage (h : channel.Sending sent) (hsize : 0 < config.messageSendQueueSize)
    (hlevel : channel.errorLevel = .none) (hcan : channel.canSendMessage = true) (message : M) :
    (channel.sendMessage message).Sending (sent ++ [message]) ∧
      (channel.sendMessage message).messageSendQueue.find sent.length ≠ none ∧
      ∀ messageId : ℤ, messageId < sent.length →
        (channel.sendMessage message).messageSendQueue.find messageId =
          channel.messageSendQueue.find messageId := by
  have hroom := (h.canSendMessage_iff hsize).mp hcan
  have hnonneg := h.oldest_nonneg
  obtain ⟨after, hinsert, hwindowed, hsequence, hfind⟩ :=
    h.windowed.exists_insert hsize 65535 ⟨message, config.measuredBits message, config.neverSent⟩
      (show _ ≤ (sent.length : ℤ) + _ from h.sequence.trans_le (by omega))
  have heq : channel.sendMessage message =
      { channel with
        messageSendQueue := after
        sendMessageId := channel.sendMessageId + 1 } := by
    rw [ReliableOrderedChannel.sendMessage, if_neg (not_not.mpr hlevel), hcan, Bool.not_true,
      if_neg Bool.false_ne_true, sequenceBufferInsert, h.sendMessageId, hinsert]
    rfl
  have hnext : max channel.messageSendQueue.sequence ((sent.length : ℤ) + 1) = sent.length + 1 := by
    rw [h.sequence]
    omega
  rw [hnext] at hsequence hfind
  have hkept : ∀ messageId : ℤ, messageId < sent.length →
      after.find messageId = channel.messageSendQueue.find messageId := by
    intro messageId hlt
    rw [hfind, if_neg (by omega)]
    split
    · rfl
    · next hout =>
        symm
        by_contra hsome
        obtain ⟨found, hfound⟩ := Option.ne_none_iff_exists'.mp hsome
        have hle := (h.entry hfound).1
        omega
  rw [heq]
  refine ⟨⟨?_, ?_, hwindowed, hnonneg, ?_, fun hlt => ?_, fun messageId found hfound => ?_⟩,
    by simp [hfind], hkept⟩
  · simp [h.sendMessageId]
  · simp [hsequence]
  · have hle := h.oldest_le
    simp only [List.length_append, List.length_singleton]
    omega
  · change after.find channel.oldestUnackedMessageId ≠ none
    obtain hbefore | hnew := lt_or_eq_of_le h.oldest_le
    · rw [hkept _ hbefore]
      exact h.oldest hbefore
    · simp [hfind, hnew]
  · change after.find messageId = some found at hfound
    by_cases hlt : messageId < sent.length
    · rw [hkept _ hlt] at hfound
      obtain ⟨hle, hmessage⟩ := h.entry hfound
      exact ⟨hle, getElem?_of_isPrefix (List.prefix_append _ _) hmessage⟩
    · have hin := (hwindowed.inWindow hfound).1
      rw [hsequence] at hin
      have hid : messageId = sent.length := by omega
      have hle := h.oldest_le
      rw [hfind, if_pos hid] at hfound
      obtain rfl := Option.some_inj.mp hfound
      subst hid
      exact ⟨hle, by simp⟩

/-- A queue with the same messages under the same numbers. -/
structure SameMessages {size : ℕ}
    (before after : SequenceRing ℤ (MessageSendQueueEntry M τ) size) : Prop where
  windowed : after.Windowed
  sequence : after.sequence = before.sequence
  message : ∀ messageId, (after.find messageId).map MessageSendQueueEntry.message =
    (before.find messageId).map MessageSendQueueEntry.message

theorem SameMessages.refl {size : ℕ} {queue : SequenceRing ℤ (MessageSendQueueEntry M τ) size}
    (h : queue.Windowed) : SameMessages queue queue :=
  ⟨h, rfl, fun _ => rfl⟩

theorem SameMessages.find_eq_none_iff {size : ℕ}
    {before after : SequenceRing ℤ (MessageSendQueueEntry M τ) size}
    (h : SameMessages before after) (messageId : ℤ) :
    after.find messageId = none ↔ before.find messageId = none := by
  rw [← Option.map_eq_none_iff, h.message, Option.map_eq_none_iff]

theorem SameMessages.exists_find {size : ℕ}
    {before after : SequenceRing ℤ (MessageSendQueueEntry M τ) size}
    (h : SameMessages before after) {messageId : ℤ} {found : MessageSendQueueEntry M τ}
    (hfind : after.find messageId = some found) :
    ∃ other, before.find messageId = some other ∧ other.message = found.message := by
  have hmessage := h.message messageId
  rw [hfind, Option.map_some, eq_comm, Option.map_eq_some_iff] at hmessage
  exact hmessage

/-- Sending does not depend on when a message was last sent, nor on what is
remembered of the packets sent. -/
theorem Sending.of_sameMessages (h : channel.Sending sent)
    {after : SequenceRing ℤ (MessageSendQueueEntry M τ) config.messageSendQueueSize}
    (hsame : SameMessages channel.messageSendQueue after)
    (sentPackets : SequenceRing ℤ (List ℤ) config.sentPacketBufferSize) :
    Sending { channel with messageSendQueue := after, sentPackets } sent where
  sendMessageId := h.sendMessageId
  sequence := hsame.sequence.trans h.sequence
  windowed := hsame.windowed
  oldest_nonneg := h.oldest_nonneg
  oldest_le := h.oldest_le
  oldest hlt := mt (hsame.find_eq_none_iff _).mp (h.oldest hlt)
  entry messageId found hfound := by
    obtain ⟨other, hother, hmessage⟩ := hsame.exists_find hfound
    obtain ⟨hle, hsent⟩ := h.entry hother
    exact ⟨hle, hmessage ▸ hsent⟩

/-- What the loop of `GetMessagesToSend` keeps: the numbers it has chosen are of
messages in the queue, in order, and it has not gone beyond the budget. -/
structure Chosen {size : ℕ} (queue : SequenceRing ℤ (MessageSendQueueEntry M τ) size)
    (oldest : ℤ) (i : ℕ) (selection : Selection ℤ M τ size) : Prop where
  sameMessages : SameMessages queue selection.messageSendQueue
  found : ∀ messageId ∈ selection.messageIds, queue.find messageId ≠ none
  bounds : ∀ messageId ∈ selection.messageIds, oldest ≤ messageId ∧ messageId < oldest + i
  previous : selection.messageIds ≠ [] →
    selection.messageIds.getLast? = some selection.previousMessageId
  increasing : selection.messageIds.Pairwise (· < ·)

variable {size : ℕ} {queue : SequenceRing ℤ (MessageSendQueueEntry M τ) size} {oldest : ℤ} {i : ℕ}
  {selection : Selection ℤ M τ size}

theorem Chosen.start (hwindowed : queue.Windowed) (oldest : ℤ) :
    Chosen queue oldest 0 ⟨queue, [], 0, conservativeMessageHeaderBits, 0⟩ where
  sameMessages := SameMessages.refl hwindowed
  found _ hmem := by cases hmem
  bounds _ hmem := by cases hmem
  previous hne := absurd rfl hne
  increasing := List.Pairwise.nil

theorem Chosen.skip (h : Chosen queue oldest i selection) :
    Chosen queue oldest (i + 1) selection :=
  { h with
    bounds := fun messageId hmem => by
      obtain ⟨hge, hlt⟩ := h.bounds messageId hmem
      exact ⟨hge, by push_cast; omega⟩ }

theorem Chosen.giveUp (h : Chosen queue oldest i selection) :
    Chosen queue oldest i { selection with giveUpCounter := selection.giveUpCounter + 1 } :=
  ⟨h.sameMessages, h.found, h.bounds, h.previous, h.increasing⟩

theorem Chosen.add (h : Chosen queue oldest i selection) (usedBits : ℤ) (time : τ)
    {entry : MessageSendQueueEntry M τ}
    (hfind : selection.messageSendQueue.find (oldest + i) = some entry) :
    Chosen queue oldest (i + 1)
      { selection with
        usedBits
        messageIds := selection.messageIds ++ [oldest + i]
        previousMessageId := oldest + i
        messageSendQueue := selection.messageSendQueue.modify (oldest + i)
          fun entry => { entry with timeLastSent := time } } where
  sameMessages :=
    { windowed := h.sameMessages.windowed.modify
      sequence := SequenceRing.sequence_modify.trans h.sameMessages.sequence
      message := fun messageId => by
        rw [h.sameMessages.windowed.find_modify, ← h.sameMessages.message]
        split
        · rw [Option.map_map]
          rfl
        · rfl }
  found messageId hmem := by
    obtain hmem | hmem := List.mem_append.mp hmem
    · exact h.found messageId hmem
    · obtain rfl := List.mem_singleton.mp hmem
      refine mt (h.sameMessages.find_eq_none_iff _).mpr ?_
      rw [hfind]
      exact Option.some_ne_none entry
  bounds messageId hmem := by
    obtain hmem | hmem := List.mem_append.mp hmem
    · exact h.skip.bounds messageId hmem
    · obtain rfl := List.mem_singleton.mp hmem
      exact ⟨by omega, by push_cast; omega⟩
  previous _ := List.getLast?_concat
  increasing := by
    rw [List.pairwise_append]
    refine ⟨h.increasing, List.pairwise_singleton _ _, fun messageId hmem other hother => ?_⟩
    obtain rfl := List.mem_singleton.mp hother
    exact (h.bounds messageId hmem).2

/-- The rule of the loop of `GetMessagesToSend`: a round passes over a number,
gives up on it, or chooses it within the budget. -/
theorem selectMessages_rule (time : τ) (availableBits : ℤ)
    {invariant : ℕ → Selection ℤ M τ config.messageSendQueueSize → Prop}
    (skip : ∀ i selection, invariant i selection → invariant (i + 1) selection)
    (giveUp : ∀ i selection, invariant i selection →
      invariant i { selection with giveUpCounter := selection.giveUpCounter + 1 })
    (choose : ∀ i selection entry, invariant i selection →
      selection.messageSendQueue.find (oldest + i) = some entry →
      config.resendDue entry.timeLastSent time = true →
      selection.usedBits + messageBits config selection (oldest + i) entry ≤ availableBits →
      invariant (i + 1)
        { selection with
          usedBits := selection.usedBits + messageBits config selection (oldest + i) entry
          messageIds := selection.messageIds ++ [oldest + i]
          previousMessageId := oldest + i
          messageSendQueue := selection.messageSendQueue.modify (oldest + i)
            fun entry => { entry with timeLastSent := time } })
    (rounds : ℕ) {i : ℕ} {selection : Selection ℤ M τ config.messageSendQueueSize}
    (h : invariant i selection) :
    invariant (i + rounds)
      (selectMessages config time oldest availableBits rounds i selection) := by
  have stop : ∀ rounds i selection, invariant i selection → invariant (i + rounds) selection := by
    intro rounds
    induction rounds with
    | zero => exact fun _ _ h => h
    | succ rounds ih => exact fun i selection h => skip _ _ (ih i selection h)
  induction rounds generalizing i selection with
  | zero => exact h
  | succ rounds ih =>
      rw [selectMessages, ← Nat.add_assoc, Nat.add_right_comm]
      dsimp only
      split
      · exact stop rounds _ _ (skip _ _ h)
      split
      · exact stop rounds _ _ (skip _ _ h)
      rw [add_count]
      split
      · exact ih (skip _ _ h)
      · next entry hfind =>
          split
          · next hdue =>
              split
              · exact ih (skip _ _ (giveUp _ _ h))
              · next hfits =>
                  have hchosen := choose _ _ _ h hfind hdue.1 (not_lt.mp hfits)
                  split
                  · exact stop rounds _ _ hchosen
                  · exact ih hchosen
          · split
            · exact stop rounds _ _ (skip _ _ h)
            · exact ih (skip _ _ h)

theorem Sending.chosen (h : channel.Sending sent) (availableBits : ℤ) :
    Chosen channel.messageSendQueue channel.oldestUnackedMessageId
      (min config.messageSendQueueSize config.messageReceiveQueueSize)
      (channel.getMessagesToSend availableBits) := by
  have hall := selectMessages_rule channel.time (budgetBits config.packetBudget availableBits)
    (fun _ _ h => Chosen.skip h) (fun _ _ h => Chosen.giveUp h)
    (fun _ _ _ h hfind _ _ => h.add _ _ hfind)
    (min config.messageSendQueueSize config.messageReceiveQueueSize)
    (Chosen.start h.windowed channel.oldestUnackedMessageId)
  rwa [Nat.zero_add] at hall

/-- The messages that go into a packet, in the order of their numbers. -/
theorem map_fst_getMessagePacketData {messageIds : List ℤ}
    (hfound : ∀ messageId ∈ messageIds, channel.messageSendQueue.find messageId ≠ none) :
    (channel.getMessagePacketData messageIds).map Prod.fst = messageIds := by
  induction messageIds with
  | nil => rfl
  | cons messageId messageIds ih =>
      obtain ⟨entry, hfind⟩ := Option.ne_none_iff_exists'.mp (hfound messageId List.mem_cons_self)
      have hrest := ih fun other hmem => hfound other (List.mem_cons_of_mem _ hmem)
      rw [getMessagePacketData, List.filterMap_cons, hfind]
      exact congrArg (messageId :: ·) hrest

theorem mem_getMessagePacketData {messageIds : List ℤ} {messageId : ℤ} {message : M}
    (h : (messageId, message) ∈ channel.getMessagePacketData messageIds) :
    ∃ entry, channel.messageSendQueue.find messageId = some entry ∧ entry.message = message := by
  obtain ⟨other, _, hmap⟩ := List.mem_filterMap.mp h
  obtain ⟨entry, hfind, heq⟩ := Option.map_eq_some_iff.mp hmap
  obtain ⟨rfl, rfl⟩ := Prod.mk.inj heq
  exact ⟨entry, hfind, rfl⟩

/-- What a channel puts into a packet. -/
def packetMessages (data : Option (List (ℤ × M) × ℤ)) : List (ℤ × M) :=
  match data with
  | none => []
  | some (messages, _) => messages

/-- What a packet takes from the channel, and what is remembered of it. -/
theorem Sending.getPacketData (h : channel.Sending sent) (hsize : 0 < config.sentPacketBufferSize)
    (hwindowed : channel.sentPackets.Windowed) {packetSequence : ℤ}
    (hbehind : channel.sentPackets.sequence ≤ packetSequence) (availableBits : ℤ) :
    ∃ messageSendQueue sentPackets data,
      channel.getPacketData packetSequence availableBits =
        ({ channel with messageSendQueue, sentPackets }, data) ∧
      SameMessages channel.messageSendQueue messageSendQueue ∧
      sentPackets.Windowed ∧ sentPackets.sequence ≤ packetSequence + 1 ∧
      (∀ pair ∈ packetMessages data, 0 ≤ pair.1 ∧ sent[pair.1.toNat]? = some pair.2) ∧
      (∀ pair ∈ packetMessages data,
        pair.1 < channel.oldestUnackedMessageId + config.messageReceiveQueueSize) ∧
      ∀ sequence messageIds, sentPackets.find sequence = some messageIds →
        channel.sentPackets.find sequence = some messageIds ∨
          sequence = packetSequence ∧ (packetMessages data).map Prod.fst = messageIds := by
  rw [ReliableOrderedChannel.getPacketData]
  split
  · have hchosen := h.chosen availableBits
    have hsame := hchosen.sameMessages
    dsimp only
    split
    · exact ⟨_, _, none, rfl, hsame, hwindowed, by omega, fun _ hmem => (by cases hmem),
        fun _ hmem => (by cases hmem), fun _ _ hfind => .inl hfind⟩
    · obtain ⟨sentPackets, hinsert, hafter, hsequence, hfind⟩ :=
        hwindowed.exists_insert hsize 65535 (channel.getMessagesToSend availableBits).messageIds
          (show _ ≤ packetSequence + _ by omega)
      have hfound : ∀ messageId ∈ (channel.getMessagesToSend availableBits).messageIds,
          (channel.getMessagesToSend availableBits).messageSendQueue.find messageId ≠ none :=
        fun messageId hmem => mt (hsame.find_eq_none_iff _).mp (hchosen.found messageId hmem)
      rw [addMessagePacketEntry, sequenceBufferInsert]
      dsimp only
      rw [hinsert]
      refine ⟨_, sentPackets, _, rfl, hsame, hafter, by omega, fun pair hmem => ?_,
        fun pair hmem => ?_, fun sequence messageIds hsome => ?_⟩
      · obtain ⟨entry, hentry, hmessage⟩ := mem_getMessagePacketData hmem
        obtain ⟨other, hother, hotherMessage⟩ := hsame.exists_find hentry
        obtain ⟨hle, hsent⟩ := h.entry hother
        exact ⟨h.oldest_nonneg.trans hle, by rw [hsent, hotherMessage, hmessage]⟩
      · have hid : pair.1 ∈ (channel.getMessagesToSend availableBits).messageIds := by
          obtain ⟨messageId, hchosenId, hmap⟩ := List.mem_filterMap.mp hmem
          obtain ⟨entry, _, rfl⟩ := Option.map_eq_some_iff.mp hmap
          exact hchosenId
        have hlt := (hchosen.bounds _ hid).2
        omega
      · rw [hfind] at hsome
        split at hsome
        · next heq =>
            obtain rfl := Option.some_inj.mp hsome
            exact .inr ⟨heq, map_fst_getMessagePacketData hfound⟩
        · split at hsome
          · exact .inl hsome
          · cases hsome
  · exact ⟨_, _, none, rfl, SameMessages.refl h.windowed, hwindowed, by omega,
      fun _ hmem => (by cases hmem), fun _ hmem => (by cases hmem),
      fun _ _ hfind => .inl hfind⟩

/-- The loop stops at the first number with a message. -/
theorem nextUnacked_spec {size : ℕ} (queue : SequenceRing ℤ (MessageSendQueueEntry M τ) size)
    (stop : ℤ) (fuel : ℕ) (messageId : ℤ) (hfuel : messageId + fuel = stop) :
    messageId ≤ nextUnacked queue stop fuel messageId ∧
      nextUnacked queue stop fuel messageId ≤ stop ∧
      (nextUnacked queue stop fuel messageId < stop →
        queue.find (nextUnacked queue stop fuel messageId) ≠ none) ∧
      ∀ other, messageId ≤ other → other < nextUnacked queue stop fuel messageId →
        queue.find other = none := by
  induction fuel generalizing messageId with
  | zero =>
      rw [nextUnacked]
      exact ⟨le_rfl, by omega, fun hlt => by omega, fun other hge hlt => by omega⟩
  | succ fuel ih =>
      rw [nextUnacked]
      split
      · next hstop =>
          refine ⟨le_rfl, by omega, fun hlt => ?_, fun other hge hlt => by omega⟩
          exact Option.isSome_iff_ne_none.mp (hstop.resolve_left hlt.ne)
      · next hgo =>
          obtain ⟨hne, hmissing⟩ := not_or.mp hgo
          obtain ⟨hge, hle, hfound, hpassed⟩ := ih (messageId + 1) (by omega)
          refine ⟨by rw [add_count]; omega, hle, hfound, fun other hother hlt => ?_⟩
          obtain heq | hlater := eq_or_lt_of_le hother
          · subst heq
            simpa using hmissing
          · exact hpassed other hlater hlt

/-- Acknowledging a message takes it, and nothing else, out of the queue. -/
theorem Sending.ackMessage (h : channel.Sending sent) (messageId : ℤ) :
    (channel.ackMessage messageId).Sending sent ∧
      ∀ other, (channel.ackMessage messageId).messageSendQueue.find other =
        if other = messageId then none else channel.messageSendQueue.find other := by
  rw [ReliableOrderedChannel.ackMessage]
  split
  · next hsome =>
      obtain ⟨found, hfind⟩ := Option.isSome_iff_exists.mp hsome
      have hremove : ∀ other, (channel.messageSendQueue.remove messageId).find other =
          if other = messageId then none else channel.messageSendQueue.find other :=
        fun other => h.windowed.find_remove (h.windowed.inWindow hfind)
      have holdest := h.oldest_le
      have hspan : distance channel.oldestUnackedMessageId channel.messageSendQueue.sequence =
          sent.length - channel.oldestUnackedMessageId := by
        rw [h.sequence]
        exact distance_count holdest
      obtain ⟨hge, hle, hfound, hpassed⟩ :=
        nextUnacked_spec (channel.messageSendQueue.remove messageId)
          channel.messageSendQueue.sequence
          (distance channel.oldestUnackedMessageId channel.messageSendQueue.sequence).toNat
          channel.oldestUnackedMessageId (by rw [hspan, h.sequence]; omega)
      refine ⟨⟨h.sendMessageId, h.sequence, h.windowed.remove, h.oldest_nonneg.trans hge,
        hle.trans_eq h.sequence, fun hlt => hfound (hlt.trans_eq h.sequence.symm),
        fun other otherFound hother => ?_⟩, hremove⟩
      have hbefore := hremove other
      change (channel.messageSendQueue.remove messageId).find other = some otherFound at hother
      rw [hother] at hbefore
      split at hbefore
      · cases hbefore
      · obtain ⟨hotherLe, hsent⟩ := h.entry hbefore.symm
        refine ⟨?_, hsent⟩
        by_contra hlt
        have hnone := hpassed other hotherLe (not_le.mp hlt)
        exact Option.some_ne_none _ (hother.symm.trans hnone)
  · next hmissing =>
      refine ⟨h, fun other => ?_⟩
      split
      · next heq =>
          rw [heq]
          simpa using hmissing
      · rfl

theorem Sending.ackMessages (h : channel.Sending sent) (messageIds : List ℤ) :
    (messageIds.foldl ReliableOrderedChannel.ackMessage channel).Sending sent ∧
      ∀ other, (messageIds.foldl ReliableOrderedChannel.ackMessage
          channel).messageSendQueue.find other =
        if other ∈ messageIds then none else channel.messageSendQueue.find other := by
  induction messageIds generalizing channel with
  | nil => exact ⟨h, fun other => by simp⟩
  | cons messageId messageIds ih =>
      obtain ⟨hack, hfind⟩ := h.ackMessage messageId
      obtain ⟨hrest, hrestFind⟩ := ih hack
      refine ⟨hrest, fun other => ?_⟩
      rw [List.foldl_cons, hrestFind, hfind]
      by_cases heq : other = messageId <;> simp [heq]

end ReliableOrderedChannel

end LibBench.Transport
