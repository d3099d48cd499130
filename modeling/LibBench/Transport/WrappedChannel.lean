/-
# Numbers that come round: the reliable channel

The reliable channel of the program is the image of the channel with integers, and
does what that channel does. The window of the channel is what makes it so: no
number that the sending half works with on its own is far from the others. Only
numbers that come back from the other side, in acknowledgements and in packets that
were on their way for long, can be too old to be told from newer ones.
-/

import LibBench.Transport.Wrapping
import LibBench.Transport.ReceiveWindow

namespace LibBench.Transport

open LibBench.Math SequenceNumber

/-- The choice of the program that stands for a choice. -/
def Selection.wrapped {M τ : Type} {size : ℕ} (selection : Selection ℤ M τ size) :
    Selection UInt16 M τ size where
  messageSendQueue := selection.messageSendQueue.wrapped id
  messageIds := selection.messageIds.map wrap
  previousMessageId := wrap selection.previousMessageId
  usedBits := selection.usedBits
  giveUpCounter := selection.giveUpCounter

namespace ReliableOrderedChannel

variable {M τ : Type} {config : ChannelConfig M τ} {channel : ReliableOrderedChannel ℤ config}
  {received sent : List M}

/-- The channel of the program that stands for a channel. -/
def wrapped (channel : ReliableOrderedChannel ℤ config) : ReliableOrderedChannel UInt16 config where
  errorLevel := channel.errorLevel
  time := channel.time
  sendMessageId := wrap channel.sendMessageId
  receiveMessageId := wrap channel.receiveMessageId
  oldestUnackedMessageId := wrap channel.oldestUnackedMessageId
  sentPackets := channel.sentPackets.wrapped (List.map wrap)
  messageSendQueue := channel.messageSendQueue.wrapped id
  messageReceiveQueue := channel.messageReceiveQueue.wrapped id

@[simp]
theorem errorLevel_wrapped : channel.wrapped.errorLevel = channel.errorLevel := rfl

@[simp]
theorem time_wrapped : channel.wrapped.time = channel.time := rfl

@[simp]
theorem sendMessageId_wrapped : channel.wrapped.sendMessageId = wrap channel.sendMessageId := rfl

@[simp]
theorem receiveMessageId_wrapped :
    channel.wrapped.receiveMessageId = wrap channel.receiveMessageId := rfl

@[simp]
theorem oldestUnackedMessageId_wrapped :
    channel.wrapped.oldestUnackedMessageId = wrap channel.oldestUnackedMessageId := rfl

@[simp]
theorem sentPackets_wrapped :
    channel.wrapped.sentPackets = channel.sentPackets.wrapped (List.map wrap) := rfl

@[simp]
theorem messageSendQueue_wrapped :
    channel.wrapped.messageSendQueue = channel.messageSendQueue.wrapped id := rfl

@[simp]
theorem messageReceiveQueue_wrapped :
    channel.wrapped.messageReceiveQueue = channel.messageReceiveQueue.wrapped id := rfl

theorem canSendMessage_wrapped (hvalid : config.Valid) :
    channel.wrapped.canSendMessage = channel.canSendMessage :=
  SequenceRing.available_wrapped hvalid.messageSendQueueSize_dvd

theorem sendMessage_wrapped (h : channel.Sending sent) (hvalid : config.Valid) (message : M) :
    channel.wrapped.sendMessage message = (channel.sendMessage message).wrapped := by
  have hsmall := hvalid.messageSendQueueSize_le
  have hinsert : sequenceBufferInsert (channel.messageSendQueue.wrapped id)
      (wrap channel.sendMessageId) ⟨message, config.measuredBits message, config.neverSent⟩ =
        (sequenceBufferInsert channel.messageSendQueue channel.sendMessageId
          ⟨message, config.measuredBits message, config.neverSent⟩).map
            (SequenceRing.wrapped id) :=
    h.windowed.insert_wrapped hvalid.messageSendQueueSize_dvd (by omega)
      (by rw [h.sequence, h.sendMessageId]; omega) (by rw [h.sequence, h.sendMessageId]; omega)
      (.inr rfl)
  rw [sendMessage, sendMessage, canSendMessage_wrapped hvalid, errorLevel_wrapped,
    messageSendQueue_wrapped, sendMessageId_wrapped, hinsert]
  split
  · rfl
  split
  · rfl
  · cases sequenceBufferInsert channel.messageSendQueue channel.sendMessageId
      ⟨message, config.measuredBits message, config.neverSent⟩ with
    | none => rfl
    | some messageSendQueue => simp [wrapped]

theorem receiveMessage_wrapped (h : channel.Receiving received sent) (hvalid : config.Valid) :
    channel.wrapped.receiveMessage = channel.receiveMessage.map (Prod.map id wrapped) := by
  have hsize := hvalid.messageReceiveQueueSize_dvd
  have hsmall := hvalid.messageReceiveQueueSize_le
  have hle := h.le_sequence
  have hge := h.sequence_le
  have hnear : channel.messageReceiveQueue.WithinTurn channel.receiveMessageId := by
    rw [SequenceRing.WithinTurn, h.receiveMessageId]
    omega
  have hfind : (channel.messageReceiveQueue.wrapped id).find (wrap channel.receiveMessageId) =
      (channel.messageReceiveQueue.find channel.receiveMessageId).map id :=
    h.windowed.find_wrapped hsize hnear
  have hremove : (channel.messageReceiveQueue.wrapped id).remove (wrap channel.receiveMessageId) =
      (channel.messageReceiveQueue.remove channel.receiveMessageId).wrapped id :=
    SequenceRing.remove_wrapped hsize
  simp only [receiveMessage, wrapped, hfind, hremove]
  split
  · rfl
  · cases channel.messageReceiveQueue.find channel.receiveMessageId with
    | none => rfl
    | some message => simp [wrapped]

theorem messageBits_wrapped {queue : SequenceRing ℤ (MessageSendQueueEntry M τ)
      config.messageSendQueueSize} {oldest : ℤ} {i : ℕ}
    {selection : Selection ℤ M τ config.messageSendQueueSize}
    (h : Chosen queue oldest i selection) (hi : i < 65536) (entry : MessageSendQueueEntry M τ) :
    messageBits config selection.wrapped (wrap (oldest + i)) entry =
      messageBits config selection (oldest + i) entry := by
  rw [messageBits, messageBits]
  by_cases hempty : selection.messageIds = []
  · simp [Selection.wrapped, hempty]
  · have hlast := List.mem_of_getLast? (h.previous hempty)
    obtain ⟨hge, hlt⟩ := h.bounds _ hlast
    have hdistance : distance (wrap selection.previousMessageId) (wrap (oldest + i)) =
        distance selection.previousMessageId (oldest + i) :=
      distance_wrap (by omega) (by omega)
    simp [Selection.wrapped, hempty, hdistance]

theorem selectMessages_wrapped (hvalid : config.Valid) (time : τ) (availableBits : ℤ)
    {queue : SequenceRing ℤ (MessageSendQueueEntry M τ) config.messageSendQueueSize} {oldest : ℤ}
    (hlate : queue.sequence ≤ oldest + config.messageSendQueueSize)
    (hearly : oldest ≤ queue.sequence) (rounds : ℕ) {i : ℕ}
    {selection : Selection ℤ M τ config.messageSendQueueSize}
    (h : Chosen queue oldest i selection) (hi : i + rounds ≤ config.messageSendQueueSize) :
    selectMessages config time (wrap oldest) availableBits rounds i selection.wrapped =
      (selectMessages config time oldest availableBits rounds i selection).wrapped := by
  have hsmall := hvalid.messageSendQueueSize_le
  induction rounds generalizing i selection with
  | zero => rfl
  | succ rounds ih =>
      have hsize := hvalid.messageSendQueueSize_dvd
      have hnear : selection.messageSendQueue.WithinTurn (oldest + i) := by
        rw [SequenceRing.WithinTurn, h.sameMessages.sequence]
        omega
      have hfind : (selection.messageSendQueue.wrapped id).find (wrap (oldest + i)) =
          (selection.messageSendQueue.find (oldest + i)).map id :=
        h.sameMessages.windowed.find_wrapped hsize hnear
      have hmodify : (selection.messageSendQueue.wrapped id).modify (wrap (oldest + i))
          (fun entry => { entry with timeLastSent := time }) =
            (selection.messageSendQueue.modify (oldest + i)
              fun entry => { entry with timeLastSent := time }).wrapped id :=
        h.sameMessages.windowed.modify_wrapped hsize hnear fun _ => rfl
      have hqueue : selection.wrapped.messageSendQueue = selection.messageSendQueue.wrapped id :=
        rfl
      have hbits : selection.wrapped.usedBits = selection.usedBits ∧
          selection.wrapped.giveUpCounter = selection.giveUpCounter ∧
          selection.wrapped.messageIds.length = selection.messageIds.length :=
        ⟨rfl, rfl, List.length_map _⟩
      rw [selectMessages, selectMessages]
      dsimp only
      rw [hbits.1, hbits.2.1, hbits.2.2, add_wrap, add_count, hqueue, hfind]
      split
      · rfl
      split
      · rfl
      cases hentry : selection.messageSendQueue.find (oldest + i) with
      | none => exact ih h.skip (by omega)
      | some entry =>
          simp only [Option.map_some, id_eq]
          rw [messageBits_wrapped h (by omega)]
          split
          · split
            · exact ih h.giveUp.skip (by omega)
            · have hchosen := h.add (selection.usedBits +
                messageBits config selection (oldest + i) entry) time hentry
              have hids : selection.wrapped.messageIds ++ [wrap (oldest + i)] =
                  (selection.messageIds ++ [oldest + i]).map wrap := by simp [Selection.wrapped]
              rw [hmodify, hids, List.length_map]
              split
              · rfl
              · exact ih hchosen (by omega)
          · split
            · rfl
            · exact ih h.skip (by omega)

theorem getMessagesToSend_wrapped (h : channel.Sending sent) (hvalid : config.Valid)
    (availableBits : ℤ) :
    channel.wrapped.getMessagesToSend availableBits =
      (channel.getMessagesToSend availableBits).wrapped := by
  have hlength := h.length_le
  have hle := h.oldest_le
  have hstart := Chosen.start h.windowed channel.oldestUnackedMessageId
  exact selectMessages_wrapped hvalid channel.time _ (by rw [h.sequence]; omega)
    (by rw [h.sequence]; omega) _ hstart (by omega)

theorem getMessagePacketData_wrapped (hwindowed : channel.messageSendQueue.Windowed)
    (hvalid : config.Valid) {messageIds : List ℤ}
    (hnear : ∀ messageId ∈ messageIds, channel.messageSendQueue.WithinTurn messageId) :
    channel.wrapped.getMessagePacketData (messageIds.map wrap) =
      (channel.getMessagePacketData messageIds).map (Prod.map wrap id) := by
  induction messageIds with
  | nil => rfl
  | cons messageId messageIds ih =>
      have hfind : (channel.messageSendQueue.wrapped id).find (wrap messageId) =
          (channel.messageSendQueue.find messageId).map id :=
        hwindowed.find_wrapped hvalid.messageSendQueueSize_dvd (hnear _ List.mem_cons_self)
      have hrest := ih fun other hmem => hnear other (List.mem_cons_of_mem _ hmem)
      rw [getMessagePacketData, getMessagePacketData] at hrest ⊢
      rw [List.map_cons, List.filterMap_cons, List.filterMap_cons, messageSendQueue_wrapped, hfind]
      cases channel.messageSendQueue.find messageId with
      | none => exact hrest
      | some entry => exact congrArg (List.cons _) hrest

/-- The exception is a channel that has had no messages to send for half a turn. -/
theorem addMessagePacketEntry_wrapped (hwindowed : channel.sentPackets.Windowed)
    (hvalid : config.Valid) (messageIds : List ℤ) {sequence : ℤ}
    (hlate : channel.sentPackets.sequence ≤ sequence)
    (hearly : sequence + 1 < channel.sentPackets.sequence + 32768) :
    channel.wrapped.addMessagePacketEntry (messageIds.map wrap) (wrap sequence) =
      (channel.addMessagePacketEntry messageIds sequence).wrapped := by
  have hsmall := hvalid.sentPacketBufferSize_le
  have hinsert : sequenceBufferInsert (channel.sentPackets.wrapped (List.map wrap)) (wrap sequence)
      (messageIds.map wrap) =
        (sequenceBufferInsert channel.sentPackets sequence messageIds).map
          (SequenceRing.wrapped (List.map wrap)) :=
    hwindowed.insert_wrapped hvalid.sentPacketBufferSize_dvd (by omega) (by omega) hearly (.inr rfl)
  rw [addMessagePacketEntry, addMessagePacketEntry, sentPackets_wrapped, hinsert]
  cases sequenceBufferInsert channel.sentPackets sequence messageIds with
  | none => rfl
  | some sentPackets => rfl

theorem hasMessagesToSend_wrapped (h : channel.Sending sent) (hvalid : config.Valid) :
    channel.wrapped.hasMessagesToSend = channel.hasMessagesToSend := by
  have hlength := h.length_le
  have hle := h.oldest_le
  have hsmall := hvalid.messageSendQueueSize_le
  have hid := h.sendMessageId
  have hiff : wrap channel.oldestUnackedMessageId = wrap channel.sendMessageId ↔
      channel.oldestUnackedMessageId = channel.sendMessageId :=
    ⟨fun heq => eq_of_wrap_eq_wrap heq (by omega) (by omega), congrArg wrap⟩
  simp [hasMessagesToSend, hiff]

theorem getPacketData_wrapped (h : channel.Sending sent) (hwindowed : channel.sentPackets.Windowed)
    (hvalid : config.Valid) {packetSequence : ℤ}
    (hlate : channel.sentPackets.sequence ≤ packetSequence)
    (hearly : channel.hasMessagesToSend = true →
      packetSequence + 1 < channel.sentPackets.sequence + 32768) (availableBits : ℤ) :
    channel.wrapped.getPacketData (wrap packetSequence) availableBits =
      Prod.map wrapped (Option.map (Prod.map (List.map (Prod.map wrap id)) id))
        (channel.getPacketData packetSequence availableBits) := by
  rw [getPacketData, getPacketData, hasMessagesToSend_wrapped h hvalid,
    getMessagesToSend_wrapped h hvalid]
  split
  · next hmessages =>
      have hchosen := h.chosen availableBits
      have hsame := hchosen.sameMessages
      have hempty : (channel.getMessagesToSend availableBits).wrapped.messageIds = [] ↔
          (channel.getMessagesToSend availableBits).messageIds = [] := List.map_eq_nil_iff
      have hnear : ∀ messageId ∈ (channel.getMessagesToSend availableBits).messageIds,
          (channel.getMessagesToSend availableBits).messageSendQueue.WithinTurn messageId := by
        intro messageId hmem
        have hlength := h.length_le
        have hle := h.oldest_le
        have hsmall := hvalid.messageSendQueueSize_le
        obtain ⟨hge, hlt⟩ := hchosen.bounds messageId hmem
        rw [SequenceRing.WithinTurn, hsame.sequence, h.sequence]
        omega
      simp only [hempty]
      split
      · rfl
      · let after : ReliableOrderedChannel ℤ config :=
          { channel with
            messageSendQueue := (channel.getMessagesToSend availableBits).messageSendQueue }
        have hafter : after.messageSendQueue.Windowed := hsame.windowed
        have hpackets : after.sentPackets.Windowed := hwindowed
        have hdata := getMessagePacketData_wrapped hafter hvalid hnear
        have hentry := addMessagePacketEntry_wrapped hpackets hvalid
          (channel.getMessagesToSend availableBits).messageIds hlate (hearly hmessages)
        exact congrArg₂ Prod.mk hentry (congrArg (fun data => some (data, _)) hdata)
  · rfl

/-- How far a message that arrives may lie back. -/
theorem processMessages_wrapped (h : channel.Receiving received sent) (hvalid : config.Valid)
    {messages : List (ℤ × M)}
    (hmessages : ∀ pair ∈ messages, 0 ≤ pair.1 ∧ sent[pair.1.toNat]? = some pair.2)
    (hlate : ∀ pair ∈ messages,
      channel.receiveMessageId + config.messageReceiveQueueSize ≤ pair.1 + 32768)
    (hearly : ∀ pair ∈ messages, pair.1 < channel.receiveMessageId + 32768)
    {maxMessageId : ℤ}
    (hmax : maxMessageId = channel.receiveMessageId + (config.messageReceiveQueueSize - 1)) :
    processMessages (wrap channel.receiveMessageId) (wrap maxMessageId)
        (messages.map (Prod.map wrap id)) channel.wrapped =
      (processMessages channel.receiveMessageId maxMessageId messages channel).wrapped := by
  have hsize := hvalid.messageReceiveQueueSize_dvd
  have hpos : 0 < config.messageReceiveQueueSize := Nat.pos_of_dvd_of_pos hsize (by decide)
  have hsmall := hvalid.messageReceiveQueueSize_le
  induction messages generalizing channel with
  | nil => rfl
  | cons pair messages ih =>
      obtain ⟨messageId, message⟩ := pair
      have hfirstLate := hlate _ List.mem_cons_self
      have hfirstEarly := hearly _ List.mem_cons_self
      have hrest : ∀ next : ReliableOrderedChannel ℤ config, next.Receiving received sent →
          next.receiveMessageId = channel.receiveMessageId →
          processMessages (wrap channel.receiveMessageId) (wrap maxMessageId)
              (messages.map (Prod.map wrap id)) next.wrapped =
            (processMessages channel.receiveMessageId maxMessageId messages next).wrapped := by
        intro next hnext hid
        rw [← hid] at hmax hlate hearly ⊢
        exact ih hnext (fun pair hmem => hmessages pair (List.mem_cons_of_mem _ hmem))
          (fun pair hmem => hlate pair (List.mem_cons_of_mem _ hmem))
          (fun pair hmem => hearly pair (List.mem_cons_of_mem _ hmem)) hmax
      have hle := h.le_sequence
      have hge := h.sequence_le
      have hreceive := h.receiveMessageId
      have hless : lessThan (wrap messageId) (wrap channel.receiveMessageId) =
          lessThan messageId channel.receiveMessageId := lessThan_wrap (by omega) (by omega)
      have hgreater : greaterThan (wrap messageId) (wrap maxMessageId) =
          greaterThan messageId maxMessageId := greaterThan_wrap (by omega) (by omega)
      have hfind : (channel.messageReceiveQueue.wrapped id).find (wrap messageId) =
          (channel.messageReceiveQueue.find messageId).map id :=
        h.windowed.find_wrapped hsize ⟨by omega, by omega⟩
      rw [List.map_cons, Prod.map_apply, processMessages, processMessages, hless, hgreater,
        messageReceiveQueue_wrapped, hfind, Option.isSome_map]
      split
      · exact hrest channel h rfl
      split
      · rfl
      split
      · exact hrest channel h rfl
      · next hstale hbeyond hmissing =>
          rw [lessThan_count, decide_eq_true_eq, not_lt] at hstale
          rw [greaterThan_count, decide_eq_true_eq, not_lt] at hbeyond
          have hinsert : sequenceBufferInsert (channel.messageReceiveQueue.wrapped id)
              (wrap messageId) message =
                (sequenceBufferInsert channel.messageReceiveQueue messageId message).map
                  (SequenceRing.wrapped id) :=
            h.windowed.insert_wrapped hsize (by omega) (by omega) (by omega) (.inr rfl)
          obtain ⟨queue, hqueue, hnext, _⟩ := h.insert hpos hstale (hmax ▸ hbeyond)
            (hmessages _ List.mem_cons_self).2
          rw [id_eq, hinsert, hqueue]
          exact hrest { channel with messageReceiveQueue := queue } hnext rfl

theorem processPacketData_wrapped (h : channel.Receiving received sent) (hvalid : config.Valid)
    {messages : List (ℤ × M)}
    (hmessages : ∀ pair ∈ messages, 0 ≤ pair.1 ∧ sent[pair.1.toNat]? = some pair.2)
    (hlate : ∀ pair ∈ messages,
      channel.receiveMessageId + config.messageReceiveQueueSize ≤ pair.1 + 32768)
    (hearly : ∀ pair ∈ messages, pair.1 < channel.receiveMessageId + 32768) :
    channel.wrapped.processPacketData (messages.map (Prod.map wrap id)) =
      (channel.processPacketData messages).wrapped := by
  rw [processPacketData, processPacketData, errorLevel_wrapped, receiveMessageId_wrapped, add_wrap]
  split
  · rfl
  · exact processMessages_wrapped h hvalid hmessages hlate hearly rfl

theorem nextUnacked_wrapped {size : ℕ}
    {queue : SequenceRing ℤ (MessageSendQueueEntry M τ) size} (hwindowed : queue.Windowed)
    (hsize : size ∣ 65536) (hsmall : size ≤ 16384) (fuel : ℕ) {messageId : ℤ}
    (hfuel : messageId + fuel = queue.sequence) (hshort : fuel ≤ size) :
    nextUnacked (queue.wrapped id) (wrap queue.sequence) fuel (wrap messageId) =
      wrap (nextUnacked queue queue.sequence fuel messageId) := by
  induction fuel generalizing messageId with
  | zero => rfl
  | succ fuel ih =>
      have hfind : (queue.wrapped id).find (wrap messageId) = (queue.find messageId).map id :=
        hwindowed.find_wrapped hsize ⟨by omega, by omega⟩
      have hiff : wrap messageId = wrap queue.sequence ↔ messageId = queue.sequence :=
        ⟨fun heq => eq_of_wrap_eq_wrap heq (by omega) (by omega), congrArg wrap⟩
      simp only [nextUnacked, hfind, Option.isSome_map, hiff, add_wrap, add_count]
      split
      · rfl
      · exact ih (by push_cast at hfuel; omega) (by omega)

theorem updateOldestUnackedMessageId_wrapped (hwindowed : channel.messageSendQueue.Windowed)
    (hvalid : config.Valid)
    (hle : channel.oldestUnackedMessageId ≤ channel.messageSendQueue.sequence)
    (hlength : channel.messageSendQueue.sequence ≤
      channel.oldestUnackedMessageId + config.messageSendQueueSize) :
    channel.wrapped.updateOldestUnackedMessageId =
      channel.updateOldestUnackedMessageId.wrapped := by
  have hsmall := hvalid.messageSendQueueSize_le
  have hspan : distance (wrap channel.oldestUnackedMessageId)
      (wrap channel.messageSendQueue.sequence) =
        distance channel.oldestUnackedMessageId channel.messageSendQueue.sequence :=
    distance_wrap hle (by omega)
  have hcount : distance channel.oldestUnackedMessageId channel.messageSendQueue.sequence =
      channel.messageSendQueue.sequence - channel.oldestUnackedMessageId := distance_count hle
  have hnext := nextUnacked_wrapped hwindowed hvalid.messageSendQueueSize_dvd hsmall
    (channel.messageSendQueue.sequence - channel.oldestUnackedMessageId).toNat
    (show channel.oldestUnackedMessageId + _ = _ by omega) (by omega)
  simp [updateOldestUnackedMessageId, wrapped, hspan, hcount, hnext]

theorem ackMessage_wrapped (h : channel.Sending sent) (hvalid : config.Valid) {messageId : ℤ}
    (hlate : (sent.length : ℤ) ≤ messageId + 65536) (hearly : messageId < sent.length) :
    channel.wrapped.ackMessage (wrap messageId) = (channel.ackMessage messageId).wrapped := by
  have hsize := hvalid.messageSendQueueSize_dvd
  have hsmall := hvalid.messageSendQueueSize_le
  have hlength := h.length_le
  have hle := h.oldest_le
  have hsequence := h.sequence
  have hfind : (channel.messageSendQueue.wrapped id).find (wrap messageId) =
      (channel.messageSendQueue.find messageId).map id :=
    h.windowed.find_wrapped hsize ⟨by omega, by omega⟩
  have hremove : (channel.messageSendQueue.wrapped id).remove (wrap messageId) =
      (channel.messageSendQueue.remove messageId).wrapped id := SequenceRing.remove_wrapped hsize
  let removed : ReliableOrderedChannel ℤ config :=
    { channel with messageSendQueue := channel.messageSendQueue.remove messageId }
  have hremoved : removed.messageSendQueue.Windowed := h.windowed.remove
  have hupdate := updateOldestUnackedMessageId_wrapped hremoved hvalid
    (show channel.oldestUnackedMessageId ≤ channel.messageSendQueue.sequence by omega)
    (show channel.messageSendQueue.sequence ≤ channel.oldestUnackedMessageId + _ by omega)
  rw [ackMessage, ackMessage, messageSendQueue_wrapped, hfind, Option.isSome_map, hremove]
  split
  · exact hupdate
  · rfl

theorem ackMessages_wrapped (h : channel.Sending sent) (hvalid : config.Valid)
    {messageIds : List ℤ}
    (hnear : ∀ messageId ∈ messageIds, (sent.length : ℤ) ≤ messageId + 65536 ∧
      messageId < sent.length) :
    (messageIds.map wrap).foldl ackMessage channel.wrapped =
      (messageIds.foldl ackMessage channel).wrapped := by
  induction messageIds generalizing channel with
  | nil => rfl
  | cons messageId messageIds ih =>
      obtain ⟨hlate, hearly⟩ := hnear messageId List.mem_cons_self
      rw [List.map_cons, List.foldl_cons, List.foldl_cons, ackMessage_wrapped h hvalid hlate hearly]
      exact ih (h.ackMessage messageId).1 fun other hmem =>
        hnear other (List.mem_cons_of_mem _ hmem)

theorem processAck_wrapped (h : channel.Sending sent) (hwindowed : channel.sentPackets.Windowed)
    (hvalid : config.Valid) {ack : ℤ} (hack : channel.sentPackets.WithinTurn ack)
    (hnear : ∀ messageIds, channel.sentPackets.find ack = some messageIds →
      ∀ messageId ∈ messageIds, (sent.length : ℤ) ≤ messageId + 65536 ∧ messageId < sent.length) :
    channel.wrapped.processAck (wrap ack) = (channel.processAck ack).wrapped := by
  have hfind : (channel.sentPackets.wrapped (List.map wrap)).find (wrap ack) =
      (channel.sentPackets.find ack).map (List.map wrap) :=
    hwindowed.find_wrapped hvalid.sentPacketBufferSize_dvd hack
  rw [processAck, processAck, sentPackets_wrapped, hfind]
  cases hids : channel.sentPackets.find ack with
  | none => rfl
  | some messageIds => exact ackMessages_wrapped h hvalid (hnear messageIds hids)

end ReliableOrderedChannel

end LibBench.Transport
