/-
# The numbers of the send queue

Whether a reliable channel takes a message is decided by the numbers in its send
queue alone, and the server's game is modelled with a queue that has nothing else.
Here that queue is found in the whole channel: leaving the entries out takes the
channel to the queue, and every operation of the channel to operations of the
queue. So what the queue keeps, the channel keeps, with numbers of sixteen bits
and whatever packets and acknowledgements come.
-/

import LibBench.Transport.Guarantees
import LibBench.Yojimbo.SendQueue

namespace LibBench.Transport

open LibBench.Math SequenceNumber
open LibBench.Yojimbo (SequenceBuffer)

section Ring

variable {α : Type*} {size : ℕ} (ring : SequenceRing UInt16 α size) (number : UInt16)

/-- The numbers in a ring. -/
def ringNumbers : SequenceBuffer size where
  sequence := ring.sequence
  entrySequence index := (ring.entry index).map Prod.fst

theorem add_one_sixteen : add number 1 = number + 1 := by
  apply UInt16.toNat_inj.mp
  have hsum : ((wrap (toInt number + 1)).toNat : ℤ) = (toInt number + 1) % 65536 := toInt_wrap _
  have hnumber : toInt number = (number.toNat : ℤ) := rfl
  rw [add, ofInt_eq_wrap, UInt16.toNat_add, UInt16.toNat_one]
  omega

theorem add_neg_sixteen : add number (-size) = number - UInt16.ofNat size := by
  apply UInt16.toNat_inj.mp
  have hsum : ((wrap (toInt number + -size)).toNat : ℤ) = (toInt number + -size) % 65536 :=
    toInt_wrap _
  have hnumber : toInt number = (number.toNat : ℤ) := rfl
  have hlt := number.toNat_lt
  rw [add, ofInt_eq_wrap, UInt16.toNat_sub, UInt16.toNat_ofNat']
  omega

theorem place_sixteen : place number size = number.toNat % size := by
  have hnumber : toInt number = (number.toNat : ℤ) := rfl
  rw [place, hnumber, ← Int.natCast_mod, Int.toNat_natCast]

theorem available_ringNumbers :
    (ringNumbers ring).available number = ring.available number := by
  rw [SequenceBuffer.available, SequenceRing.available, place_sixteen, ringNumbers,
    Option.isNone_map]

theorem find_ringNumbers : (ringNumbers ring).find number = (ring.find number).isSome := by
  rw [Bool.eq_iff_iff, SequenceBuffer.find_eq_true_iff, Option.isSome_iff_exists]
  simp only [SequenceRing.find_eq_some_iff, place_sixteen, ringNumbers, Option.map_eq_some_iff]
  constructor
  · rintro ⟨⟨_, data⟩, hentry, rfl⟩
    exact ⟨data, hentry⟩
  · rintro ⟨data, hentry⟩
    exact ⟨_, hentry, rfl⟩

theorem remove_ringNumbers :
    ringNumbers (ring.remove number) = (ringNumbers ring).remove number := by
  simp only [ringNumbers, SequenceRing.remove, SequenceBuffer.remove, place_sixteen]
  congr 1
  funext index
  rw [Function.update_apply, Function.update_apply]
  split <;> rfl

theorem put_ringNumbers (data : α) :
    ringNumbers (ring.put number data) = (ringNumbers ring).place number := by
  simp only [ringNumbers, SequenceRing.put, SequenceBuffer.place, place_sixteen]
  congr 1
  funext index
  rw [Function.update_apply, Function.update_apply]
  split <;> rfl

/-- An entry is changed in its place. -/
theorem modify_ringNumbers (change : α → α) :
    ringNumbers (ring.modify number change) = ringNumbers ring := by
  rw [SequenceRing.modify]
  split
  · next data hfind =>
      have hentry := SequenceRing.find_eq_some_iff.mp hfind
      simp only [ringNumbers, SequenceRing.put]
      congr 1
      funext index
      rw [Function.update_apply]
      split
      · next hindex => rw [hindex, hentry]; rfl
      · rfl
  · rfl

theorem removeEntries_ringNumbers {start finish : ℕ} (hstart : start < 65536) :
    ringNumbers (ring.removeEntries 65535 start finish) =
      (ringNumbers ring).removeEntries start finish := by
  -- a finish that seems to lie before the start is moved behind it in both readings
  obtain ⟨last, hlast, hlastInt, hle⟩ : ∃ last : ℕ,
      (if finish < start then finish + 65535 else finish) = last ∧
        (if (finish : ℤ) < start then (finish : ℤ) + 65535 else finish) = last ∧
          start ≤ last := by
    refine ⟨_, rfl, ?_, ?_⟩ <;> split <;> (try split) <;> omega
  rw [SequenceRing.removeEntries, SequenceBuffer.removeEntries]
  simp only [hlast, hlastInt]
  split
  · next hshort =>
      rw [if_pos (by omega)]
      have hcells (index : ℕ) :
          (∃ step ∈ List.range (last - start + 1 : ℤ).toNat,
            place (start + step : ℤ) size = index) ↔
            ∃ sequence ∈ List.range' start (last - start + 1), sequence % size = index := by
        simp only [List.mem_range, List.mem_range'_1]
        constructor
        · rintro ⟨step, hstep, hplace⟩
          refine ⟨start + step, by omega, ?_⟩
          rwa [place, toInt_count, ← Int.natCast_add, ← Int.natCast_mod,
            Int.toNat_natCast] at hplace
        · rintro ⟨sequence, hsequence, hplace⟩
          refine ⟨sequence - start, by omega, ?_⟩
          rwa [place, toInt_count, ← Int.natCast_add, Nat.add_sub_cancel' hsequence.1,
            ← Int.natCast_mod, Int.toNat_natCast]
      simp only [ringNumbers]
      congr 1
      funext index
      rw [SequenceRing.foldl_update_none, SequenceRing.foldl_update_none]
      simp only [hcells]
      split <;> rfl
  · next hlong =>
      rw [if_neg (by omega)]
      rfl

theorem insert_ringNumbers (data : α) :
    (sequenceBufferInsert ring number data).map ringNumbers =
      (ringNumbers ring).insert number := by
  rw [sequenceBufferInsert, SequenceRing.insert, SequenceBuffer.insert, SequenceRing.isNewer,
    SequenceRing.isStale, add_one_sixteen, add_neg_sixteen]
  have hnewer : Yojimbo.sequenceGreaterThan (number + 1) (ringNumbers ring).sequence =
      greaterThan (number + 1) ring.sequence := rfl
  have hstale : Yojimbo.sequenceLessThan number
      ((ringNumbers ring).sequence - UInt16.ofNat size) =
        lessThan number (ring.sequence - UInt16.ofNat size) := rfl
  rw [hnewer, hstale]
  split
  · next hgreater =>
      have hadvance : ring.advance number 65535 =
          { ring.removeEntries 65535 ring.sequence.toNat number.toNat with
            sequence := number + 1 } := by
        rw [SequenceRing.advance, SequenceRing.isNewer, add_one_sixteen, if_pos hgreater]
        rfl
      have hcleared : ringNumbers
          (ring.removeEntries 65535 ring.sequence.toNat number.toNat) =
            (ringNumbers ring).removeEntries (ringNumbers ring).sequence.toNat number.toNat :=
        removeEntries_ringNumbers ring ring.sequence.toNat_lt
      rw [Option.map_some, put_ringNumbers, hadvance, ← hcleared]
      rfl
  · split
    · rfl
    · rw [Option.map_some, put_ringNumbers]

end Ring

namespace ReliableOrderedChannel

variable {M τ : Type} {config : ChannelConfig M τ} (channel : ReliableOrderedChannel UInt16 config)

/-- The channel without what its entries and packets hold. -/
def numbers : Yojimbo.ReliableOrderedChannel config.messageSendQueueSize where
  errorLevel := channel.errorLevel
  sendMessageId := channel.sendMessageId
  oldestUnackedMessageId := channel.oldestUnackedMessageId
  messageSendQueue := ringNumbers channel.messageSendQueue

theorem canSendMessage_numbers : channel.numbers.canSendMessage = channel.canSendMessage :=
  available_ringNumbers ..

theorem numbers_sendMessage (message : M) :
    (channel.sendMessage message).numbers = channel.numbers.sendMessage := by
  rw [sendMessage, Yojimbo.ReliableOrderedChannel.sendMessage, canSendMessage_numbers]
  have hlevel : channel.numbers.errorLevel = channel.errorLevel := rfl
  rw [hlevel]
  split
  · rfl
  split
  · rfl
  have hinsert := insert_ringNumbers channel.messageSendQueue channel.sendMessageId
    { message, measuredBits := config.measuredBits message, timeLastSent := config.neverSent }
  have hqueue : channel.numbers.messageSendQueue.insert channel.numbers.sendMessageId = _ :=
    hinsert.symm
  rw [hqueue]
  split
  · next hnone => rw [hnone]; rfl
  · next hsome =>
      rw [hsome]
      simp only [Option.map_some, numbers, add_one_sixteen]

theorem nextUnacked_ringNumbers (stopMessageId : UInt16) (fuel : ℕ) (messageId : UInt16) :
    Yojimbo.ReliableOrderedChannel.nextUnacked (ringNumbers channel.messageSendQueue)
        stopMessageId fuel messageId =
      nextUnacked channel.messageSendQueue stopMessageId fuel messageId := by
  induction fuel generalizing messageId with
  | zero => rfl
  | succ fuel ih =>
      rw [Yojimbo.ReliableOrderedChannel.nextUnacked, nextUnacked, find_ringNumbers, ih,
        add_one_sixteen]

theorem numbers_updateOldestUnackedMessageId :
    channel.updateOldestUnackedMessageId.numbers =
      channel.numbers.updateOldestUnackedMessageId := by
  have hfuel (start stop : UInt16) : offset start stop = (distance start stop).toNat := by
    have hstart : toInt start = (start.toNat : ℤ) := rfl
    have hstop : toInt stop = (stop.toNat : ℤ) := rfl
    have hstartLt := start.toNat_lt
    have hstopLt := stop.toNat_lt
    rw [offset_eq, distance, hstart, hstop]
    split <;> omega
  simp only [updateOldestUnackedMessageId,
    Yojimbo.ReliableOrderedChannel.updateOldestUnackedMessageId, numbers, hfuel,
    nextUnacked_ringNumbers]
  rfl

theorem numbers_ackMessage (messageId : UInt16) :
    (channel.ackMessage messageId).numbers = channel.numbers.ackMessage messageId := by
  rw [ackMessage, Yojimbo.ReliableOrderedChannel.ackMessage]
  have hfind : channel.numbers.messageSendQueue.find messageId =
      (channel.messageSendQueue.find messageId).isSome := find_ringNumbers ..
  rw [hfind]
  split
  · rw [numbers_updateOldestUnackedMessageId]
    simp only [numbers, remove_ringNumbers]
  · rfl

/-- An acknowledgement stands for the numbers of the messages of the packet. -/
theorem numbers_processAck (ack : UInt16) :
    (channel.processAck ack).numbers =
      channel.numbers.processAck ((channel.sentPackets.find ack).getD []) := by
  rw [processAck]
  split
  · next hfind => rw [hfind]; rfl
  · next messageIds hfind =>
      rw [hfind, Option.getD_some, Yojimbo.ReliableOrderedChannel.processAck]
      exact (List.foldl_hom numbers
        fun channel messageId => (numbers_ackMessage channel messageId).symm).symm

/-- Choosing messages for a packet changes when they were last sent. -/
theorem ringNumbers_selectMessages (time : τ) (oldestUnackedMessageId : UInt16)
    (availableBits : ℤ) (rounds i : ℕ)
    (selection : Selection UInt16 M τ config.messageSendQueueSize) :
    ringNumbers (selectMessages config time oldestUnackedMessageId availableBits rounds i
      selection).messageSendQueue = ringNumbers selection.messageSendQueue := by
  induction rounds generalizing i selection with
  | zero => rfl
  | succ rounds ih =>
      rw [selectMessages]
      dsimp only
      split
      · rfl
      split
      · rfl
      split
      · exact ih _ _
      split
      · split
        · exact ih _ _
        split
        · exact modify_ringNumbers ..
        · exact (ih _ _).trans (modify_ringNumbers ..)
      · split
        · rfl
        · exact ih _ _

theorem numbers_getPacketData (packetSequence : UInt16) (availableBits : ℤ) :
    (channel.getPacketData packetSequence availableBits).1.numbers = channel.numbers := by
  have hqueue := ringNumbers_selectMessages channel.time channel.oldestUnackedMessageId
    (budgetBits config.packetBudget availableBits)
    (min config.messageSendQueueSize config.messageReceiveQueueSize) 0
    ⟨channel.messageSendQueue, [], ofInt 0, conservativeMessageHeaderBits, 0⟩
  rw [getPacketData]
  split
  · dsimp only
    split
    · simp only [numbers, getMessagesToSend, hqueue]
    · rw [addMessagePacketEntry]
      split <;> simp only [numbers, getMessagesToSend, hqueue]
  · rfl

end ReliableOrderedChannel

/-- What can become of the queue of a channel. -/
inductive QueueChange
  | send
  | acked (messageIds : List UInt16)
  | failed (errorLevel : ChannelErrorLevel)
  deriving DecidableEq, Repr

/-- The queue after it. -/
def QueueChange.apply {size : ℕ} (queue : Yojimbo.ReliableOrderedChannel size) :
    QueueChange → Yojimbo.ReliableOrderedChannel size
  | .send => queue.sendMessage
  | .acked messageIds => queue.processAck messageIds
  | .failed errorLevel => { queue with errorLevel }

variable {M τ : Type} {config : ConnectionConfig M τ}

/-- The numbers in the send queue of a side. -/
def Node.queue (node : Node UInt16 config) :
    Yojimbo.ReliableOrderedChannel config.reliable.messageSendQueueSize :=
  node.connection.reliable.numbers

/-- A packet that is processed can put the channel into an error state. -/
theorem Connection.numbers_processEntries (entries : List (ChannelPacketData UInt16 M))
    (connection : Connection UInt16 config) :
    ∃ errorLevel, (Connection.processEntries entries connection).2.reliable.numbers =
      { connection.reliable.numbers with errorLevel } := by
  induction entries generalizing connection with
  | nil => exact ⟨_, rfl⟩
  | cons entry entries ih =>
      cases entry with
      | reliable messages =>
          obtain ⟨level, queue, heq⟩ := connection.reliable.processPacketData_eq messages
          rw [Connection.processEntries]
          dsimp only
          split
          · exact ⟨level, by rw [heq]; rfl⟩
          · obtain ⟨later, hlater⟩ := ih { connection with
              reliable := connection.reliable.processPacketData messages }
            exact ⟨later, by rw [hlater, heq]; rfl⟩
      | unreliable messages =>
          rw [Connection.processEntries]
          dsimp only
          split
          · exact ⟨_, rfl⟩
          · exact ih _

theorem ReliableOrderedChannel.exists_changes_processAck {config : ChannelConfig M τ}
    (acks : List UInt16) (channel : ReliableOrderedChannel UInt16 config) :
    ∃ changes : List QueueChange, (acks.foldl ReliableOrderedChannel.processAck channel).numbers =
      changes.foldl QueueChange.apply channel.numbers := by
  induction acks generalizing channel with
  | nil => exact ⟨[], rfl⟩
  | cons ack acks ih =>
      obtain ⟨changes, hchanges⟩ := ih (channel.processAck ack)
      refine ⟨.acked ((channel.sentPackets.find ack).getD []) :: changes, ?_⟩
      rw [List.foldl_cons, hchanges, numbers_processAck]
      rfl

/-- Whatever happens on a side does to its queue what the queue's own operations
do. -/
theorem Network.exists_changes_perform (network : Network UInt16 config) (action : Action M τ) :
    ∃ changes : List QueueChange, (network.perform action).queue =
      changes.foldl QueueChange.apply (network action.side).queue := by
  cases action with
  | sendMessage side message =>
      exact ⟨[.send], (network side).connection.reliable.numbers_sendMessage message⟩
  | receiveMessage side =>
      refine ⟨[], ?_⟩
      rw [Network.perform, Node.receiveMessage]
      split
      · rfl
      · next hreceive =>
          obtain ⟨_, _, rfl⟩ := ReliableOrderedChannel.receiveMessage_eq _ hreceive
          rfl
  | sendUnreliable side message => exact ⟨[], rfl⟩
  | receiveUnreliable side =>
      refine ⟨[], ?_⟩
      rw [Network.perform, Node.receiveUnreliable]
      split <;> rfl
  | sendPacket side =>
      refine ⟨[], ?_⟩
      rw [Network.perform, Node.sendPacket]
      split
      · rfl
      · exact (network side).connection.reliable.numbers_getPacketData _ _
  | receivePacket side position =>
      rw [Network.perform]
      split
      · exact ⟨[], rfl⟩
      next packet _ =>
        obtain heq | ⟨success, connection, hprocess, hlevel, _, houtcome⟩ :=
          (network side).receivePacket_cases position packet
        · exact ⟨[], by rw [heq]; rfl⟩
        · rw [Connection.processPacket, if_neg (not_not.mpr hlevel)] at hprocess
          obtain ⟨level, hnumbers⟩ := (network side).connection.numbers_processEntries
            packet.channelEntry
          rw [hprocess] at hnumbers
          refine ⟨[.failed level], ?_⟩
          obtain ⟨_, heq⟩ | ⟨_, _, _, heq⟩ := houtcome
          · rw [heq]
            exact hnumbers
          · rw [heq]
            exact hnumbers
  | receiveFragment side position =>
      refine ⟨[], ?_⟩
      rw [Network.perform]
      split
      · rfl
      · rw [Node.receiveFragment]
        split <;> rfl
  | advanceTime side time =>
      rw [Network.perform, Node.advanceTime]
      split
      · exact ⟨[], rfl⟩
      obtain ⟨level, hadvance⟩ := (network side).connection.advanceTime_eq time
      dsimp only
      rw [hadvance]
      split
      · exact ⟨[], rfl⟩
      · exact ReliableOrderedChannel.exists_changes_processAck _ _

theorem QueueChange.wellFormed_foldl {size : ℕ} (hsize : size ∣ 65536) (hsmall : size < 65536)
    (changes : List QueueChange) {queue : Yojimbo.ReliableOrderedChannel size}
    (h : queue.WellFormed) : (changes.foldl QueueChange.apply queue).WellFormed := by
  induction changes generalizing queue with
  | nil => exact h
  | cons change changes ih =>
      apply ih
      cases change with
      | send => exact h.sendMessage hsize hsmall
      | acked messageIds => exact h.processAck messageIds
      | failed level => exact ⟨⟨h.sequence, h.bounded, h.entries⟩, h.oldest⟩

/-- The send queues of both sides are windows. -/
def Network.QueuesWellFormed (network : Network UInt16 config) : Prop :=
  ∀ side, (network side).queue.WellFormed

theorem Network.QueuesWellFormed.next {network : Network UInt16 config}
    (h : network.QueuesWellFormed) (hsize : config.reliable.messageSendQueueSize ∣ 65536)
    (hsmall : config.reliable.messageSendQueueSize < 65536) (action : Action M τ) :
    (network.next action).QueuesWellFormed := by
  intro side
  by_cases hside : side = action.side
  · subst hside
    obtain ⟨changes, hchanges⟩ := network.exists_changes_perform action
    rw [Network.next, Function.update_self, hchanges]
    exact QueueChange.wellFormed_foldl hsize hsmall changes (h _)
  · rw [Network.next, Function.update_of_ne hside]
    exact h side

/-- In every run, with packets lost, repeated and as late as can be, a side takes a
message if and only if the numbers from the oldest one that is not acknowledged to
the next one are fewer than the queue has places. -/
theorem canSendMessage_iff_of_run {time : τ} {actions : List (Action M τ)}
    {network : Network UInt16 config} (hsize : config.reliable.messageSendQueueSize ∣ 65536)
    (hsmall : config.reliable.messageSendQueueSize < 65536)
    (hrun : run Network.step (Network.create time) actions = .ok network) (side : Side) :
    (network side).connection.reliable.canSendMessage = true ↔
      offset (network side).connection.reliable.oldestUnackedMessageId
        (network side).connection.reliable.sendMessageId <
          config.reliable.messageSendQueueSize := by
  have hwellFormed : network.QueuesWellFormed := by
    refine run_invariant_of_step (fun before action after hbefore hstep => ?_)
      (fun _ => Yojimbo.ReliableOrderedChannel.wellFormed_reset) hrun
    obtain rfl := Except.ok.inj hstep
    exact hbefore.next hsize hsmall action
  rw [← ReliableOrderedChannel.canSendMessage_numbers]
  exact (hwellFormed side).canSendMessage_iff hsize

/-- The second and the third of four messages are acknowledged. -/
def fillingRun : List (Action ℕ ℤ) :=
  [.advanceTime .client 0, .advanceTime .server 0, .sendMessage .client 1, .sendPacket .client,
    .sendMessage .client 2, .sendMessage .client 3, .sendPacket .client, .sendMessage .client 4,
    .receivePacket .server 1, .sendPacket .server, .receivePacket .client 0,
    .advanceTime .client 1]

/-- The queue takes no fifth message: two of its places are free, but the next
number has the place of the first one. -/
theorem canSendMessage_of_fillingRun :
    ∃ network : Network UInt16 smallConnectionConfig,
      run Network.step (Network.create 0) fillingRun = .ok network ∧
      (network .client).connection.reliable.messageSendQueue.find 1 = none ∧
      (network .client).connection.reliable.canSendMessage = false := by
  refine ⟨fillingRun.foldl Network.next (Network.create 0), run_eq_foldl Network.next _ _,
    by decide +kernel, ?_⟩
  have hroom := canSendMessage_iff_of_run (by decide) (by decide)
    (run_eq_foldl Network.next (Network.create 0 : Network UInt16 smallConnectionConfig)
      fillingRun) .client
  exact Bool.eq_false_iff.mpr (mt hroom.mp (by decide +kernel))

end LibBench.Transport
