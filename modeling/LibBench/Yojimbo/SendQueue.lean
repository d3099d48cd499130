/-
# Yojimbo: the send queue of a reliable channel

`SequenceBuffer` and the sending side of `ReliableOrderedChannel`, as far as
they decide whether a message can be sent: a message goes into the queue at its
place in a ring and leaves it when the packet that it went out with is
acknowledged, in any order. The entries themselves and everything about packets
are left out here; `Transport.QueueNumbers` relates the queue to the whole
channel.

The queue is a window: its entries are numbers from the oldest one that is not
acknowledged up to the next one to be sent. The ring gets a new entry in as long
as the window is shorter than the ring, whatever holes the window has.
-/

import Mathlib.Logic.Function.Basic
import LibBench.Math.SequenceWindow
import LibBench.Transport.Channel

namespace LibBench.Yojimbo

open LibBench.Math
open LibBench.Transport (ChannelErrorLevel)

/-- `sequence_greater_than`. -/
def sequenceGreaterThan (s1 s2 : UInt16) : Bool :=
  (s2 < s1 && s1.toNat - s2.toNat ≤ 32768) || (s1 < s2 && 32768 < s2.toNat - s1.toNat)

/-- `sequence_less_than`. -/
def sequenceLessThan (s1 s2 : UInt16) : Bool :=
  sequenceGreaterThan s2 s1

/-- Also where the numbers come round. -/
theorem sequenceGreaterThan_add_one (sequence : UInt16) :
    sequenceGreaterThan (sequence + 1) sequence = true := by
  have hlt := sequence.toNat_lt
  simp only [sequenceGreaterThan, UInt16.lt_iff_toNat_lt, UInt16.toNat_add, UInt16.toNat_one,
    Bool.or_eq_true, Bool.and_eq_true, decide_eq_true_eq]
  omega

/-- `SequenceBuffer`: the sequence number that each place holds, none where the
source has `0xFFFFFFFF`. -/
structure SequenceBuffer (size : ℕ) where
  sequence : UInt16 := 0
  entrySequence : ℕ → Option UInt16 := fun _ => none

namespace SequenceBuffer

variable {size : ℕ} (buffer : SequenceBuffer size) (sequence : UInt16)

/-- `Available`. -/
def available : Bool :=
  (buffer.entrySequence (sequence.toNat % size)).isNone

/-- `Find`: whether there is an entry. -/
def find : Bool :=
  buffer.entrySequence (sequence.toNat % size) = some sequence

/-- `Remove`. -/
def remove : SequenceBuffer size :=
  { buffer with
    entrySequence := Function.update buffer.entrySequence (sequence.toNat % size) none }

/-- `RemoveEntries`. The arguments are of type `int`. -/
def removeEntries (startSequence finishSequence : ℕ) : SequenceBuffer size :=
  let finishSequence :=
    if finishSequence < startSequence then finishSequence + 65535 else finishSequence
  if finishSequence - startSequence < size then
    { buffer with
      entrySequence := (List.range' startSequence (finishSequence - startSequence + 1)).foldl
        (fun entrySequence sequence => Function.update entrySequence (sequence % size) none)
        buffer.entrySequence }
  else { buffer with entrySequence := fun _ => none }

/-- Put a number in its place. -/
def place : SequenceBuffer size :=
  { buffer with
    entrySequence :=
      Function.update buffer.entrySequence (sequence.toNat % size) (some sequence) }

/-- `Insert`: none if the number is too old. -/
def insert : Option (SequenceBuffer size) :=
  if sequenceGreaterThan (sequence + 1) buffer.sequence then
    let cleared := buffer.removeEntries buffer.sequence.toNat sequence.toNat
    some ({ cleared with sequence := sequence + 1 }.place sequence)
  else if sequenceLessThan sequence (buffer.sequence - UInt16.ofNat size) then none
  else some (buffer.place sequence)

variable {buffer sequence}

theorem find_eq_true_iff :
    buffer.find sequence = true ↔
      buffer.entrySequence (sequence.toNat % size) = some sequence := by
  rw [find, decide_eq_true_eq]

/-- The number after the last one goes in, and nothing else changes. -/
theorem insert_sequence (hsize : 0 < size) (h : buffer.sequence = sequence) :
    buffer.insert sequence =
      some { buffer.place sequence with sequence := sequence + 1 } := by
  subst h
  rw [insert, if_pos (sequenceGreaterThan_add_one _)]
  simp [removeEntries, hsize, place]

end SequenceBuffer

/-- The sending side of `ReliableOrderedChannel`. -/
structure ReliableOrderedChannel (messageSendQueueSize : ℕ) where
  errorLevel : ChannelErrorLevel := .none
  sendMessageId : UInt16 := 0
  oldestUnackedMessageId : UInt16 := 0
  messageSendQueue : SequenceBuffer messageSendQueueSize := {}

namespace ReliableOrderedChannel

variable {size : ℕ} (channel : ReliableOrderedChannel size)

/-- `CanSendMessage`. -/
def canSendMessage : Bool :=
  channel.messageSendQueue.available channel.sendMessageId

/-- `SendMessage`, in a build without assertions. -/
def sendMessage : ReliableOrderedChannel size :=
  if channel.errorLevel ≠ .none then channel
  else if !channel.canSendMessage then { channel with errorLevel := .sendQueueFull }
  else
    match channel.messageSendQueue.insert channel.sendMessageId with
    | .none => channel -- the source asserts an entry, see `SequenceBuffer.insert_sequence`
    | some messageSendQueue =>
        { channel with messageSendQueue, sendMessageId := channel.sendMessageId + 1 }

/-- The loop of `UpdateOldestUnackedMessageId`. It ends at `stopMessageId` if not
before. -/
def nextUnacked (messageSendQueue : SequenceBuffer size) (stopMessageId : UInt16) :
    ℕ → UInt16 → UInt16
  | 0, messageId => messageId
  | fuel + 1, messageId =>
      if messageId = stopMessageId ∨ messageSendQueue.find messageId then messageId
      else nextUnacked messageSendQueue stopMessageId fuel (messageId + 1)

/-- `UpdateOldestUnackedMessageId`. -/
def updateOldestUnackedMessageId : ReliableOrderedChannel size :=
  let stopMessageId := channel.messageSendQueue.sequence
  { channel with
    oldestUnackedMessageId := nextUnacked channel.messageSendQueue stopMessageId
      (offset channel.oldestUnackedMessageId stopMessageId) channel.oldestUnackedMessageId }

/-- The body of the loop of `ProcessAck`. -/
def ackMessage (messageId : UInt16) : ReliableOrderedChannel size :=
  if channel.messageSendQueue.find messageId then
    { channel with messageSendQueue := channel.messageSendQueue.remove messageId
      }.updateOldestUnackedMessageId
  else channel

/-- `ProcessAck`, of a packet that these messages went out with. -/
def processAck (messageIds : List UInt16) : ReliableOrderedChannel size :=
  messageIds.foldl ackMessage channel

/-- The length of the window: how many numbers there are from the oldest message
that is not acknowledged to the last one. -/
def outstanding : ℕ :=
  offset channel.oldestUnackedMessageId channel.sendMessageId

/-- The entries of the queue lie in the window, each in its place. -/
structure Windowed : Prop where
  sequence : channel.messageSendQueue.sequence = channel.sendMessageId
  bounded : channel.outstanding ≤ size
  entries : ∀ index messageId, channel.messageSendQueue.entrySequence index = some messageId →
    messageId.toNat % size = index ∧
      offset channel.oldestUnackedMessageId messageId < channel.outstanding

/-- And the window begins with an entry. -/
structure WellFormed : Prop extends channel.Windowed where
  oldest : channel.outstanding ≠ 0 →
    channel.messageSendQueue.find channel.oldestUnackedMessageId = true

theorem wellFormed_reset : WellFormed ({} : ReliableOrderedChannel size) where
  sequence := rfl
  bounded := (offset_self _).trans_le (Nat.zero_le size)
  entries _ _ h := by cases h
  oldest h := absurd (offset_self _) h

variable {channel}

/-- There is room as long as the window is shorter than the ring. -/
theorem WellFormed.canSendMessage_iff (h : channel.WellFormed) (hsize : size ∣ 65536) :
    channel.canSendMessage = true ↔ channel.outstanding < size := by
  have hpos : 0 < size := Nat.pos_of_dvd_of_pos hsize (by decide)
  rw [canSendMessage, SequenceBuffer.available, Option.isNone_iff_eq_none]
  constructor
  · intro hfree
    by_contra hfull
    -- the place of the next number is that of the oldest one, which is taken
    have hlength : channel.outstanding = size := le_antisymm h.bounded (not_lt.mp hfull)
    have hnonempty : channel.outstanding ≠ 0 := by omega
    have holdest := SequenceBuffer.find_eq_true_iff.mp (h.oldest hnonempty)
    rw [← mod_eq_mod_of_offset_eq_size hsize hlength, hfree] at holdest
    cases holdest
  · intro hlt
    by_contra htaken
    obtain ⟨messageId, hmessage⟩ := Option.ne_none_iff_exists'.mp htaken
    obtain ⟨hplace, hinside⟩ := h.entries _ _ hmessage
    have heq := eq_of_mod_eq_mod hsize (hinside.trans hlt) hlt hplace
    rw [heq] at hinside
    exact lt_irrefl _ hinside

/-- With room, the message goes in. -/
theorem WellFormed.sendMessage_eq (h : channel.WellFormed) (hsize : size ∣ 65536)
    (hlevel : channel.errorLevel = .none) (hlt : channel.outstanding < size) :
    channel.sendMessage = { channel with
      messageSendQueue := { channel.messageSendQueue.place channel.sendMessageId with
        sequence := channel.sendMessageId + 1 }
      sendMessageId := channel.sendMessageId + 1 } := by
  have hpos : 0 < size := Nat.pos_of_dvd_of_pos hsize (by decide)
  have hcan := (h.canSendMessage_iff hsize).mpr hlt
  rw [sendMessage, if_neg (not_not.mpr hlevel), hcan, Bool.not_true, if_neg Bool.false_ne_true,
    SequenceBuffer.insert_sequence hpos h.sequence]

/-- The window gets longer by one. -/
theorem WellFormed.outstanding_sendMessage (h : channel.WellFormed) (hsize : size ∣ 65536)
    (hsmall : size < 65536) (hlevel : channel.errorLevel = .none)
    (hlt : channel.outstanding < size) :
    channel.sendMessage.outstanding = channel.outstanding + 1 := by
  rw [h.sendMessage_eq hsize hlevel hlt]
  exact offset_add_one (Nat.lt_of_le_of_lt hlt hsmall)

theorem WellFormed.sendMessage (h : channel.WellFormed) (hsize : size ∣ 65536)
    (hsmall : size < 65536) : channel.sendMessage.WellFormed := by
  by_cases hlevel : channel.errorLevel = .none
  · by_cases hlt : channel.outstanding < size
    · have hlength := h.outstanding_sendMessage hsize hsmall hlevel hlt
      rw [h.sendMessage_eq hsize hlevel hlt] at hlength ⊢
      refine ⟨⟨rfl, hlength.trans_le hlt, fun index messageId hentry => ?_⟩, fun _ => ?_⟩
      · rw [hlength]
        change Function.update _ _ _ _ = _ at hentry
        rw [Function.update_apply] at hentry
        split at hentry
        · next hindex =>
            obtain rfl := Option.some_inj.mp hentry
            exact ⟨hindex.symm, Nat.lt_succ_self _⟩
        · obtain ⟨hplace, hinside⟩ := h.entries _ _ hentry
          exact ⟨hplace, Nat.lt_succ_of_lt hinside⟩
      · rw [SequenceBuffer.find_eq_true_iff]
        change Function.update _ _ _ _ = _
        rw [Function.update_apply]
        split
        · next hplace =>
            -- an empty window begins with the new entry
            have hzero : offset channel.oldestUnackedMessageId channel.oldestUnackedMessageId <
                size := by
              rw [offset_self]
              omega
            rw [eq_of_mod_eq_mod hsize hzero hlt hplace]
        · next hplace =>
            apply SequenceBuffer.find_eq_true_iff.mp
            apply h.oldest
            intro hempty
            rw [offset_eq_zero_iff.mp hempty] at hplace
            exact hplace rfl
    · have hfull : channel.canSendMessage = false :=
        Bool.eq_false_iff.mpr (mt (h.canSendMessage_iff hsize).mp hlt)
      rw [ReliableOrderedChannel.sendMessage, if_neg (not_not.mpr hlevel), hfull, Bool.not_false,
        if_pos rfl]
      exact ⟨⟨h.sequence, h.bounded, h.entries⟩, h.oldest⟩
  · rw [ReliableOrderedChannel.sendMessage, if_pos hlevel]
    exact h

/-- The loop moves the start of the window over numbers without an entry. -/
theorem Windowed.nextUnacked (h : channel.Windowed) {fuel : ℕ}
    (hfuel : fuel = channel.outstanding) :
    WellFormed { channel with
      oldestUnackedMessageId := ReliableOrderedChannel.nextUnacked channel.messageSendQueue
        channel.messageSendQueue.sequence fuel channel.oldestUnackedMessageId } := by
  induction fuel generalizing channel with
  | zero => exact ⟨⟨h.sequence, h.bounded, h.entries⟩, fun hne => absurd hfuel.symm hne⟩
  | succ fuel ih =>
      rw [ReliableOrderedChannel.nextUnacked]
      split
      · next hstop =>
          refine ⟨⟨h.sequence, h.bounded, h.entries⟩, fun hne => ?_⟩
          refine hstop.resolve_left fun heq => hne ?_
          rw [h.sequence] at heq
          exact offset_eq_zero_iff.mpr heq.symm
      · next hgo =>
          obtain ⟨hstop, hfind⟩ := not_or.mp hgo
          rw [h.sequence] at hstop
          have hlength := offset_start_add_one (Ne.symm hstop)
          let moved : ReliableOrderedChannel size :=
            { channel with oldestUnackedMessageId := channel.oldestUnackedMessageId + 1 }
          have hmoved : moved.outstanding + 1 = channel.outstanding := hlength
          have hwindowed : moved.Windowed := by
            have hbounded := h.bounded
            refine ⟨h.sequence, by omega, fun index messageId hentry => ?_⟩
            obtain ⟨hplace, hinside⟩ := h.entries index messageId hentry
            have hne : messageId ≠ channel.oldestUnackedMessageId := by
              rintro rfl
              rw [← hplace] at hentry
              exact hfind (SequenceBuffer.find_eq_true_iff.mpr hentry)
            have hnearer := offset_start_add_one hne
            refine ⟨hplace, ?_⟩
            show offset (channel.oldestUnackedMessageId + 1) messageId < moved.outstanding
            omega
          exact ih hwindowed (by omega)

theorem WellFormed.ackMessage (h : channel.WellFormed) (messageId : UInt16) :
    (channel.ackMessage messageId).WellFormed := by
  rw [ReliableOrderedChannel.ackMessage]
  split
  · let removed : ReliableOrderedChannel size :=
      { channel with messageSendQueue := channel.messageSendQueue.remove messageId }
    have hremoved : removed.Windowed := by
      refine ⟨h.sequence, h.bounded, fun index other hentry => ?_⟩
      change Function.update _ _ _ _ = _ at hentry
      rw [Function.update_apply] at hentry
      split at hentry
      · cases hentry
      · exact h.entries index other hentry
    apply hremoved.nextUnacked
    rw [hremoved.sequence]
    rfl
  · exact h

theorem WellFormed.processAck (h : channel.WellFormed) (messageIds : List UInt16) :
    (channel.processAck messageIds).WellFormed := by
  induction messageIds generalizing channel with
  | nil => exact h
  | cons messageId messageIds ih => exact ih (h.ackMessage messageId)

@[simp]
theorem errorLevel_processAck (messageIds : List UInt16) :
    (channel.processAck messageIds).errorLevel = channel.errorLevel := by
  induction messageIds generalizing channel with
  | nil => rfl
  | cons messageId messageIds ih =>
      have hack : (channel.ackMessage messageId).errorLevel = channel.errorLevel := by
        rw [ReliableOrderedChannel.ackMessage]
        split <;> rfl
      exact ih.trans hack

end ReliableOrderedChannel

end LibBench.Yojimbo
