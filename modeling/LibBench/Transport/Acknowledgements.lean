/-
# The endpoint: acknowledgements

What an endpoint holds, with numbers that do not come round. The packets it has
sent end with the newest one; a packet that has been reported as acknowledged is
marked, so that it is not reported again. The packets it has received are marked
one by one, and a header says nothing of a packet that is not marked.
-/

import Mathlib.Data.List.Nodup
import LibBench.Transport.SendWindow

namespace LibBench.Transport

open LibBench.Math SequenceNumber

/-- The sizes that an endpoint is configured with, as for a channel. -/
structure EndpointConfig.Valid (config : EndpointConfig) : Prop where
  sentPacketsBufferSize_dvd : config.sentPacketsBufferSize ∣ 65536
  receivedPacketsBufferSize_dvd : config.receivedPacketsBufferSize ∣ 65536
  sentPacketsBufferSize_le : config.sentPacketsBufferSize ≤ 16384
  receivedPacketsBufferSize_le : config.receivedPacketsBufferSize ≤ 16384

/-- The header says that the packet has been received. -/
def PacketHeader.Acknowledges (header : PacketHeader ℤ) (sequence : ℤ) : Prop :=
  ∃ i : ℕ, i < 32 ∧ header.ackBits.testBit i = true ∧ sequence = header.ack - i

namespace Endpoint

variable {config : EndpointConfig} {endpoint : Endpoint ℤ config} {transmitted : ℕ}
  {reported : List ℤ} {marked : ℤ → Prop}

/-- The sending half of an endpoint that has transmitted so many packets and has
reported these. -/
structure Counting (endpoint : Endpoint ℤ config) (transmitted : ℕ) (reported : List ℤ) : Prop where
  sequence : endpoint.sequence = transmitted
  sentSequence : endpoint.sentPackets.sequence = transmitted
  windowed : endpoint.sentPackets.Windowed
  nonneg : ∀ ⦃sequence⦄, endpoint.sentPackets.find sequence ≠ none → 0 ≤ sequence
  nodup : reported.Nodup
  bounds : ∀ sequence ∈ reported, 0 ≤ sequence ∧ sequence < transmitted
  acked : ∀ sequence ∈ reported, ∀ ⦃data⦄, endpoint.sentPackets.find sequence = some data →
    data.acked = true

/-- The receiving half: every packet in the buffer is marked. -/
structure Collecting (endpoint : Endpoint ℤ config) (marked : ℤ → Prop) : Prop where
  windowed : endpoint.receivedPackets.Windowed
  nonneg : 0 ≤ endpoint.receivedPackets.sequence
  marked : ∀ ⦃sequence⦄, endpoint.receivedPackets.find sequence ≠ none → marked sequence

theorem counting_create : (create : Endpoint ℤ config).Counting 0 [] where
  sequence := rfl
  sentSequence := rfl
  windowed := SequenceRing.windowed_empty
  nonneg _ h := absurd SequenceRing.find_empty h
  nodup := List.nodup_nil
  bounds _ h := by cases h
  acked _ h := by cases h

theorem collecting_create (marked : ℤ → Prop) :
    (create : Endpoint ℤ config).Collecting marked where
  windowed := SequenceRing.windowed_empty
  nonneg := le_rfl
  marked _ h := absurd SequenceRing.find_empty h

theorem Collecting.mono (h : endpoint.Collecting marked) {later : ℤ → Prop}
    (hlater : ∀ sequence, marked sequence → later sequence) : endpoint.Collecting later :=
  ⟨h.windowed, h.nonneg, fun sequence hfind => hlater sequence (h.marked hfind)⟩

/-- The header of a packet says of the packets received what is marked. -/
theorem Collecting.acknowledges (h : endpoint.Collecting marked) {sequence : ℤ}
    (hack : (endpoint.sendPacket.2).Acknowledges sequence) : marked sequence := by
  obtain ⟨i, hi, hbit, rfl⟩ := hack
  have hheader : (endpoint.sendPacket.2).ack = endpoint.receivedPackets.sequence - 1 ∧
      (endpoint.sendPacket.2).ackBits =
        ackBitsUpTo endpoint.receivedPackets (endpoint.receivedPackets.sequence - 1) 32 := by
    rw [sendPacket]
    dsimp only [generateAckBits]
    split <;> exact ⟨rfl, rfl⟩
  rw [hheader.2, testBit_ackBitsUpTo, Bool.and_eq_true] at hbit
  rw [hheader.1]
  exact h.marked (Option.isSome_iff_ne_none.mp hbit.2)

theorem Counting.sendPacket_eq (h : endpoint.Counting transmitted reported)
    (hsize : 0 < config.sentPacketsBufferSize) :
    ∃ sentPackets, endpoint.sendPacket.1 =
        { endpoint with sequence := (transmitted : ℤ) + 1, sentPackets } ∧
      (endpoint.sendPacket.2).sequence = transmitted ∧
      bufferInsert endpoint.sentPackets (transmitted : ℤ) ⟨false⟩ = some sentPackets ∧
      sentPackets.Windowed ∧ sentPackets.sequence = transmitted + 1 ∧
      ∀ other, sentPackets.find other =
        if other = transmitted then some ⟨false⟩
        else if (transmitted : ℤ) + 1 ≤ other + config.sentPacketsBufferSize then
          endpoint.sentPackets.find other
        else none := by
  obtain ⟨after, hinsert, hwindowed, hsequence, hfind⟩ :=
    h.windowed.exists_insert hsize 65536 (⟨false⟩ : SentPacketData)
      (show _ ≤ (transmitted : ℤ) + _ by rw [h.sentSequence]; omega)
  have hmax : max endpoint.sentPackets.sequence ((transmitted : ℤ) + 1) = transmitted + 1 := by
    rw [h.sentSequence]
    omega
  rw [hmax] at hsequence hfind
  have hbuffer : bufferInsert endpoint.sentPackets (transmitted : ℤ) ⟨false⟩ = some after := by
    rw [bufferInsert, SequenceRing.insertUnlessStale_eq_insert, hinsert]
  have hsend : endpoint.sendPacket =
      ({ endpoint with sequence := (transmitted : ℤ) + 1, sentPackets := after },
        ⟨transmitted, (generateAckBits endpoint.receivedPackets).1,
          (generateAckBits endpoint.receivedPackets).2⟩) := by
    rw [sendPacket, h.sequence]
    dsimp only
    rw [hbuffer]
    rfl
  exact ⟨after, by rw [hsend], by rw [hsend], hbuffer, hwindowed, hsequence, hfind⟩

theorem Counting.sendPacket (h : endpoint.Counting transmitted reported)
    (hsize : 0 < config.sentPacketsBufferSize) :
    (endpoint.sendPacket.1).Counting (transmitted + 1) reported := by
  obtain ⟨after, hsend, _, _, hwindowed, hsequence, hfind⟩ := h.sendPacket_eq hsize
  rw [hsend]
  refine ⟨by simp, by simp [hsequence], hwindowed, fun sequence hsome => ?_, h.nodup,
    fun sequence hmem => ?_, fun sequence hmem data hdata => ?_⟩
  · change after.find sequence ≠ none at hsome
    rw [hfind] at hsome
    split at hsome
    · omega
    · split at hsome
      · exact h.nonneg hsome
      · exact absurd rfl hsome
  · obtain ⟨hge, hlt⟩ := h.bounds sequence hmem
    exact ⟨hge, by push_cast; omega⟩
  · change after.find sequence = some data at hdata
    rw [hfind, if_neg (h.bounds sequence hmem).2.ne] at hdata
    split at hdata
    · exact h.acked sequence hmem hdata
    · cases hdata

/-- An acknowledged packet is reported if it has been sent and not been reported
before. -/
theorem Counting.ackPacket (h : endpoint.Counting transmitted reported) (sequence : ℤ) :
    ∃ new, (endpoint.ackPacket sequence).acks = endpoint.acks ++ new ∧
      (∀ other ∈ new, other = sequence) ∧
      (endpoint.ackPacket sequence).Counting transmitted (reported ++ new) := by
  have hnothing : ∃ new, endpoint.acks = endpoint.acks ++ new ∧ (∀ other ∈ new, other = sequence) ∧
      endpoint.Counting transmitted (reported ++ new) :=
    ⟨[], by simp, by simp, by simpa using h⟩
  rw [Endpoint.ackPacket]
  split
  · exact hnothing
  · next data hfind =>
      split
      · next hnew =>
          rw [Bool.and_eq_true, Bool.not_eq_true'] at hnew
          have hfresh : sequence ∉ reported := by
            intro hmem
            rw [h.acked sequence hmem hfind] at hnew
            cases hnew.1
          have hin := h.windowed.inWindow hfind
          refine ⟨[sequence], rfl, by simp, h.sequence,
            SequenceRing.sequence_modify.trans h.sentSequence, h.windowed.modify,
            fun other hsome => ?_, ?_, fun other hmem => ?_, fun other hmem otherData hother => ?_⟩
          · rw [h.windowed.find_modify] at hsome
            split at hsome
            · exact h.nonneg (mt (fun hnone => by rw [hnone, Option.map_none]) hsome)
            · exact h.nonneg hsome
          · exact List.nodup_append_comm.mpr (List.nodup_cons.mpr ⟨hfresh, h.nodup⟩)
          · obtain hmem | hmem := List.mem_append.mp hmem
            · exact h.bounds other hmem
            · obtain rfl := List.mem_singleton.mp hmem
              have hlt := hin.1
              rw [h.sentSequence] at hlt
              exact ⟨h.nonneg (by rw [hfind]; exact Option.some_ne_none _), hlt⟩
          · rw [h.windowed.find_modify] at hother
            split at hother
            · obtain ⟨_, _, rfl⟩ := Option.map_eq_some_iff.mp hother
              rfl
            · next hne =>
                obtain hmem | hmem := List.mem_append.mp hmem
                · exact h.acked other hmem hother
                · exact absurd (List.mem_singleton.mp hmem) hne
      · exact hnothing

theorem receivedPackets_ackPacket (sequence : ℤ) :
    (endpoint.ackPacket sequence).receivedPackets = endpoint.receivedPackets := by
  rw [Endpoint.ackPacket]
  split
  · rfl
  · split <;> rfl

theorem Counting.foldl_processAckBit (h : endpoint.Counting transmitted reported)
    (header : PacketHeader ℤ) {indices : List ℕ} (hindices : ∀ i ∈ indices, i < 32) :
    ∃ new, (indices.foldl (processAckBit header) endpoint).acks = endpoint.acks ++ new ∧
      (∀ sequence ∈ new, header.Acknowledges sequence) ∧
      (indices.foldl (processAckBit header) endpoint).Counting transmitted (reported ++ new) := by
  induction indices generalizing endpoint reported with
  | nil => exact ⟨[], by simp, by simp, by simpa using h⟩
  | cons i indices ih =>
      have hlater : ∀ j ∈ indices, j < 32 := fun j hj => hindices j (List.mem_cons_of_mem _ hj)
      rw [List.foldl_cons, processAckBit]
      split
      · next hbit =>
          obtain ⟨first, hacks, hfirst, hcounting⟩ := h.ackPacket (add header.ack (-i))
          obtain ⟨rest, hrestAcks, hrest, hall⟩ := ih hcounting hlater
          refine ⟨first ++ rest, by rw [hrestAcks, hacks, List.append_assoc], ?_,
            by rwa [List.append_assoc] at hall⟩
          intro sequence hmem
          obtain hmem | hmem := List.mem_append.mp hmem
          · exact ⟨i, hindices i List.mem_cons_self, hbit, hfirst sequence hmem⟩
          · exact hrest sequence hmem
      · exact ih h hlater

/-- What a header reports is acknowledged by it. -/
theorem Counting.processAckBits (h : endpoint.Counting transmitted reported)
    (header : PacketHeader ℤ) :
    ∃ new, (endpoint.processAckBits header).acks = endpoint.acks ++ new ∧
      (∀ sequence ∈ new, header.Acknowledges sequence) ∧
      (endpoint.processAckBits header).Counting transmitted (reported ++ new) :=
  h.foldl_processAckBit header fun _ hi => List.mem_range.mp hi

theorem receivedPackets_processAckBits (header : PacketHeader ℤ) :
    (endpoint.processAckBits header).receivedPackets = endpoint.receivedPackets := by
  rw [Endpoint.processAckBits]
  generalize List.range 32 = indices
  induction indices generalizing endpoint with
  | nil => rfl
  | cons i indices ih =>
      rw [List.foldl_cons, ih, processAckBit]
      split
      · exact receivedPackets_ackPacket _
      · rfl

end Endpoint

end LibBench.Transport
