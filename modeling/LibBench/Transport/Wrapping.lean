/-
# Numbers that come round: the endpoint

What the endpoint of the program holds is the image of what the endpoint with
integers holds, and everything it does is the image of what the other does, as
long as the numbers it compares are less than half a turn apart, and those it
looks for less than a whole turn from what it has.
-/

import LibBench.Transport.Acknowledgements

namespace LibBench.Transport

open LibBench.Math SequenceNumber

/-- The header of the program that stands for a header. -/
def PacketHeader.wrapped (header : PacketHeader ℤ) : PacketHeader UInt16 where
  sequence := wrap header.sequence
  ack := wrap header.ack
  ackBits := header.ackBits

/-- The endpoint of the program that stands for an endpoint. -/
def Endpoint.wrapped {config : EndpointConfig} (endpoint : Endpoint ℤ config) :
    Endpoint UInt16 config where
  acks := endpoint.acks.map wrap
  sequence := wrap endpoint.sequence
  sentPackets := endpoint.sentPackets.wrapped id
  receivedPackets := endpoint.receivedPackets.wrapped id

section SequenceBuffer

variable {α β : Type*} {size : ℕ} {image : α → β} {buffer : SequenceRing ℤ α size} {sequence : ℤ}

/-- A number less than half a turn from the window. -/
def Near (buffer : SequenceRing ℤ α size) (sequence : ℤ) : Prop :=
  buffer.sequence ≤ sequence + 32768 ∧ sequence + size < buffer.sequence + 32768

instance (buffer : SequenceRing ℤ α size) (sequence : ℤ) : Decidable (Near buffer sequence) :=
  inferInstanceAs (Decidable (_ ∧ _))

instance (buffer : SequenceRing ℤ α size) (sequence : ℤ) :
    Decidable (buffer.WithinTurn sequence) :=
  inferInstanceAs (Decidable (_ ∧ _))

theorem testInsert_wrapped (hpos : 0 < size) (hnear : Near buffer sequence) :
    testInsert (buffer.wrapped image) (wrap sequence) = testInsert buffer sequence := by
  obtain ⟨hlate, hearly⟩ := hnear
  rw [testInsert, SequenceRing.isStale_wrapped (by omega) hearly, testInsert]

theorem bufferInsert_wrapped (h : buffer.Windowed) (hsize : size ∣ 65536) (hsmall : size ≤ 16384)
    (hnear : Near buffer sequence) (data : α) :
    bufferInsert (buffer.wrapped image) (wrap sequence) (image data) =
      (bufferInsert buffer sequence data).map (SequenceRing.wrapped image) := by
  have hpos : 0 < size := Nat.pos_of_dvd_of_pos hsize (by decide)
  obtain ⟨hlate, hearly⟩ := hnear
  exact h.insertUnlessStale_wrapped hsize (by omega) (by omega) hearly (.inl rfl)

theorem bufferAdvance_wrapped (h : buffer.Windowed) (hsize : size ∣ 65536)
    (hnear : Near buffer sequence) :
    bufferAdvance (buffer.wrapped image) (wrap sequence) =
      (bufferAdvance buffer sequence).wrapped image := by
  have hpos : 0 < size := Nat.pos_of_dvd_of_pos hsize (by decide)
  obtain ⟨hlate, hearly⟩ := hnear
  exact h.advance_wrapped hsize hlate (by omega)

theorem generateAckBits_wrapped (h : buffer.Windowed) (hsize : size ∣ 65536)
    (hsmall : size ≤ 16384) :
    generateAckBits (buffer.wrapped image) =
      (wrap (generateAckBits buffer).1, (generateAckBits buffer).2) := by
  have hexists : ∀ i ∈ List.range 32,
      bufferExists (buffer.wrapped image) (add (wrap (buffer.sequence - 1)) (-i)) =
        bufferExists buffer (add (buffer.sequence - 1) (-i)) := by
    intro i hi
    have hlt := List.mem_range.mp hi
    rw [bufferExists, bufferExists, add_wrap, add_count,
      h.find_wrapped hsize ⟨by omega, by omega⟩, Option.isSome_map]
  simp only [generateAckBits, SequenceRing.sequence_wrapped, add_wrap, add_count, ← sub_eq_add_neg,
    Prod.mk.injEq, true_and]
  refine List.foldl_ext _ _ _ fun ackBits i hi => ?_
  rw [hexists i hi]

end SequenceBuffer

namespace Endpoint

variable {config : EndpointConfig} {endpoint : Endpoint ℤ config} {transmitted : ℕ}
  {reported : List ℤ} {marked : ℤ → Prop} {sequence : ℤ}

theorem sendPacket_wrapped (h : endpoint.Counting transmitted reported)
    (hcollecting : endpoint.Collecting marked) (hvalid : config.Valid) :
    endpoint.wrapped.sendPacket =
      (endpoint.sendPacket.1.wrapped, endpoint.sendPacket.2.wrapped) := by
  have hsmall := hvalid.sentPacketsBufferSize_le
  have hnear : Near endpoint.sentPackets endpoint.sequence := by
    rw [Near, h.sentSequence, h.sequence]
    omega
  have hinsert : bufferInsert (endpoint.sentPackets.wrapped id) (wrap endpoint.sequence) ⟨false⟩ =
      (bufferInsert endpoint.sentPackets endpoint.sequence ⟨false⟩).map
        (SequenceRing.wrapped id) :=
    bufferInsert_wrapped h.windowed hvalid.sentPacketsBufferSize_dvd hsmall hnear _
  have hbits : generateAckBits (endpoint.receivedPackets.wrapped id) =
      (wrap (generateAckBits endpoint.receivedPackets).1,
        (generateAckBits endpoint.receivedPackets).2) :=
    generateAckBits_wrapped hcollecting.windowed hvalid.receivedPacketsBufferSize_dvd
      hvalid.receivedPacketsBufferSize_le
  simp only [sendPacket, wrapped, hbits, hinsert]
  cases bufferInsert endpoint.sentPackets endpoint.sequence ⟨false⟩ with
  | none => rfl
  | some sentPackets => simp [PacketHeader.wrapped]

theorem ackPacket_wrapped (hwindowed : endpoint.sentPackets.Windowed) (hvalid : config.Valid)
    (hnear : endpoint.sentPackets.WithinTurn sequence) :
    endpoint.wrapped.ackPacket (wrap sequence) = (endpoint.ackPacket sequence).wrapped := by
  have hsize := hvalid.sentPacketsBufferSize_dvd
  have hfind : (endpoint.sentPackets.wrapped id).find (wrap sequence) =
      (endpoint.sentPackets.find sequence).map id := hwindowed.find_wrapped hsize hnear
  have hmodify : (endpoint.sentPackets.wrapped id).modify (wrap sequence) (fun _ => ⟨true⟩) =
      (endpoint.sentPackets.modify sequence fun _ => ⟨true⟩).wrapped id :=
    hwindowed.modify_wrapped hsize hnear fun _ => rfl
  simp only [ackPacket, wrapped, hfind, hmodify, List.length_map]
  cases endpoint.sentPackets.find sequence with
  | none => rfl
  | some sentPacketData =>
      simp only [Option.map_some, id_eq]
      split <;> simp

theorem windowed_ackPacket (hwindowed : endpoint.sentPackets.Windowed) (sequence : ℤ) :
    (endpoint.ackPacket sequence).sentPackets.Windowed ∧
      (endpoint.ackPacket sequence).sentPackets.sequence = endpoint.sentPackets.sequence := by
  rw [ackPacket]
  split
  · exact ⟨hwindowed, rfl⟩
  · split
    · exact ⟨hwindowed.modify, SequenceRing.sequence_modify⟩
    · exact ⟨hwindowed, rfl⟩

theorem processAckBits_wrapped (hwindowed : endpoint.sentPackets.Windowed) (hvalid : config.Valid)
    {header : PacketHeader ℤ}
    (hnear : ∀ i < 32, header.ackBits.testBit i = true →
      endpoint.sentPackets.WithinTurn (header.ack - i)) :
    endpoint.wrapped.processAckBits header.wrapped = (endpoint.processAckBits header).wrapped := by
  rw [processAckBits, processAckBits]
  have hindices : ∀ i ∈ List.range 32, header.ackBits.testBit i = true →
      endpoint.sentPackets.WithinTurn (header.ack - i) := fun i hi => hnear i (List.mem_range.mp hi)
  clear hnear
  generalize List.range 32 = indices at hindices
  induction indices generalizing endpoint with
  | nil => rfl
  | cons i indices ih =>
      have hrest : ∀ j ∈ indices, header.ackBits.testBit j = true →
          endpoint.sentPackets.WithinTurn (header.ack - j) :=
        fun j hj => hindices j (List.mem_cons_of_mem _ hj)
      rw [List.foldl_cons, List.foldl_cons, processAckBit, processAckBit, PacketHeader.wrapped]
      split
      · next hbit =>
          have hfirst := hindices i List.mem_cons_self hbit
          obtain ⟨hafter, hsequence⟩ := windowed_ackPacket hwindowed (header.ack - i)
          rw [add_wrap, add_count, ← sub_eq_add_neg, ackPacket_wrapped hwindowed hvalid hfirst]
          refine ih hafter fun j hj hjbit => ?_
          rw [SequenceRing.WithinTurn, hsequence]
          exact hrest j hj hjbit
      · exact ih hwindowed hrest

/-- The payload is processed as the image of how it is processed. -/
theorem receivePacket_wrapped {σ ρ : Type*} {image : σ → ρ} {processPacket : σ → Bool × σ}
    {processImage : ρ → Bool × ρ} {context : σ} (hvalid : config.Valid)
    (hreceived : endpoint.receivedPackets.Windowed) (hsent : endpoint.sentPackets.Windowed)
    {header : PacketHeader ℤ} (hnear : Near endpoint.receivedPackets header.sequence)
    (hacks : ∀ i < 32, header.ackBits.testBit i = true →
      endpoint.sentPackets.WithinTurn (header.ack - i))
    (hprocess : processImage (image context) = Prod.map id image (processPacket context)) :
    endpoint.wrapped.receivePacket processImage (image context) header.wrapped =
      Prod.map wrapped image (endpoint.receivePacket processPacket context header) := by
  have hsize := hvalid.receivedPacketsBufferSize_dvd
  have hpos : 0 < config.receivedPacketsBufferSize := Nat.pos_of_dvd_of_pos hsize (by decide)
  have htest : testInsert (endpoint.receivedPackets.wrapped id) (wrap header.sequence) =
      testInsert endpoint.receivedPackets header.sequence := testInsert_wrapped hpos hnear
  have hinsert : bufferInsert (endpoint.receivedPackets.wrapped id) (wrap header.sequence) () =
      (bufferInsert endpoint.receivedPackets header.sequence ()).map (SequenceRing.wrapped id) :=
    bufferInsert_wrapped hreceived hsize hvalid.receivedPacketsBufferSize_le hnear ()
  have hheader : endpoint.wrapped.receivedPackets = endpoint.receivedPackets.wrapped id ∧
      header.wrapped.sequence = wrap header.sequence := ⟨rfl, rfl⟩
  rw [receivePacket, receivePacket, hheader.1, hheader.2, htest, hprocess, hinsert]
  split
  · obtain ⟨success, after⟩ := processPacket context
    cases success with
    | false => rfl
    | true =>
        cases bufferInsert endpoint.receivedPackets header.sequence () with
        | none => rfl
        | some receivedPackets =>
            have hafter : Endpoint.sentPackets { endpoint with receivedPackets } |>.Windowed :=
              hsent
            have hbits := processAckBits_wrapped hafter hvalid hacks
            exact congrArg (·, image after) hbits
  · rfl

theorem receiveFragment_wrapped (hvalid : config.Valid)
    (hreceived : endpoint.receivedPackets.Windowed)
    (hnear : Near endpoint.receivedPackets sequence) :
    endpoint.wrapped.receiveFragment (wrap sequence) =
      (endpoint.receiveFragment sequence).wrapped := by
  have hadvance : bufferAdvance (endpoint.receivedPackets.wrapped id) (wrap sequence) =
      (bufferAdvance endpoint.receivedPackets sequence).wrapped id :=
    bufferAdvance_wrapped hreceived hvalid.receivedPacketsBufferSize_dvd hnear
  simp only [receiveFragment, wrapped, hadvance]

end Endpoint

end LibBench.Transport
