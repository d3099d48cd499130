/-
# reliable.io: putting fragments together

What the memory of a packet holds depends only on which of its fragments have
come, not on their order or on how often one came. So for each packet under way
it is enough to know the set of the fragments that are there, and for each
datagram what it adds to the set; when nothing is missing, the packet is
processed as if it had come whole.

The sets are kept under the counts of the packets. The ring of the program, with
its numbers of sixteen bits, is the image of the ring of sets as long as no
datagram comes half a turn late.
-/

import LibBench.Transport.Fragments

namespace LibBench.Transport

open LibBench.Math SequenceNumber

/-- A packet of which some fragments have come. -/
structure PendingPacket where
  header : PacketHeader UInt16
  payload : List UInt8
  received : Finset ℕ

namespace PendingPacket

variable (pending : PendingPacket)

/-- How many fragments it has. -/
def numFragments (fragmentSize : ℕ) : ℕ :=
  pieceCount fragmentSize pending.payload.length

/-- One more fragment. -/
def receive (i : ℕ) : PendingPacket :=
  { pending with received := insert i pending.received }

/-- What the memory holds. -/
def stored (fragmentSize : ℕ) : FragmentReassemblyData where
  numFragmentsReceived := pending.received.card
  numFragmentsTotal := pending.numFragments fragmentSize
  packetHeader := if 0 ∈ pending.received then writePacketHeader pending.header else []
  packetData := filled 0 fragmentSize (pending.numFragments fragmentSize * fragmentSize)
    pending.payload pending.received
  packetBytes :=
    if pending.numFragments fragmentSize - 1 ∈ pending.received then pending.payload.length else 0
  fragmentReceived i := i ∈ pending.received

variable {pending} {fragmentSize i : ℕ}

theorem stored_create (sizes : FragmentConfig) (header : PacketHeader UInt16)
    (payload : List UInt8) :
    stored { header, payload, received := ∅ } sizes.fragmentSize =
      FragmentReassemblyData.create sizes (pieceCount sizes.fragmentSize payload.length) := by
  simp [stored, FragmentReassemblyData.create, numFragments, filled_empty]

theorem storeHeader_append {reassembly : FragmentReassemblyData} {header : PacketHeader UInt16}
    (hheader : i = 0 → header = pending.header) (data : List UInt8) :
    reassembly.storeHeader header i
        ((if i = 0 then writePacketHeader pending.header else []) ++ data) =
      .ok ({ reassembly with
        packetHeader := if i = 0 then writePacketHeader pending.header
          else reassembly.packetHeader }, data) := by
  rw [FragmentReassemblyData.storeHeader]
  by_cases hfirst : i = 0
  · simp [hfirst, hheader hfirst]
  · simp [hfirst]

/-- Storing a fragment adds it to the set. -/
theorem storeFragmentData_stored (hsize : 0 < fragmentSize)
    (hi : i < pending.numFragments fragmentSize) (hnew : i ∉ pending.received)
    {header : PacketHeader UInt16} (hheader : i = 0 → header = pending.header) :
    FragmentReassemblyData.storeFragmentData
        { pending.stored fragmentSize with
          numFragmentsReceived := (pending.stored fragmentSize).numFragmentsReceived + 1
          fragmentReceived :=
            Function.update (pending.stored fragmentSize).fragmentReceived i true }
        header i fragmentSize
        ((fragmentData fragmentSize pending.header pending.payload i).drop fragmentHeaderBytes) =
      .ok ((pending.receive i).stored fragmentSize) := by
  have hpiece : (piece fragmentSize pending.payload i).length ≤ fragmentSize := by
    rw [length_piece]
    omega
  have hroom : i * fragmentSize + (piece fragmentSize pending.payload i).length ≤
      pending.numFragments fragmentSize * fragmentSize := by
    have hle := Nat.mul_le_mul_right fragmentSize (show i + 1 ≤ _ from hi)
    rw [Nat.succ_mul] at hle
    omega
  have hover : overwrite (pending.stored fragmentSize).packetData (i * fragmentSize)
      (piece fragmentSize pending.payload i) =
        some ((pending.receive i).stored fragmentSize).packetData :=
    overwrite_filled hsize hroom
  rw [drop_fragmentData, FragmentReassemblyData.storeFragmentData, storeHeader_append hheader,
    ok_bind]
  simp only [hover]
  congr 1
  ext1
  · exact (Finset.card_insert_of_notMem hnew).symm
  · rfl
  · by_cases hfirst : i = 0
    · simp [hfirst, stored, receive]
    · simp [hfirst, Ne.symm hfirst, stored, receive]
  · rfl
  · change (if i = pending.numFragments fragmentSize - 1 then
        (pending.numFragments fragmentSize - 1) * fragmentSize +
          (piece fragmentSize pending.payload i).length
      else if pending.numFragments fragmentSize - 1 ∈ pending.received then pending.payload.length
        else 0) =
      if pending.numFragments fragmentSize - 1 ∈ insert i pending.received then
        pending.payload.length else 0
    by_cases hlast : i = pending.numFragments fragmentSize - 1
    · have hcount : i + 1 = pieceCount fragmentSize pending.payload.length := by
        rw [numFragments] at hi hlast
        omega
      rw [if_pos hlast, ← hlast, length_piece_of_last hsize hcount,
        if_pos (Finset.mem_insert_self i _)]
    · simp only [Finset.mem_insert, Ne.symm hlast, hlast, if_false, false_or]
  · funext j
    by_cases heq : j = i
    · simp [heq, stored, receive]
    · simp [heq, stored, receive]

/-- When all fragments are there, the packet is. -/
theorem packet_stored (hsize : 0 < fragmentSize) (hpayload : pending.payload ≠ [])
    (hall : pending.received = Finset.range (pending.numFragments fragmentSize)) :
    (pending.stored fragmentSize).packet =
      .ok (writePacketHeader pending.header ++ pending.payload) := by
  have hcount : 0 < pending.numFragments fragmentSize :=
    pieceCount_pos hsize (List.length_pos_iff.mpr hpayload)
  have hroom : pending.payload.length ≤ pending.numFragments fragmentSize * fragmentSize := by
    by_contra hlong
    have hlt := (lt_pieceCount_iff hsize).mpr (not_le.mp hlong)
    exact absurd hlt (lt_irrefl _)
  have htake : (pending.stored fragmentSize).packetData.take pending.payload.length =
      pending.payload :=
    take_filled hsize hroom fun i hi => hall ▸ Finset.mem_range.mpr hi
  have hheader : (pending.stored fragmentSize).packetHeader = writePacketHeader pending.header :=
    if_pos (hall ▸ Finset.mem_range.mpr hcount)
  have hbytes : (pending.stored fragmentSize).packetBytes = pending.payload.length :=
    if_pos (hall ▸ Finset.mem_range.mpr (by omega))
  have hlength : (pending.stored fragmentSize).packetData.length =
      pending.numFragments fragmentSize * fragmentSize := length_filled
  rw [FragmentReassemblyData.packet, hheader, hbytes, htake, hlength, if_pos hroom]

end PendingPacket

namespace FragmentEndpoint

variable {config : EndpointConfig} {sizes : FragmentConfig} {σ : Type}
  {processPacket : List UInt8 → σ → Bool × σ} {endpoint : FragmentEndpoint config sizes}
  {context : σ} {header : PacketHeader UInt16} {payload : List UInt8}
  {receiveFragment : List UInt8 → Except PacketError (FragmentEndpoint config sizes × σ)}

/-- A packet that is all there is processed. -/
theorem receiveBy_regular (hbits : header.ackBits < 2 ^ 32)
    (hlength : payload.length ≤ sizes.maxPacketSize) :
    endpoint.receiveBy processPacket context receiveFragment (writePacketHeader header ++ payload) =
      .ok (endpoint.processRegular processPacket context header payload) := by
  have hheader := length_writePacketHeader_le header
  have hread := readPacketHeader_append hbits payload (writePacketHeader header ++ payload).length
  rw [List.length_append, if_neg (by omega), ← List.length_append] at hread
  rw [receiveBy, List.length_append, if_neg (by omega), readUInt_prefixByte, ok_bind,
    testBit_zero_prefixByte]
  simp only [Bool.false_eq_true, if_false, receiveRegular, hread, List.drop_left]
  rw [if_neg (by omega)]

/-- A fragment goes to the packet that it is of. -/
theorem receiveBy_fragment (hlength : payload.length ≤ sizes.maxPacketSize) (i : ℕ) :
    endpoint.receiveBy processPacket context receiveFragment
        (fragmentData sizes.fragmentSize header payload i) =
      receiveFragment (fragmentData sizes.fragmentSize header payload i) := by
  have hheader := length_writePacketHeader_le header
  have hdata : (fragmentData sizes.fragmentSize header payload i).length = _ :=
    length_fragmentData sizes.fragmentSize
  have hpiece : (piece sizes.fragmentSize payload i).length ≤ payload.length := by
    rw [length_piece]
    omega
  have hmark : readUInt 1 (fragmentData sizes.fragmentSize header payload i) 0 = .ok 1 := by
    rw [fragmentData, List.append_assoc, readUInt_fragmentPrefix]
  have hshort : ¬sizes.maxPacketSize + maxPacketHeaderBytes + fragmentHeaderBytes <
      (fragmentData sizes.fragmentSize header payload i).length := by
    rw [hdata]
    split <;> omega
  rw [receiveBy, if_neg hshort, hmark, ok_bind]
  rfl

end FragmentEndpoint

/-! ## The endpoint with sets -/

/-- An endpoint that keeps sets of fragments, under the counts of the packets. -/
structure PendingEndpoint (config : EndpointConfig) (sizes : FragmentConfig) where
  endpoint : Endpoint UInt16 config
  pendings : SequenceRing ℤ PendingPacket sizes.fragmentReassemblyBufferSize

namespace PendingEndpoint

section Steps

variable {config : EndpointConfig} {sizes : FragmentConfig} {σ : Type}
  (processPacket : List UInt8 → σ → Bool × σ) (endpoint : PendingEndpoint config sizes)
  (context : σ) (count : ℤ)

/-- The endpoint of the program. -/
def stored : FragmentEndpoint config sizes where
  endpoint := endpoint.endpoint
  fragmentReassembly :=
    endpoint.pendings.wrapped fun pending => pending.stored sizes.fragmentSize

/-- A packet that is there as a whole. -/
def processWhole (header : PacketHeader UInt16) (payload : List UInt8) :
    PendingEndpoint config sizes × σ :=
  let success := testInsert endpoint.endpoint.receivedPackets header.sequence &&
    (processPacket payload context).1
  let (received, context) :=
    endpoint.endpoint.receivePacket (processPacket payload) context header
  ({ endpoint := received
     pendings := if success then bufferAdvance endpoint.pendings count else endpoint.pendings },
    context)

/-- A fragment of a packet that has been begun. -/
def receivePiece (pending : PendingPacket) (i : ℕ) : PendingEndpoint config sizes × σ :=
  if i ∈ pending.received then (endpoint, context)
  else
    let after := pending.receive i
    let endpoint :=
      { endpoint with pendings := endpoint.pendings.modify count fun _ => after }
    if after.received.card = after.numFragments sizes.fragmentSize then
      let (endpoint, context) :=
        endpoint.processWhole processPacket context count pending.header pending.payload
      ({ endpoint with pendings := endpoint.pendings.remove count }, context)
    else (endpoint, context)

/-- A datagram of a packet. -/
def receiveDatagram (header : PacketHeader UInt16) (payload : List UInt8) (i : ℕ) :
    PendingEndpoint config sizes × σ :=
  if payload.length ≤ sizes.fragmentAbove then
    endpoint.processWhole processPacket context count header payload
  else
    match endpoint.pendings.find count with
    | some pending => endpoint.receivePiece processPacket context count pending i
    | none =>
        let pending : PendingPacket := { header, payload, received := ∅ }
        match endpoint.pendings.insert count 65536 pending with
        | none => (endpoint, context)
        | some pendings =>
            let endpoint : PendingEndpoint config sizes :=
              { endpoint := endpoint.endpoint.receiveFragment header.sequence, pendings }
            endpoint.receivePiece processPacket context count pending i

/-- The fragments that are there of the packet with this count. -/
def received : Finset ℕ :=
  match endpoint.pendings.find count with
  | some pending => pending.received
  | none => ∅

/-- There is room for the packet with this count. -/
def HasRoom : Prop :=
  endpoint.pendings.sequence ≤ count + sizes.fragmentReassemblyBufferSize

/-- A datagram of this packet is the first of its fragments to come. -/
def Begins (payload : List UInt8) : Prop :=
  sizes.fragmentAbove < payload.length ∧ endpoint.pendings.find count = none ∧
    endpoint.HasRoom count

/-- With this datagram the packet is there as a whole. -/
def Completes (payload : List UInt8) (i : ℕ) : Prop :=
  payload.length ≤ sizes.fragmentAbove ∨
    endpoint.HasRoom count ∧ i ∉ endpoint.received count ∧
      (insert i (endpoint.received count)).card = pieceCount sizes.fragmentSize payload.length

instance : Decidable (endpoint.HasRoom count) :=
  inferInstanceAs (Decidable (_ ≤ _))

instance (payload : List UInt8) : Decidable (endpoint.Begins count payload) :=
  have : Decidable (endpoint.pendings.find count = none) :=
    decidable_of_iff _ Option.isNone_iff_eq_none
  inferInstanceAs (Decidable (_ ∧ _ ∧ _))

instance (payload : List UInt8) (i : ℕ) : Decidable (endpoint.Completes count payload i) :=
  inferInstanceAs (Decidable (_ ∨ _ ∧ _ ∧ _))

end Steps

variable {config : EndpointConfig} {sizes : FragmentConfig} {σ : Type}
  {processPacket : List UInt8 → σ → Bool × σ} {endpoint : PendingEndpoint config sizes}
  {context : σ} {count : ℤ} {header : PacketHeader UInt16} {payload : List UInt8} {i : ℕ}

theorem processRegular_stored (hvalid : sizes.Valid) (hwindowed : endpoint.pendings.Windowed)
    (hnear : Near endpoint.pendings count) (hsequence : header.sequence = wrap count)
    (processPacket : List UInt8 → σ → Bool × σ) (context : σ) (payload : List UInt8) :
    endpoint.stored.processRegular processPacket context header payload =
      Prod.map stored id (endpoint.processWhole processPacket context count header payload) := by
  have hadvance : bufferAdvance (endpoint.pendings.wrapped fun pending =>
      pending.stored sizes.fragmentSize) header.sequence =
        (bufferAdvance endpoint.pendings count).wrapped fun pending =>
          pending.stored sizes.fragmentSize := by
    rw [hsequence]
    exact bufferAdvance_wrapped hwindowed hvalid.fragmentReassemblyBufferSize_dvd hnear
  rw [FragmentEndpoint.processRegular, processWhole]
  simp only [stored, hadvance]
  split <;> rfl

/-- A fragment in the set is ignored, and another is stored. -/
theorem storeFragment_stored (hvalid : sizes.Valid) (hwindowed : endpoint.pendings.Windowed)
    (hnear : Near endpoint.pendings count) {pending : PendingPacket}
    (hsequence : pending.header.sequence = wrap count) (hbits : pending.header.ackBits < 2 ^ 32)
    (hpayload : pending.payload ≠ []) (hlength : pending.payload.length ≤ sizes.maxPacketSize)
    (hreceived : pending.received ⊆ Finset.range (pending.numFragments sizes.fragmentSize))
    (hi : i < pending.numFragments sizes.fragmentSize)
    (processPacket : List UInt8 → σ → Bool × σ) (context : σ) :
    endpoint.stored.storeFragment processPacket context
        (fragmentHeader sizes.fragmentSize pending.header pending.payload i)
        (pending.stored sizes.fragmentSize)
        (fragmentData sizes.fragmentSize pending.header pending.payload i) =
      .ok (Prod.map stored id
        (endpoint.receivePiece processPacket context count pending i)) := by
  have hnumber :
      (fragmentHeader sizes.fragmentSize pending.header pending.payload i).header.sequence =
      wrap count := by
    rw [← hsequence, fragmentHeader]
    split <;> rfl
  have hfirst : i = 0 →
      (fragmentHeader sizes.fragmentSize pending.header pending.payload i).header =
        pending.header := fun hzero => if_pos hzero
  have htotal : (fragmentHeader sizes.fragmentSize pending.header pending.payload i).numFragments =
      (pending.stored sizes.fragmentSize).numFragmentsTotal := rfl
  have hid : (fragmentHeader sizes.fragmentSize pending.header pending.payload i).fragmentId = i :=
    rfl
  rw [FragmentEndpoint.storeFragment, receivePiece]
  dsimp only
  rw [htotal, if_neg (by simp), hid, hnumber]
  by_cases hmem : i ∈ pending.received
  · rw [if_pos hmem, if_pos (by simpa [PendingPacket.stored] using hmem)]
    rfl
  have hsize := hvalid.fragmentReassemblyBufferSize_dvd
  have hstore := PendingPacket.storeFragmentData_stored hvalid.fragmentSize_pos hi hmem hfirst
  have hmodify : (endpoint.pendings.wrapped fun pending => pending.stored sizes.fragmentSize).modify
      (wrap count) (fun _ => (pending.receive i).stored sizes.fragmentSize) =
        (endpoint.pendings.modify count fun _ => pending.receive i).wrapped
          fun pending => pending.stored sizes.fragmentSize :=
    hwindowed.modify_wrapped hsize ⟨by have := hnear.1; omega, by have := hnear.2; omega⟩
      fun _ => rfl
  let after : PendingEndpoint config sizes :=
    { endpoint with pendings := endpoint.pendings.modify count fun _ => pending.receive i }
  have hafter : ({ endpoint.stored with
      fragmentReassembly := endpoint.stored.fragmentReassembly.modify (wrap count)
        fun _ => (pending.receive i).stored sizes.fragmentSize } :
          FragmentEndpoint config sizes) = after.stored :=
    congrArg (FragmentEndpoint.mk endpoint.endpoint) hmodify
  rw [if_neg hmem, if_neg (by simpa [PendingPacket.stored] using hmem), hstore, ok_bind, hafter]
  change (if (pending.receive i).received.card = (pending.receive i).numFragments sizes.fragmentSize
    then _ else _) = Except.ok (Prod.map stored id (if _ then _ else _))
  by_cases hall : (pending.receive i).received.card =
      (pending.receive i).numFragments sizes.fragmentSize
  · have hrange : (pending.receive i).received =
        Finset.range ((pending.receive i).numFragments sizes.fragmentSize) :=
      Finset.eq_of_subset_of_card_le
        (Finset.insert_subset (Finset.mem_range.mpr hi) hreceived)
        (by rw [Finset.card_range, hall])
    have hpacket : ((pending.receive i).stored sizes.fragmentSize).packet =
        .ok (writePacketHeader pending.header ++ pending.payload) :=
      PendingPacket.packet_stored hvalid.fragmentSize_pos hpayload hrange
    have hwindowedAfter : after.pendings.Windowed := hwindowed.modify
    have hnearAfter : Near after.pendings count := by
      rw [Near, SequenceRing.sequence_modify]
      exact hnear
    have hregular := processRegular_stored hvalid hwindowedAfter hnearAfter hsequence processPacket
      context pending.payload
    have hremove : ((after.processWhole processPacket context count pending.header
        pending.payload).1.pendings.wrapped fun pending => pending.stored sizes.fragmentSize).remove
          (wrap count) =
        ((after.processWhole processPacket context count pending.header
          pending.payload).1.pendings.remove count).wrapped fun pending =>
            pending.stored sizes.fragmentSize :=
      SequenceRing.remove_wrapped hsize
    rw [if_pos hall, if_pos hall, hpacket, ok_bind, FragmentEndpoint.receiveAssembled,
      FragmentEndpoint.receiveBy_regular hbits hlength, hregular, ok_bind]
    simp only [Prod.map_apply', stored, hremove]
    rfl
  · rw [if_neg hall, if_neg hall]
    rfl

/-- The datagrams of a packet that can be sent. -/
structure Sendable (sizes : FragmentConfig) (header : PacketHeader UInt16)
    (payload : List UInt8) : Prop where
  ackBits_lt : header.ackBits < 2 ^ 32
  payload_ne : payload ≠ []
  length_le : payload.length ≤ sizes.maxPacketSize

/-- A part of this packet. -/
def PartOf (sizes : FragmentConfig) (header : PacketHeader UInt16) (payload : List UInt8)
    (pending : PendingPacket) : Prop :=
  pending.header = header ∧ pending.payload = payload ∧
    pending.received ⊆ Finset.range (pending.numFragments sizes.fragmentSize)

/-- What is kept under a count is of this packet. -/
def Keeps (endpoint : PendingEndpoint config sizes) (count : ℤ) (header : PacketHeader UInt16)
    (payload : List UInt8) : Prop :=
  ∀ pending, endpoint.pendings.find count = some pending → PartOf sizes header payload pending

/-- A datagram does what it does to the sets. -/
theorem receivePacketData_stored (hvalid : sizes.Valid) (hwindowed : endpoint.pendings.Windowed)
    (hnear : Near endpoint.pendings count) (hsequence : header.sequence = wrap count)
    (hsendable : Sendable sizes header payload) (hkeeps : endpoint.Keeps count header payload)
    {data : List UInt8} (hdata : (transmitPacket sizes header payload)[i]? = some data) :
    endpoint.stored.receivePacketData processPacket context data =
      .ok (Prod.map stored id
        (endpoint.receiveDatagram processPacket context count header payload i)) := by
  have hsize := hvalid.fragmentReassemblyBufferSize_dvd
  have hsmall := hvalid.fragmentReassemblyBufferSize_le
  obtain ⟨hlate, hearly⟩ := id hnear
  rw [transmitPacket_eq] at hdata
  rw [FragmentEndpoint.receivePacketData, receiveDatagram]
  by_cases hwhole : payload.length ≤ sizes.fragmentAbove
  · rw [if_pos hwhole] at hdata
    obtain rfl := List.mem_singleton.mp (List.mem_of_getElem? hdata)
    rw [if_pos hwhole, FragmentEndpoint.receiveBy_regular hsendable.ackBits_lt hsendable.length_le,
      processRegular_stored hvalid hwindowed hnear hsequence]
  rw [if_neg hwhole] at hdata
  obtain ⟨hi, rfl⟩ : i < pieceCount sizes.fragmentSize payload.length ∧
      fragmentData sizes.fragmentSize header payload i = data := by
    rw [List.getElem?_map] at hdata
    obtain ⟨j, hj, hdata⟩ := Option.map_eq_some_iff.mp hdata
    obtain ⟨hi, rfl⟩ := List.getElem?_eq_some_iff.mp hj
    rw [List.getElem_range] at hdata
    exact ⟨by simpa using hi, hdata⟩
  have hread := readFragmentHeader_fragmentData hvalid hsendable.ackBits_lt hsendable.length_le hi
  have hnumber : (fragmentHeader sizes.fragmentSize header payload i).header.sequence =
      wrap count := by
    rw [← hsequence, fragmentHeader]
    split <;> rfl
  have hfind : endpoint.stored.fragmentReassembly.find (wrap count) =
      (endpoint.pendings.find count).map fun pending => pending.stored sizes.fragmentSize :=
    hwindowed.find_wrapped hsize ⟨by omega, by omega⟩
  rw [if_neg hwhole, FragmentEndpoint.receiveBy_fragment hsendable.length_le,
    FragmentEndpoint.receiveFragment, hread]
  dsimp only
  rw [hnumber, hfind]
  cases hpending : endpoint.pendings.find count with
  | some pending =>
      obtain ⟨rfl, rfl, hreceived⟩ := hkeeps pending hpending
      exact storeFragment_stored hvalid hwindowed hnear hsequence hsendable.ackBits_lt
        hsendable.payload_ne hsendable.length_le hreceived hi processPacket context
  | none =>
      have hsizePos : 0 < sizes.fragmentReassemblyBufferSize :=
        Nat.pos_of_dvd_of_pos hsize (by decide)
      let fresh : PendingPacket := { header, payload, received := ∅ }
      have hinsert : endpoint.stored.fragmentReassembly.insert (wrap count) 65536
            (fresh.stored sizes.fragmentSize) =
          (endpoint.pendings.insert count 65536 fresh).map (SequenceRing.wrapped fun pending =>
            pending.stored sizes.fragmentSize) :=
        hwindowed.insert_wrapped hsize hsmall hlate (by omega) (.inl rfl)
      have hcreate : (fragmentHeader sizes.fragmentSize header payload i).numFragments =
          pieceCount sizes.fragmentSize payload.length := rfl
      rw [PendingPacket.stored_create] at hinsert
      dsimp only [Option.map_none]
      rw [hcreate, hinsert]
      by_cases hstale : count + sizes.fragmentReassemblyBufferSize < endpoint.pendings.sequence
      · rw [SequenceRing.insert_eq, if_pos hstale]
        rfl
      obtain ⟨after, hafter, hwindowedAfter, hsequenceAfter, _⟩ :=
        hwindowed.exists_insert hsizePos 65536 fresh (not_lt.mp hstale)
      let begun : PendingEndpoint config sizes :=
        { endpoint := endpoint.endpoint.receiveFragment (wrap count), pendings := after }
      have hnearAfter : Near begun.pendings count := by
        rw [Near, hsequenceAfter]
        omega
      have hwindowedBegun : begun.pendings.Windowed := hwindowedAfter
      have hsequenceFresh : fresh.header.sequence = wrap count := hsequence
      have hempty : fresh.received ⊆
          Finset.range (fresh.numFragments sizes.fragmentSize) := Finset.empty_subset _
      have hstore := storeFragment_stored hvalid hwindowedBegun hnearAfter hsequenceFresh
        hsendable.ackBits_lt hsendable.payload_ne hsendable.length_le hempty hi
        processPacket context
      rw [PendingPacket.stored_create] at hstore
      rw [hafter, hsequence]
      exact hstore

theorem PartOf.receive {pending : PendingPacket} (h : PartOf sizes header payload pending)
    (hi : i < pending.numFragments sizes.fragmentSize) :
    PartOf sizes header payload (pending.receive i) :=
  ⟨h.1, h.2.1, Finset.insert_subset (Finset.mem_range.mpr hi) h.2.2⟩

/-- What is kept after a step was kept before, or is a part of this packet. -/
structure KeepsAfter (endpoint after : PendingEndpoint config sizes) (count : ℤ)
    (header : PacketHeader UInt16) (payload : List UInt8) : Prop where
  windowed : after.pendings.Windowed
  kept : ∀ other pending, after.pendings.find other = some pending →
    endpoint.pendings.find other = some pending ∨
      other = count ∧ PartOf sizes header payload pending

theorem KeepsAfter.trans {between after : PendingEndpoint config sizes}
    (h : endpoint.KeepsAfter between count header payload)
    (hafter : between.KeepsAfter after count header payload) :
    endpoint.KeepsAfter after count header payload where
  windowed := hafter.windowed
  kept other pending hfind := (hafter.kept other pending hfind).elim (h.kept other pending) .inr

theorem keepsAfter_processWhole (hvalid : sizes.Valid) (hwindowed : endpoint.pendings.Windowed)
    (processPacket : List UInt8 → σ → Bool × σ) (context : σ) :
    endpoint.KeepsAfter (endpoint.processWhole processPacket context count header payload).1 count
      header payload := by
  have hsize : 0 < sizes.fragmentReassemblyBufferSize :=
    Nat.pos_of_dvd_of_pos hvalid.fragmentReassemblyBufferSize_dvd (by decide)
  rw [processWhole]
  dsimp only
  split
  · refine ⟨hwindowed.advance hsize _ _, fun other pending hfind => .inl ?_⟩
    change (endpoint.pendings.advance count 65536).find other = some pending at hfind
    rw [hwindowed.find_advance hsize] at hfind
    split at hfind
    · exact hfind
    · cases hfind
  · exact ⟨hwindowed, fun _ _ hfind => .inl hfind⟩

theorem keepsAfter_remove {after : PendingEndpoint config sizes}
    (h : endpoint.KeepsAfter after count header payload) (other : ℤ) :
    endpoint.KeepsAfter { after with pendings := after.pendings.remove other } count header
      payload where
  windowed := h.windowed.remove
  kept number pending hfind := h.kept number pending (SequenceRing.find_of_find_remove hfind)

theorem keepsAfter_receivePiece (hvalid : sizes.Valid) (hwindowed : endpoint.pendings.Windowed)
    {pending : PendingPacket} (hpart : PartOf sizes header payload pending)
    (hi : i < pending.numFragments sizes.fragmentSize)
    (processPacket : List UInt8 → σ → Bool × σ) (context : σ) :
    endpoint.KeepsAfter (endpoint.receivePiece processPacket context count pending i).1 count
      header payload := by
  let marked : PendingEndpoint config sizes :=
    { endpoint with pendings := endpoint.pendings.modify count fun _ => pending.receive i }
  have hmarked : endpoint.KeepsAfter marked count header payload := by
    refine ⟨hwindowed.modify, fun other found hfind => ?_⟩
    rw [hwindowed.find_modify] at hfind
    split at hfind
    · next heq =>
        obtain ⟨_, _, rfl⟩ := Option.map_eq_some_iff.mp hfind
        exact .inr ⟨heq, hpart.receive hi⟩
    · exact .inl hfind
  rw [receivePiece]
  split
  · exact ⟨hwindowed, fun _ _ hfind => .inl hfind⟩
  dsimp only
  split
  · obtain ⟨rfl, rfl, _⟩ := hpart
    exact keepsAfter_remove (hmarked.trans
      (keepsAfter_processWhole hvalid hmarked.windowed processPacket context)) count
  · exact hmarked

/-- What is kept after a datagram. -/
theorem keepsAfter_receiveDatagram (hvalid : sizes.Valid) (hwindowed : endpoint.pendings.Windowed)
    (hkeeps : endpoint.Keeps count header payload)
    (hi : sizes.fragmentAbove < payload.length → i < pieceCount sizes.fragmentSize payload.length)
    (processPacket : List UInt8 → σ → Bool × σ) (context : σ) :
    endpoint.KeepsAfter
      (endpoint.receiveDatagram processPacket context count header payload i).1 count header
        payload := by
  have hsize : 0 < sizes.fragmentReassemblyBufferSize :=
    Nat.pos_of_dvd_of_pos hvalid.fragmentReassemblyBufferSize_dvd (by decide)
  rw [receiveDatagram]
  split
  · exact keepsAfter_processWhole hvalid hwindowed processPacket context
  next hcut =>
    have hlt := hi (not_le.mp hcut)
    split
    · next pending hpending =>
        have hpart := hkeeps pending hpending
        refine keepsAfter_receivePiece hvalid hwindowed hpart ?_ processPacket context
        rw [PendingPacket.numFragments, hpart.2.1]
        exact hlt
    · dsimp only
      split
      · exact ⟨hwindowed, fun _ _ hfind => .inl hfind⟩
      next pendings hinsert =>
        let begun : PendingEndpoint config sizes :=
          { endpoint := endpoint.endpoint.receiveFragment header.sequence, pendings }
        have hfresh : PartOf sizes header payload { header, payload, received := ∅ } :=
          ⟨rfl, rfl, Finset.empty_subset _⟩
        have hbegun : endpoint.KeepsAfter begun count header payload := by
          by_cases hstale : count + sizes.fragmentReassemblyBufferSize < endpoint.pendings.sequence
          · rw [SequenceRing.insert_eq, if_pos hstale] at hinsert
            cases hinsert
          obtain ⟨after, hafter, hwindowedAfter, _, hfindAfter⟩ :=
            hwindowed.exists_insert hsize 65536 { header, payload, received := ∅ }
              (not_lt.mp hstale)
          obtain rfl := Option.some_inj.mp (hafter.symm.trans hinsert)
          refine ⟨hwindowedAfter, fun other pending hfind => ?_⟩
          change after.find other = _ at hfind
          rw [hfindAfter] at hfind
          split at hfind
          · next heq =>
              obtain rfl := Option.some_inj.mp hfind
              exact .inr ⟨heq, hfresh⟩
          split at hfind
          · exact .inl hfind
          · cases hfind
        exact hbegun.trans
          (keepsAfter_receivePiece hvalid hbegun.windowed hfresh hlt processPacket context)

theorem receivePiece_eq (pending : PendingPacket) (processPacket : List UInt8 → σ → Bool × σ)
    (context : σ) :
    ((endpoint.receivePiece processPacket context count pending i).1.endpoint,
        (endpoint.receivePiece processPacket context count pending i).2) =
      if i ∉ pending.received ∧
          (insert i pending.received).card = pending.numFragments sizes.fragmentSize then
        endpoint.endpoint.receivePacket (processPacket pending.payload) context pending.header
      else (endpoint.endpoint, context) := by
  rw [receivePiece]
  split
  · next hmem => rw [if_neg fun h => h.1 hmem]
  next hmem =>
    dsimp only
    split
    · next hall =>
        rw [if_pos ⟨hmem, hall⟩]
        rfl
    · next hmissing => rw [if_neg fun h => hmissing h.2]

/-- In terms of the sets, a datagram begins a packet, or completes one, or both, or
neither. -/
theorem receiveDatagram_eq (hwindowed : endpoint.pendings.Windowed)
    (hkeeps : endpoint.Keeps count header payload)
    (processPacket : List UInt8 → σ → Bool × σ) (context : σ) (i : ℕ) :
    ((endpoint.receiveDatagram processPacket context count header payload i).1.endpoint,
        (endpoint.receiveDatagram processPacket context count header payload i).2) =
      let begun :=
        if endpoint.Begins count payload then endpoint.endpoint.receiveFragment header.sequence
        else endpoint.endpoint
      if endpoint.Completes count payload i then
        begun.receivePacket (processPacket payload) context header
      else (begun, context) := by
  rw [receiveDatagram]
  split
  · next hwhole =>
      have hbegins : ¬endpoint.Begins count payload := fun h => absurd h.1 (not_lt.mpr hwhole)
      have hcompletes : endpoint.Completes count payload i := .inl hwhole
      simp only [if_neg hbegins, if_pos hcompletes]
      rfl
  next hcut =>
    split
    · next pending hpending =>
        have hroom : endpoint.HasRoom count := (hwindowed.inWindow hpending).2
        have hbegins : ¬endpoint.Begins count payload := fun h => by
          rw [h.2.1] at hpending
          cases hpending
        have hreceived : endpoint.received count = pending.received := by
          rw [PendingEndpoint.received, hpending]
        obtain ⟨rfl, rfl, _⟩ := hkeeps pending hpending
        have hiff : endpoint.Completes count pending.payload i ↔ i ∉ pending.received ∧
            (insert i pending.received).card = pending.numFragments sizes.fragmentSize := by
          rw [Completes, hreceived, or_iff_right hcut, and_iff_right hroom]
          rfl
        simp only [receivePiece_eq, if_neg hbegins, hiff]
    · next hnone =>
        have hreceived : endpoint.received count = ∅ := by
          rw [PendingEndpoint.received, hnone]
        simp only [SequenceRing.insert_eq]
        by_cases hstale : count + sizes.fragmentReassemblyBufferSize < endpoint.pendings.sequence
        · have hroom : ¬endpoint.HasRoom count := not_le.mpr hstale
          have hbegins : ¬endpoint.Begins count payload := fun h => hroom h.2.2
          have hcompletes : ¬endpoint.Completes count payload i :=
            fun h => h.elim hcut fun h => hroom h.1
          simp only [if_pos hstale, if_neg hbegins, if_neg hcompletes]
        · have hroom : endpoint.HasRoom count := not_lt.mp hstale
          have hbegins : endpoint.Begins count payload := ⟨not_le.mp hcut, hnone, hroom⟩
          have hiff : endpoint.Completes count payload i ↔ i ∉ (∅ : Finset ℕ) ∧
              (insert i (∅ : Finset ℕ)).card = pieceCount sizes.fragmentSize payload.length := by
            rw [Completes, hreceived, or_iff_right hcut, and_iff_right hroom]
          simp only [if_neg hstale, receivePiece_eq, if_pos hbegins, hiff]
          rfl

end PendingEndpoint

end LibBench.Transport
