/-
# reliable.io: fragments

A packet that is too large for a datagram is cut into fragments, each with the
number of the packet and its own place among them. The header of the packet goes
in front of the first. The receiver puts the fragments together as they come, in
any order, and then processes the packet as if it had come whole.

Here is what goes over the wire, byte for byte. The memory that a packet is put
together in has its length; to write outside of it is an error of its own.
-/

import LibBench.Math.Pieces
import LibBench.Transport.PacketHeader

namespace LibBench.Transport

open LibBench.Math SequenceNumber

/-- The sizes of packets and fragments in `reliable_config_t`. -/
structure FragmentConfig where
  maxPacketSize : ℕ
  fragmentAbove : ℕ
  maxFragments : ℕ
  fragmentSize : ℕ
  fragmentReassemblyBufferSize : ℕ

/-- What is asserted of them, and what the sequence numbers need. -/
structure FragmentConfig.Valid (sizes : FragmentConfig) : Prop where
  fragmentSize_pos : 0 < sizes.fragmentSize
  maxFragments_le : sizes.maxFragments ≤ 256
  maxPacketSize_le : sizes.maxPacketSize ≤ sizes.maxFragments * sizes.fragmentSize
  fragmentReassemblyBufferSize_dvd : sizes.fragmentReassemblyBufferSize ∣ 65536
  fragmentReassemblyBufferSize_le : sizes.fragmentReassemblyBufferSize ≤ 32768

/-- `RELIABLE_FRAGMENT_HEADER_BYTES`. -/
def fragmentHeaderBytes : ℕ := 5

/-- What is written in front of a fragment. -/
def writeFragmentHeader (sequence : UInt16) (fragmentId numFragments : ℕ) : List UInt8 :=
  toBytes 1 1 ++ toBytes 2 sequence.toNat ++ toBytes 1 fragmentId ++ toBytes 1 (numFragments - 1)

/-- The loop that cuts a packet into so many more fragments. -/
def writeFragments (fragmentSize : ℕ) (header : PacketHeader UInt16) (numFragments : ℕ) :
    (rounds fragmentId : ℕ) → List UInt8 → List (List UInt8)
  | 0, _, _ => []
  | rounds + 1, fragmentId, packetData =>
      let bytesToCopy := min fragmentSize packetData.length
      (writeFragmentHeader header.sequence fragmentId numFragments ++
          (if fragmentId = 0 then writePacketHeader header else []) ++
          packetData.take bytesToCopy) ::
        writeFragments fragmentSize header numFragments rounds (fragmentId + 1)
          (packetData.drop bytesToCopy)

/-- What `reliable_endpoint_send_packet` transmits. -/
def transmitPacket (sizes : FragmentConfig) (header : PacketHeader UInt16)
    (packetData : List UInt8) : List (List UInt8) :=
  if packetData.length ≤ sizes.fragmentAbove then [writePacketHeader header ++ packetData]
  else
    let numFragments := pieceCount sizes.fragmentSize packetData.length
    writeFragments sizes.fragmentSize header numFragments numFragments 0 packetData

/-- What the header of a fragment says. Only the first has the acknowledgements. -/
structure FragmentHeader where
  fragmentId : ℕ
  numFragments : ℕ
  header : PacketHeader UInt16
  deriving DecidableEq, Repr

/-- The header of the packet in its first fragment, and its length. The length of the
packet that it is read from is the length of the whole fragment. -/
def readFirstHeader (data : List UInt8) (sequence : UInt16) (fragmentId : ℕ) :
    Except PacketError (PacketHeader UInt16 × ℕ) :=
  if fragmentId = 0 then do
    let (header, packetHeaderBytes) ←
      readPacketHeader (data.drop fragmentHeaderBytes) data.length
    if header.sequence ≠ sequence then .error .invalid
    else .ok (header, packetHeaderBytes)
  else .ok ({ sequence, ack := 0, ackBits := 0 }, 0)

/-- `reliable_read_fragment_header`. -/
def readFragmentHeader (sizes : FragmentConfig) (data : List UInt8) :
    Except PacketError FragmentHeader :=
  if data.length < fragmentHeaderBytes then .error .invalid
  else do
    let prefixByte ← readUInt 1 data 0
    if prefixByte ≠ 1 then .error .invalid
    else do
      let sequence ← readUInt 2 data 1
      let fragmentId ← readUInt 1 data 3
      let lastId ← readUInt 1 data 4
      let numFragments := lastId + 1
      if sizes.maxFragments < numFragments then .error .invalid
      else if numFragments ≤ fragmentId then .error .invalid
      else do
        let (header, packetHeaderBytes) ← readFirstHeader data (ofInt sequence) fragmentId
        -- where the header ends in the fragment, so this is not negative
        let fragmentBytes := data.length - packetHeaderBytes - fragmentHeaderBytes
        if sizes.fragmentSize < fragmentBytes then .error .invalid
        else if fragmentId ≠ numFragments - 1 ∧ fragmentBytes ≠ sizes.fragmentSize then
          .error .invalid
        else .ok { fragmentId, numFragments, header }

/-! ## Putting fragments together -/

/-- `reliable_fragment_reassembly_data_t`. The packet data starts with room for a
header, of which the last bytes are used; they are kept apart here. -/
@[ext]
structure FragmentReassemblyData where
  numFragmentsReceived : ℕ
  numFragmentsTotal : ℕ
  packetHeader : List UInt8
  packetData : List UInt8
  packetBytes : ℕ
  fragmentReceived : ℕ → Bool

/-- A packet of which nothing has come yet. What the memory holds at first does not
matter. -/
def FragmentReassemblyData.create (sizes : FragmentConfig) (numFragments : ℕ) :
    FragmentReassemblyData where
  numFragmentsReceived := 0
  numFragmentsTotal := numFragments
  packetHeader := []
  packetData := List.replicate (numFragments * sizes.fragmentSize) 0
  packetBytes := 0
  fragmentReceived _ := false

namespace FragmentReassemblyData

variable (reassembly : FragmentReassemblyData)

/-- The first fragment has the header, which is written anew and skipped. -/
def storeHeader (header : PacketHeader UInt16) (fragmentId : ℕ) (fragmentData : List UInt8) :
    Except PacketError (FragmentReassemblyData × List UInt8) :=
  if fragmentId = 0 then
    let packetHeader := writePacketHeader header
    -- what is left to copy must not be negative
    if fragmentData.length < packetHeader.length then .error .outOfBounds
    else .ok ({ reassembly with packetHeader }, fragmentData.drop packetHeader.length)
  else .ok (reassembly, fragmentData)

/-- `reliable_store_fragment_data`. -/
def storeFragmentData (header : PacketHeader UInt16) (fragmentId fragmentSize : ℕ)
    (fragmentData : List UInt8) : Except PacketError FragmentReassemblyData := do
  let (reassembly, fragmentData) ← reassembly.storeHeader header fragmentId fragmentData
  let packetBytes :=
    if fragmentId = reassembly.numFragmentsTotal - 1 then
      (reassembly.numFragmentsTotal - 1) * fragmentSize + fragmentData.length
    else reassembly.packetBytes
  match overwrite reassembly.packetData (fragmentId * fragmentSize) fragmentData with
  | none => .error .outOfBounds
  | some packetData => .ok { reassembly with packetBytes, packetData }

/-- The packet that has been put together. -/
def packet : Except PacketError (List UInt8) :=
  if reassembly.packetBytes ≤ reassembly.packetData.length then
    .ok (reassembly.packetHeader ++ reassembly.packetData.take reassembly.packetBytes)
  else .error .outOfBounds

end FragmentReassemblyData

/-- `reliable_endpoint_t`, with the packets that it puts together. -/
structure FragmentEndpoint (config : EndpointConfig) (sizes : FragmentConfig) where
  endpoint : Endpoint UInt16 config
  fragmentReassembly :
    SequenceRing UInt16 FragmentReassemblyData sizes.fragmentReassemblyBufferSize

namespace FragmentEndpoint

variable {config : EndpointConfig} {sizes : FragmentConfig} {σ : Type}
  (processPacket : List UInt8 → σ → Bool × σ) (endpoint : FragmentEndpoint config sizes)
  (context : σ)

/-- What becomes of a packet that is there as a whole. -/
def processRegular (header : PacketHeader UInt16) (payload : List UInt8) :
    FragmentEndpoint config sizes × σ :=
  let success := testInsert endpoint.endpoint.receivedPackets header.sequence &&
    (processPacket payload context).1
  let (received, context) :=
    endpoint.endpoint.receivePacket (processPacket payload) context header
  let fragmentReassembly :=
    if success then bufferAdvance endpoint.fragmentReassembly header.sequence
    else endpoint.fragmentReassembly
  ({ endpoint := received, fragmentReassembly }, context)

/-- `reliable_endpoint_receive_packet`, of a packet that is not a fragment. -/
def receiveRegular (data : List UInt8) :
    Except PacketError (FragmentEndpoint config sizes × σ) :=
  match readPacketHeader data data.length with
  | .error .invalid => .ok (endpoint, context)
  | .error error => .error error
  | .ok (header, packetHeaderBytes) =>
      let payload := data.drop packetHeaderBytes
      if sizes.maxPacketSize < payload.length then .ok (endpoint, context)
      else .ok (endpoint.processRegular processPacket context header payload)

/-- `reliable_endpoint_receive_packet`, given what to do with a fragment. -/
def receiveBy
    (receiveFragment : List UInt8 → Except PacketError (FragmentEndpoint config sizes × σ))
    (data : List UInt8) : Except PacketError (FragmentEndpoint config sizes × σ) :=
  if sizes.maxPacketSize + maxPacketHeaderBytes + fragmentHeaderBytes < data.length then
    .ok (endpoint, context)
  else do
    let prefixByte ← readUInt 1 data 0
    if prefixByte.testBit 0 then receiveFragment data
    else endpoint.receiveRegular processPacket context data

/-- What becomes of a packet that has been put together. It is not a fragment. -/
def receiveAssembled : List UInt8 → Except PacketError (FragmentEndpoint config sizes × σ) :=
  endpoint.receiveBy processPacket context fun _ => .error .nested

/-- What a fragment adds to the packet that it is of, and what becomes of the packet
if it was the last that was missing. -/
def storeFragment (fragment : FragmentHeader) (reassembly : FragmentReassemblyData)
    (data : List UInt8) : Except PacketError (FragmentEndpoint config sizes × σ) :=
  let sequence := fragment.header.sequence
  if fragment.numFragments ≠ reassembly.numFragmentsTotal then .ok (endpoint, context)
  else if reassembly.fragmentReceived fragment.fragmentId then .ok (endpoint, context)
  else do
    let marked :=
      { reassembly with
        numFragmentsReceived := reassembly.numFragmentsReceived + 1
        fragmentReceived := Function.update reassembly.fragmentReceived fragment.fragmentId true }
    let stored ← marked.storeFragmentData fragment.header fragment.fragmentId sizes.fragmentSize
      (data.drop fragmentHeaderBytes)
    let endpoint :=
      { endpoint with
        fragmentReassembly := endpoint.fragmentReassembly.modify sequence fun _ => stored }
    if stored.numFragmentsReceived = stored.numFragmentsTotal then do
      let packet ← stored.packet
      let (endpoint, context) ← endpoint.receiveAssembled processPacket context packet
      .ok ({ endpoint with
        fragmentReassembly := endpoint.fragmentReassembly.remove sequence }, context)
    else .ok (endpoint, context)

/-- `reliable_endpoint_receive_packet`, of a fragment. -/
def receiveFragment (data : List UInt8) :
    Except PacketError (FragmentEndpoint config sizes × σ) :=
  match readFragmentHeader sizes data with
  | .error .invalid => .ok (endpoint, context)
  | .error error => .error error
  | .ok fragment =>
      let sequence := fragment.header.sequence
      match endpoint.fragmentReassembly.find sequence with
      | some reassembly => endpoint.storeFragment processPacket context fragment reassembly data
      | none =>
          let reassembly := FragmentReassemblyData.create sizes fragment.numFragments
          -- `reliable_sequence_buffer_insert_with_cleanup`
          match endpoint.fragmentReassembly.insert sequence 65536 reassembly with
          | none => .ok (endpoint, context)
          | some fragmentReassembly =>
              let endpoint : FragmentEndpoint config sizes :=
                { endpoint := endpoint.endpoint.receiveFragment sequence, fragmentReassembly }
              endpoint.storeFragment processPacket context fragment reassembly data

/-- `reliable_endpoint_receive_packet`. -/
def receivePacketData : List UInt8 → Except PacketError (FragmentEndpoint config sizes × σ) :=
  endpoint.receiveBy processPacket context (endpoint.receiveFragment processPacket context)

end FragmentEndpoint

/-- The fragment with a number, as it is transmitted. -/
def fragmentData (fragmentSize : ℕ) (header : PacketHeader UInt16) (packetData : List UInt8)
    (fragmentId : ℕ) : List UInt8 :=
  writeFragmentHeader header.sequence fragmentId (pieceCount fragmentSize packetData.length) ++
    (if fragmentId = 0 then writePacketHeader header else []) ++
      piece fragmentSize packetData fragmentId

theorem writeFragments_eq_map (fragmentSize : ℕ) (header : PacketHeader UInt16)
    (packetData : List UInt8) (rounds fragmentId : ℕ) :
    writeFragments fragmentSize header (pieceCount fragmentSize packetData.length) rounds
        fragmentId (packetData.drop (fragmentId * fragmentSize)) =
      (List.range' fragmentId rounds).map (fragmentData fragmentSize header packetData) := by
  induction rounds generalizing fragmentId with
  | zero => rfl
  | succ rounds ih =>
      have hdrop : ∀ data : List UInt8,
          data.drop (min fragmentSize data.length) = data.drop fragmentSize := by
        intro data
        by_cases hle : fragmentSize ≤ data.length
        · rw [min_eq_left hle]
        · rw [min_eq_right (by omega), List.drop_length, List.drop_eq_nil_of_le (by omega)]
      rw [writeFragments, List.range'_succ, List.map_cons, ← ih, Nat.succ_mul, ← List.drop_drop]
      simp only [hdrop, ← List.take_eq_take_min]
      rfl

theorem length_writeFragmentHeader (sequence : UInt16) (fragmentId numFragments : ℕ) :
    (writeFragmentHeader sequence fragmentId numFragments).length = fragmentHeaderBytes := by
  simp only [writeFragmentHeader, List.length_append, length_toBytes, fragmentHeaderBytes]

section FragmentHeader

variable {fragmentId numFragments : ℕ} {sequence : UInt16} {rest : List UInt8}

theorem readUInt_fragmentPrefix :
    readUInt 1 (writeFragmentHeader sequence fragmentId numFragments ++ rest) 0 = .ok 1 := by
  have hbyte : 1 < 256 ^ 1 := by decide
  simpa [writeFragmentHeader] using readUInt_append hbyte []
    (toBytes 2 sequence.toNat ++ toBytes 1 fragmentId ++ toBytes 1 (numFragments - 1) ++ rest)

theorem readUInt_fragmentSequence :
    readUInt 2 (writeFragmentHeader sequence fragmentId numFragments ++ rest) 1 =
      .ok sequence.toNat := by
  have hnumber : sequence.toNat < 256 ^ 2 := sequence.toNat_lt
  simpa [writeFragmentHeader] using readUInt_append hnumber (toBytes 1 1)
    (toBytes 1 fragmentId ++ toBytes 1 (numFragments - 1) ++ rest)

theorem readUInt_fragmentId (h : fragmentId < 256) :
    readUInt 1 (writeFragmentHeader sequence fragmentId numFragments ++ rest) 3 =
      .ok fragmentId := by
  have hbyte : fragmentId < 256 ^ 1 := h
  simpa [writeFragmentHeader] using readUInt_append hbyte (toBytes 1 1 ++ toBytes 2 sequence.toNat)
    (toBytes 1 (numFragments - 1) ++ rest)

theorem readUInt_lastId (h : numFragments ≤ 256) :
    readUInt 1 (writeFragmentHeader sequence fragmentId numFragments ++ rest) 4 =
      .ok (numFragments - 1) := by
  have hbyte : numFragments - 1 < 256 ^ 1 := by omega
  simpa [writeFragmentHeader] using readUInt_append hbyte
    (toBytes 1 1 ++ toBytes 2 sequence.toNat ++ toBytes 1 fragmentId) rest

end FragmentHeader

variable {sizes : FragmentConfig} {header : PacketHeader UInt16} {packetData : List UInt8} {i : ℕ}

theorem length_fragmentData (fragmentSize : ℕ) :
    (fragmentData fragmentSize header packetData i).length =
      fragmentHeaderBytes + (if i = 0 then (writePacketHeader header).length else 0) +
        (piece fragmentSize packetData i).length := by
  rw [fragmentData, List.length_append, List.length_append, length_writeFragmentHeader]
  split <;> rfl

theorem drop_fragmentData (fragmentSize : ℕ) (header : PacketHeader UInt16)
    (packetData : List UInt8) (i : ℕ) :
    (fragmentData fragmentSize header packetData i).drop fragmentHeaderBytes =
      (if i = 0 then writePacketHeader header else []) ++ piece fragmentSize packetData i := by
  rw [fragmentData, List.append_assoc, List.drop_left' (length_writeFragmentHeader _ _ _)]

/-- There are no more fragments of a packet than there may be. -/
theorem pieceCount_le (hvalid : sizes.Valid) (hlength : packetData.length ≤ sizes.maxPacketSize) :
    pieceCount sizes.fragmentSize packetData.length ≤ sizes.maxFragments := by
  by_contra hmany
  have hlt := (lt_pieceCount_iff hvalid.fragmentSize_pos).mp (not_le.mp hmany)
  have hle := hvalid.maxPacketSize_le
  omega

/-- What the header of a fragment that was transmitted says. -/
def fragmentHeader (fragmentSize : ℕ) (header : PacketHeader UInt16) (packetData : List UInt8)
    (fragmentId : ℕ) : FragmentHeader where
  fragmentId
  numFragments := pieceCount fragmentSize packetData.length
  header := if fragmentId = 0 then header
    else { sequence := header.sequence, ack := 0, ackBits := 0 }

theorem readFirstHeader_fragmentData (fragmentSize : ℕ) (hbits : header.ackBits < 2 ^ 32) :
    readFirstHeader (fragmentData fragmentSize header packetData i) header.sequence i =
      .ok ((fragmentHeader fragmentSize header packetData i).header,
        if i = 0 then (writePacketHeader header).length else 0) := by
  rw [readFirstHeader, fragmentHeader]
  by_cases hfirst : i = 0
  · have hlength : (fragmentData fragmentSize header packetData i).length = _ :=
      length_fragmentData fragmentSize
    have hread := readPacketHeader_append hbits (piece fragmentSize packetData i)
      (fragmentData fragmentSize header packetData i).length
    have hdrop := drop_fragmentData fragmentSize header packetData i
    rw [if_pos hfirst] at hlength
    rw [if_neg (by omega)] at hread
    simp only [hfirst, if_true] at hread hdrop ⊢
    rw [hdrop, hread, ok_bind]
    simp
  · simp [hfirst]

/-- A fragment that was transmitted is read as what it is. -/
theorem readFragmentHeader_fragmentData (hvalid : sizes.Valid) (hbits : header.ackBits < 2 ^ 32)
    (hlength : packetData.length ≤ sizes.maxPacketSize)
    (hi : i < pieceCount sizes.fragmentSize packetData.length) :
    readFragmentHeader sizes (fragmentData sizes.fragmentSize header packetData i) =
      .ok (fragmentHeader sizes.fragmentSize header packetData i) := by
  have hcount := pieceCount_le hvalid hlength
  have hmax := hvalid.maxFragments_le
  have hdata : (fragmentData sizes.fragmentSize header packetData i).length = _ :=
    length_fragmentData sizes.fragmentSize
  have hpiece : (piece sizes.fragmentSize packetData i).length ≤ sizes.fragmentSize := by
    rw [length_piece]
    omega
  have hfull : i ≠ pieceCount sizes.fragmentSize packetData.length - 1 →
      (piece sizes.fragmentSize packetData i).length = sizes.fragmentSize :=
    fun hne => length_piece_of_lt hvalid.fragmentSize_pos (by omega)
  have hmark : readUInt 1 (fragmentData sizes.fragmentSize header packetData i) 0 = .ok 1 := by
    rw [fragmentData, List.append_assoc, readUInt_fragmentPrefix]
  have hsequence : readUInt 2 (fragmentData sizes.fragmentSize header packetData i) 1 =
      .ok header.sequence.toNat := by
    rw [fragmentData, List.append_assoc, readUInt_fragmentSequence]
  have hid : readUInt 1 (fragmentData sizes.fragmentSize header packetData i) 3 = .ok i := by
    rw [fragmentData, List.append_assoc, readUInt_fragmentId (by omega)]
  have hlast : readUInt 1 (fragmentData sizes.fragmentSize header packetData i) 4 =
      .ok (pieceCount sizes.fragmentSize packetData.length - 1) := by
    rw [fragmentData, List.append_assoc, readUInt_lastId (by omega)]
  have hnumber : wrap header.sequence.toNat = header.sequence := wrap_toInt header.sequence
  have hfirst : readFirstHeader (fragmentData sizes.fragmentSize header packetData i)
      header.sequence i = _ := readFirstHeader_fragmentData sizes.fragmentSize hbits
  have hone : pieceCount sizes.fragmentSize packetData.length - 1 + 1 =
      pieceCount sizes.fragmentSize packetData.length := by omega
  rw [readFragmentHeader, if_neg (by omega), hmark, hsequence, hid, hlast]
  simp only [ok_bind, ne_eq, not_true_eq_false, if_false, ofInt_eq_wrap, hnumber, hone, hfirst]
  rw [if_neg (by omega), if_neg (by omega), if_neg (by omega), if_neg]
  · rfl
  · rintro ⟨hne, hsize⟩
    have hsame := hfull hne
    omega

/-- One datagram, or the fragments. -/
theorem transmitPacket_eq (sizes : FragmentConfig) (header : PacketHeader UInt16)
    (packetData : List UInt8) :
    transmitPacket sizes header packetData =
      if packetData.length ≤ sizes.fragmentAbove then [writePacketHeader header ++ packetData]
      else (List.range (pieceCount sizes.fragmentSize packetData.length)).map
        (fragmentData sizes.fragmentSize header packetData) := by
  rw [transmitPacket]
  refine if_congr Iff.rfl rfl ?_
  have hmap := writeFragments_eq_map sizes.fragmentSize header packetData
    (pieceCount sizes.fragmentSize packetData.length) 0
  rwa [Nat.zero_mul, List.drop_zero, ← List.range_eq_range'] at hmap

/-- A datagram is a header and so many bytes of a packet. -/
theorem length_le_of_mem_transmitPacket {data : List UInt8}
    (h : data ∈ transmitPacket sizes header packetData) :
    data.length ≤
      maxPacketHeaderBytes +
        max sizes.fragmentAbove (fragmentHeaderBytes + sizes.fragmentSize) := by
  have hheader := length_writePacketHeader_le header
  rw [transmitPacket_eq] at h
  split at h
  · obtain rfl := List.mem_singleton.mp h
    rw [List.length_append]
    omega
  · obtain ⟨i, _, rfl⟩ := List.mem_map.mp h
    have hpiece : (piece sizes.fragmentSize packetData i).length ≤ sizes.fragmentSize := by
      rw [length_piece]
      omega
    rw [length_fragmentData]
    split <;> omega

end LibBench.Transport
