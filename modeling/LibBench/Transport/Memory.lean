/-
# reliable.io: datagrams from anywhere

An endpoint looks at every datagram that comes, and whoever sent it may have written
anything. All that it writes to is the memory of the packets that it puts together,
which is allocated for as many fragments as a datagram says that there will be.

That memory stays what it is for. Only the first fragment of a packet can lead the
endpoint out of it: when the header of the packet is not all there, since it is looked
for up to the length of the whole fragment, behind the header of the fragment; or when
it is longer than it need be, since it is written anew and what follows it is then more
than there is room for. Two sides that both are this program send no such fragment. So
they never leave their memory, however late anything comes.
-/

import LibBench.Transport.DatagramGuarantees

namespace LibBench.Transport

open LibBench.Math SequenceNumber
open LibBench.Yojimbo (Message)

variable {sizes : FragmentConfig} {data : List UInt8} {fragment : FragmentHeader}

/-- What follows the header in a first fragment, when the header is as short as it can
be, is no more than there is room for. -/
def FragmentHeader.Fits (fragment : FragmentHeader) (fragmentSize : ℕ) (data : List UInt8) :
    Prop :=
  fragment.fragmentId = 0 →
    data.length ≤ fragmentHeaderBytes + (writePacketHeader fragment.header).length +
      fragment.numFragments * fragmentSize

/-- The datagrams that cannot lead an endpoint out of its memory. One that is too large
is not looked at. -/
def Contained (sizes : FragmentConfig) (data : List UInt8) : Prop :=
  data ≠ [] ∧
    (sizes.maxPacketSize + maxPacketHeaderBytes + fragmentHeaderBytes < data.length ∨
      match readFragmentHeader sizes data with
      | .error error => error = .invalid
      | .ok fragment => fragment.Fits sizes.fragmentSize data)

instance (fragment : FragmentHeader) (fragmentSize : ℕ) (data : List UInt8) :
    Decidable (fragment.Fits fragmentSize data) :=
  inferInstanceAs (Decidable (_ → _))

instance (sizes : FragmentConfig) (data : List UInt8) : Decidable (Contained sizes data) :=
  have : Decidable (match readFragmentHeader sizes data with
      | .error error => error = .invalid
      | .ok fragment => fragment.Fits sizes.fragmentSize data) :=
    match readFragmentHeader sizes data with
    | .error error => inferInstanceAs (Decidable (error = .invalid))
    | .ok fragment => inferInstanceAs (Decidable (fragment.Fits sizes.fragmentSize data))
  inferInstanceAs (Decidable (_ ∧ (_ ∨ _)))

/-- What a fragment has been found to be before anything is written. -/
structure FragmentHeader.ReadFrom (fragment : FragmentHeader) (fragmentSize : ℕ)
    (data : List UInt8) : Prop where
  fragmentId_lt : fragment.fragmentId < fragment.numFragments
  length_ge : fragmentHeaderBytes ≤ data.length
  header_le : fragment.fragmentId = 0 →
    fragmentHeaderBytes + (writePacketHeader fragment.header).length ≤ data.length
  length_le : fragment.fragmentId ≠ 0 → data.length ≤ fragmentHeaderBytes + fragmentSize

theorem readFrom_of_readFragmentHeader (h : readFragmentHeader sizes data = .ok fragment) :
    fragment.ReadFrom sizes.fragmentSize data := by
  rw [readFragmentHeader] at h
  split at h
  · cases h
  next hlength =>
  obtain ⟨prefixByte, _, h⟩ := bind_eq_ok.mp h
  split at h
  · cases h
  obtain ⟨sequence, _, h⟩ := bind_eq_ok.mp h
  obtain ⟨fragmentId, _, h⟩ := bind_eq_ok.mp h
  obtain ⟨lastId, _, h⟩ := bind_eq_ok.mp h
  dsimp only at h
  split at h
  · cases h
  split at h
  · cases h
  next hid =>
  obtain ⟨⟨header, packetHeaderBytes⟩, hfirst, h⟩ := bind_eq_ok.mp h
  dsimp only at h
  split at h
  · cases h
  next hsize =>
  split at h
  · cases h
  obtain rfl := Except.ok.inj h
  rw [readFirstHeader] at hfirst
  refine ⟨not_le.mp hid, not_lt.mp hlength, fun hzero => ?_, fun hne => ?_⟩
  · dsimp only at hzero
    rw [if_pos hzero] at hfirst
    obtain ⟨⟨read, readBytes⟩, hread, hsame⟩ := bind_eq_ok.mp hfirst
    dsimp only at hsame
    split at hsame
    · cases hsame
    obtain ⟨rfl, rfl⟩ := Prod.mk.inj (Except.ok.inj hsame)
    obtain ⟨hle, hshort⟩ := length_le_of_readPacketHeader hread
    rw [List.length_drop] at hle
    dsimp only
    omega
  · dsimp only at hne
    rw [if_neg hne] at hfirst
    obtain ⟨_, rfl⟩ := Prod.mk.inj (Except.ok.inj hfirst)
    omega

/-- What is not found invalid says that it is a fragment. -/
theorem readUInt_of_readFragmentHeader (h : readFragmentHeader sizes data ≠ .error .invalid) :
    readUInt 1 data 0 = .ok 1 := by
  rw [readFragmentHeader] at h
  split at h
  · exact absurd rfl h
  next hlength =>
  have hin : 0 + 1 ≤ data.length := by
    rw [fragmentHeaderBytes] at hlength
    omega
  obtain ⟨prefixByte, _, hread⟩ := exists_readUInt hin
  rw [hread, ok_bind] at h
  split at h
  · exact absurd rfl h
  · next hmark => rw [hread, not_not.mp hmark]

namespace FragmentReassemblyData

/-- The memory of a packet is what its fragments need, those that have come are counted,
and with the first of them there is a header. -/
structure Sized (sizes : FragmentConfig) (reassembly : FragmentReassemblyData) : Prop where
  length_packetData :
    reassembly.packetData.length = reassembly.numFragmentsTotal * sizes.fragmentSize
  packetBytes_le : reassembly.packetBytes ≤ reassembly.packetData.length
  numFragmentsReceived_eq : reassembly.numFragmentsReceived =
    ((Finset.range reassembly.numFragmentsTotal).filter
      fun i => reassembly.fragmentReceived i = true).card
  packetHeader_eq : reassembly.fragmentReceived 0 = true →
    ∃ header, reassembly.packetHeader = writePacketHeader header

variable {reassembly : FragmentReassemblyData} {header : PacketHeader UInt16} {fragmentId : ℕ}
  {fragmentData : List UInt8}

theorem sized_create (sizes : FragmentConfig) (numFragments : ℕ) :
    (create sizes numFragments).Sized sizes where
  length_packetData := List.length_replicate
  packetBytes_le := Nat.zero_le _
  numFragmentsReceived_eq := by simp [create]
  packetHeader_eq h := by cases h

theorem storeHeader_eq
    (hheader : fragmentId = 0 → (writePacketHeader header).length ≤ fragmentData.length) :
    reassembly.storeHeader header fragmentId fragmentData =
      .ok ({ reassembly with
              packetHeader :=
                if fragmentId = 0 then writePacketHeader header else reassembly.packetHeader },
            fragmentData.drop
              (if fragmentId = 0 then (writePacketHeader header).length else 0)) := by
  rw [storeHeader]
  by_cases hfirst : fragmentId = 0
  · simp only [if_pos hfirst]
    rw [if_neg (not_lt.mpr (hheader hfirst))]
  · simp only [if_neg hfirst, List.drop_zero]

/-- The fragments that have come when one more does. -/
theorem card_filter_update {received : ℕ → Bool} {count : ℕ} (hid : fragmentId < count)
    (hnew : received fragmentId = false) :
    ((Finset.range count).filter fun i => Function.update received fragmentId true i = true).card =
      ((Finset.range count).filter fun i => received i = true).card + 1 := by
  have hinsert : ((Finset.range count).filter
      fun i => Function.update received fragmentId true i = true) =
        insert fragmentId ((Finset.range count).filter fun i => received i = true) := by
    ext i
    by_cases hi : i = fragmentId
    · simp [hi, hid]
    · simp [hi]
  rw [hinsert, Finset.card_insert_of_notMem]
  simp [hnew]

/-- A fragment that there is room for is put in its place. -/
theorem Sized.storeFragmentData (h : reassembly.Sized sizes)
    (hid : fragmentId < reassembly.numFragmentsTotal)
    (hnew : reassembly.fragmentReceived fragmentId = false)
    (hheader : fragmentId = 0 → (writePacketHeader header).length ≤ fragmentData.length)
    (hroom : fragmentId * sizes.fragmentSize + (fragmentData.length -
        if fragmentId = 0 then (writePacketHeader header).length else 0) ≤
      reassembly.numFragmentsTotal * sizes.fragmentSize) :
    ∃ stored,
      FragmentReassemblyData.storeFragmentData
        { reassembly with
          numFragmentsReceived := reassembly.numFragmentsReceived + 1
          fragmentReceived := Function.update reassembly.fragmentReceived fragmentId true }
        header fragmentId sizes.fragmentSize fragmentData = .ok stored ∧
      stored.numFragmentsTotal = reassembly.numFragmentsTotal ∧ stored.Sized sizes := by
  rw [FragmentReassemblyData.storeFragmentData, storeHeader_eq hheader, ok_bind]
  dsimp only
  generalize hpayload : fragmentData.drop
    (if fragmentId = 0 then (writePacketHeader header).length else 0) = payload
  rw [← List.length_drop, hpayload] at hroom
  obtain ⟨packetData, hdata⟩ : ∃ packetData,
      overwrite reassembly.packetData (fragmentId * sizes.fragmentSize) payload =
        some packetData := by
    rw [overwrite, h.length_packetData, if_pos hroom]
    exact ⟨_, rfl⟩
  have hlength := length_of_overwrite hdata
  rw [hdata]
  refine ⟨_, rfl, rfl, hlength.trans h.length_packetData, ?_, ?_, fun hzero => ?_⟩
  · dsimp only
    rw [hlength]
    split
    · next hlast =>
        rw [h.length_packetData, ← hlast]
        exact hroom
    · exact h.packetBytes_le
  · dsimp only
    rw [card_filter_update hid hnew, h.numFragmentsReceived_eq]
  · dsimp only at hzero ⊢
    by_cases hfirst : fragmentId = 0
    · exact ⟨header, if_pos hfirst⟩
    · rw [Function.update_of_ne (Ne.symm hfirst)] at hzero
      rw [if_neg hfirst]
      exact h.packetHeader_eq hzero

/-- When all fragments have come, there is a packet, and it begins with a header. -/
theorem Sized.exists_packet (h : reassembly.Sized sizes) (hpos : 0 < reassembly.numFragmentsTotal)
    (hall : reassembly.numFragmentsReceived = reassembly.numFragmentsTotal) :
    ∃ header payload, reassembly.packet = .ok (writePacketHeader header ++ payload) := by
  have hcard := h.numFragmentsReceived_eq
  rw [hall] at hcard
  have heach := Finset.card_filter_eq_iff.mp (hcard.symm.trans (Finset.card_range _).symm)
  obtain ⟨header, hheader⟩ := h.packetHeader_eq (heach 0 (Finset.mem_range.mpr hpos))
  rw [packet, if_pos h.packetBytes_le, hheader]
  exact ⟨header, _, rfl⟩

/-- A first fragment that can be stored fits. -/
theorem length_le_of_storeFragmentData {fragmentSize : ℕ} {stored : FragmentReassemblyData}
    (h : reassembly.storeFragmentData header 0 fragmentSize fragmentData = .ok stored) :
    fragmentData.length ≤ (writePacketHeader header).length + reassembly.packetData.length := by
  rw [storeFragmentData] at h
  obtain ⟨⟨marked, payload⟩, hheader, h⟩ := bind_eq_ok.mp h
  rw [storeHeader, if_pos rfl] at hheader
  dsimp only at hheader
  split at hheader
  · cases hheader
  obtain ⟨rfl, rfl⟩ := Prod.mk.inj (Except.ok.inj hheader)
  dsimp only at h
  split at h
  · cases h
  next hdata =>
  rw [overwrite] at hdata
  split at hdata
  · next hroom =>
      rw [List.length_drop] at hroom
      omega
  · cases hdata

end FragmentReassemblyData

namespace FragmentEndpoint

variable {config : EndpointConfig} {σ : Type} {processPacket : List UInt8 → σ → Bool × σ}
  {endpoint : FragmentEndpoint config sizes} {context : σ} {reassembly : FragmentReassemblyData}

/-- The memory of all packets under way is what it is for. -/
def Sized (endpoint : FragmentEndpoint config sizes) : Prop :=
  endpoint.fragmentReassembly.Each (FragmentReassemblyData.Sized sizes)

theorem Sized.receiveRegular (h : endpoint.Sized) (data : List UInt8) :
    ∃ after, endpoint.receiveRegular processPacket context data = .ok after ∧ after.1.Sized := by
  rw [FragmentEndpoint.receiveRegular]
  obtain hread | ⟨header, headerBytes, hread, _⟩ := readPacketHeader_inBounds (le_refl data.length)
  · rw [hread]
    exact ⟨_, rfl, h⟩
  · rw [hread]
    dsimp only
    split
    · exact ⟨_, rfl, h⟩
    · refine ⟨_, rfl, ?_⟩
      rw [processRegular]
      dsimp only
      split
      · exact SequenceRing.Each.advance h _ _
      · exact h

/-- A packet that has been put together is never taken for a fragment. -/
theorem Sized.receiveAssembled (h : endpoint.Sized)
    (processPacket : List UInt8 → σ → Bool × σ) (context : σ) (header : PacketHeader UInt16)
    (payload : List UInt8) :
    ∃ after, endpoint.receiveAssembled processPacket context (writePacketHeader header ++ payload) =
      .ok after ∧ after.1.Sized := by
  rw [FragmentEndpoint.receiveAssembled, receiveBy]
  split
  · exact ⟨_, rfl, h⟩
  · rw [readUInt_prefixByte, ok_bind, testBit_zero_prefixByte]
    exact h.receiveRegular _

theorem Sized.storeFragment (h : endpoint.Sized) (hread : fragment.ReadFrom sizes.fragmentSize data)
    (hfits : fragment.Fits sizes.fragmentSize data) (hsized : reassembly.Sized sizes) :
    ∃ after, endpoint.storeFragment processPacket context fragment reassembly data = .ok after ∧
      after.1.Sized := by
  rw [FragmentEndpoint.storeFragment]
  dsimp only
  by_cases htotal : fragment.numFragments ≠ reassembly.numFragmentsTotal
  · rw [if_pos htotal]
    exact ⟨_, rfl, h⟩
  rw [if_neg htotal]
  rw [not_not] at htotal
  split
  · exact ⟨_, rfl, h⟩
  next hnew =>
  have hlength := hread.length_ge
  have hid : fragment.fragmentId < reassembly.numFragmentsTotal := htotal ▸ hread.fragmentId_lt
  have hplace : fragment.fragmentId * sizes.fragmentSize + sizes.fragmentSize ≤
      reassembly.numFragmentsTotal * sizes.fragmentSize := by
    rw [← Nat.succ_mul]
    exact Nat.mul_le_mul_right _ hid
  have hheader : fragment.fragmentId = 0 →
      (writePacketHeader fragment.header).length ≤ (data.drop fragmentHeaderBytes).length := by
    intro hfirst
    have hheader := hread.header_le hfirst
    rw [List.length_drop]
    omega
  have hroom : fragment.fragmentId * sizes.fragmentSize +
      ((data.drop fragmentHeaderBytes).length -
        if fragment.fragmentId = 0 then (writePacketHeader fragment.header).length else 0) ≤
      reassembly.numFragmentsTotal * sizes.fragmentSize := by
    rw [List.length_drop]
    split
    · next hfirst =>
        have hle := hfits hfirst
        rw [htotal] at hle
        rw [hfirst, Nat.zero_mul]
        omega
    · next hne =>
        have hle := hread.length_le hne
        omega
  obtain ⟨stored, hstored, htotalStored, hstoredSized⟩ := hsized.storeFragmentData hid
    (Bool.eq_false_of_not_eq_true hnew) hheader hroom
  rw [hstored, ok_bind]
  have hendpoint : FragmentEndpoint.Sized
      { endpoint with
        fragmentReassembly :=
          endpoint.fragmentReassembly.modify fragment.header.sequence fun _ => stored } :=
    SequenceRing.Each.modify h fun _ _ => hstoredSized
  split
  · next hall =>
      obtain ⟨header, payload, hpacket⟩ := hstoredSized.exists_packet (by omega) hall
      obtain ⟨after, hafter, hafterSized⟩ :=
        hendpoint.receiveAssembled processPacket context header payload
      rw [hpacket, ok_bind, hafter, ok_bind]
      exact ⟨_, rfl, SequenceRing.Each.remove hafterSized⟩
  · exact ⟨_, rfl, hendpoint⟩

theorem Sized.receiveFragment (h : endpoint.Sized)
    (hread : ∀ error, readFragmentHeader sizes data = .error error → error = .invalid)
    (hfits : ∀ fragment, readFragmentHeader sizes data = .ok fragment →
      fragment.Fits sizes.fragmentSize data) :
    ∃ after, endpoint.receiveFragment processPacket context data = .ok after ∧ after.1.Sized := by
  rw [FragmentEndpoint.receiveFragment]
  cases hheader : readFragmentHeader sizes data with
  | error error =>
      obtain rfl := hread error hheader
      exact ⟨_, rfl, h⟩
  | ok fragment =>
      have hfrom := readFrom_of_readFragmentHeader hheader
      dsimp only
      split
      · next reassembly hfind => exact h.storeFragment hfrom (hfits _ hheader) (h.find hfind)
      · split
        · exact ⟨_, rfl, h⟩
        · next hinsert =>
            have hcreated := FragmentReassemblyData.sized_create sizes fragment.numFragments
            have hendpoint : FragmentEndpoint.Sized
                { endpoint with
                  endpoint := endpoint.endpoint.receiveFragment fragment.header.sequence
                  fragmentReassembly := _ } := SequenceRing.Each.of_insert h hcreated hinsert
            exact hendpoint.storeFragment hfrom (hfits _ hheader) hcreated

/-- A contained datagram leaves the endpoint in its memory, which stays what it is for. -/
theorem Sized.receivePacketData (h : endpoint.Sized) (hdata : Contained sizes data)
    (processPacket : List UInt8 → σ → Bool × σ) (context : σ) :
    ∃ after, endpoint.receivePacketData processPacket context data = .ok after ∧
      after.1.Sized := by
  obtain ⟨hne, hcontained⟩ := hdata
  rw [FragmentEndpoint.receivePacketData, receiveBy]
  split
  · exact ⟨_, rfl, h⟩
  next hsmall =>
  have hin : 0 + 1 ≤ data.length := List.length_pos_iff.mpr hne
  obtain ⟨prefixByte, _, hmark⟩ := exists_readUInt hin
  rw [hmark, ok_bind]
  split
  · have hmatch := hcontained.resolve_left hsmall
    refine h.receiveFragment (fun error hread => ?_) fun fragment hread => ?_
    · rwa [hread] at hmatch
    · rwa [hread] at hmatch
  · exact h.receiveRegular data

/-- The packet of a fragment has not been begun, and there is room for it. -/
def Awaits (endpoint : FragmentEndpoint config sizes) (data : List UInt8) : Prop :=
  ∀ fragment, readFragmentHeader sizes data = .ok fragment →
    endpoint.fragmentReassembly.find fragment.header.sequence = none ∧
      (endpoint.fragmentReassembly.insert fragment.header.sequence 65536
        (.create sizes fragment.numFragments)).isSome = true

theorem Awaits.fits (h : endpoint.Awaits data)
    (hread : readFragmentHeader sizes data = .ok fragment)
    {after : FragmentEndpoint config sizes × σ}
    (hafter : endpoint.receiveFragment processPacket context data = .ok after) :
    fragment.Fits sizes.fragmentSize data := by
  intro hfirst
  obtain ⟨hfind, hinsert⟩ := h fragment hread
  obtain ⟨ring, hring⟩ := Option.isSome_iff_exists.mp hinsert
  rw [FragmentEndpoint.receiveFragment, hread] at hafter
  simp only [hfind, hring] at hafter
  simp only [FragmentEndpoint.storeFragment, FragmentReassemblyData.create, ne_eq,
    not_true_eq_false, Bool.false_eq_true, if_false] at hafter
  obtain ⟨stored, hstored, _⟩ := bind_eq_ok.mp hafter
  rw [hfirst] at hstored
  have hle := FragmentReassemblyData.length_le_of_storeFragmentData hstored
  rw [List.length_drop, List.length_replicate] at hle
  omega

end FragmentEndpoint

/-- What a side transmits is contained. -/
theorem contained_of_mem_transmitPacket (hvalid : sizes.Valid) {header : PacketHeader UInt16}
    {packetData : List UInt8} (hbits : header.ackBits < 2 ^ 32)
    (hlength : packetData.length ≤ sizes.maxPacketSize)
    (h : data ∈ transmitPacket sizes header packetData) : Contained sizes data := by
  rw [transmitPacket_eq] at h
  split at h
  · obtain rfl := List.mem_singleton.mp h
    refine ⟨List.ne_nil_of_length_pos ?_, .inr ?_⟩
    · rw [List.length_append, length_writePacketHeader]
      omega
    by_cases hinvalid : readFragmentHeader sizes (writePacketHeader header ++ packetData) =
        .error .invalid
    · rw [hinvalid]
    -- the first byte would be that of a fragment
    have hmark := readUInt_of_readFragmentHeader hinvalid
    rw [readUInt_prefixByte] at hmark
    have hflag : (prefixByte header).testBit 0 = false :=
      testBit_zero_prefixByte header
    rw [Except.ok.inj hmark] at hflag
    cases hflag
  · obtain ⟨i, hi, rfl⟩ := List.mem_map.mp h
    have hcount := List.mem_range.mp hi
    have hdata : (fragmentData sizes.fragmentSize header packetData i).length = _ :=
      length_fragmentData sizes.fragmentSize
    refine ⟨List.ne_nil_of_length_pos ?_, .inr ?_⟩
    · rw [hdata, fragmentHeaderBytes]
      omega
    rw [readFragmentHeader_fragmentData hvalid hbits hlength hcount]
    intro hfirst
    obtain rfl : i = 0 := hfirst
    have hpiece : (piece sizes.fragmentSize packetData 0).length ≤ sizes.fragmentSize := by
      rw [length_piece]
      omega
    have hone := Nat.mul_le_mul_right sizes.fragmentSize (Nat.succ_le_of_lt hcount)
    rw [hdata, fragmentHeader, if_pos rfl, if_pos rfl]
    dsimp only
    omega

variable {M τ : Type} {config : ConnectionConfig M τ} {factory : MessageFactory M}

/-- What can happen on a side whose peer may transmit anything. -/
inductive ExposedAction (M τ : Type)
  | sendMessage (message : M)
  | receiveMessage
  | sendUnreliable (message : M)
  | receiveUnreliable
  | sendPacket
  /-- The side receives a datagram, whatever is in it. -/
  | receiveDatagram (data : List UInt8)
  | advanceTime (time : τ)
  deriving DecidableEq, Repr

/-- The datagrams among them cannot lead an endpoint out of its memory. -/
def ExposedAction.Contained (sizes : FragmentConfig) : ExposedAction M τ → Prop
  | receiveDatagram data => Transport.Contained sizes data
  | _ => True

instance (sizes : FragmentConfig) :
    (action : ExposedAction M τ) → Decidable (action.Contained sizes)
  | .receiveDatagram data => inferInstanceAs (Decidable (Transport.Contained sizes data))
  | .sendMessage _ | .receiveMessage | .sendUnreliable _ | .receiveUnreliable | .sendPacket
  | .advanceTime _ => isTrue trivial

namespace DatagramNode

variable {side after : DatagramNode config sizes}

/-- What becomes of the side. -/
def perform (factory : MessageFactory M) (side : DatagramNode config sizes) :
    ExposedAction M τ → Except PacketError (DatagramNode config sizes)
  | .sendMessage message => .ok (side.onNode fun node => node.sendMessage message)
  | .receiveMessage => .ok (side.onNode Node.receiveMessage)
  | .sendUnreliable message => .ok (side.onNode fun node => node.sendUnreliable message)
  | .receiveUnreliable => .ok (side.onNode Node.receiveUnreliable)
  | .sendPacket => .ok (side.sendPacket factory)
  | .receiveDatagram data => side.receiveDatagram factory data
  | .advanceTime time => .ok (side.onNode fun node => node.advanceTime time)

/-- The endpoint of the side. -/
def endpoint (side : DatagramNode config sizes) : FragmentEndpoint config.endpoint sizes where
  endpoint := side.node.endpoint
  fragmentReassembly := side.fragmentReassembly

/-- The memory of all packets under way is what it is for. -/
def Sized (side : DatagramNode config sizes) : Prop :=
  side.endpoint.Sized

theorem sized_create (time : τ) : (create time : DatagramNode config sizes).Sized :=
  SequenceRing.each_empty

theorem Sized.sendPacket (h : side.Sized) : (side.sendPacket factory).Sized := by
  rw [DatagramNode.sendPacket]
  split
  · exact h
  · dsimp only
    split <;> exact h

theorem Sized.receiveDatagram (h : side.Sized) (hdata : Contained sizes data) :
    ∃ after, side.receiveDatagram factory data = .ok after ∧ after.Sized := by
  rw [DatagramNode.receiveDatagram]
  split
  · exact ⟨_, rfl, h⟩
  · obtain ⟨after, hafter, hsized⟩ := FragmentEndpoint.Sized.receivePacketData h hdata
      (Connection.processPacketData factory) side.node.connection
    rw [endpoint] at hafter
    dsimp only
    rw [hafter, ok_bind]
    exact ⟨_, rfl, hsized⟩

theorem Sized.perform (h : side.Sized) (factory : MessageFactory M) {action : ExposedAction M τ}
    (haction : action.Contained sizes) :
    ∃ after, side.perform factory action = .ok after ∧ after.Sized := by
  cases action with
  | sendPacket => exact ⟨_, rfl, h.sendPacket⟩
  | receiveDatagram data => exact h.receiveDatagram haction
  | _ => exact ⟨_, rfl, h⟩

end DatagramNode

namespace DatagramNetwork

/-- Both sides have the memory that they need, and all that is under way is contained. -/
structure Safe (network : DatagramNetwork config sizes) : Prop where
  sized : ∀ side, (network side).Sized
  transmits : network.TransmitsPackets

theorem Safe.perform {network : DatagramNetwork config sizes} (h : network.Safe)
    (hvalid : sizes.Valid) (factory : MessageFactory M) (action : DatagramAction M τ) :
    ∃ after, network.perform factory action = .ok after ∧ after.Sized := by
  cases action with
  | sendPacket side => exact ⟨_, rfl, (h.sized side).sendPacket⟩
  | receiveDatagram side position i =>
      rw [DatagramNetwork.perform]
      split
      · exact ⟨_, rfl, h.sized side⟩
      · next data hdata =>
          obtain ⟨packet, hpacket, hmem⟩ := Option.bind_eq_some_iff.mp hdata
          obtain ⟨_, _, hbits, hlength, rfl⟩ :=
            h.transmits _ packet (List.mem_of_getElem? hpacket)
          exact (h.sized side).receiveDatagram
            (contained_of_mem_transmitPacket hvalid hbits hlength (List.mem_of_getElem? hmem))
  | _ => exact ⟨_, rfl, h.sized _⟩

theorem Safe.step {network : DatagramNetwork config sizes} (h : network.Safe)
    (hvalid : sizes.Valid) (factory : MessageFactory M) (action : DatagramAction M τ) :
    ∃ next, network.step factory action = .ok next ∧ next.Safe := by
  obtain ⟨after, hafter, hsized⟩ := h.perform hvalid factory action
  have hstep : network.step factory action = .ok (Function.update network action.side after) := by
    rw [DatagramNetwork.step, hafter, ok_bind]
  refine ⟨_, hstep, fun side => ?_, h.transmits.step hstep⟩
  by_cases hside : side = action.side
  · subst hside
    rwa [Function.update_self]
  · rw [Function.update_of_ne hside]
    exact h.sized side

end DatagramNetwork

/-! ## Runs -/

end LibBench.Transport
