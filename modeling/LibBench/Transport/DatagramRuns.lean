/-
# Runs of datagrams

A timely run of two sides with datagrams between them is the image of a run of two
sides that count, which goes the way of a run of packets. What no step with packets
does, no step with datagrams does either: no packet that comes is found unreadable.
-/

import LibBench.Transport.DatagramSteps

namespace LibBench.Transport

open LibBench.Math SequenceNumber

variable {M τ : Type} {config : ConnectionConfig M τ} {sizes : FragmentConfig}
  {factory : MessageFactory M}

namespace PendingNetwork

variable {pending : PendingNetwork config sizes}

instance : (action : DatagramAction M τ) → Decidable (pending.Timely factory action)
  | .receiveDatagram side position _ =>
      inferInstanceAs (Decidable (_ ∧ Near (pending.pendings side) position))
  | .sendMessage _ _ | .receiveMessage _ | .sendUnreliable _ _ | .receiveUnreliable _
  | .sendPacket _ | .advanceTime _ _ =>
      inferInstanceAs (Decidable (_ ∧ True))

/-- What a run means for the packets. -/
def packetRun (factory : MessageFactory M) :
    PendingNetwork config sizes → List (DatagramAction M τ) → List (Action M τ)
  | _, [] => []
  | pending, action :: actions =>
      pending.packetActions factory action ++
        packetRun factory (pending.next factory action) actions

/-- The packets go the way of the datagrams. -/
theorem network_foldl_next (actions : List (DatagramAction M τ)) :
    (actions.foldl (next factory) pending).network =
      (packetRun factory pending actions).foldl Network.next pending.network := by
  induction actions generalizing pending with
  | nil => rfl
  | cons action actions ih =>
      rw [List.foldl_cons, ih, packetRun, List.foldl_append]
      rfl

end PendingNetwork

/-- The sizes that a connection and its wire are configured with. -/
structure Configured (factory : MessageFactory M) (config : ConnectionConfig M τ)
    (sizes : FragmentConfig) : Prop where
  connection : config.Valid
  wire : sizes.Valid
  fit : PacketsFit factory config
  maxPacketSize : sizes.maxPacketSize = config.maxPacketSize

namespace PendingNetwork

variable {pending : PendingNetwork config sizes}

/-- A timely run of the program ends in the image of the run with integers. -/
theorem Sound.run_stored (h : pending.Sound factory) (hsizes : Configured factory config sizes)
    {actions : List (DatagramAction M τ)}
    (hcarried : ∀ action ∈ actions, action.Carried factory config)
    (htimely : StepsMeet (step factory) (Timely factory) pending actions) :
    (actions.foldl (PendingNetwork.next factory) pending).Sound factory ∧
      run (DatagramNetwork.step factory) (pending.stored factory) actions =
        .ok ((actions.foldl (PendingNetwork.next factory) pending).stored factory) := by
  have hpreserved (before : PendingNetwork config sizes) (action : DatagramAction M τ)
      (hbefore : before.Sound factory)
      (hguard : before.Timely factory action ∧ action.Carried factory config) :
      (before.next factory action).Sound factory :=
    hbefore.next hsizes.connection hsizes.wire hsizes.fit hguard.2
  have himage (before : PendingNetwork config sizes) (action : DatagramAction M τ)
      (hbefore : before.Sound factory)
      (hguard : before.Timely factory action ∧ action.Carried factory config) :
      (before.stored factory).step factory action =
        .ok ((before.next factory action).stored factory) :=
    step_stored hbefore hsizes.connection hsizes.wire hsizes.fit hsizes.maxPacketSize hguard.1
  exact run_image hpreserved himage h (htimely.and (StepsMeet.of_forall hcarried))

theorem stored_create (time : τ) :
    (create time : PendingNetwork config sizes).stored factory = DatagramNetwork.create time := rfl

theorem sent_stored (side : Side) :
    (pending.stored factory side).node.sent = (pending.network side).sent := rfl

theorem received_stored (side : Side) :
    (pending.stored factory side).node.received = (pending.network side).received := rfl

end PendingNetwork

/-- No packet has failed to be read, and no message. -/
structure Connection.Readable {ν : Type} (connection : Connection ν config) : Prop where
  packets : connection.errorLevel ≠ .readPacketFailed
  reliable : connection.reliable.errorLevel ≠ .failedToSerialize
  unreliable : connection.unreliable.errorLevel ≠ .failedToSerialize

section Readable

variable {ν : Type} [SequenceNumber ν] [DecidableEq ν]

theorem ReliableOrderedChannel.readable_processMessages {config : ChannelConfig M τ}
    {channel : ReliableOrderedChannel ν config} (h : channel.errorLevel ≠ .failedToSerialize)
    (minMessageId maxMessageId : ν) (messages : List (ν × M)) :
    (processMessages minMessageId maxMessageId messages channel).errorLevel ≠
      .failedToSerialize := by
  induction messages generalizing channel with
  | nil => exact h
  | cons pair messages ih =>
      rw [processMessages]
      split
      · exact ih h
      split
      · simp
      split
      · exact ih h
      split
      · simp
      · exact ih h

theorem ReliableOrderedChannel.errorLevel_getPacketData {config : ChannelConfig M τ}
    (channel : ReliableOrderedChannel ν config) (packetSequence : ν) (availableBits : ℤ) :
    (channel.getPacketData packetSequence availableBits).1.errorLevel = channel.errorLevel := by
  rw [getPacketData]
  split
  · dsimp only
    split
    · rfl
    · rw [addMessagePacketEntry]
      split <;> rfl
  · rfl

theorem Connection.Readable.processEntries {connection : Connection ν config}
    (h : connection.Readable) (entries : List (ChannelPacketData ν M)) :
    (Connection.processEntries entries connection).2.Readable := by
  induction entries generalizing connection with
  | nil => exact h
  | cons entry entries ih =>
      cases entry with
      | reliable messages =>
          let after : Connection ν config :=
            { connection with reliable := connection.reliable.processPacketData messages }
          have hafter : after.Readable := by
            refine ⟨h.packets, ?_, h.unreliable⟩
            simp only [after, ReliableOrderedChannel.processPacketData]
            split
            · exact h.reliable
            · exact ReliableOrderedChannel.readable_processMessages h.reliable _ _ _
          rw [Connection.processEntries]
          dsimp only
          split
          · exact hafter
          · exact ih hafter
      | unreliable messages =>
          let after : Connection ν config :=
            { connection with unreliable := connection.unreliable.processPacketData messages }
          have hlevel : after.unreliable.errorLevel = connection.unreliable.errorLevel := by
            simp only [after, UnreliableUnorderedChannel.processPacketData]
            split <;> rfl
          have hafter : after.Readable := ⟨h.packets, h.reliable, hlevel ▸ h.unreliable⟩
          rw [Connection.processEntries]
          dsimp only
          split
          · exact hafter
          · exact ih hafter

/-- Whatever happens on a side, it does not find a packet unreadable. -/
theorem Network.readable_perform {network : Network ν config} (action : Action M τ)
    (h : (network action.side).connection.Readable) :
    (network.perform action).connection.Readable := by
  cases action with
  | sendMessage side message =>
      refine ⟨h.packets, ?_, h.unreliable⟩
      change ((network side).connection.reliable.sendMessage message).errorLevel ≠ _
      rw [ReliableOrderedChannel.sendMessage]
      split
      · exact h.reliable
      split
      · simp
      split <;> exact h.reliable
  | receiveMessage side =>
      rw [Network.perform, Node.receiveMessage]
      split
      · exact h
      · next hreceive =>
          obtain ⟨_, _, rfl⟩ := ReliableOrderedChannel.receiveMessage_eq _ hreceive
          exact ⟨h.packets, h.reliable, h.unreliable⟩
  | sendUnreliable side message =>
      refine ⟨h.packets, h.reliable, ?_⟩
      change ((network side).connection.unreliable.sendMessage message).errorLevel ≠ _
      rw [UnreliableUnorderedChannel.sendMessage]
      split
      · exact h.unreliable
      split
      · simp
      · exact h.unreliable
  | receiveUnreliable side =>
      rw [Network.perform, Node.receiveUnreliable]
      split
      · exact h
      · next message after hreceive =>
          have hlevel : after.errorLevel = (network side).connection.unreliable.errorLevel := by
            rw [UnreliableUnorderedChannel.receiveMessage] at hreceive
            split at hreceive
            · cases hreceive
            split at hreceive
            · cases hreceive
            · obtain ⟨_, rfl⟩ := Prod.mk.inj (Option.some_inj.mp hreceive)
              rfl
          exact ⟨h.packets, h.reliable, hlevel ▸ h.unreliable⟩
  | sendPacket side =>
      rw [Network.perform, Node.sendPacket]
      split
      · exact h
      · refine ⟨h.packets, ?_, h.unreliable⟩
        change ((network side).connection.reliable.getPacketData _ _).1.errorLevel ≠ _
        rw [ReliableOrderedChannel.errorLevel_getPacketData]
        exact h.reliable
  | receivePacket side position =>
      rw [Network.perform]
      split
      · exact h
      next packet _ =>
        obtain heq | ⟨success, connection, hprocess, hlevel, _, houtcome⟩ :=
          (network side).receivePacket_cases position packet
        · rw [heq]
          exact h
        · rw [Connection.processPacket, if_neg (not_not.mpr hlevel)] at hprocess
          have hafter := h.processEntries packet.channelEntry
          change (Connection.processEntries _ (network side).connection).2.Readable at hafter
          rw [hprocess] at hafter
          obtain ⟨_, heq⟩ | ⟨_, _, _, heq⟩ := houtcome <;> (rw [heq]; exact hafter)
  | receiveFragment side position =>
      rw [Network.perform]
      split
      · exact h
      · rw [Node.receiveFragment]
        split <;> exact h
  | advanceTime side time =>
      rw [Network.perform, Node.advanceTime]
      split
      · exact h
      have hafter : ((network side).connection.advanceTime time).Readable := by
        rw [Connection.advanceTime]
        dsimp only
        split
        · exact ⟨by simp, h.reliable, h.unreliable⟩
        split
        · exact ⟨by simp, h.reliable, h.unreliable⟩
        · exact ⟨h.packets, h.reliable, h.unreliable⟩
      dsimp only
      split
      · exact hafter
      · obtain ⟨_, _, hacks⟩ := ReliableOrderedChannel.foldl_processAck_eq
          ((network side).connection.advanceTime time).reliable (network side).endpoint.acks
        refine ⟨hafter.packets, ?_, hafter.unreliable⟩
        rw [Connection.processAcks, hacks]
        exact hafter.reliable

theorem Network.readable_foldl_next (time : τ) (actions : List (Action M τ)) (side : Side) :
    (actions.foldl Network.next
      (Network.create time : Network ν config) side).connection.Readable := by
  induction actions using List.reverseRecOn generalizing side with
  | nil => constructor <;> simp [Network.create, Node.create, Connection.create,
      ReliableOrderedChannel.create]
  | append_singleton actions action ih =>
      rw [List.foldl_concat]
      by_cases hside : side = action.side
      · subst hside
        rw [Network.next, Function.update_self]
        exact Network.readable_perform action (ih _)
      · rw [Network.next_of_ne hside]
        exact ih side

end Readable

theorem DatagramNode.datagrams_receiveDatagram {side after : DatagramNode config sizes}
    {data : List UInt8} (h : side.receiveDatagram factory data = .ok after) :
    after.datagrams = side.datagrams := by
  rw [DatagramNode.receiveDatagram] at h
  split at h
  · obtain rfl := Except.ok.inj h
    rfl
  · simp only [bind, Except.bind] at h
    split at h
    · cases h
    · obtain rfl := Except.ok.inj h
      rfl

namespace DatagramNetwork

/-- The datagrams of a packet that is not too large. -/
def IsPacket (sizes : FragmentConfig) (packet : List (List UInt8)) : Prop :=
  ∃ header packetData, header.ackBits < 2 ^ 32 ∧ packetData.length ≤ sizes.maxPacketSize ∧
    packet = transmitPacket sizes header packetData

/-- What has been transmitted are packets in their datagrams. -/
def TransmitsPackets (network : DatagramNetwork config sizes) : Prop :=
  ∀ side, ∀ packet ∈ (network side).datagrams, IsPacket sizes packet

theorem TransmitsPackets.perform {network : DatagramNetwork config sizes}
    (h : network.TransmitsPackets) {action : DatagramAction M τ} {after : DatagramNode config sizes}
    (hafter : network.perform factory action = .ok after) :
    ∀ packet ∈ after.datagrams, IsPacket sizes packet := by
  cases action with
  | sendPacket side =>
      obtain rfl := Except.ok.inj hafter
      intro packet hpacket
      rw [DatagramNode.sendPacket] at hpacket
      split at hpacket
      · exact h side packet hpacket
      dsimp only at hpacket
      split at hpacket
      · exact h side packet hpacket
      · next hsmall =>
          obtain hbefore | hnew := List.mem_append.mp hpacket
          · exact h side packet hbefore
          · exact ⟨_, _, Endpoint.ackBits_sendPacket_lt _, not_lt.mp hsmall,
              List.mem_singleton.mp hnew⟩
  | receiveDatagram side position i =>
      rw [DatagramNetwork.perform] at hafter
      split at hafter
      · obtain rfl := Except.ok.inj hafter
        exact h side
      · rw [DatagramNode.datagrams_receiveDatagram hafter]
        exact h side
  | _ =>
      obtain rfl := Except.ok.inj hafter
      exact h _

theorem TransmitsPackets.step {network next : DatagramNetwork config sizes}
    (h : network.TransmitsPackets) {action : DatagramAction M τ}
    (hstep : network.step factory action = .ok next) : next.TransmitsPackets := by
  simp only [DatagramNetwork.step, bind, Except.bind] at hstep
  split at hstep
  · cases hstep
  next after hafter =>
    obtain rfl := Except.ok.inj hstep
    intro side
    by_cases hside : side = action.side
    · subst hside
      rw [Function.update_self]
      exact h.perform hafter
    · rw [Function.update_of_ne hside]
      exact h side

end DatagramNetwork

section Runs

variable {actions : List (DatagramAction M τ)} {time : τ} {datagrams : DatagramNetwork config sizes}

/-- The end of a timely run is the image of both sides with integers, which a run of
packets has led there. -/
theorem exists_sound_of_run (hsizes : Configured factory config sizes)
    (hcarried : ∀ action ∈ actions, action.Carried factory config)
    (htimely : StepsMeet (PendingNetwork.step factory) (PendingNetwork.Timely factory)
      (PendingNetwork.create time : PendingNetwork config sizes) actions)
    (hrun : run (DatagramNetwork.step factory) (DatagramNetwork.create time) actions =
      .ok datagrams) :
    ∃ (pending : PendingNetwork config sizes) (packetActions : List (Action M τ)),
      pending.Sound factory ∧
      pending.network = packetActions.foldl Network.next (Network.create time) ∧
      datagrams = pending.stored factory := by
  obtain ⟨hsound, hstored⟩ := (PendingNetwork.sound_create time).run_stored hsizes hcarried htimely
  rw [PendingNetwork.stored_create, hrun] at hstored
  exact ⟨_, _, hsound, PendingNetwork.network_foldl_next actions, Except.ok.inj hstored⟩

/-- No packet that comes is found unreadable, nor is a message in it. -/
theorem datagrams_are_readable (hsizes : Configured factory config sizes)
    (hcarried : ∀ action ∈ actions, action.Carried factory config)
    (htimely : StepsMeet (PendingNetwork.step factory) (PendingNetwork.Timely factory)
      (PendingNetwork.create time : PendingNetwork config sizes) actions)
    (hrun : run (DatagramNetwork.step factory) (DatagramNetwork.create time) actions =
      .ok datagrams) (side : Side) : (datagrams side).node.connection.Readable := by
  obtain ⟨pending, packetActions, _, hnetwork, rfl⟩ :=
    exists_sound_of_run hsizes hcarried htimely hrun
  have hreadable : (packetActions.foldl Network.next
      (Network.create time : Network ℤ config) side).connection.Readable :=
    Network.readable_foldl_next time packetActions side
  rw [← hnetwork] at hreadable
  exact ⟨hreadable.packets, hreadable.reliable, hreadable.unreliable⟩

/-- In every run, timely or not, a datagram is a header and no more bytes of a packet
than a whole one or a fragment may have. -/
theorem length_datagram_le
    (hrun : run (DatagramNetwork.step factory) (DatagramNetwork.create time) actions =
      .ok datagrams) (side : Side) :
    ∀ packet ∈ (datagrams side).datagrams, ∀ data ∈ packet, data.length ≤
      maxPacketHeaderBytes +
        max sizes.fragmentAbove (fragmentHeaderBytes + sizes.fragmentSize) := by
  have hstart : (DatagramNetwork.create time : DatagramNetwork config sizes).TransmitsPackets :=
    fun _ _ hmem => by cases hmem
  have htransmits := run_invariant_of_step (fun _ _ _ h hstep => h.step hstep) hstart hrun
  intro packet hpacket data hdata
  obtain ⟨_, _, _, _, rfl⟩ := htransmits side packet hpacket
  exact length_le_of_mem_transmitPacket hdata

end Runs

end LibBench.Transport
