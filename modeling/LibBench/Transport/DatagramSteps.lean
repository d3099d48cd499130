/-
# Yojimbo: what a datagram does

Every step with datagrams is the image of what it does to the packets of two sides
that count: what a side does on its own, the packet that it sends, and the packets
that a datagram begins and completes. That needs that both directions are
consistent, that all packets fit, and that what a side has of a packet is a part of
it; each step keeps this.
-/

import LibBench.Transport.Datagrams

namespace LibBench.Transport

open LibBench.Math SequenceNumber

variable {M τ : Type} {config : ConnectionConfig M τ} {sizes : FragmentConfig}

namespace Node

variable {ν : Type} (node : Node ν config)

@[simp]
theorem connection_withoutPackets : node.withoutPackets.connection = node.connection := rfl

@[simp]
theorem endpoint_withoutPackets : node.withoutPackets.endpoint = node.endpoint := rfl

theorem receiveUnreliable_withoutPackets :
    node.withoutPackets.receiveUnreliable = node.receiveUnreliable.withoutPackets := by
  rw [receiveUnreliable, receiveUnreliable, connection_withoutPackets]
  cases node.connection.unreliable.receiveMessage <;> rfl

variable [SequenceNumber ν] [DecidableEq ν]

theorem receiveMessage_withoutPackets :
    node.withoutPackets.receiveMessage = node.receiveMessage.withoutPackets := by
  rw [receiveMessage, receiveMessage, connection_withoutPackets]
  cases node.connection.reliable.receiveMessage <;> rfl

theorem advanceTime_withoutPackets (time : τ) :
    node.withoutPackets.advanceTime time = (node.advanceTime time).withoutPackets := by
  rw [advanceTime, advanceTime, connection_withoutPackets]
  split
  · rfl
  · dsimp only
    split <;> rfl

end Node

namespace Network

variable {ν : Type} [SequenceNumber ν] [DecidableEq ν] {network : Network ν config}

theorem next_of_ne {action : Action M τ} {side : Side} (h : side ≠ action.side) :
    network.next action side = network side :=
  Function.update_of_ne h _ _

theorem foldl_next_of_ne {actions : List (Action M τ)} {side : Side}
    (h : ∀ action ∈ actions, side ≠ action.side) :
    actions.foldl next network side = network side := by
  induction actions generalizing network with
  | nil => rfl
  | cons action actions ih =>
      obtain ⟨hfirst, hrest⟩ := List.forall_mem_cons.mp h
      rw [List.foldl_cons, ih hrest, next_of_ne hfirst]

/-- Nothing else transmits a packet. -/
theorem transmitted_perform {action : Action M τ} (h : ∀ side, action ≠ .sendPacket side) :
    (network.perform action).transmitted = (network action.side).transmitted := by
  cases action with
  | sendMessage side message => rfl
  | receiveMessage side =>
      change (network side).receiveMessage.transmitted = _
      rw [Node.receiveMessage]
      split <;> rfl
  | sendUnreliable side message => rfl
  | receiveUnreliable side =>
      change (network side).receiveUnreliable.transmitted = _
      rw [Node.receiveUnreliable]
      split <;> rfl
  | sendPacket side => exact absurd rfl (h side)
  | receivePacket side position =>
      rw [perform]
      split
      · rfl
      · rw [Node.receivePacket]
        split <;> rfl
  | receiveFragment side position =>
      rw [perform]
      split
      · rfl
      · rw [Node.receiveFragment]
        split <;> rfl
  | advanceTime side time =>
      change ((network side).advanceTime time).transmitted = _
      rw [Node.advanceTime]
      split
      · rfl
      · dsimp only
        split <;> rfl

/-- What has been transmitted stays where it is. -/
theorem transmitted_isPrefix_next (action : Action M τ) (side : Side) :
    (network side).transmitted <+: (network.next action side).transmitted := by
  by_cases heq : side = action.side
  · rw [heq, next, Function.update_self]
    by_cases hsend : ∃ sender, action = .sendPacket sender
    · obtain ⟨sender, rfl⟩ := hsend
      change _ <+: (network sender).sendPacket.transmitted
      rw [Node.sendPacket]
      split
      · exact List.prefix_rfl
      · exact List.prefix_append _ _
    · rw [transmitted_perform fun sender heq => hsend ⟨sender, heq⟩]
  · rw [next_of_ne heq]

theorem transmitted_isPrefix_foldl_next (actions : List (Action M τ)) (side : Side) :
    (network side).transmitted <+: (actions.foldl next network side).transmitted := by
  induction actions generalizing network with
  | nil => exact List.prefix_rfl
  | cons action actions ih => exact (transmitted_isPrefix_next action side).trans ih

theorem next_receivePacket {side : Side} {position : ℕ} {packet : Packet ν M}
    (hpacket : (network side.other).transmitted[position]? = some packet) :
    network.next (.receivePacket side position) side =
      (network side).receivePacket position packet := by
  rw [next, Action.side, Function.update_self, perform, hpacket]

theorem next_receiveFragment {side : Side} {position : ℕ} {packet : Packet ν M}
    (hpacket : (network side.other).transmitted[position]? = some packet) :
    network.next (.receiveFragment side position) side =
      (network side).receiveFragment packet := by
  rw [next, Action.side, Function.update_self, perform, hpacket]

/-- A packet that is begun, or there as a whole, or both. -/
theorem foldl_next_arrivals {side : Side} {position : ℕ} {packet : Packet ν M}
    (hpacket : (network side.other).transmitted[position]? = some packet)
    (begins completes : Prop) [Decidable begins] [Decidable completes] :
    ((if begins then [Action.receiveFragment side position] else []) ++
        (if completes then [Action.receivePacket side position] else [])).foldl next network side =
      let begun := if begins then (network side).receiveFragment packet else network side
      if completes then begun.receivePacket position packet else begun := by
  have hother : network.next (.receiveFragment side position) side.other = network side.other :=
    next_of_ne (Side.other_ne side)
  have hlater : (network.next (.receiveFragment side position) side.other).transmitted[position]? =
      some packet := by rw [hother, hpacket]
  by_cases hbegins : begins <;> by_cases hcompletes : completes <;>
    simp [hbegins, hcompletes, next_receiveFragment hpacket, next_receivePacket hpacket,
      next_receivePacket hlater]

theorem Consistent.foldl_next {network : Network ℤ config} (h : network.Consistent)
    (hvalid : config.Valid) (actions : List (Action M τ)) :
    (actions.foldl Network.next network).Consistent := by
  induction actions generalizing network with
  | nil => exact h
  | cons action actions ih => exact ih (h.next hvalid action)

theorem Fitting.foldl_next {factory : MessageFactory M} {network : Network ℤ config}
    (h : network.Fitting factory) (hconsistent : network.Consistent) (hvalid : config.Valid)
    (hfit : PacketsFit factory config) {actions : List (Action M τ)}
    (hcarried : ∀ action ∈ actions, action.Carried factory config) :
    (actions.foldl Network.next network).Fitting factory := by
  induction actions generalizing network with
  | nil => exact h
  | cons action actions ih =>
      obtain ⟨hfirst, hrest⟩ := List.forall_mem_cons.mp hcarried
      exact ih (h.next hconsistent hvalid hfit hfirst) (hconsistent.next hvalid action) hrest

/-- A timely run of steps of the program is the image of the steps with integers. -/
theorem foldl_next_wrapped {network : Network ℤ config} (h : network.Consistent)
    (hvalid : config.Valid) {actions : List (Action M τ)}
    (htimely : StepsMeet step Timely network actions) :
    actions.foldl next network.wrapped = (actions.foldl next network).wrapped := by
  obtain ⟨after, hrun, _, hwrapped⟩ := run_wrapped h hvalid htimely
  have hcounts : Except.ok (actions.foldl next network) = Except.ok after :=
    (run_eq_foldl next network actions).symm.trans hrun
  have hstored : Except.ok (actions.foldl next network.wrapped) = Except.ok after.wrapped :=
    (run_eq_foldl next network.wrapped actions).symm.trans hwrapped
  obtain rfl := Except.ok.inj hcounts
  exact Except.ok.inj hstored

end Network

namespace DatagramNode

variable {factory : MessageFactory M} {node : Node UInt16 config}
  {fragmentReassembly :
    SequenceRing UInt16 FragmentReassemblyData sizes.fragmentReassemblyBufferSize}

/-- A packet is transmitted as it is written. -/
theorem sendPacket_ofNode
    (h : ∀ packet ∈ node.sendPacket.transmitted,
      (packet.payload factory config).length ≤ sizes.maxPacketSize) :
    (ofNode factory node fragmentReassembly).sendPacket factory =
      ofNode factory node.sendPacket fragmentReassembly := by
  have hconnection : (ofNode factory node fragmentReassembly).node.connection =
      node.connection := rfl
  have hendpoint : (ofNode factory node fragmentReassembly).node.endpoint = node.endpoint := rfl
  rw [DatagramNode.sendPacket, hconnection, hendpoint]
  rw [Node.sendPacket] at h ⊢
  split
  · rfl
  next hlevel =>
    rw [if_neg hlevel] at h
    cases hgenerate : node.connection.generatePacket node.endpoint.sequence with
    | mk connection channelEntry =>
        cases hsend : node.endpoint.sendPacket with
        | mk endpoint header =>
            simp only [hgenerate, hsend] at h
            have hroom : (writePacket factory config channelEntry).length ≤ sizes.maxPacketSize :=
              h { header, channelEntry } (List.mem_append_right _ (List.mem_singleton_self _))
            dsimp only
            rw [if_neg (not_lt.mpr hroom)]
            simp only [ofNode, List.map_append, List.map_singleton]
            rfl

/-- What datagrams do to a side when they begin a packet, or complete one, or both. -/
theorem ofNode_arrivals (hlevel : node.connection.errorLevel = .none) (position : ℕ)
    (packet : Packet UInt16 M) (begins completes : Prop) [Decidable begins] [Decidable completes]
    (fragmentReassembly :
      SequenceRing UInt16 FragmentReassemblyData sizes.fragmentReassemblyBufferSize) :
    ofNode factory
        (let begun := if begins then node.receiveFragment packet else node
        if completes then begun.receivePacket position packet else begun) fragmentReassembly =
      let endpoint :=
        if begins then node.endpoint.receiveFragment packet.header.sequence else node.endpoint
      let received :=
        if completes then
          endpoint.receivePacket (fun connection => connection.processPacket packet.channelEntry)
            node.connection packet.header
        else (endpoint, node.connection)
      { ofNode factory node fragmentReassembly with
        node :=
          { node.withoutPackets with endpoint := received.1, connection := received.2 } } := by
  by_cases hbegins : begins <;> by_cases hcompletes : completes <;>
    simp [hbegins, hcompletes, Node.receiveFragment, Node.receivePacket, hlevel, ofNode,
      Node.withoutPackets]

end DatagramNode

namespace PendingNetwork

variable {factory : MessageFactory M} {pending : PendingNetwork config sizes}

theorem side_of_mem_packetActions {action : DatagramAction M τ} {act : Action M τ}
    (h : act ∈ pending.packetActions factory action) : act.side = action.side := by
  cases action with
  | receiveDatagram side position i =>
      rw [packetActions] at h
      split at h
      · cases h
      · obtain h | h := List.mem_append.mp h
        · split at h
          · obtain rfl := List.mem_singleton.mp h
            rfl
          · cases h
        · split at h
          · obtain rfl := List.mem_singleton.mp h
            rfl
          · cases h
  | _ =>
      obtain rfl := List.mem_singleton.mp h
      rfl

/-- Only the side changes on which something happens. -/
theorem stored_next (action : DatagramAction M τ) :
    (pending.next factory action).stored factory =
      Function.update (pending.stored factory) action.side
        ((pending.next factory action).stored factory action.side) := by
  funext side
  by_cases heq : side = action.side
  · rw [heq, Function.update_self]
  · have hnetwork : (pending.next factory action).network side = pending.network side :=
      Network.foldl_next_of_ne fun act hmem => by
        rw [side_of_mem_packetActions hmem]
        exact heq
    have hpendings : (pending.next factory action).pendings side = pending.pendings side :=
      Function.update_of_ne heq _ _
    rw [Function.update_of_ne heq, stored, stored, hnetwork, hpendings]

/-- Both directions are consistent, all packets fit, and what a side has of a packet is
a part of it. -/
structure Sound (factory : MessageFactory M) (pending : PendingNetwork config sizes) : Prop where
  consistent : pending.network.Consistent
  fitting : pending.network.Fitting factory
  windowed : ∀ side, (pending.pendings side).Windowed
  parts : ∀ side count part, (pending.pendings side).find count = some part →
    ∃ position packet, count = (position : ℕ) ∧
      (pending.network side.other).transmitted[position]? = some packet ∧
      PendingEndpoint.PartOf sizes packet.wrapped.header
        (packet.wrapped.payload factory config) part

theorem sound_create (time : τ) : (create time : PendingNetwork config sizes).Sound factory where
  consistent := Network.consistent_create time
  fitting := Network.fitting_create time
  windowed _ := SequenceRing.windowed_empty
  parts _ _ _ hfind := by cases hfind

/-- What concerns the packets of a side alone. -/
theorem stored_next_of_act (h : pending.Sound factory) (hvalid : config.Valid)
    {action : DatagramAction M τ} {act : Action M τ}
    (hactions : pending.packetActions factory action = [act]) (hside : act.side = action.side)
    (hpendings : pending.pendingsAfter factory action = pending.pendings action.side)
    (htimely : pending.Timely factory action) :
    (pending.next factory action).stored factory action.side =
      .ofNode factory (pending.network.wrapped.perform act)
        ((pending.pendings action.side).wrapped fun pending =>
          pending.stored sizes.fragmentSize) := by
  have hact : pending.network.Timely act := by
    have hmeet := htimely.1
    rw [hactions] at hmeet
    exact hmeet.1
  have hnetwork : (pending.next factory action).network action.side =
      pending.network.perform act := by
    rw [next, hactions, List.foldl_cons, List.foldl_nil, ← hside]
    exact Function.update_self _ _ _
  have hrings : (pending.next factory action).pendings action.side =
      pending.pendings action.side :=
    (Function.update_self _ _ _).trans hpendings
  rw [Network.perform_wrapped h.consistent hvalid hact, stored, hnetwork, hrings]

/-- A side that does something on its own does it to what is stored of it. -/
theorem onNode_stored (h : pending.Sound factory) (hvalid : config.Valid)
    {action : DatagramAction M τ} {act : Action M τ}
    (hactions : pending.packetActions factory action = [act]) (hside : act.side = action.side)
    (hpendings : pending.pendingsAfter factory action = pending.pendings action.side)
    (hsend : ∀ side, act ≠ .sendPacket side) (htimely : pending.Timely factory action)
    {change : Node UInt16 config → Node UInt16 config}
    (hchange : change (pending.network.wrapped action.side).withoutPackets =
      (pending.network.wrapped.perform act).withoutPackets) :
    (pending.stored factory action.side).onNode change =
      (pending.next factory action).stored factory action.side := by
  rw [stored_next_of_act h hvalid hactions hside hpendings htimely, DatagramNode.ofNode, ← hchange,
    Network.transmitted_perform hsend, hside]
  rfl

/-- A packet that is sent fits. -/
theorem sendPacket_stored (h : pending.Sound factory) (hvalid : config.Valid)
    (hfit : PacketsFit factory config) (hsize : sizes.maxPacketSize = config.maxPacketSize)
    {side : Side} (htimely : pending.Timely factory (.sendPacket side)) :
    (pending.stored factory side).sendPacket factory =
      (pending.next factory (.sendPacket side)).stored factory side := by
  have hnext : (pending.next factory (.sendPacket side)).stored factory side = _ :=
    stored_next_of_act h hvalid rfl rfl rfl htimely
  have hwrapped : (pending.network side).wrapped.sendPacket =
      (pending.network side).sendPacket.wrapped :=
    Network.perform_wrapped h.consistent hvalid htimely.1.1
  have hfitting := (h.fitting side).sendPacket (h.consistent side) hvalid hfit
  rw [hnext, stored]
  apply DatagramNode.sendPacket_ofNode
  intro packet hmem
  rw [hwrapped] at hmem
  obtain ⟨other, hother, rfl⟩ := List.mem_map.mp hmem
  rw [hsize]
  exact (hfitting.packets other hother).length_writePacket_le hfit

/-! ## Datagrams in -/

/-- A packet that a datagram is of, on a side that is not in error. -/
theorem packet?_eq_some {side : Side} {position i : ℕ} {packet : Packet ℤ M}
    (h : pending.packet? factory side position i = some packet) :
    (pending.network side).connection.errorLevel = .none ∧
      (pending.network side.other).transmitted[position]? = some packet ∧
        i < (packet.wrapped.datagrams factory config sizes).length := by
  rw [packet?] at h
  split at h
  · cases h
  next hlevel =>
    obtain ⟨htransmitted, hi⟩ := Option.filter_eq_some_iff.mp h
    exact ⟨not_not.mp hlevel, htransmitted, of_decide_eq_true hi⟩

/-- What a side has of a packet is a part of it. -/
theorem Sound.keeps (h : pending.Sound factory) {side : Side} {position : ℕ} {packet : Packet ℤ M}
    (hpacket : (pending.network side.other).transmitted[position]? = some packet) :
    (pending.endpoint side).Keeps position packet.wrapped.header
      (packet.wrapped.payload factory config) := by
  intro part hfind
  obtain ⟨other, found, hposition, hfound, hpart⟩ := h.parts side position part hfind
  obtain rfl := Nat.cast_injective hposition
  obtain rfl := Option.some_inj.mp (hpacket.symm.trans hfound)
  exact hpart

/-- A packet that has been transmitted can be. -/
theorem Sound.sendable (h : pending.Sound factory) (hfit : PacketsFit factory config)
    (hsize : sizes.maxPacketSize = config.maxPacketSize) {side : Side} {packet : Packet ℤ M}
    (hpacket : packet ∈ (pending.network side).transmitted) :
    PendingEndpoint.Sendable sizes packet.wrapped.header
      (packet.wrapped.payload factory config) where
  ackBits_lt := (h.fitting side).headers packet hpacket
  payload_ne := ((h.fitting side).packets packet hpacket).writePacket_ne_nil hfit
  length_le := by
    rw [hsize]
    exact ((h.fitting side).packets packet hpacket).length_writePacket_le hfit

/-- What a datagram means. -/
theorem packetActions_of_eq_some {side : Side} {position i : ℕ} {packet : Packet ℤ M}
    (h : pending.packet? factory side position i = some packet) :
    pending.packetActions factory (.receiveDatagram side position i) =
      (if (pending.endpoint side).Begins position (packet.wrapped.payload factory config) then
        [.receiveFragment side position] else []) ++
      (if (pending.endpoint side).Completes position (packet.wrapped.payload factory config) i then
        [.receivePacket side position] else []) := by
  rw [packetActions, h]

/-- The side that a datagram leads to. -/
theorem stored_next_receiveDatagram (h : pending.Sound factory) (hvalid : config.Valid)
    {side : Side} {position i : ℕ} {packet : Packet ℤ M}
    (hpacket : pending.packet? factory side position i = some packet)
    (htimely : pending.Timely factory (.receiveDatagram side position i)) :
    (pending.next factory (.receiveDatagram side position i)).stored factory side =
      .ofNode factory
        (let begun :=
          if (pending.endpoint side).Begins position (packet.wrapped.payload factory config) then
            (pending.network.wrapped side).receiveFragment packet.wrapped
          else pending.network.wrapped side
        if (pending.endpoint side).Completes position (packet.wrapped.payload factory config) i then
          begun.receivePacket position packet.wrapped else begun)
        ((pending.arrival factory side position packet i).1.pendings.wrapped
          fun pending => pending.stored sizes.fragmentSize) := by
  obtain ⟨_, htransmitted, _⟩ := packet?_eq_some hpacket
  have hwrapped : (pending.network.wrapped side.other).transmitted[position]? =
      some packet.wrapped := by
    rw [Network.wrapped, Node.wrapped, List.getElem?_map, htransmitted, Option.map_some]
  have hnetwork := Network.foldl_next_wrapped h.consistent hvalid htimely.1
  have hafter : pending.pendingsAfter factory (.receiveDatagram side position i) =
      (pending.arrival factory side position packet i).1.pendings := by
    rw [pendingsAfter, hpacket]
  have hpendings : (pending.next factory (.receiveDatagram side position i)).pendings side =
      (pending.arrival factory side position packet i).1.pendings :=
    (Function.update_self _ _ _).trans hafter
  rw [packetActions_of_eq_some hpacket] at hnetwork
  rw [← Network.foldl_next_arrivals hwrapped, hnetwork, stored, hpendings, next,
    packetActions_of_eq_some hpacket]
  rfl

/-- A datagram does what the packets behind it do. -/
theorem receiveDatagram_stored (h : pending.Sound factory) (hvalid : config.Valid)
    (hsizes : sizes.Valid) (hfit : PacketsFit factory config)
    (hsize : sizes.maxPacketSize = config.maxPacketSize) {side : Side} {position i : ℕ}
    {packet : Packet ℤ M} (hpacket : pending.packet? factory side position i = some packet)
    (htimely : pending.Timely factory (.receiveDatagram side position i)) {data : List UInt8}
    (hdata : (packet.wrapped.datagrams factory config sizes)[i]? = some data) :
    (pending.stored factory side).receiveDatagram factory data =
      .ok ((pending.next factory (.receiveDatagram side position i)).stored factory side) := by
  obtain ⟨hlevel, htransmitted, _⟩ := packet?_eq_some hpacket
  have hdirection : Direction (pending.network side.other) (pending.network side) := by
    have hother := h.consistent side.other
    rwa [Side.other_other] at hother
  have hmem := List.mem_of_getElem? htransmitted
  have hsequence : packet.wrapped.header.sequence = wrap (position : ℤ) :=
    congrArg wrap (hdirection.sequence htransmitted)
  have hprocess : Connection.processPacketData factory (packet.wrapped.payload factory config) =
      fun connection : Connection UInt16 config =>
        connection.processPacket packet.wrapped.channelEntry :=
    ((h.fitting side.other).packets packet hmem).processPacketData_writePacket hfit
  have hreceive : (pending.endpoint side).stored.receivePacketData
        (Connection.processPacketData factory) (pending.network side).connection.wrapped data =
      .ok (Prod.map PendingEndpoint.stored id (pending.arrival factory side position packet i)) :=
    PendingEndpoint.receivePacketData_stored hsizes (h.windowed side) htimely.2 hsequence
      (h.sendable hfit hsize hmem) (h.keeps htransmitted) hdata
  have heq := PendingEndpoint.receiveDatagram_eq (h.windowed side) (h.keeps htransmitted)
    (Connection.processPacketData factory) (pending.network side).connection.wrapped i
  rw [hprocess] at heq
  have hstored : (pending.stored factory side).receiveDatagram factory data =
      .ok { pending.stored factory side with
        node := { (pending.network.wrapped side).withoutPackets with
          endpoint := (pending.arrival factory side position packet i).1.endpoint
          connection := (pending.arrival factory side position packet i).2 }
        fragmentReassembly := (pending.arrival factory side position packet i).1.pendings.wrapped
          fun pending => pending.stored sizes.fragmentSize } := by
    have hnone : ¬(pending.stored factory side).node.connection.errorLevel ≠ .none :=
      not_not.mpr hlevel
    rw [DatagramNode.receiveDatagram, if_neg hnone]
    exact congrArg (fun received => received >>= fun received => Except.ok
      { pending.stored factory side with
        node := { (pending.network.wrapped side).withoutPackets with
          endpoint := received.1.endpoint
          connection := received.2 }
        fragmentReassembly := received.1.fragmentReassembly }) hreceive
  have hnode : (pending.network.wrapped side).connection.errorLevel = .none := hlevel
  rw [hstored, stored_next_receiveDatagram h hvalid hpacket htimely,
    DatagramNode.ofNode_arrivals hnode]
  exact congrArg (fun received => Except.ok
    { pending.stored factory side with
      node := { (pending.network.wrapped side).withoutPackets with
        endpoint := received.1
        connection := received.2 }
      fragmentReassembly := (pending.arrival factory side position packet i).1.pendings.wrapped
        fun part : PendingPacket => part.stored sizes.fragmentSize }) heq

theorem datagram?_stored (side : Side) (position i : ℕ) :
    (pending.stored factory).datagram? side position i =
      (pending.network side.other).transmitted[position]?.bind fun packet =>
        (packet.wrapped.datagrams factory config sizes)[i]? := by
  have hdatagrams : (pending.stored factory side.other).datagrams[position]? =
      (pending.network side.other).transmitted[position]?.map fun packet =>
        packet.wrapped.datagrams factory config sizes := by
    rw [stored, DatagramNode.ofNode, Node.wrapped, List.map_map, List.getElem?_map]
    rfl
  rw [DatagramNetwork.datagram?, hdatagrams, Option.bind_map]
  rfl

/-- A datagram that is of no packet, or comes to a side in error, does nothing. -/
theorem perform_receiveDatagram_of_none {side : Side} {position i : ℕ}
    (h : pending.packet? factory side position i = none) :
    (pending.stored factory).perform factory (.receiveDatagram side position i) =
      .ok (pending.stored factory side) := by
  rw [DatagramNetwork.perform]
  split
  · rfl
  next data hdata =>
    rw [DatagramNode.receiveDatagram]
    split
    · rfl
    next hlevel =>
      have hnone : ¬(pending.network side).connection.errorLevel ≠ .none := hlevel
      rw [datagram?_stored] at hdata
      obtain ⟨packet, hpacket, hdatagram⟩ := Option.bind_eq_some_iff.mp hdata
      rw [packet?, if_neg hnone, hpacket, Option.filter_some] at h
      have hi := (List.getElem?_eq_some_iff.mp hdatagram).1
      simp [hi] at h

theorem pendings_next_of_ne {action : DatagramAction M τ} {side : Side} (h : side ≠ action.side) :
    (pending.next factory action).pendings side = pending.pendings side :=
  Function.update_of_ne h _ _

theorem pendings_next_self (action : DatagramAction M τ) :
    (pending.next factory action).pendings action.side = pending.pendingsAfter factory action :=
  Function.update_self _ _ _

/-- What is kept of packets after a step. -/
theorem pendingsAfter_spec (h : pending.Sound factory) (hsizes : sizes.Valid)
    (action : DatagramAction M τ) :
    (pending.pendingsAfter factory action).Windowed ∧
      ∀ count part, (pending.pendingsAfter factory action).find count = some part →
        ∃ position packet, count = (position : ℕ) ∧
          (pending.network action.side.other).transmitted[position]? = some packet ∧
          PendingEndpoint.PartOf sizes packet.wrapped.header (packet.wrapped.payload factory config)
            part := by
  cases action with
  | receiveDatagram side position i =>
      rw [pendingsAfter]
      cases hpacket : pending.packet? factory side position i with
      | none => exact ⟨h.windowed side, h.parts side⟩
      | some packet =>
          obtain ⟨_, htransmitted, hi⟩ := packet?_eq_some hpacket
          have hpiece : sizes.fragmentAbove < (packet.wrapped.payload factory config).length →
              i < pieceCount sizes.fragmentSize (packet.wrapped.payload factory config).length := by
            intro hcut
            rw [Packet.datagrams, transmitPacket_eq, if_neg (not_le.mpr hcut), List.length_map,
              List.length_range] at hi
            exact hi
          have hafter := PendingEndpoint.keepsAfter_receiveDatagram hsizes (h.windowed side)
            (h.keeps htransmitted) hpiece (Connection.processPacketData factory)
            (pending.network side).connection.wrapped
          refine ⟨hafter.windowed, fun count part hfind => ?_⟩
          obtain hbefore | ⟨rfl, hpart⟩ := hafter.kept count part hfind
          · exact h.parts side count part hbefore
          · exact ⟨position, packet, rfl, htransmitted, hpart⟩
  | _ => exact ⟨h.windowed _, h.parts _⟩

theorem carried_of_mem_packetActions {action : DatagramAction M τ}
    (hcarried : action.Carried factory config) {act : Action M τ}
    (h : act ∈ pending.packetActions factory action) : act.Carried factory config := by
  cases action with
  | receiveDatagram side position i =>
      rw [packetActions] at h
      split at h
      · cases h
      · obtain h | h := List.mem_append.mp h
        · split at h
          · obtain rfl := List.mem_singleton.mp h
            trivial
          · cases h
        · split at h
          · obtain rfl := List.mem_singleton.mp h
            trivial
          · cases h
  | _ =>
      obtain rfl := List.mem_singleton.mp h
      exact hcarried

theorem Sound.next (h : pending.Sound factory) (hvalid : config.Valid) (hsizes : sizes.Valid)
    (hfit : PacketsFit factory config) {action : DatagramAction M τ}
    (hcarried : action.Carried factory config) :
    (pending.next factory action).Sound factory where
  consistent := h.consistent.foldl_next hvalid _
  fitting := h.fitting.foldl_next h.consistent hvalid hfit fun _ hmem =>
    carried_of_mem_packetActions hcarried hmem
  windowed side := by
    by_cases heq : side = action.side
    · rw [heq, pendings_next_self]
      exact (pendingsAfter_spec h hsizes action).1
    · rw [pendings_next_of_ne heq]
      exact h.windowed side
  parts side count part hfind := by
    have hbefore : ∃ position packet, count = (position : ℕ) ∧
        (pending.network side.other).transmitted[position]? = some packet ∧
        PendingEndpoint.PartOf sizes packet.wrapped.header (packet.wrapped.payload factory config)
          part := by
      by_cases heq : side = action.side
      · rw [heq, pendings_next_self] at hfind
        rw [heq]
        exact (pendingsAfter_spec h hsizes action).2 count part hfind
      · rw [pendings_next_of_ne heq] at hfind
        exact h.parts side count part hfind
    obtain ⟨position, packet, hposition, hpacket, hpart⟩ := hbefore
    have hgrows : (pending.network side.other).transmitted <+:
        ((pending.next factory action).network side.other).transmitted :=
      Network.transmitted_isPrefix_foldl_next _ _
    obtain ⟨later, hlater⟩ := hgrows
    refine ⟨position, packet, hposition, ?_, hpart⟩
    rw [← hlater]
    exact (List.getElem?_append_left (List.getElem?_eq_some_iff.mp hpacket).1).trans hpacket

/-- Whatever happens on a side happens to what is stored of it. -/
theorem perform_stored (h : pending.Sound factory) (hvalid : config.Valid) (hsizes : sizes.Valid)
    (hfit : PacketsFit factory config) (hsize : sizes.maxPacketSize = config.maxPacketSize)
    {action : DatagramAction M τ} (htimely : pending.Timely factory action) :
    (pending.stored factory).perform factory action =
      .ok ((pending.next factory action).stored factory action.side) := by
  cases action with
  | sendMessage side message =>
      exact congrArg Except.ok (onNode_stored h hvalid rfl rfl rfl (by simp) htimely rfl)
  | receiveMessage side =>
      exact congrArg Except.ok (onNode_stored h hvalid rfl rfl rfl (by simp) htimely
        (Node.receiveMessage_withoutPackets _))
  | sendUnreliable side message =>
      exact congrArg Except.ok (onNode_stored h hvalid rfl rfl rfl (by simp) htimely rfl)
  | receiveUnreliable side =>
      exact congrArg Except.ok (onNode_stored h hvalid rfl rfl rfl (by simp) htimely
        (Node.receiveUnreliable_withoutPackets _))
  | sendPacket side => exact congrArg Except.ok (sendPacket_stored h hvalid hfit hsize htimely)
  | receiveDatagram side position i =>
      cases hpacket : pending.packet? factory side position i with
      | none =>
          have hactions :
              pending.packetActions factory (.receiveDatagram side position i) = [] := by
            rw [packetActions, hpacket]
          have hpendings : pending.pendingsAfter factory (.receiveDatagram side position i) =
              pending.pendings side := by rw [pendingsAfter, hpacket]
          rw [perform_receiveDatagram_of_none hpacket, stored, next, hactions, hpendings]
          simp [stored, DatagramAction.side]
      | some packet =>
          obtain ⟨_, htransmitted, hi⟩ := packet?_eq_some hpacket
          have hdata : (pending.stored factory).datagram? side position i =
              some ((packet.wrapped.datagrams factory config sizes)[i]) := by
            rw [datagram?_stored, htransmitted, Option.bind_some, List.getElem?_eq_getElem hi]
          rw [DatagramNetwork.perform, hdata]
          exact receiveDatagram_stored h hvalid hsizes hfit hsize hpacket htimely
            (List.getElem?_eq_getElem hi)
  | advanceTime side time =>
      exact congrArg Except.ok (onNode_stored h hvalid rfl rfl rfl (by simp) htimely
        (Node.advanceTime_withoutPackets _ time))

/-- A timely step of the program is the image of the step with integers. -/
theorem step_stored (h : pending.Sound factory) (hvalid : config.Valid) (hsizes : sizes.Valid)
    (hfit : PacketsFit factory config) (hsize : sizes.maxPacketSize = config.maxPacketSize)
    {action : DatagramAction M τ} (htimely : pending.Timely factory action) :
    (pending.stored factory).step factory action =
      .ok ((pending.next factory action).stored factory) := by
  rw [DatagramNetwork.step, perform_stored h hvalid hsizes hfit hsize htimely, ok_bind,
    ← stored_next]

end PendingNetwork

end LibBench.Transport
