/-
# The unreliable channel

A message of the unreliable channel goes into one packet, or is dropped, and a
packet brings its messages as often as it is processed. So nothing is handed out
that was not sent; nothing more often than it was sent if no packet is processed
twice; and in the order in which it was sent if the packets arrive in theirs. None
of it depends on numbers that come round.
-/

import Mathlib.Data.List.Flatten
import Mathlib.Data.List.Sort
import LibBench.Math.Execution
import LibBench.Transport.Guarantees

namespace LibBench.Transport

open LibBench.Math SequenceNumber
open List (range)

section Packets

variable {ν M : Type}

/-- The messages that an entry of a packet has for the unreliable channel. -/
def ChannelPacketData.unreliableMessages : ChannelPacketData ν M → List M
  | reliable _ => []
  | unreliable messages => messages

/-- The messages of a packet for the unreliable channel. -/
def Packet.unreliableMessages (packet : Packet ν M) : List M :=
  packet.channelEntry.flatMap ChannelPacketData.unreliableMessages

/-- An entry for the reliable channel, if there is one, and then one for the
unreliable channel. -/
def Packet.Ordered (packet : Packet ν M) : Prop :=
  ∃ (reliable : Option (List (ν × M))) (unreliable : Option (List M)),
    packet.channelEntry = (reliable.map ChannelPacketData.reliable).toList ++
      (unreliable.map ChannelPacketData.unreliable).toList

/-- The messages of the packet at a position. -/
def unreliableAt (transmitted : List (Packet ν M)) (position : ℕ) : List M :=
  transmitted[position]?.toList.flatMap Packet.unreliableMessages

theorem unreliableAt_append {transmitted : List (Packet ν M)} (packet : Packet ν M) {position : ℕ}
    (h : position < transmitted.length) :
    unreliableAt (transmitted ++ [packet]) position = unreliableAt transmitted position := by
  rw [unreliableAt, List.getElem?_append_left h, unreliableAt]

theorem flatMap_unreliableAt (transmitted : List (Packet ν M)) :
    (range transmitted.length).flatMap (unreliableAt transmitted) =
      transmitted.flatMap Packet.unreliableMessages := by
  induction transmitted using List.reverseRecOn with
  | nil => rfl
  | append_singleton transmitted packet ih =>
      have hbefore : (range transmitted.length).flatMap (unreliableAt (transmitted ++ [packet])) =
          (range transmitted.length).flatMap (unreliableAt transmitted) :=
        List.flatMap_congr fun position hmem =>
          unreliableAt_append packet (List.mem_range.mp hmem)
      rw [List.length_append, List.length_singleton, List.range_succ, List.flatMap_append,
        List.flatMap_append, hbefore, ih]
      simp [unreliableAt]

end Packets

namespace UnreliableUnorderedChannel

variable {M τ : Type} {config : ChannelConfig M τ} (channel : UnreliableUnorderedChannel config)

theorem getPacketData_sublist (availableBits : ℤ) :
    ∃ rest data, channel.getPacketData availableBits =
        ({ channel with messageSendQueue := rest }, data) ∧
      ((data.map Prod.fst).getD [] ++ rest).Sublist channel.messageSendQueue := by
  obtain ⟨taken, bits, rest, heq, hsublist⟩ := takeMessages_sublist
    (budgetBits config.packetBudget availableBits) channel.messageSendQueue []
    conservativeMessageHeaderBits
  rw [getPacketData, heq, List.nil_append]
  by_cases hempty : taken = []
  · exact ⟨rest, none, by simp [hempty], by simpa [hempty] using hsublist⟩
  · exact ⟨rest, some (taken, bits), by simp [hempty], hsublist⟩

/-- What is put into the receive queue is of the packet, in its order. -/
theorem processPacketData_sublist (messages : List M) :
    ∃ kept, channel.processPacketData messages =
        { channel with messageReceiveQueue := channel.messageReceiveQueue ++ kept } ∧
      kept.Sublist messages ∧ (channel.errorLevel ≠ .none → kept = []) := by
  have hfold : ∀ queue : List M, ∃ kept, messages.foldl (fun queue message =>
      if queue.length = config.messageReceiveQueueSize then queue else queue ++ [message]) queue =
        queue ++ kept ∧ kept.Sublist messages := by
    induction messages with
    | nil => exact fun queue => ⟨[], by simp, List.Sublist.refl _⟩
    | cons message messages ih =>
        intro queue
        rw [List.foldl_cons]
        split
        · obtain ⟨kept, heq, hsublist⟩ := ih queue
          exact ⟨kept, heq, hsublist.cons _⟩
        · obtain ⟨kept, heq, hsublist⟩ := ih (queue ++ [message])
          exact ⟨message :: kept, by rw [heq, List.append_assoc, List.singleton_append],
            hsublist.cons_cons message⟩
  rw [processPacketData]
  split
  · exact ⟨[], by simp, List.nil_sublist _, fun _ => rfl⟩
  · next hnone =>
      obtain ⟨kept, heq, hsublist⟩ := hfold channel.messageReceiveQueue
      exact ⟨kept, by rw [heq], hsublist, fun herror => absurd herror hnone⟩

end UnreliableUnorderedChannel

variable {M τ : Type} {config : ConnectionConfig M τ} {source target after : Node UInt16 config}

/-- A packet that is not processed to its end leaves nothing in the queue. -/
theorem Connection.processPacket_unreliable {connection later : Connection UInt16 config}
    {packet : Packet UInt16 M} (hordered : packet.Ordered) {success : Bool}
    (h : connection.processPacket packet.channelEntry = (success, later)) :
    ∃ kept, later.unreliable = { connection.unreliable with
        messageReceiveQueue := connection.unreliable.messageReceiveQueue ++ kept } ∧
      kept.Sublist packet.unreliableMessages ∧ (success = false → kept = []) := by
  obtain ⟨reliable, unreliable, hentries⟩ := hordered
  rw [processPacket] at h
  split at h
  · obtain ⟨rfl, rfl⟩ := Prod.mk.inj h
    exact ⟨[], by simp, List.nil_sublist _, fun _ => rfl⟩
  have hlast : ∀ {before last : Connection UInt16 config} {result : Bool},
      processEntries (unreliable.map ChannelPacketData.unreliable).toList before = (result, last) →
      before.unreliable = connection.unreliable →
      ∃ kept, last.unreliable = { connection.unreliable with
          messageReceiveQueue := connection.unreliable.messageReceiveQueue ++ kept } ∧
        kept.Sublist packet.unreliableMessages ∧ (result = false → kept = []) := by
    intro before last result hprocess hbefore
    cases unreliable with
    | none =>
        obtain ⟨rfl, rfl⟩ := Prod.mk.inj hprocess
        exact ⟨[], by simp [hbefore], List.nil_sublist _, fun _ => rfl⟩
    | some messages =>
        obtain ⟨kept, heq, hsublist, herror⟩ :=
          before.unreliable.processPacketData_sublist messages
        have hmessages : packet.unreliableMessages = messages := by
          cases reliable <;>
            simp [Packet.unreliableMessages, hentries, ChannelPacketData.unreliableMessages]
        rw [Option.map_some, Option.toList_some, processEntries, heq] at hprocess
        rw [hmessages]
        rw [hbefore] at hprocess herror
        dsimp only at hprocess
        split at hprocess
        · next hlevel =>
            obtain ⟨rfl, rfl⟩ := Prod.mk.inj hprocess
            exact ⟨kept, rfl, hsublist, fun _ => herror hlevel⟩
        · obtain ⟨rfl, rfl⟩ := Prod.mk.inj hprocess
          exact ⟨kept, rfl, hsublist, fun hfalse => (by cases hfalse)⟩
  rw [hentries] at h
  cases reliable with
  | none => exact hlast h rfl
  | some messages =>
      rw [Option.map_some, Option.toList_some, List.singleton_append, processEntries] at h
      dsimp only at h
      split at h
      · obtain ⟨rfl, rfl⟩ := Prod.mk.inj h
        exact ⟨[], by simp, List.nil_sublist _, fun _ => rfl⟩
      · exact hlast h rfl

/-- What the source has sent was accepted in this order, and what the target has
received was in the packets it has processed. -/
structure Carried (source target : Node UInt16 config) : Prop where
  ordered : ∀ packet ∈ source.transmitted, packet.Ordered
  sent : (source.transmitted.flatMap Packet.unreliableMessages ++
    source.connection.unreliable.messageSendQueue).Sublist source.sentUnreliable
  processed : ∀ position ∈ target.processed, position < source.transmitted.length
  received : (target.receivedUnreliable ++
    target.connection.unreliable.messageReceiveQueue).Sublist
      (target.processed.flatMap (unreliableAt source.transmitted))

theorem carried_create (time : τ) : Carried (.create time : Node UInt16 config) (.create time) where
  ordered _ hmem := by cases hmem
  sent := List.Sublist.refl _
  processed _ hmem := by cases hmem
  received := List.Sublist.refl _

/-- Nothing of this changes on the source. -/
theorem Carried.of_source (h : Carried source target)
    (htransmitted : after.transmitted = source.transmitted)
    (hsent : after.sentUnreliable = source.sentUnreliable)
    (hqueue : after.connection.unreliable.messageSendQueue =
      source.connection.unreliable.messageSendQueue) : Carried after target where
  ordered := htransmitted ▸ h.ordered
  sent := by
    rw [htransmitted, hsent, hqueue]
    exact h.sent
  processed := htransmitted ▸ h.processed
  received := htransmitted ▸ h.received

/-- Nothing of this changes on the target. -/
theorem Carried.of_target (h : Carried source target)
    (hprocessed : after.processed = target.processed)
    (hreceived : after.receivedUnreliable ++ after.connection.unreliable.messageReceiveQueue =
      target.receivedUnreliable ++ target.connection.unreliable.messageReceiveQueue) :
    Carried source after where
  ordered := h.ordered
  sent := h.sent
  processed := hprocessed ▸ h.processed
  received := by
    rw [hprocessed, hreceived]
    exact h.received

theorem Carried.sendUnreliable (h : Carried source target) (message : M) :
    Carried (source.sendUnreliable message) target := by
  refine ⟨h.ordered, ?_, h.processed, h.received⟩
  rw [Node.sendUnreliable]
  dsimp only
  rw [UnreliableUnorderedChannel.sendMessage]
  split
  · next herror =>
      rw [if_neg fun hand => herror hand.1]
      exact h.sent
  next hnone =>
    split
    · next hfull =>
        rw [if_neg fun hand => hand.2 hfull]
        exact h.sent
    · next hroom =>
        rw [if_pos ⟨not_not.mp hnone, hroom⟩, ← List.append_assoc]
        exact h.sent.append (List.Sublist.refl _)

theorem Carried.receiveUnreliable (h : Carried source target) :
    Carried source target.receiveUnreliable := by
  refine h.of_target ?_ ?_ <;> rw [Node.receiveUnreliable] <;> split
  · rfl
  · rfl
  · rfl
  · next message after hreceive =>
      rw [UnreliableUnorderedChannel.receiveMessage] at hreceive
      split at hreceive
      · cases hreceive
      split at hreceive
      · cases hreceive
      · next first rest hqueue =>
          obtain ⟨rfl, rfl⟩ := Prod.mk.inj (Option.some_inj.mp hreceive)
          rw [hqueue]
          simp

theorem Connection.generatePacket_unreliable (connection : Connection UInt16 config)
    (packetSequence : UInt16) :
    ∃ channel rest, ∃ (reliable : Option (List (UInt16 × M))) (unreliable : Option (List M)),
      connection.generatePacket packetSequence =
        ({ connection with
            reliable := channel
            unreliable := { connection.unreliable with messageSendQueue := rest } },
          (reliable.map ChannelPacketData.reliable).toList ++
            (unreliable.map ChannelPacketData.unreliable).toList) ∧
        (unreliable.getD [] ++ rest).Sublist connection.unreliable.messageSendQueue := by
  rw [generatePacket]
  obtain ⟨channel, reliableData⟩ := connection.reliable.getPacketData packetSequence
    (config.maxPacketSize * 8 - conservativePacketHeaderBits)
  dsimp only
  cases reliableData with
  | none =>
      obtain ⟨rest, data, heq, hsublist⟩ := connection.unreliable.getPacketData_sublist
        (config.maxPacketSize * 8 - conservativePacketHeaderBits)
      refine ⟨channel, rest, none, data.map Prod.fst, ?_, hsublist⟩
      rw [heq, Option.map_map]
      rfl
  | some reliableData =>
      obtain ⟨messages, bits⟩ := reliableData
      obtain ⟨rest, data, heq, hsublist⟩ := connection.unreliable.getPacketData_sublist
        (config.maxPacketSize * 8 - conservativePacketHeaderBits -
          conservativeChannelHeaderBits - bits)
      refine ⟨channel, rest, some messages, data.map Prod.fst, ?_, hsublist⟩
      dsimp only
      rw [heq, Option.map_map]
      rfl

theorem Carried.sendPacket (h : Carried source target) : Carried source.sendPacket target := by
  rw [Node.sendPacket]
  split
  · exact h
  obtain ⟨channel, rest, reliable, unreliable, heq, hsublist⟩ :=
    source.connection.generatePacket_unreliable source.endpoint.sequence
  rw [heq]
  obtain ⟨endpoint, header⟩ := source.endpoint.sendPacket
  dsimp only
  have hmessages : Packet.unreliableMessages
      ⟨header, (reliable.map ChannelPacketData.reliable).toList ++
        (unreliable.map ChannelPacketData.unreliable).toList⟩ = unreliable.getD [] := by
    cases reliable <;> cases unreliable <;>
      simp [Packet.unreliableMessages, ChannelPacketData.unreliableMessages]
  refine ⟨fun packet hmem => ?_, ?_, fun position hmem => ?_, ?_⟩
  · obtain hmem | hmem := List.mem_append.mp hmem
    · exact h.ordered packet hmem
    · obtain rfl := List.mem_singleton.mp hmem
      exact ⟨reliable, unreliable, rfl⟩
  · rw [List.flatMap_append, List.flatMap_singleton, hmessages, List.append_assoc]
    exact ((List.Sublist.refl _).append hsublist).trans h.sent
  · rw [List.length_append]
    exact (h.processed position hmem).trans (Nat.lt_succ_self _)
  · refine h.received.trans ?_
    rw [List.flatMap_congr fun position hmem => unreliableAt_append _ (h.processed position hmem)]

theorem Carried.receivePacket (h : Carried source target) {position : ℕ}
    {packet : Packet UInt16 M} (hpacket : source.transmitted[position]? = some packet) :
    Carried source (target.receivePacket position packet) := by
  obtain heq | ⟨success, connection, hprocess, _, _, houtcome⟩ :=
    target.receivePacket_cases position packet
  · rw [heq]
    exact h
  obtain ⟨kept, hframe, hsublist, hfailed⟩ :=
    Connection.processPacket_unreliable (h.ordered packet (List.mem_of_getElem? hpacket)) hprocess
  obtain ⟨rfl, heq⟩ | ⟨rfl, receivedPackets, _, heq⟩ := houtcome
  · rw [heq]
    refine h.of_target rfl ?_
    dsimp only
    rw [hframe, hfailed rfl, List.append_nil]
  · rw [heq]
    refine ⟨h.ordered, h.sent, fun other hmem => ?_, ?_⟩
    · obtain hmem | hmem := List.mem_append.mp hmem
      · exact h.processed other hmem
      · obtain rfl := List.mem_singleton.mp hmem
        exact (List.getElem?_eq_some_iff.mp hpacket).1
    · have hmessages : unreliableAt source.transmitted position = packet.unreliableMessages := by
        rw [unreliableAt, hpacket]
        simp
      dsimp only
      rw [hframe, List.flatMap_append, List.flatMap_singleton, hmessages, ← List.append_assoc]
      exact h.received.append hsublist

theorem sendUnreliable_eq (node : Node UInt16 config) (message : M) :
    (node.sendUnreliable message).connection.unreliable.messageReceiveQueue =
      node.connection.unreliable.messageReceiveQueue := by
  rw [Node.sendUnreliable]
  dsimp only
  rw [UnreliableUnorderedChannel.sendMessage]
  split
  · rfl
  split <;> rfl

theorem receiveUnreliable_eq (node : Node UInt16 config) :
    node.receiveUnreliable.connection.unreliable.messageSendQueue =
        node.connection.unreliable.messageSendQueue ∧
      node.receiveUnreliable.transmitted = node.transmitted ∧
      node.receiveUnreliable.sentUnreliable = node.sentUnreliable := by
  rw [Node.receiveUnreliable]
  split
  · exact ⟨rfl, rfl, rfl⟩
  · next message after hreceive =>
      rw [UnreliableUnorderedChannel.receiveMessage] at hreceive
      split at hreceive
      · cases hreceive
      split at hreceive
      · cases hreceive
      · obtain ⟨_, rfl⟩ := Prod.mk.inj (Option.some_inj.mp hreceive)
        exact ⟨rfl, rfl, rfl⟩

theorem Carried.sendPacket_target (h : Carried source target) :
    Carried source target.sendPacket := by
  rw [Node.sendPacket]
  split
  · exact h
  obtain ⟨channel, rest, reliable, unreliable, heq, _⟩ :=
    target.connection.generatePacket_unreliable target.endpoint.sequence
  rw [heq]
  exact h.of_target rfl rfl

theorem Carried.receivePacket_source (h : Carried source target)
    {position : ℕ} {packet : Packet UInt16 M} (hordered : packet.Ordered) :
    Carried (source.receivePacket position packet) target := by
  obtain heq | ⟨success, connection, hprocess, _, _, houtcome⟩ :=
    source.receivePacket_cases position packet
  · rw [heq]
    exact h
  obtain ⟨kept, hframe, _⟩ := Connection.processPacket_unreliable hordered hprocess
  obtain ⟨_, heq⟩ | ⟨_, _, _, heq⟩ := houtcome <;> rw [heq] <;> refine h.of_source rfl rfl ?_ <;>
    dsimp only <;> rw [hframe]

/-- A step that is none of the unreliable channel's business. -/
structure SameUnreliable (before after : Node UInt16 config) : Prop where
  unreliable : after.connection.unreliable = before.connection.unreliable
  sentUnreliable : after.sentUnreliable = before.sentUnreliable
  receivedUnreliable : after.receivedUnreliable = before.receivedUnreliable
  transmitted : after.transmitted = before.transmitted
  processed : after.processed = before.processed

theorem Carried.of_same_source (h : Carried source target) (hsame : SameUnreliable source after) :
    Carried after target :=
  h.of_source hsame.transmitted hsame.sentUnreliable (by rw [hsame.unreliable])

theorem Carried.of_same_target (h : Carried source target) (hsame : SameUnreliable target after) :
    Carried source after :=
  h.of_target hsame.processed (by rw [hsame.receivedUnreliable, hsame.unreliable])

theorem sameUnreliable_receiveMessage (node : Node UInt16 config) :
    SameUnreliable node node.receiveMessage := by
  rw [Node.receiveMessage]
  split <;> constructor <;> rfl

theorem sameUnreliable_receiveFragment (node : Node UInt16 config) (packet : Packet UInt16 M) :
    SameUnreliable node (node.receiveFragment packet) := by
  rw [Node.receiveFragment]
  split <;> constructor <;> rfl

theorem sameUnreliable_advanceTime (node : Node UInt16 config) (time : τ) :
    SameUnreliable node (node.advanceTime time) := by
  rw [Node.advanceTime]
  split
  · constructor <;> rfl
  obtain ⟨level, hframe⟩ := node.connection.advanceTime_eq time
  dsimp only
  rw [hframe]
  split <;> constructor <;> rfl

namespace Network

/-- Both sides carry what the other has sent. -/
def Carrying (network : Network UInt16 config) : Prop :=
  ∀ side, Carried (network side) (network side.other)

variable {network : Network UInt16 config}

theorem Carrying.next (h : network.Carrying) (action : Action M τ) :
    (network.next action).Carrying := by
  have hsource : ∀ side, Carried (network side) (network side.other) := h
  have htarget : ∀ side, Carried (network side.other) (network side) := fun side => by
    simpa using h side.other
  cases action with
  | sendMessage side message =>
      have hsame : SameUnreliable (network side) ((network side).sendMessage message) := by
        constructor <;> rfl
      exact forall_update side ((hsource side).of_same_source hsame)
        ((htarget side).of_same_target hsame)
  | receiveMessage side =>
      have hsame := sameUnreliable_receiveMessage (network side)
      exact forall_update side ((hsource side).of_same_source hsame)
        ((htarget side).of_same_target hsame)
  | sendUnreliable side message =>
      have hqueue := sendUnreliable_eq (network side) message
      exact forall_update side ((hsource side).sendUnreliable message)
        ((htarget side).of_target rfl (congrArg _ hqueue))
  | receiveUnreliable side =>
      obtain ⟨hqueue, htransmitted, hsent⟩ := receiveUnreliable_eq (network side)
      exact forall_update side ((hsource side).of_source htransmitted hsent hqueue)
        (htarget side).receiveUnreliable
  | sendPacket side =>
      exact forall_update side (hsource side).sendPacket (htarget side).sendPacket_target
  | receivePacket side position =>
      refine forall_update side ?_ ?_ <;> rw [perform] <;> split
      · exact hsource side
      · next packet hpacket =>
          exact (hsource side).receivePacket_source
            ((htarget side).ordered packet (List.mem_of_getElem? hpacket))
      · exact htarget side
      · next hpacket => exact (htarget side).receivePacket hpacket
  | receiveFragment side position =>
      refine forall_update side ?_ ?_ <;> rw [perform] <;> split
      · exact hsource side
      · exact (hsource side).of_same_source (sameUnreliable_receiveFragment _ _)
      · exact htarget side
      · exact (htarget side).of_same_target (sameUnreliable_receiveFragment _ _)
  | advanceTime side time =>
      have hsame := sameUnreliable_advanceTime (network side) time
      exact forall_update side ((hsource side).of_same_source hsame)
        ((htarget side).of_same_target hsame)

theorem carrying_of_run {time : τ} {actions : List (Action M τ)}
    (hrun : run step (create time : Network UInt16 config) actions = .ok network) :
    network.Carrying := by
  refine run_invariant_of_step (fun before action next h hstep => ?_)
    (fun _ => carried_create time) hrun
  obtain rfl := Except.ok.inj hstep
  exact Carrying.next h action

end Network

theorem Carried.processed_subset (h : Carried source target) :
    target.processed ⊆ range source.transmitted.length :=
  fun position hmem => List.mem_range.mpr (h.processed position hmem)

/-- The messages of all packets were accepted in this order. -/
theorem Carried.flatMap_sublist (h : Carried source target) :
    ((range source.transmitted.length).flatMap (unreliableAt source.transmitted)).Sublist
      source.sentUnreliable := by
  rw [flatMap_unreliableAt]
  exact (List.sublist_append_left _ _).trans h.sent

theorem Carried.received_sublist (h : Carried source target) :
    target.receivedUnreliable.Sublist
      (target.processed.flatMap (unreliableAt source.transmitted)) :=
  (List.sublist_append_left _ _).trans h.received

variable {actions : List (Action M τ)} {network : Network UInt16 config}

/-- A run in which the second of three packets is lost. -/
def unreliableRun : List (Action ℕ ℤ) :=
  [.sendUnreliable .client 1, .sendPacket .client, .sendUnreliable .client 2,
    .sendPacket .client, .sendUnreliable .client 3, .sendPacket .client,
    .receivePacket .server 0, .receivePacket .server 2, .receiveUnreliable .server,
    .receiveUnreliable .server]

/-- Where it ends. -/
def unreliableEnd : Network UInt16 smallConnectionConfig :=
  unreliableRun.foldl Network.next (Network.create 0)

theorem run_unreliableRun :
    run Network.step (Network.create 0) unreliableRun = .ok unreliableEnd :=
  run_eq_foldl Network.next _ _

/-- Nothing is handed out that the other side has not sent. -/
theorem receivedUnreliable_subset (time : τ)
    (hrun : run Network.step (Network.create time : Network UInt16 config) actions = .ok network)
    (side : Side) : (network side).receivedUnreliable ⊆ (network side.other).sentUnreliable := by
  have h : Carried (network side.other) (network side) := by
    simpa using Network.carrying_of_run hrun side.other
  intro message hmem
  have harrived := h.received.subset (List.mem_append_left _ hmem)
  obtain ⟨position, _, hposition⟩ := List.mem_flatMap.mp harrived
  obtain ⟨packet, hpacket, hmessage⟩ := List.mem_flatMap.mp hposition
  have hsent := List.mem_of_getElem? (Option.mem_toList.mp hpacket)
  exact h.sent.subset (List.mem_append_left _ (List.mem_flatMap.mpr ⟨packet, hsent, hmessage⟩))

theorem receivedUnreliable_subset_lost :
    (unreliableEnd .server).receivedUnreliable ⊆ (unreliableEnd .client).sentUnreliable :=
  receivedUnreliable_subset 0 run_unreliableRun .server

/-- Nothing is handed out more often than it was sent, if no packet is processed
twice. -/
theorem receivedUnreliable_subperm (time : τ)
    (hrun : run Network.step (Network.create time : Network UInt16 config) actions = .ok network)
    (side : Side) (honce : (network side).processed.Nodup) :
    (network side).receivedUnreliable.Subperm (network side.other).sentUnreliable := by
  have h : Carried (network side.other) (network side) := by
    simpa using Network.carrying_of_run hrun side.other
  obtain ⟨positions, hperm, hsublist⟩ := List.subperm_of_subset honce h.processed_subset
  have harrived : ((network side).processed.flatMap
      (unreliableAt (network side.other).transmitted)).Subperm
        ((range (network side.other).transmitted.length).flatMap
          (unreliableAt (network side.other).transmitted)) :=
    ⟨_, hperm.flatMap_right _, hsublist.flatMap _⟩
  exact (h.received_sublist.subperm.trans harrived).trans h.flatMap_sublist.subperm

theorem receivedUnreliable_subperm_lost :
    (unreliableEnd .server).receivedUnreliable.Subperm (unreliableEnd .client).sentUnreliable :=
  receivedUnreliable_subperm 0 run_unreliableRun .server (by decide)

/-- It is handed out in the order in which it was sent, if the packets are
processed in theirs. -/
theorem receivedUnreliable_sublist (time : τ)
    (hrun : run Network.step (Network.create time : Network UInt16 config) actions = .ok network)
    (side : Side) (hordered : (network side).processed.Pairwise (· < ·)) :
    (network side).receivedUnreliable.Sublist (network side.other).sentUnreliable := by
  have h : Carried (network side.other) (network side) := by
    simpa using Network.carrying_of_run hrun side.other
  have honce : (network side).processed.Nodup := hordered.imp fun hlt => hlt.ne
  have hsublist : (network side).processed.Sublist
      (range (network side.other).transmitted.length) :=
    List.sublist_of_subperm_of_pairwise (List.subperm_of_subset honce h.processed_subset)
      (hordered.imp le_of_lt) (List.pairwise_lt_range.imp le_of_lt)
  exact (h.received_sublist.trans (hsublist.flatMap _)).trans h.flatMap_sublist

theorem receivedUnreliable_sublist_lost :
    (unreliableEnd .server).receivedUnreliable.Sublist (unreliableEnd .client).sentUnreliable :=
  receivedUnreliable_sublist 0 run_unreliableRun .server (by decide)

example : (unreliableEnd .server).receivedUnreliable = [1, 3] := by decide

end LibBench.Transport
