/-
# What datagrams deliver

With bytes on the wire the connection guarantees what it does with packets. A timely
run returns, so that no side reads or writes outside of its memory, and it ends where
a timely run of packets ends: what a side gets out of the fragments that come, in
whatever order and however often, are packets of the other side.
-/

import LibBench.Transport.DatagramRuns
import LibBench.Transport.GamePackets

namespace LibBench.Transport

open LibBench.Math SequenceNumber
open LibBench.Yojimbo (Message)

variable {M τ : Type} {config : ConnectionConfig M τ} {sizes : FragmentConfig}
  {factory : MessageFactory M}

/-- The message that is to be sent. -/
def DatagramAction.message? : DatagramAction M τ → Option M
  | .sendMessage _ message | .sendUnreliable _ message => some message
  | _ => none

/-- The connection carries the messages of the game that are in their ranges. -/
theorem carried_of_inRange {config : ConnectionConfig Message τ}
    (hreliable : config.reliable.measuredBits = fun _ => 30)
    (hunreliable : config.unreliable.measuredBits = fun _ => 30)
    {action : DatagramAction Message τ} (h : ∀ message ∈ action.message?, message.InRange) :
    action.Carried testMessageFactory config := by
  cases action with
  | sendMessage side message =>
      rw [DatagramAction.Carried, hreliable]
      exact carries_of_inRange (h message rfl)
  | sendUnreliable side message =>
      rw [DatagramAction.Carried, hunreliable]
      exact carries_of_inRange (h message rfl)
  | _ => trivial

/-- A channel of the game with rings of a few places. -/
def smallGameChannel : ChannelConfig Message ℤ where
  sentPacketBufferSize := 8
  messageSendQueueSize := 4
  messageReceiveQueueSize := 4
  maxMessagesPerPacket := 4
  packetBudget := -1
  messageTypeBits := 3
  measuredBits _ := 30
  neverSent := -1
  resendDue timeLastSent time := timeLastSent + 1 ≤ time

/-- A connection with two of them. -/
def smallGameConnection : ConnectionConfig Message ℤ where
  reliable := smallGameChannel
  unreliable := smallGameChannel
  endpoint :=
    { sentPacketsBufferSize := 4
      receivedPacketsBufferSize := 4
      ackBufferSize := 4 }
  maxPacketSize := 64

/-- A packet of more than sixteen bytes is cut. -/
def smallSizes : FragmentConfig where
  maxPacketSize := 64
  fragmentAbove := 16
  maxFragments := 4
  fragmentSize := 16
  fragmentReassemblyBufferSize := 4

theorem configured_small : Configured testMessageFactory smallGameConnection smallSizes where
  connection :=
    { reliable := by constructor <;> decide
      endpoint := by constructor <;> decide }
  wire := by constructor <;> decide
  fit :=
    { reliableTypes := ⟨by decide, by decide⟩
      unreliableTypes := ⟨by decide, by decide⟩
      reliable_pos := by decide
      reliable_le := by decide
      unreliable_le := by decide
      maxPacketSize_ge := by decide }
  maxPacketSize := rfl

/-- A packet in two fragments, of which the second one arrives first and twice. -/
def fragmentedRun : List (DatagramAction Message ℤ) :=
  [.advanceTime .client 0, .advanceTime .server 0,
    .sendMessage .client (.playerMove ⟨1, 2, 0⟩), .sendMessage .client (.playerMove ⟨1, 3, 0⟩),
    .sendMessage .client (.playerMove ⟨1, 4, 0⟩), .sendPacket .client,
    .receiveDatagram .server 0 1, .receiveDatagram .server 0 1, .receiveDatagram .server 0 0,
    .receiveMessage .server, .receiveMessage .server, .sendPacket .server,
    .receiveDatagram .client 0 0, .advanceTime .client 1]

theorem carried_fragmentedRun :
    ∀ action ∈ fragmentedRun, action.Carried testMessageFactory smallGameConnection := by
  have hrange : ∀ action ∈ fragmentedRun, ∀ message ∈ action.message?, message.InRange := by
    decide
  exact fun action hmem => carried_of_inRange rfl rfl (hrange action hmem)

theorem timely_fragmentedRun : StepsMeet (PendingNetwork.step testMessageFactory)
    (PendingNetwork.Timely testMessageFactory)
    (PendingNetwork.create 0 : PendingNetwork smallGameConnection smallSizes) fragmentedRun := by
  decide +kernel

/-- The two sides that count at its end. -/
def fragmentedEnd : PendingNetwork smallGameConnection smallSizes :=
  fragmentedRun.foldl (PendingNetwork.next testMessageFactory) (.create 0)

theorem run_fragmentedRun :
    run (DatagramNetwork.step testMessageFactory) (DatagramNetwork.create 0) fragmentedRun =
      .ok (fragmentedEnd.stored testMessageFactory) :=
  ((PendingNetwork.sound_create 0).run_stored configured_small carried_fragmentedRun
    timely_fragmentedRun).2

/-! ## What holds at the end of a run -/

section Runs

variable {actions : List (DatagramAction M τ)} {time : τ} {datagrams : DatagramNetwork config sizes}

/-- What a side has been handed is a first part of what the other has sent. -/
theorem datagrams_received_isPrefix_sent (hsizes : Configured factory config sizes)
    (hcarried : ∀ action ∈ actions, action.Carried factory config)
    (htimely : StepsMeet (PendingNetwork.step factory) (PendingNetwork.Timely factory)
      (PendingNetwork.create time : PendingNetwork config sizes) actions)
    (hrun : run (DatagramNetwork.step factory) (DatagramNetwork.create time) actions =
      .ok datagrams) (side : Side) :
    (datagrams side).node.received <+: (datagrams side.other).node.sent := by
  obtain ⟨pending, _, hsound, _, rfl⟩ := exists_sound_of_run hsizes hcarried htimely hrun
  have hdirection := hsound.consistent side.other
  rw [Side.other_other] at hdirection
  exact hdirection.isPrefix

theorem datagrams_received_isPrefix_sent_fragmented :
    ∃ datagrams : DatagramNetwork smallGameConnection smallSizes,
      run (DatagramNetwork.step testMessageFactory) (DatagramNetwork.create 0) fragmentedRun =
        .ok datagrams ∧
      (datagrams .server).node.received = [.playerMove ⟨1, 2, 0⟩, .playerMove ⟨1, 3, 0⟩] ∧
      (datagrams .server).node.received <+: (datagrams .client).node.sent := by
  have hreceived : (fragmentedEnd.network .server).received =
      [.playerMove ⟨1, 2, 0⟩, .playerMove ⟨1, 3, 0⟩] := by decide +kernel
  refine ⟨_, run_fragmentedRun, ?_, datagrams_received_isPrefix_sent configured_small
    carried_fragmentedRun timely_fragmentedRun run_fragmentedRun .server⟩
  rw [PendingNetwork.received_stored, hreceived]

/-- A message that a side has accepted has been handed out on the other side, or
waits there, or is still kept for sending. -/
theorem datagrams_sent_received_or_waits (hsizes : Configured factory config sizes)
    (hcarried : ∀ action ∈ actions, action.Carried factory config)
    (htimely : StepsMeet (PendingNetwork.step factory) (PendingNetwork.Timely factory)
      (PendingNetwork.create time : PendingNetwork config sizes) actions)
    (hrun : run (DatagramNetwork.step factory) (DatagramNetwork.create time) actions =
      .ok datagrams) (side : Side) {position : ℕ} {message : M}
    (hsent : (datagrams side).node.sent[position]? = some message) :
    (datagrams side.other).node.received[position]? = some message ∨
      (datagrams side.other).node.connection.reliable.messageReceiveQueue.find
        (ofInt position) = some message ∨
      ∃ entry, (datagrams side).node.connection.reliable.messageSendQueue.find
        (ofInt position) = some entry ∧ entry.message = message := by
  obtain ⟨pending, _, hsound, _, rfl⟩ := exists_sound_of_run hsizes hcarried htimely hrun
  exact hsound.consistent.received_or_kept hsizes.connection side hsent

/-- The third message waits on the other side. -/
theorem datagrams_sent_received_or_waits_fragmented :
    ∃ datagrams : DatagramNetwork smallGameConnection smallSizes,
      run (DatagramNetwork.step testMessageFactory) (DatagramNetwork.create 0) fragmentedRun =
        .ok datagrams ∧
      ((datagrams .server).node.received[2]? = some (.playerMove ⟨1, 4, 0⟩) ∨
        (datagrams .server).node.connection.reliable.messageReceiveQueue.find (ofInt (2 : ℕ)) =
          some (.playerMove ⟨1, 4, 0⟩) ∨
        ∃ entry, (datagrams .client).node.connection.reliable.messageSendQueue.find
          (ofInt (2 : ℕ)) = some entry ∧ entry.message = .playerMove ⟨1, 4, 0⟩) := by
  obtain ⟨datagrams, hrun, hsent⟩ : ∃ datagrams : DatagramNetwork smallGameConnection smallSizes,
      run (DatagramNetwork.step testMessageFactory) (DatagramNetwork.create 0) fragmentedRun =
        .ok datagrams ∧
      (datagrams .client).node.sent[2]? = some (.playerMove ⟨1, 4, 0⟩) := by
    refine ⟨_, run_fragmentedRun, ?_⟩
    rw [PendingNetwork.sent_stored]
    decide +kernel
  exact ⟨datagrams, hrun, datagrams_sent_received_or_waits configured_small
    carried_fragmentedRun timely_fragmentedRun hrun .client hsent⟩

end Runs

theorem configured_game (neverSent : τ) (resendDue : τ → τ → Bool) :
    Configured testMessageFactory (gameConnectionConfig 3 (fun _ => 30) neverSent resendDue)
      gameFragmentConfig where
  connection := gameConnectionConfig_valid _ _ _ _
  wire := gameFragmentConfig_valid
  fit := gameConnectionConfig_packetsFit neverSent resendDue
  maxPacketSize := rfl

/-- As the game configures its connection, a timely run with messages in their ranges
returns. Both sides are handed what the other has sent, in order and without gaps, find
no packet and no message unreadable, and send no datagram that would not fit into a
frame. -/
theorem game_datagrams_deliver {neverSent : τ} {resendDue : τ → τ → Bool} {time : τ}
    {actions : List (DatagramAction Message τ)}
    (hrange : ∀ action ∈ actions, ∀ message ∈ action.message?, message.InRange)
    (htimely : StepsMeet (PendingNetwork.step testMessageFactory)
      (PendingNetwork.Timely testMessageFactory)
      (PendingNetwork.create time : PendingNetwork
        (gameConnectionConfig 3 (fun _ => 30) neverSent resendDue) gameFragmentConfig) actions) :
    ∃ datagrams : DatagramNetwork (gameConnectionConfig 3 (fun _ => 30) neverSent resendDue)
        gameFragmentConfig,
      run (DatagramNetwork.step testMessageFactory) (DatagramNetwork.create time) actions =
        .ok datagrams ∧
      ∀ side, (datagrams side).node.received <+: (datagrams side.other).node.sent ∧
        (datagrams side).node.connection.Readable ∧
        ∀ packet ∈ (datagrams side).datagrams, ∀ data ∈ packet, data.length ≤ 1038 := by
  have hsizes := configured_game neverSent resendDue
  have hcarried : ∀ action ∈ actions, action.Carried testMessageFactory
      (gameConnectionConfig 3 (fun _ => 30) neverSent resendDue) :=
    fun action hmem => carried_of_inRange rfl rfl (hrange action hmem)
  obtain ⟨hsound, hrun⟩ :=
    (PendingNetwork.sound_create time).run_stored hsizes hcarried htimely
  refine ⟨_, hrun, fun side => ⟨?_, ?_, ?_⟩⟩
  · have hdirection := hsound.consistent side.other
    rw [Side.other_other] at hdirection
    exact hdirection.isPrefix
  · exact datagrams_are_readable hsizes hcarried htimely hrun side
  · exact length_datagram_le hrun side

theorem game_datagrams_deliver_fragmented :
    ∃ datagrams : DatagramNetwork
        (gameConnectionConfig 3 (fun _ => 30) (-1 : ℤ) fun last now => decide (last + 1 ≤ now))
        gameFragmentConfig,
      run (DatagramNetwork.step testMessageFactory) (DatagramNetwork.create 0) fragmentedRun =
        .ok datagrams ∧
      ∀ side, (datagrams side).node.received <+: (datagrams side.other).node.sent ∧
        (datagrams side).node.connection.Readable ∧
        ∀ packet ∈ (datagrams side).datagrams, ∀ data ∈ packet, data.length ≤ 1038 :=
  game_datagrams_deliver (by decide) (by decide +kernel)

end LibBench.Transport
