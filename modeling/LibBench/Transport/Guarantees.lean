/-
# What the connection guarantees

The program over any timely run: its reliable channels hand out what the other
side has accepted, in order and without gaps, lose nothing on the way, and report
as acknowledged only what the other side has processed.
-/

import LibBench.Transport.Draining
import LibBench.Transport.Refinement

namespace LibBench.Transport

open LibBench.Math SequenceNumber

variable {M τ : Type}

/-- `ChannelConfig`, as it is created. -/
def defaultChannelConfig (messageTypeBits : ℕ) (measuredBits : M → ℕ) (neverSent : τ)
    (resendDue : τ → τ → Bool) : ChannelConfig M τ where
  sentPacketBufferSize := 1024
  messageSendQueueSize := 1024
  messageReceiveQueueSize := 1024
  maxMessagesPerPacket := 256
  packetBudget := -1
  messageTypeBits
  measuredBits
  neverSent
  resendDue

/-- `GameConnectionConfig`. -/
def gameConnectionConfig (messageTypeBits : ℕ) (measuredBits : M → ℕ) (neverSent : τ)
    (resendDue : τ → τ → Bool) : ConnectionConfig M τ where
  reliable := defaultChannelConfig messageTypeBits measuredBits neverSent resendDue
  unreliable := defaultChannelConfig messageTypeBits measuredBits neverSent resendDue
  endpoint :=
    { sentPacketsBufferSize := 256
      receivedPacketsBufferSize := 256
      ackBufferSize := 256 }
  maxPacketSize := 8 * 1024

theorem gameConnectionConfig_valid (messageTypeBits : ℕ) (measuredBits : M → ℕ) (neverSent : τ)
    (resendDue : τ → τ → Bool) :
    (gameConnectionConfig messageTypeBits measuredBits neverSent resendDue).Valid where
  reliable := by constructor <;> simp +decide [gameConnectionConfig, defaultChannelConfig]
  endpoint := by constructor <;> simp +decide [gameConnectionConfig]

/-- A channel with rings of a few places. -/
def smallChannelConfig : ChannelConfig ℕ ℤ where
  sentPacketBufferSize := 8
  messageSendQueueSize := 4
  messageReceiveQueueSize := 4
  maxMessagesPerPacket := 4
  packetBudget := -1
  messageTypeBits := 3
  measuredBits _ := 16
  neverSent := -1
  resendDue timeLastSent time := timeLastSent + 1 ≤ time

/-- A connection with two of them. -/
def smallConnectionConfig : ConnectionConfig ℕ ℤ where
  reliable := smallChannelConfig
  unreliable := smallChannelConfig
  endpoint :=
    { sentPacketsBufferSize := 4
      receivedPacketsBufferSize := 4
      ackBufferSize := 4 }
  maxPacketSize := 64

theorem smallConnectionConfig_valid : smallConnectionConfig.Valid where
  reliable := by constructor <;> decide
  endpoint := by constructor <;> decide

/-- A run in which the first packet is lost and the second one arrives twice. -/
def lossyRun : List (Action ℕ ℤ) :=
  [.advanceTime .client 0, .advanceTime .server 0,
    .sendMessage .client 7, .sendPacket .client, .advanceTime .client 1,
    .sendMessage .client 8, .sendPacket .client,
    .receivePacket .server 1, .receivePacket .server 1, .receiveMessage .server,
    .receiveMessage .server, .receiveMessage .server, .sendPacket .server,
    .sendMessage .client 9, .receivePacket .client 0, .advanceTime .client 2]

/-- Where it ends. -/
def lossyEnd : Network UInt16 smallConnectionConfig :=
  lossyRun.foldl Network.next (Network.create 0)

theorem run_lossyRun : run Network.step (Network.create 0) lossyRun = .ok lossyEnd :=
  run_eq_foldl Network.next _ _

variable {config : ConnectionConfig M τ} {actions : List (Action M τ)}

/-- The program does what the protocol with counts does. -/
theorem run_eq_map_wrapped (hvalid : config.Valid) (time : τ)
    (htimely : StepsMeet Network.step Network.Timely (Network.create time : Network ℤ config)
      actions) :
    run Network.step (Network.create time : Network UInt16 config) actions =
      (run Network.step (Network.create time : Network ℤ config) actions).map Network.wrapped := by
  obtain ⟨after, hrun, _, hwrapped⟩ :=
    Network.run_wrapped (Network.consistent_create time) hvalid htimely
  rw [Network.wrapped_create] at hwrapped
  rw [hrun, hwrapped]
  rfl

theorem run_eq_map_wrapped_lossy :
    run Network.step (Network.create 0 : Network UInt16 smallConnectionConfig) lossyRun =
      (run Network.step (Network.create 0 : Network ℤ smallConnectionConfig) lossyRun).map
        Network.wrapped :=
  run_eq_map_wrapped smallConnectionConfig_valid 0 (by decide)

/-- A timely run of the program ends in the image of a consistent network. -/
theorem exists_consistent_of_run (hvalid : config.Valid) {time : τ}
    (htimely : StepsMeet Network.step Network.Timely (Network.create time : Network ℤ config)
      actions)
    {network : Network UInt16 config}
    (hrun : run Network.step (Network.create time : Network UInt16 config) actions = .ok network) :
    ∃ counts : Network ℤ config, counts.Consistent ∧ network = counts.wrapped ∧
      run Network.step (Network.create time : Network ℤ config) actions = .ok counts := by
  obtain ⟨counts, hcounts, hconsistent, hwrapped⟩ :=
    Network.run_wrapped (Network.consistent_create time) hvalid htimely
  rw [Network.wrapped_create] at hwrapped
  exact ⟨counts, hconsistent, Except.ok.inj (hrun.symm.trans hwrapped), hcounts⟩

/-- What a side has been handed is a first part of what the other has sent. -/
theorem received_isPrefix_sent (hvalid : config.Valid) (time : τ)
    (htimely : StepsMeet Network.step Network.Timely (Network.create time : Network ℤ config)
      actions)
    {network : Network UInt16 config}
    (hrun : run Network.step (Network.create time : Network UInt16 config) actions = .ok network)
    (side : Side) : (network side).received <+: (network side.other).sent := by
  obtain ⟨counts, hconsistent, rfl, _⟩ := exists_consistent_of_run hvalid htimely hrun
  have hdirection := hconsistent side.other
  rw [Side.other_other] at hdirection
  exact hdirection.isPrefix

theorem received_isPrefix_sent_lossy : (lossyEnd .server).received <+: (lossyEnd .client).sent :=
  received_isPrefix_sent smallConnectionConfig_valid 0 (by decide) run_lossyRun .server

example : (lossyEnd .server).received = [7, 8] ∧ (lossyEnd .client).sent = [7, 8, 9] := by decide

/-- A message that has been accepted is on one side or the other, also where the
numbers come round. -/
theorem Network.Consistent.received_or_kept {network : Network ℤ config} (h : network.Consistent)
    (hvalid : config.Valid) (side : Side) {position : ℕ} {message : M}
    (hsent : (network side).sent[position]? = some message) :
    (network side.other).received[position]? = some message ∨
      (network side.other).connection.reliable.wrapped.messageReceiveQueue.find
        (ofInt position) = some message ∨
      ∃ entry, (network side).connection.reliable.wrapped.messageSendQueue.find
        (ofInt position) = some entry ∧ entry.message = message := by
  have hdirection : Direction (network side) (network side.other) := h side
  have hlt := (List.getElem?_eq_some_iff.mp hsent).1
  have hnumber : (position : ℤ).toNat = position := Int.toNat_natCast position
  cases hfind : (network side).connection.reliable.messageSendQueue.find position with
  | some entry =>
      right; right
      obtain ⟨_, hmessage⟩ := hdirection.sending.entry hfind
      rw [hnumber, hsent] at hmessage
      exact ⟨entry, hdirection.sending.windowed.find_wrapped_eq_some
        hvalid.reliable.messageSendQueueSize_dvd hfind, (Option.some_inj.mp hmessage).symm⟩
  | none =>
      obtain hbefore | hwaits := hdirection.kept position (by omega) (by omega) hfind
      · left
        rw [hdirection.receiving.receiveMessageId] at hbefore
        obtain ⟨rest, hrest⟩ := hdirection.receiving.isPrefix
        rwa [← hrest, List.getElem?_append_left (by omega)] at hsent
      · right; left
        obtain ⟨found, hfound⟩ := Option.ne_none_iff_exists'.mp hwaits
        have hmessage := (hdirection.receiving.entry hfound).2
        rw [hnumber, hsent] at hmessage
        obtain rfl := Option.some_inj.mp hmessage
        exact hdirection.receiving.windowed.find_wrapped_eq_some
          hvalid.reliable.messageReceiveQueueSize_dvd hfound

/-- A message that a side has accepted has been handed out on the other side, or
waits there, or is still kept for sending. -/
theorem sent_received_or_waits (hvalid : config.Valid) (time : τ)
    (htimely : StepsMeet Network.step Network.Timely (Network.create time : Network ℤ config)
      actions)
    {network : Network UInt16 config}
    (hrun : run Network.step (Network.create time : Network UInt16 config) actions = .ok network)
    (side : Side) {position : ℕ} {message : M}
    (hsent : (network side).sent[position]? = some message) :
    (network side.other).received[position]? = some message ∨
      (network side.other).connection.reliable.messageReceiveQueue.find (ofInt position) =
        some message ∨
      ∃ entry,
        (network side).connection.reliable.messageSendQueue.find (ofInt position) = some entry ∧
          entry.message = message := by
  obtain ⟨counts, hconsistent, rfl, _⟩ := exists_consistent_of_run hvalid htimely hrun
  exact hconsistent.received_or_kept hvalid side hsent

theorem sent_received_or_waits_lossy :
    (lossyEnd .server).received[2]? = some 9 ∨
      (lossyEnd .server).connection.reliable.messageReceiveQueue.find (ofInt (2 : ℕ)) = some 9 ∨
      ∃ entry, (lossyEnd .client).connection.reliable.messageSendQueue.find (ofInt (2 : ℕ)) =
        some entry ∧ entry.message = 9 :=
  sent_received_or_waits smallConnectionConfig_valid 0 (by decide) run_lossyRun .client (by decide)

theorem drains_of_wrapped {network : Network ℤ config} (h : network.Consistent)
    (hvalid : config.Valid) {action : Action M τ} (hdrains : network.wrapped.Drains action) :
    network.Drains action := by
  cases action with
  | sendPacket side =>
      have hdirection := h side.other
      rw [Side.other_other] at hdirection
      have hreceive := ReliableOrderedChannel.receiveMessage_wrapped hdirection.receiving
        hvalid.reliable
      change (network side).connection.reliable.wrapped.receiveMessage.isNone = true at hdrains
      rw [hreceive, Option.isNone_map] at hdrains
      exact hdrains
  | _ => trivial

/-- The channels do not lose step when both sides take all the messages they can
before they send a packet. -/
theorem errorLevel_ne_desync (hvalid : config.Valid) (time : τ)
    (htimely : StepsMeet Network.step Network.Timely (Network.create time : Network ℤ config)
      actions)
    (hdrains : StepsMeet Network.step Network.Drains
      (Network.create time : Network UInt16 config) actions)
    {network : Network UInt16 config}
    (hrun : run Network.step (Network.create time : Network UInt16 config) actions = .ok network)
    (side : Side) : (network side).connection.reliable.errorLevel ≠ .desync := by
  obtain ⟨counts, _, rfl, hcounts⟩ := exists_consistent_of_run hvalid htimely hrun
  have hguard : StepsMeet Network.step (fun network action => network.wrapped.Drains action)
      (Network.create time : Network ℤ config) actions :=
    Network.stepsMeet_of_wrapped (Network.consistent_create time) hvalid htimely hdrains
  have hkept : ∀ (network : Network ℤ config) action next,
      network.Consistent ∧ network.Synced → network.wrapped.Drains action →
        Network.step network action = .ok next → next.Consistent ∧ next.Synced := by
    rintro network action next ⟨hconsistent, hsynced⟩ hdrains hstep
    obtain rfl := Except.ok.inj hstep
    exact ⟨hconsistent.next hvalid action,
      hsynced.next hconsistent hvalid (drains_of_wrapped hconsistent hvalid hdrains)⟩
  obtain ⟨_, hsynced⟩ := run_invariant hkept
    ⟨Network.consistent_create time, Network.synced_create time⟩ hguard hcounts
  have hdraining := hsynced side.other
  rw [Side.other_other] at hdraining
  exact hdraining.synced

theorem errorLevel_ne_desync_lossy :
    (lossyEnd .server).connection.reliable.errorLevel ≠ .desync :=
  errorLevel_ne_desync smallConnectionConfig_valid 0 (by decide) (by decide) run_lossyRun .server

/-- A packet is reported as acknowledged once, and only when the other side has
processed it. -/
theorem acked_eq_map (hvalid : config.Valid) (time : τ)
    (htimely : StepsMeet Network.step Network.Timely (Network.create time : Network ℤ config)
      actions)
    {network : Network UInt16 config}
    (hrun : run Network.step (Network.create time : Network UInt16 config) actions = .ok network)
    (side : Side) :
    ∃ positions : List ℕ, positions.Nodup ∧ positions ⊆ (network side.other).processed ∧
      (network side).acked = positions.map fun position : ℕ => ofInt position := by
  obtain ⟨counts, hconsistent, rfl, _⟩ := exists_consistent_of_run hvalid htimely hrun
  have h : Direction (counts side) (counts side.other) := hconsistent side
  have hreported : ∀ sequence ∈ (counts side).acked, Confirmed _ _ sequence :=
    fun sequence hmem => h.reported sequence (List.mem_append_left _ hmem)
  have hnodup := (List.nodup_append.mp h.counting.nodup).1
  refine ⟨(counts side).acked.map Int.toNat, ?_, fun position hmem => ?_, ?_⟩
  · refine (List.nodup_map_iff_inj_on hnodup).mpr fun first hfirst second hsecond heq => ?_
    have hge := (hreported first hfirst).1
    have hother := (hreported second hsecond).1
    omega
  · obtain ⟨sequence, hsequence, rfl⟩ := List.mem_map.mp hmem
    exact (hreported sequence hsequence).2.1
  · rw [List.map_map]
    refine List.map_congr_left fun sequence hmem => ?_
    simp [Int.toNat_of_nonneg (hreported sequence hmem).1]

theorem acked_eq_map_lossy :
    ∃ positions : List ℕ, positions.Nodup ∧ positions ⊆ (lossyEnd .server).processed ∧
      (lossyEnd .client).acked = positions.map fun position : ℕ => ofInt position :=
  acked_eq_map smallConnectionConfig_valid 0 (by decide) run_lossyRun .client

example : (lossyEnd .client).acked = [1] ∧ (lossyEnd .server).processed = [1, 1] := by decide

end LibBench.Transport
