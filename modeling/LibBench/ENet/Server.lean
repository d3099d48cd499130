/-
# ENet: the server

`enet/EnetServer/server.cpp`, in the build that is not for benchmarks. `main` is
two nested loops: the outer one never ends, the inner one takes events from the
host as long as there are any. A new client is announced to everybody, and a
position that one peer sends is sent on, under the number of that peer, to all
the other slots of the host.

After every event the inner loop looks at the clock. Once the time of the
simulation is over it is left before the event has been looked at; and as the
outer loop goes on, it is entered again and left again at each further event.
-/

import Mathlib.Data.List.FinRange
import LibBench.ENet.Wire

namespace LibBench.ENet

open LibBench.Math

/-- `server->peerCount`, as `enet_host_create` is called. -/
def peerCount : ℕ := 32

instance : NeZero peerCount := ⟨by decide⟩

/-- A slot of `server->peers`. -/
abbrev Peer := Fin peerCount

/-- A received packet, and what is behind it in memory. -/
structure Packet where
  data : List UInt8
  beyond : List UInt8 := []
  deriving DecidableEq, Repr

/-- An event that is taken from the host. -/
inductive ServerEvent
  | connect (peer : Peer)
  | receive (peer : Peer) (packet : Packet)
  | disconnect (peer : Peer)
  deriving DecidableEq, Repr

/-- A call of `enet_host_service`: the event it takes from the host, none where it
does not return a positive number; and the time that `now` is then, in
nanoseconds. -/
structure ServiceCall where
  event : Option ServerEvent
  now : ℤ
  deriving DecidableEq, Repr

/-- What the handling of an event leads to: lines that are printed, and calls of
`enet_host_broadcast` and `enet_peer_send` with the data of the packet. -/
inductive Output
  | newClientConnected (peer : Peer)
  | disconnected (peer : Peer)
  | hostBroadcast (channel : ℕ) (data : List UInt8)
  | peerSend (peer : Peer) (channel : ℕ) (data : List UInt8)
  deriving DecidableEq, Repr

/-- It goes to the host, not to the terminal. -/
def Output.isSent : Output → Bool
  | .newClientConnected _ | .disconnected _ => false
  | .hostBroadcast _ _ | .peerSend _ _ _ => true

/-- What `main` has set up before its loop. -/
structure Host where
  incomingPeerID : Peer → UInt16
  channel : ℕ
  startTime : ℤ

/-- The channel, from the command line without the name of the program: 0 with
`-r`, otherwise 1. -/
def channelOf (arguments : List (List Char)) : ℕ :=
  arguments.foldl (fun channel argument => if argument = ['-', 'r'] then 0 else channel) 1

/-- `simulationDuration`, 120 seconds. -/
def simulationDuration : ℤ := 120000000000

/-- The local variables of `main` that are used for one event after the other. -/
structure Locals where
  pos : PositionUpdateMessage
  val : PositionUpdateMessage
  sender : Option Peer := none
  deriving DecidableEq, Repr

/-- An event that was taken from the host, with what its handling led to: none
where the loop was left without looking at it. -/
structure Taken where
  event : ServerEvent
  outputs : Option (List Output)
  deriving DecidableEq, Repr

namespace Host

/-- The `switch` on the type of the event. -/
def handleEvent (host : Host) (locals : Locals) : ServerEvent → Locals × List Output
  | .connect peer =>
      let pos : PositionUpdateMessage := { x := 0, y := 0, ownerId := host.incomingPeerID peer }
      let newPlayer := NewPlayerJoinMessage.ofSpawnPoint pos
      (locals, [.newClientConnected peer, .hostBroadcast host.channel newPlayer.bytes])
  | .receive peer packet =>
      let val := deserializeStruct (packet.data ++ packet.beyond)
      match val.messageType with
      | .positionUpdate =>
          let sender := some peer
          let pos : PositionUpdateMessage :=
            { messageType := .positionUpdate
              ownerId := host.incomingPeerID peer
              x := val.x
              y := val.y }
          ({ pos, val, sender },
            ((List.finRange peerCount).filter fun other => some other ≠ sender).map fun other =>
              .peerSend other host.channel pos.bytes)
      | .receivedPosition | .gameConfig | .playerJoin | .unknown => ({ locals with val }, [])
  | .disconnect peer => (locals, [.disconnected peer])

/-- The inner loop. It returns the local variables, the events it has taken and the
calls of the host that are left. -/
def serviceLoop (host : Host) :
    Locals → List ServiceCall → Locals × List Taken × List ServiceCall
  | locals, [] => (locals, [], [])
  | locals, ⟨none, _⟩ :: calls => (locals, [], calls)
  | locals, ⟨some event, now⟩ :: calls =>
      if simulationDuration ≤ now - host.startTime then (locals, [⟨event, none⟩], calls)
      else
        let (next, outputs) := host.handleEvent locals event
        let (last, taken, rest) := serviceLoop host next calls
        (last, ⟨event, some outputs⟩ :: taken, rest)

/-- The outer loop, `while (true)`, for a number of rounds: the events taken. -/
def gameLoop (host : Host) : ℕ → Locals → List ServiceCall → List Taken
  | 0, _, _ => []
  | rounds + 1, locals, calls =>
      let (next, taken, rest) := host.serviceLoop locals calls
      taken ++ gameLoop host rounds next rest

/-- The message that is sent on for a position from a peer. -/
def relayed (host : Host) (peer : Peer) (val : PositionUpdateMessage) : PositionUpdateMessage where
  x := val.x
  y := val.y
  ownerId := host.incomingPeerID peer

/-- The message that announces a peer. -/
def joined (host : Host) (peer : Peer) : NewPlayerJoinMessage :=
  .ofSpawnPoint { x := 0, y := 0, ownerId := host.incomingPeerID peer }

/-- What the handling of an event leads to, whatever was handled before it. -/
def outputs (host : Host) : ServerEvent → List Output
  | .connect peer =>
      [.newClientConnected peer, .hostBroadcast host.channel (host.joined peer).bytes]
  | .receive peer packet =>
      let val := deserializeStruct (packet.data ++ packet.beyond)
      if val.messageType = .positionUpdate then
        ((List.finRange peerCount).filter fun other => other ≠ peer).map fun other =>
          .peerSend other host.channel (host.relayed peer val).bytes
      else []
  | .disconnect peer => [.disconnected peer]

/-- The variables that the events share carry nothing from one to the next. -/
theorem outputs_handleEvent (host : Host) (locals : Locals) (event : ServerEvent) :
    (host.handleEvent locals event).2 = host.outputs event := by
  cases event with
  | connect peer => rfl
  | disconnect peer => rfl
  | receive peer packet =>
      cases htype : (deserializeStruct (packet.data ++ packet.beyond)).messageType with
      | positionUpdate => simp [handleEvent, outputs, htype, relayed]
      | receivedPosition | gameConfig | playerJoin | unknown => simp [handleEvent, outputs, htype]

/-- What becomes of the event that a call takes. -/
def reaction (host : Host) (call : ServiceCall) : Option Taken :=
  call.event.map fun event =>
    ⟨event, if simulationDuration ≤ call.now - host.startTime then none
      else some (host.outputs event)⟩

variable {host : Host} {locals : Locals} {calls : List ServiceCall} {rounds : ℕ}

/-- The inner loop reacts to the calls it makes. -/
theorem serviceLoop_eq (host : Host) (locals : Locals) (calls : List ServiceCall) :
    (host.serviceLoop locals calls).2.1 ++
        (host.serviceLoop locals calls).2.2.filterMap host.reaction =
      calls.filterMap host.reaction := by
  induction calls generalizing locals with
  | nil => rfl
  | cons call calls ih =>
      obtain ⟨event, now⟩ := call
      cases event with
      | none => rfl
      | some event =>
          rw [serviceLoop]
          split
          · next hlate => simp [reaction, hlate]
          · next hearly =>
              simp only [List.cons_append, ih, outputs_handleEvent]
              simp [reaction, hearly]

/-- It makes at least one, if there are any. -/
theorem length_serviceLoop_lt (host : Host) (locals : Locals) (call : ServiceCall)
    (calls : List ServiceCall) :
    (host.serviceLoop locals (call :: calls)).2.2.length ≤ calls.length := by
  induction calls generalizing call locals with
  | nil =>
      obtain ⟨event, now⟩ := call
      cases event with
      | none => exact Nat.le_refl _
      | some event =>
          rw [serviceLoop]
          split <;> exact Nat.le_refl _
  | cons second calls ih =>
      obtain ⟨event, now⟩ := call
      cases event with
      | none => exact Nat.le_refl _
      | some event =>
          rw [serviceLoop]
          split
          · exact Nat.le_refl _
          · exact (ih _ second).trans (Nat.le_succ _)

/-- However many rounds the outer loop has made, the server has reacted to the
first so many events. -/
theorem gameLoop_isPrefix (host : Host) (rounds : ℕ) (locals : Locals)
    (calls : List ServiceCall) :
    host.gameLoop rounds locals calls <+: calls.filterMap host.reaction := by
  induction rounds generalizing locals calls with
  | zero => exact List.nil_prefix
  | succ rounds ih =>
      rw [gameLoop, ← host.serviceLoop_eq locals calls]
      exact (List.prefix_append_right_inj _).mpr (ih _ _)

/-- With as many rounds as there are calls it has reacted to all of them. -/
theorem gameLoop_eq (hrounds : calls.length ≤ rounds) :
    host.gameLoop rounds locals calls = calls.filterMap host.reaction := by
  induction rounds generalizing locals calls with
  | zero =>
      rw [List.eq_nil_of_length_eq_zero (Nat.le_zero.mp hrounds), gameLoop, List.filterMap_nil]
  | succ rounds ih =>
      rw [gameLoop, ← host.serviceLoop_eq locals calls]
      cases calls with
      | nil => simp [serviceLoop, ih]
      | cons call calls =>
          have hless := host.length_serviceLoop_lt locals call calls
          rw [List.length_cons, Nat.succ_le_succ_iff] at hrounds
          dsimp only
          rw [ih (hless.trans hrounds)]

/-- A new client is announced once. A position, in a packet that is long enough for
it, is sent once to each of the other slots and to nobody else, with the `x` and the
`y` of the packet and the number of the peer. -/
def Serves (host : Host) : ServerEvent → List Output → Prop
  | .connect peer, outputs =>
      outputs.filter Output.isSent = [.hostBroadcast host.channel (host.joined peer).bytes]
  | .receive peer packet, outputs =>
      sizeofPositionUpdateMessage ≤ packet.data.length →
        (deserializeStruct packet.data).messageType = .positionUpdate →
          outputs.Nodup ∧ ∀ output, output ∈ outputs ↔ ∃ other, other ≠ peer ∧
            output = .peerSend other host.channel
              (host.relayed peer (deserializeStruct packet.data)).bytes
  | .disconnect _, _ => True

/-- The events are taken in order, each one once, and all of them once the loop has gone
round as often as the host was called; none of them is discarded, and each is served. -/
structure RelaysAll (host : Host) (locals : Locals) (calls : List ServiceCall) : Prop where
  inOrder : ∀ rounds, (host.gameLoop rounds locals calls).map Taken.event <+:
    calls.filterMap ServiceCall.event
  complete : ∀ rounds, calls.length ≤ rounds →
    (host.gameLoop rounds locals calls).map Taken.event = calls.filterMap ServiceCall.event
  served : ∀ rounds, ∀ taken ∈ host.gameLoop rounds locals calls,
    ∃ outputs, taken.outputs = some outputs ∧ host.Serves taken.event outputs

theorem serves_outputs (host : Host) (event : ServerEvent) :
    host.Serves event (host.outputs event) := by
  cases event with
  | connect peer => rfl
  | disconnect peer => trivial
  | receive peer packet =>
      intro hlength htype
      simp only [outputs, deserializeStruct_append packet.beyond hlength, htype, if_true]
      constructor
      · apply List.Nodup.map
        · intro first second heq
          exact (Output.peerSend.inj heq).1
        · exact (List.nodup_finRange peerCount).filter _
      · intro output
        simp only [List.mem_map, List.mem_filter, List.mem_finRange, true_and, decide_eq_true_eq]
        exact exists_congr fun other => and_congr_right fun _ => eq_comm

theorem map_event_reaction (host : Host) (calls : List ServiceCall) :
    (calls.filterMap host.reaction).map Taken.event = calls.filterMap ServiceCall.event := by
  rw [List.map_filterMap]
  congr 1
  funext call
  rw [reaction, Option.map_map]
  exact Option.map_id'

/-- **Every update is relayed exactly once until the time is over.** For every sequence
of calls of the host, whatever the events, the packets and the times, and whatever the
local variables hold at the beginning: as the loop goes on the events are all taken and
served, in order, if and only if each of them is taken in the first 120 seconds. -/
theorem relays_all_iff (host : Host) (locals : Locals) (calls : List ServiceCall) :
    host.RelaysAll locals calls ↔
      ∀ call ∈ calls, call.event.isSome → call.now - host.startTime < simulationDuration := by
  constructor
  · intro h call hcall hevent
    obtain ⟨event, hevent⟩ := Option.isSome_iff_exists.mp hevent
    have htaken : (⟨event, if simulationDuration ≤ call.now - host.startTime then none
        else some (host.outputs event)⟩ : Taken) ∈
          host.gameLoop calls.length locals calls := by
      rw [gameLoop_eq (Nat.le_refl _)]
      exact List.mem_filterMap.mpr ⟨call, hcall, by rw [reaction, hevent, Option.map_some]⟩
    obtain ⟨outputs, houtputs, _⟩ := h.served _ _ htaken
    by_contra hlate
    rw [if_pos (not_lt.mp hlate)] at houtputs
    cases houtputs
  · intro hearly
    refine ⟨fun rounds => ?_, fun rounds hrounds => ?_, fun rounds taken htaken => ?_⟩
    · rw [← map_event_reaction host]
      exact (host.gameLoop_isPrefix rounds locals calls).map _
    · rw [gameLoop_eq hrounds, map_event_reaction]
    · have hmem := (host.gameLoop_isPrefix rounds locals calls).subset htaken
      obtain ⟨call, hcall, hreaction⟩ := List.mem_filterMap.mp hmem
      obtain ⟨event, hevent, rfl⟩ := Option.map_eq_some_iff.mp hreaction
      have hbefore := hearly call hcall (by rw [hevent]; rfl)
      exact ⟨host.outputs event, if_neg (not_le.mpr hbefore), host.serves_outputs event⟩

/-- A host that numbers its slots, from the time 0 on. -/
def numbered : Host where
  incomingPeerID peer := .ofNat peer.val
  channel := channelOf []
  startTime := 0

/-- A position that the peer in the first slot sends. -/
def update : ServerEvent :=
  .receive 0 { data := ({ x := 1, y := 2, ownerId := 0 } : PositionUpdateMessage).bytes }

/-- Two clients connect, and after two minutes one of them sends a position. -/
def twoMinutes : List ServiceCall :=
  [⟨some (.connect 0), 1⟩, ⟨some (.connect 1), 2⟩, ⟨none, 3⟩, ⟨some update, 120000000000⟩]

/-- The position is taken from the host and goes nowhere. -/
theorem late_update_is_discarded :
    ⟨update, none⟩ ∈ numbered.gameLoop 2 ⟨.valueInitialized, .valueInitialized, none⟩ twoMinutes ∧
      ¬ numbered.RelaysAll ⟨.valueInitialized, .valueInitialized, none⟩ twoMinutes := by
  have htaken : ⟨update, none⟩ ∈
      numbered.gameLoop 2 ⟨.valueInitialized, .valueInitialized, none⟩ twoMinutes := by
    decide +kernel
  refine ⟨htaken, fun h => ?_⟩
  obtain ⟨outputs, houtputs, _⟩ := h.served 2 _ htaken
  cases houtputs

end Host

end LibBench.ENet
