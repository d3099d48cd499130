/-
# RakNet: the server, its clients and the network

The two programs put together. Every address has a link to the server: the
client program running there, what is on its way to the server and what is on
its way back. A run is any interleaving of what the clients do, what the
network does to a link, and what the server does.

The network may deliver in any order and lose any message. What a mode of
delivery promises is a condition on the actions of a run, stated where it is
used; the steps themselves promise nothing. Only the library's own
announcements are never lost and never overtaken: they are not messages.

An uplink also holds what has been received and not handled yet, so a link
whose connection was lost still has its last packets and the announcement of
the loss in front of the server.
-/

import LibBench.RakNet.RemotePlayers
import LibBench.RakNet.Server

namespace LibBench.RakNet

open LibBench.Math

/-- `SERVER_IP` with `GAME_PORT`. -/
def serverAddress : SystemAddress := 0

/-- One address: whether it is connected, the client program there, the packets
on their way to the server and the messages on their way from it. -/
structure Link where
  connected : Bool := false
  client : Client := {}
  uplink : List Packet := []
  downlink : List Send := []
  deriving DecidableEq, Repr

/-- What a client or the network does on a link. -/
inductive LinkAction
  | connect (logCorrections : Bool)
  | disconnect
  | receive (index : ℕ)
  | move (draws : List ℕ)
  | endTurn
  | loseMove (index : ℕ)
  | loseMessage (index : ℕ)
  deriving DecidableEq, Repr

/-- A message of the game, as opposed to an announcement of the library. -/
def Packet.isCustom : Packet → Bool
  | .custom _ => true
  | .library _ => false

namespace Link

/-- Perform an action, if it is enabled. -/
def act (manager : NetworkIDManager) (link : Link) : LinkAction → Option Link
  -- a new client program; both sides are told that the connection stands
  | .connect logCorrections =>
      if link.connected then none
      else
        let client : Client := { correctionsTracker := if logCorrections then some {} else none }
        some
          { connected := true
            client := client.receive manager serverAddress (.library .connectionRequestAccepted)
            uplink := link.uplink ++ [.library .newIncomingConnection]
            downlink := [] }
  -- a timeout: what is on its way to the client never arrives
  | .disconnect =>
      if link.connected then
        some { link with
          connected := false
          uplink := link.uplink ++ [.library .connectionLost]
          downlink := [] }
      else none
  | .receive index =>
      if link.connected && link.client.callsReceive then
        (link.downlink[index]?).map fun send =>
          { link with
            client := link.client.receive manager serverAddress (.custom send.message)
            downlink := link.downlink.eraseIdx index }
      else none
  | .move draws =>
      if link.connected then
        (link.client.performAndSendMove draws).map fun (client, move) =>
          { link with client, uplink := link.uplink ++ [.custom (.playerMove move)] }
      else none
  | .endTurn =>
      if link.connected then link.client.endTurn.map fun client => { link with client }
      else none
  | .loseMove index =>
      match link.uplink[index]? with
      | some (.custom _) => some { link with uplink := link.uplink.eraseIdx index }
      | _ => none
  | .loseMessage index => some { link with downlink := link.downlink.eraseIdx index }

/-- Take a packet from the uplink. Moves may overtake each other, but no packet
overtakes an announcement and no announcement overtakes a packet. -/
def dequeue (link : Link) (index : ℕ) : Option (Packet × Link) :=
  if index = 0 ∨ (link.uplink.take (index + 1)).all Packet.isCustom then
    (link.uplink[index]?).map fun packet =>
      (packet, { link with uplink := link.uplink.eraseIdx index })
  else none

/-- The actions as a relation: what each of them needs and does. -/
inductive Acts (manager : NetworkIDManager) (link : Link) : LinkAction → Link → Prop
  | connect {logCorrections : Bool} {tracker : Option CorrectionsTracker}
      (hfree : link.connected = false) :
      Acts manager link (.connect logCorrections)
        { connected := true
          client := { serverAddress := some serverAddress, correctionsTracker := tracker }
          uplink := link.uplink ++ [.library .newIncomingConnection]
          downlink := [] }
  | disconnect (hconnected : link.connected = true) :
      Acts manager link .disconnect
        { link with
          connected := false
          uplink := link.uplink ++ [.library .connectionLost]
          downlink := [] }
  | receive {index : ℕ} {send : Send} (hconnected : link.connected = true)
      (hsend : link.downlink[index]? = some send) :
      Acts manager link (.receive index)
        { link with
          client := link.client.receive manager serverAddress (.custom send.message)
          downlink := link.downlink.eraseIdx index }
  | move {draws : List ℕ} {gamestate : ClientGamestate} {newPos : Position}
      (hconnected : link.connected = true) (hstage : link.client.stage = .gameLoop gamestate)
      (hnear : gamestate.localPlayer.pos.OneSpace newPos) :
      Acts manager link (.move draws)
        { link with
          client := { link.client with
            stage := .gameLoop { gamestate with
              localPlayer := ⟨gamestate.localPlayer.networkID, newPos⟩ }
            processing := true }
          uplink := link.uplink ++
            [.custom (.playerMove ⟨gamestate.localPlayer.networkID, newPos⟩)] }
  | endTurn {ended : Client} (hconnected : link.connected = true)
      (hstage : ended.stage = link.client.stage) :
      Acts manager link .endTurn { link with client := ended }
  | loseMove {index : ℕ} {message : Message}
      (hmove : link.uplink[index]? = some (.custom message)) :
      Acts manager link (.loseMove index) { link with uplink := link.uplink.eraseIdx index }
  | loseMessage {index : ℕ} :
      Acts manager link (.loseMessage index) { link with downlink := link.downlink.eraseIdx index }

theorem acts_of_act {manager : NetworkIDManager} {link next : Link} {action : LinkAction}
    (h : link.act manager action = some next) : Acts manager link action next := by
  cases action with
  | connect logCorrections =>
      rw [act, Option.ite_none_left_eq_some, Bool.not_eq_true] at h
      obtain ⟨hfree, hnext⟩ := h
      obtain rfl := Option.some.inj hnext
      exact .connect hfree
  | disconnect =>
      rw [act, Option.ite_none_right_eq_some] at h
      obtain ⟨hconnected, hnext⟩ := h
      obtain rfl := Option.some.inj hnext
      exact .disconnect hconnected
  | receive index =>
      rw [act, Option.ite_none_right_eq_some, Bool.and_eq_true, Option.map_eq_some_iff] at h
      obtain ⟨⟨hconnected, _⟩, send, hsend, rfl⟩ := h
      exact .receive hconnected hsend
  | move draws =>
      rw [act, Option.ite_none_right_eq_some, Option.map_eq_some_iff] at h
      obtain ⟨hconnected, ⟨client, message⟩, hmove, rfl⟩ := h
      obtain ⟨gamestate, hstage, hnear, hid, rfl⟩ := Client.performAndSendMove_eq_some hmove
      obtain ⟨_, newPos⟩ := message
      obtain rfl := hid
      exact .move hconnected hstage hnear
  | endTurn =>
      rw [act, Option.ite_none_right_eq_some, Option.map_eq_some_iff] at h
      obtain ⟨hconnected, ended, hended, rfl⟩ := h
      exact .endTurn hconnected (Client.endTurn_eq_some hended)
  | loseMove index =>
      rw [act] at h
      split at h
      · next message hmove =>
          obtain rfl := Option.some.inj h
          exact .loseMove hmove
      · cases h
  | loseMessage index =>
      obtain rfl := Option.some.inj h
      exact .loseMessage

/-- What is on its way to a client only gets less by actions on the link. -/
theorem Acts.downlink_subset {manager : NetworkIDManager} {link next : Link}
    {action : LinkAction} (h : link.Acts manager action next) :
    next.downlink ⊆ link.downlink := by
  cases h with
  | connect | disconnect => exact List.nil_subset _
  | receive | loseMessage => exact fun _ => List.mem_of_mem_eraseIdx
  | move | endTurn | loseMove => exact List.Subset.refl _

theorem dequeue_eq_some {link rest : Link} {index : ℕ} {packet : Packet}
    (h : link.dequeue index = some (packet, rest)) :
    link.uplink[index]? = some packet ∧
      rest = { link with uplink := link.uplink.eraseIdx index } ∧
      (packet.isCustom = false → index = 0) := by
  rw [dequeue, Option.ite_none_right_eq_some, Option.map_eq_some_iff] at h
  obtain ⟨horder, taken, hpacket, hresult⟩ := h
  obtain ⟨rfl, rfl⟩ := Prod.mk.inj hresult
  refine ⟨hpacket, rfl, fun hlibrary => ?_⟩
  rcases horder with hzero | hcustom
  · exact hzero
  · have hmem : taken ∈ link.uplink.take (index + 1) :=
      List.mem_of_getElem? ((List.getElem?_take_of_lt (Nat.lt_succ_self index)).trans hpacket)
    rw [List.all_eq_true.mp hcustom taken hmem] at hlibrary
    cases hlibrary

end Link

/-- The server, whether it sleeps at the end of a tick, and the links. -/
structure World where
  server : ServerGamestate
  asleep : Bool := false
  link : SystemAddress → Link := fun _ => {}

/-- One step of a run. -/
inductive Action
  | link (address : SystemAddress) (action : LinkAction)
  | serverReceive (address : SystemAddress) (index : ℕ) (admission : Admission)
  | serverTick
  deriving DecidableEq, Repr

/-- Put what the server sends on the links of the connected peers it reaches. -/
def deliver (links : SystemAddress → Link) (sent : List Send) (address : SystemAddress) : Link :=
  if (links address).connected then
    { links address with
      downlink := (links address).downlink ++ sent.filter fun send => send.reaches address }
  else links address

namespace World

/-- The server before any client. -/
def start (mapWidth mapHeight numPlayers : UInt16) : World where
  server := ServerGamestate.applyConfig mapWidth mapHeight numPlayers

/-- Perform a step, if it is enabled and the program does not fault. -/
def step (manager : NetworkIDManager) (world : World) : Action → Except Stop World
  | .link address action =>
      match (world.link address).act manager action with
      | none => .error .notEnabled
      | some link => .ok { world with link := Function.update world.link address link }
  | .serverReceive address index admission =>
      match (world.link address).dequeue index with
      | none => .error .notEnabled
      | some (packet, link) =>
          match world.server.handle (.receive address packet admission) with
          | .error stop => .error stop
          | .ok (server, sent) =>
              .ok { server, link := deliver (Function.update world.link address link) sent }
  | .serverTick =>
      match world.server.handle .endTick with
      | .error stop => .error stop
      | .ok (server, sent) => .ok { server, asleep := true, link := deliver world.link sent }

variable {manager : NetworkIDManager} {world next : World}

theorem step_link_eq_ok {address : SystemAddress} {action : LinkAction}
    (h : world.step manager (.link address action) = .ok next) :
    ∃ link, (world.link address).Acts manager action link ∧
      next = { world with link := Function.update world.link address link } := by
  rw [step] at h
  cases hact : (world.link address).act manager action with
  | none => simp [hact] at h
  | some link =>
      rw [hact] at h
      exact ⟨link, Link.acts_of_act hact, (Except.ok.inj h).symm⟩

theorem step_serverReceive_eq_ok {address : SystemAddress} {index : ℕ} {admission : Admission}
    (h : world.step manager (.serverReceive address index admission) = .ok next) :
    ∃ packet server sent,
      (world.link address).uplink[index]? = some packet ∧
      (packet.isCustom = false → index = 0) ∧
      world.server.handle (.receive address packet admission) = .ok (server, sent) ∧
      next =
        { server
          link := deliver (Function.update world.link address { world.link address with
            uplink := (world.link address).uplink.eraseIdx index }) sent } := by
  rw [step] at h
  cases hdequeue : (world.link address).dequeue index with
  | none => simp [hdequeue] at h
  | some taken =>
      obtain ⟨packet, link⟩ := taken
      obtain ⟨hpacket, rfl, horder⟩ := Link.dequeue_eq_some hdequeue
      simp only [hdequeue] at h
      cases hhandle : world.server.handle (.receive address packet admission) with
      | error stop => simp [hhandle] at h
      | ok result =>
          rw [hhandle] at h
          exact ⟨packet, result.1, result.2, hpacket, horder, hhandle, (Except.ok.inj h).symm⟩

theorem step_serverTick_eq_ok (h : world.step manager .serverTick = .ok next) :
    ∃ server sent, world.server.handle .endTick = .ok (server, sent) ∧
      next = { server, asleep := true, link := deliver world.link sent } := by
  rw [step] at h
  cases hhandle : world.server.handle .endTick with
  | error stop => simp [hhandle] at h
  | ok result =>
      rw [hhandle] at h
      exact ⟨result.1, result.2, rfl, (Except.ok.inj h).symm⟩

/-- A step of the world is at most one step of the server. -/
theorem step_server {action : Action} (h : world.step manager action = .ok next) :
    next.server = world.server ∨
      ∃ event sent, world.server.handle event = .ok (next.server, sent) := by
  cases action with
  | link address action =>
      obtain ⟨link, _, rfl⟩ := step_link_eq_ok h
      exact Or.inl rfl
  | serverReceive address index admission =>
      obtain ⟨packet, server, sent, _, _, hhandle, rfl⟩ := step_serverReceive_eq_ok h
      exact Or.inr ⟨_, sent, hhandle⟩
  | serverTick =>
      obtain ⟨server, sent, hhandle, rfl⟩ := step_serverTick_eq_ok h
      exact Or.inr ⟨_, sent, hhandle⟩

theorem wellFormed_step {action : Action} (hwf : world.server.WellFormed)
    (h : world.step manager action = .ok next) : next.server.WellFormed := by
  rcases step_server h with hsame | ⟨event, sent, hhandle⟩
  · rw [hsame]
    exact hwf
  · exact hwf.handle hhandle

/-- A run of the world projects to a run of the server. -/
theorem server_run {actions : List Action}
    (h : run (step manager) world actions = .ok next) :
    ∃ events, run ServerGamestate.step world.server events = .ok next.server := by
  induction actions using List.reverseRecOn generalizing next with
  | nil =>
      obtain rfl := Except.ok.inj h
      exact ⟨[], rfl⟩
  | append_singleton actions action ih =>
      obtain ⟨middle, hrun, hstep⟩ := run_concat_eq_ok.mp h
      obtain ⟨events, hevents⟩ := ih hrun
      rcases step_server hstep with hsame | ⟨event, sent, hhandle⟩
      · exact ⟨events, hsame ▸ hevents⟩
      · exact ⟨events ++ [event], run_concat_eq_ok.mpr
          ⟨_, hevents, ServerGamestate.step_eq_ok_iff.mpr ⟨sent, hhandle⟩⟩⟩

end World

section Uplink

variable (links : SystemAddress → Link) (other : SystemAddress) (uplink : List Packet)
  (address : SystemAddress)

theorem client_update_uplink :
    (Function.update links other { links other with uplink } address).client =
      (links address).client := by
  by_cases h : address = other
  · subst h
    simp
  · simp [h]

theorem downlink_update_uplink :
    (Function.update links other { links other with uplink } address).downlink =
      (links address).downlink := by
  by_cases h : address = other
  · subst h
    simp
  · simp [h]

end Uplink

section Deliver

variable (links : SystemAddress → Link) (sent : List Send) (address : SystemAddress)

@[simp]
theorem deliver_connected : (deliver links sent address).connected = (links address).connected := by
  unfold deliver
  split <;> rfl

@[simp]
theorem deliver_client : (deliver links sent address).client = (links address).client := by
  unfold deliver
  split <;> rfl

@[simp]
theorem deliver_uplink : (deliver links sent address).uplink = (links address).uplink := by
  unfold deliver
  split <;> rfl

theorem deliver_downlink (h : (links address).connected = true) :
    (deliver links sent address).downlink =
      (links address).downlink ++ sent.filter fun send => send.reaches address := by
  rw [deliver, if_pos h]

@[simp]
theorem deliver_nil : deliver links [] = links := by
  funext address
  unfold deliver
  split
  · simp
  · rfl

/-- Delivery only adds messages. -/
theorem subset_deliver_downlink :
    (links address).downlink ⊆ (deliver links sent address).downlink := by
  unfold deliver
  split
  · exact List.subset_append_left _ _
  · exact List.Subset.refl _

variable {links sent address} in
theorem mem_deliver_downlink {send : Send}
    (h : send ∈ (deliver links sent address).downlink) :
    send ∈ (links address).downlink ∨ (send ∈ sent ∧ send.reaches address = true) := by
  unfold deliver at h
  split at h
  · rcases List.mem_append.mp h with hold | hnew
    · exact Or.inl hold
    · exact Or.inr (List.mem_filter.mp hnew)
  · exact Or.inl h

end Deliver

end LibBench.RakNet
