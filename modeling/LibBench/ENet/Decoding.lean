/-
# ENet: what the client makes of the server's messages

The receive branch of `Game::tick`. The client copies every packet into a
`PositionUpdateMessage` and looks at the tag: of a join it prints the id, of a
position it uses the id and the coordinates.

The tag is at the same place in both messages of the server, and a position is
copied as it is. In a join the id that is read is the `x` of the spawn point; it is
the id of the player that joins when the two happen to be the same number.
-/

import LibBench.ENet.Game
import LibBench.ENet.Server

namespace LibBench.ENet

/-- What the server broadcasts: a position of a peer, or that a player joins at a
spawn point. The id is the number of the peer. -/
inductive Broadcast
  | relayed (x y ownerId : UInt16)
  | joined (x y ownerId : UInt16)
  deriving DecidableEq, Repr

/-- What the client uses of a message: the id that it prints for a join, or the id
and the coordinates that it stores. -/
inductive Use
  | playerJoin (ownerId : UInt16)
  | positionUpdate (ownerId x y : UInt16)
  deriving DecidableEq, Repr

namespace Broadcast

/-- The data of the packet. -/
def bytes : Broadcast → List UInt8
  | relayed x y ownerId => PositionUpdateMessage.bytes { x, y, ownerId }
  | joined x y ownerId =>
      (NewPlayerJoinMessage.ofSpawnPoint { x, y, ownerId }).bytes

/-- The kind of the message. -/
def messageType : Broadcast → Event
  | relayed _ _ _ => .positionUpdate
  | joined _ _ _ => .playerJoin

/-- The id that the server has put into it. -/
def ownerId : Broadcast → UInt16
  | relayed _ _ ownerId | joined _ _ ownerId => ownerId

/-- The cell that the server has put into it. -/
def position : Broadcast → Position
  | relayed x y _ | joined x y _ => ⟨x, y⟩

/-- What the server means the client to use. -/
def meant : Broadcast → Use
  | relayed x y ownerId => .positionUpdate ownerId x y
  | joined _ _ ownerId => .playerJoin ownerId

end Broadcast

/-- The `switch` on the tag. -/
def used (data : PositionUpdateMessage) : Option Use :=
  match data.messageType with
  | .playerJoin => some (.playerJoin data.ownerId)
  | .positionUpdate => some (.positionUpdate data.ownerId data.x data.y)
  | .receivedPosition | .gameConfig | .unknown => none

/-- The game depends on a message by what is used of it. -/
theorem Game.handleEvent_receive (game : Game) (data : PositionUpdateMessage) :
    game.handleEvent (.receive data) =
      match used data with
      | some (.positionUpdate ownerId x y) => game.receivePositionUpdate { x, y, ownerId }
      | some (.playerJoin _) | none => game := by
  obtain ⟨messageType, x, y, ownerId⟩ := data
  cases messageType <;> rfl

/-- All that the server sends to its clients is broadcasts. -/
theorem Host.exists_broadcast_of_mem_outputs {host : Host} {event : ServerEvent} {output : Output}
    (h : output ∈ host.outputs event) (hsent : output.isSent = true) :
    ∃ broadcast : Broadcast, output = .hostBroadcast host.channel broadcast.bytes ∨
      ∃ peer, output = .peerSend peer host.channel broadcast.bytes := by
  cases event with
  | connect peer =>
      rcases List.mem_pair.mp h with rfl | rfl
      · cases hsent
      · exact ⟨.joined 0 0 (host.incomingPeerID peer), Or.inl rfl⟩
  | disconnect peer =>
      obtain rfl := List.mem_singleton.mp h
      cases hsent
  | receive peer packet =>
      simp only [outputs] at h
      split at h
      · obtain ⟨other, _, rfl⟩ := List.mem_map.mp h
        exact ⟨.relayed _ _ (host.incomingPeerID peer), Or.inr ⟨other, rfl⟩⟩
      · cases h

namespace Broadcast

/-- The copy has the kind, the id and the cell that the server has put into the
message. -/
structure DecodedAs (broadcast : Broadcast) (data : PositionUpdateMessage) : Prop where
  messageType : data.messageType = broadcast.messageType
  ownerId : data.ownerId = broadcast.ownerId
  position : data.position = broadcast.position

/-- The spawn point of a join has the id of the player for its `x`. -/
def SpawnsInOwnColumn : Broadcast → Prop
  | relayed _ _ _ => True
  | joined x _ ownerId => x = ownerId

/-- A join is that of player 5 on the cell (5, 0). -/
def SpawnsOnOwnTag : Broadcast → Prop
  | relayed _ _ _ => True
  | joined x y ownerId => x = 5 ∧ y = 0 ∧ ownerId = 5

/-- **The client decodes what the server encodes, except for joins.** The kind is
recovered from every message, with anything behind it in memory. What the client uses is
what the server means if and only if the message is a position or the spawn point has
the player's id for its `x`; and the copy has the coordinates of the spawn point as
well only if it is that of player 5 on the cell (5, 0), where the tag stands for both. -/
theorem decoded_iff (broadcast : Broadcast) (beyond : List UInt8) :
    (deserializeStruct (broadcast.bytes ++ beyond)).messageType = broadcast.messageType ∧
      (used (deserializeStruct (broadcast.bytes ++ beyond)) = some broadcast.meant ↔
        broadcast.SpawnsInOwnColumn) ∧
      (broadcast.DecodedAs (deserializeStruct (broadcast.bytes ++ beyond)) ↔
        broadcast.SpawnsOnOwnTag) := by
  cases broadcast with
  | relayed x y ownerId =>
      rw [bytes, deserializeStruct_bytes]
      exact ⟨rfl, iff_of_true rfl trivial, iff_of_true ⟨rfl, rfl, rfl⟩ trivial⟩
  | joined x y ownerId =>
      rw [bytes, deserializeStruct_join_bytes]
      refine ⟨rfl, ?_, ?_⟩
      · simp [used, NewPlayerJoinMessage.ofSpawnPoint, meant, SpawnsInOwnColumn]
      · constructor
        · rintro ⟨_, howner, hposition⟩
          simp only [PositionUpdateMessage.position, position, Position.mk.injEq] at hposition
          obtain ⟨hx, hy⟩ := hposition
          exact ⟨hx.symm, hy.symm, howner.symm.trans hx.symm⟩
        · rintro ⟨rfl, rfl, rfl⟩
          exact ⟨rfl, rfl, rfl⟩

/-- The client says that player 0 has joined when it is player 3. -/
theorem join_of_third_peer_is_misread :
    used (deserializeStruct (joined 0 0 3).bytes) = some (.playerJoin 0) ∧
      ¬ (joined 0 0 3).DecodedAs (deserializeStruct (joined 0 0 3).bytes) := by
  have hread : deserializeStruct (joined 0 0 3).bytes =
      { messageType := .playerJoin, x := 5, y := 0, ownerId := 0 } := by decide
  rw [hread]
  exact ⟨rfl, fun h => absurd h.ownerId (by decide)⟩

end Broadcast

end LibBench.ENet
