/-
# RakNet: what the server reads of a packet

`raknet/common/raknet_helpers.h` and `Server::handleCustomPacket`. A packet is a
string of bytes. Its identifier is the first byte, or, after a timestamp, the
byte that follows the timestamp. The handler then takes the packet's data for a
message, from its first byte on and whatever its length.

The two do not agree. The identifier is looked for behind the timestamp, but the
message is not; and neither place looks at the length. A packet is handled as it
should be when it is long enough for what its identifier announces and, if it has
a timestamp, when it does not matter where the message begins.

The identifiers are the library's. What is known of them is that the timestamp's
is a native one and that the game's follow the native ones.
-/

import LibBench.Math.Bytes
import LibBench.RakNet.Server

namespace LibBench.RakNet

open LibBench.Math

/-- What `MessageIdentifiers.h` defines, as far as the server depends on it. -/
structure MessageIdentifiers where
  timestamp : UInt8
  userPacketEnum : UInt8
  libraryPacket : UInt8 → LibraryPacket
  timestamp_native : timestamp < userPacketEnum
  messages_fit : userPacketEnum.toNat + 7 < 256

namespace MessageIdentifiers

variable (ids : MessageIdentifiers)

/-- `PLAYER_MOVE`, the fifth of the game's messages. -/
def playerMove : UInt8 := ids.userPacketEnum + 4

/-- `GetPacketIdentifier`. A timestamp is an identifier and a time, of one and of
eight bytes. -/
def getPacketIdentifier (data : List UInt8) : Option UInt8 :=
  match data[0]? with
  | none => none
  | some first => if first = ids.timestamp then data[1 + 8]? else some first

end MessageIdentifiers

/-- The fields of a `PlayerMoveMessage` at an offset: an enumeration of four bytes,
the id, aligned to eight, and the two coordinates. -/
def readPlayerMove (data : List UInt8) (offset : ℕ) : Option (NetworkID × Position) := do
  let playerID ← readField data (offset + 8) 8
  let x ← readField data (offset + 16) 2
  let y ← readField data (offset + 18) 2
  return (UInt64.ofNat playerID, ⟨UInt16.ofNat x, UInt16.ofNat y⟩)

/-- `sizeof(PlayerMoveMessage)`, with the padding behind the coordinates. -/
def sizeofPlayerMove : ℕ := 24

/-- Why handling a packet does not end: it reads bytes that the packet does not
have, or the handler of a library packet does not return. -/
inductive PacketStop
  | outsidePacket
  | handler (stop : Stop)
  deriving DecidableEq, Repr

namespace ServerGamestate

/-- `handleCustomPacket`, on the packet's data. -/
def handleCustomData (gamestate : ServerGamestate) (ids : MessageIdentifiers)
    (data : List UInt8) (identifier : UInt8) : Except PacketStop ServerGamestate :=
  if identifier = ids.playerMove then
    match readPlayerMove data 0 with
    | none => .error .outsidePacket
    | some update =>
        .ok { gamestate with
          updatedPlayerPositions := gamestate.updatedPlayerPositions ++ [update] }
  else .ok gamestate

/-- The body of the receive loop: find the identifier, then handle the packet. -/
def handlePacket (gamestate : ServerGamestate) (ids : MessageIdentifiers)
    (systemAddress : SystemAddress) (admission : Admission) (data : List UInt8) :
    Except PacketStop (ServerGamestate × List Send) :=
  match ids.getPacketIdentifier data with
  | none => .error .outsidePacket
  | some identifier =>
      if ids.userPacketEnum ≤ identifier then
        match gamestate.handleCustomData ids data identifier with
        | .error stop => .error stop
        | .ok next => .ok (next, [])
      else
        match gamestate.handleLibraryPacket systemAddress admission
            (ids.libraryPacket identifier) with
        | .error stop => .error (.handler stop)
        | .ok result => .ok result

end ServerGamestate

/-- The data of the message that a client sends for a move. The padding is not
initialised. -/
def moveData (ids : MessageIdentifiers) (move : PlayerMoveMessage) (padding : UInt32 × UInt32) :
    List UInt8 :=
  toBytes 4 ids.playerMove.toNat ++ (toBytes 4 padding.1.toNat ++
    (toBytes 8 move.playerID.toNat ++ (toBytes 2 move.newPos.x.toNat ++
      (toBytes 2 move.newPos.y.toNat ++ toBytes 4 padding.2.toNat))))

section MoveData

variable (ids : MessageIdentifiers) (move : PlayerMoveMessage) (padding : UInt32 × UInt32)

theorem length_moveData : (moveData ids move padding).length = sizeofPlayerMove := by
  simp [moveData, sizeofPlayerMove]

/-- Reading a message where it begins gives what was written. -/
theorem readPlayerMove_moveData (before after : List UInt8) :
    readPlayerMove (before ++ (moveData ids move padding ++ after)) before.length =
      some (move.playerID, move.newPos) := by
  have hid : move.playerID.toNat < 256 ^ 8 := move.playerID.toNat_lt
  have hx : move.newPos.x.toNat < 256 ^ 2 := move.newPos.x.toNat_lt
  have hy : move.newPos.y.toNat < 256 ^ 2 := move.newPos.y.toNat_lt
  -- each field begins where the ones before it end
  simp only [readPlayerMove, moveData, List.append_assoc, readField_append_of_length_le,
    length_toBytes, Nat.add_sub_cancel_left, Nat.le_add_right, Nat.reduceSub, Nat.reduceLeDiff,
    Nat.sub_self]
  simp [readField_toBytes_append hid, readField_toBytes_append hx, readField_toBytes_append hy]

end MoveData

/-- The bytes begin with a complete `PLAYER_MOVE` message, with these fields. -/
def IsMove (ids : MessageIdentifiers) (body : List UInt8) (update : NetworkID × Position) :
    Prop :=
  body[0]? = some ids.playerMove ∧ sizeofPlayerMove ≤ body.length ∧
    readPlayerMove body 0 = some update

/-- The packet is a complete move, bare or behind a timestamp. -/
inductive CarriesMove (ids : MessageIdentifiers) : List UInt8 → NetworkID × Position → Prop
  | bare {body : List UInt8} {update : NetworkID × Position} (hmove : IsMove ids body update) :
      CarriesMove ids body update
  | timestamped {time body : List UInt8} {update : NetworkID × Position} (htime : time.length = 8)
      (hmove : IsMove ids body update) :
      CarriesMove ids (ids.timestamp :: (time ++ body)) update

/-- Handling the packet is as it should be: no byte is read outside of it, and it
queues the update of a complete move and nothing else. -/
structure ServerGamestate.AcceptsMoves (gamestate : ServerGamestate) (ids : MessageIdentifiers)
    (systemAddress : SystemAddress) (admission : Admission) (data : List UInt8) : Prop where
  readsInside : gamestate.handlePacket ids systemAddress admission data ≠ .error .outsidePacket
  queues : ∀ next sent,
    gamestate.handlePacket ids systemAddress admission data = .ok (next, sent) →
      ∃ queued : Option (NetworkID × Position),
        next.updatedPlayerPositions = gamestate.updatedPlayerPositions ++ queued.toList ∧
          ∀ update, queued = some update ↔ CarriesMove ids data update

/-- The packet is as long as its identifier announces, and when there is a
timestamp in front of a move, it does not matter where the move is read. -/
def WellFramed (ids : MessageIdentifiers) (data : List UInt8) : Prop :=
  (data[0]? ≠ some ids.timestamp ∧
    (data[0]? = some ids.playerMove → sizeofPlayerMove ≤ data.length)) ∨
  (data[0]? = some ids.timestamp ∧ 1 + 8 < data.length ∧
    (data[1 + 8]? = some ids.playerMove → 1 + 8 + sizeofPlayerMove ≤ data.length ∧
      readPlayerMove data 0 = readPlayerMove data (1 + 8)))

section Frames

variable {ids : MessageIdentifiers} {data body : List UInt8} {update : NetworkID × Position}

theorem MessageIdentifiers.timestamp_ne_playerMove : ids.timestamp ≠ ids.playerMove := by
  have hnative := ids.timestamp_native
  have hfit := ids.messages_fit
  intro heq
  rw [heq, playerMove, UInt8.lt_iff_toNat_lt, UInt8.toNat_add] at hnative
  rw [show (4 : UInt8).toNat = 4 from rfl, Nat.mod_eq_of_lt (by omega)] at hnative
  omega

theorem MessageIdentifiers.userPacketEnum_le_playerMove : ids.userPacketEnum ≤ ids.playerMove := by
  have hfit := ids.messages_fit
  rw [playerMove, UInt8.le_iff_toNat_le, UInt8.toNat_add]
  rw [show (4 : UInt8).toNat = 4 from rfl, Nat.mod_eq_of_lt (by omega)]
  omega

/-- The fields that the handler uses end before the message's padding. -/
theorem readPlayerMove_isSome_iff {offset : ℕ} :
    (readPlayerMove data offset).isSome ↔ offset + 20 ≤ data.length := by
  by_cases h : offset + 20 ≤ data.length
  · simp only [readPlayerMove, readField_of_le (show offset + 8 + 8 ≤ data.length by omega),
      readField_of_le (show offset + 16 + 2 ≤ data.length by omega),
      readField_of_le (show offset + 18 + 2 ≤ data.length by omega)]
    simp [h]
  · have hy : readField data (offset + 18) 2 = none :=
      readField_eq_none_iff.mpr (by omega)
    simp [readPlayerMove, hy, h]

theorem readPlayerMove_append {before : List UInt8} {offset : ℕ} (h : before.length = offset) :
    readPlayerMove (before ++ body) offset = readPlayerMove body 0 := by
  have hfield (further width : ℕ) :
      readField (before ++ body) (offset + further) width = readField body further width := by
    rw [readField_append_of_length_le (by omega), h, Nat.add_sub_cancel_left]
  simp only [readPlayerMove, hfield, Nat.zero_add]

theorem carriesMove_iff_of_bare (h : data[0]? ≠ some ids.timestamp) :
    CarriesMove ids data update ↔ IsMove ids data update := by
  constructor
  · rintro (hmove | _)
    · exact hmove
    · exact absurd rfl h
  · exact .bare

/-- Behind a timestamp the message is nine bytes further on. -/
theorem isMove_iff_timestamped {first : UInt8} {time : List UInt8} (htime : time.length = 8) :
    IsMove ids body update ↔
      (first :: (time ++ body))[1 + 8]? = some ids.playerMove ∧
        1 + 8 + sizeofPlayerMove ≤ (first :: (time ++ body)).length ∧
        readPlayerMove (first :: (time ++ body)) (1 + 8) = some update := by
  have hidentifier : (first :: (time ++ body))[1 + 8]? = body[0]? := by
    rw [Nat.add_comm, List.getElem?_cons_succ, List.getElem?_append_right (by omega), htime]
  have hread : readPlayerMove (first :: (time ++ body)) (1 + 8) = readPlayerMove body 0 := by
    rw [← List.cons_append]
    exact readPlayerMove_append (by rw [List.length_cons, htime])
  have hlength : (first :: (time ++ body)).length = 1 + 8 + body.length := by
    rw [List.length_cons, List.length_append, htime]
    omega
  rw [hidentifier, hread, hlength, Nat.add_le_add_iff_left, IsMove]

theorem carriesMove_iff_of_timestamp (h : data[0]? = some ids.timestamp) :
    CarriesMove ids data update ↔
      data[1 + 8]? = some ids.playerMove ∧ 1 + 8 + sizeofPlayerMove ≤ data.length ∧
        readPlayerMove data (1 + 8) = some update := by
  constructor
  · rintro (hmove | ⟨htime, hmove⟩)
    · exact absurd (Option.some.inj (h.symm.trans hmove.1)) ids.timestamp_ne_playerMove
    · exact (isMove_iff_timestamped htime).mp hmove
  · intro hmove
    obtain ⟨rest, rfl⟩ : ∃ rest, data = ids.timestamp :: rest := by
      cases data with
      | nil => cases h
      | cons first rest => exact ⟨rest, by rw [Option.some.inj h]⟩
    have htime : (rest.take 8).length = 8 := by
      have hlength := hmove.2.1
      rw [List.length_cons] at hlength
      rw [List.length_take]
      omega
    rw [← List.take_append_drop 8 rest] at hmove ⊢
    exact .timestamped htime ((isMove_iff_timestamped htime).mpr hmove)

/-- A packet carries one move at most. -/
theorem CarriesMove.unique {other : NetworkID × Position} (h : CarriesMove ids data update)
    (hother : CarriesMove ids data other) : update = other := by
  by_cases hfirst : data[0]? = some ids.timestamp
  · rw [carriesMove_iff_of_timestamp hfirst] at h hother
    exact Option.some.inj (h.2.2.symm.trans hother.2.2)
  · rw [carriesMove_iff_of_bare hfirst] at h hother
    exact Option.some.inj (h.2.2.symm.trans hother.2.2)

end Frames

namespace MessageIdentifiers

variable {ids : MessageIdentifiers} {data : List UInt8}

theorem getPacketIdentifier_of_bare (h : data[0]? ≠ some ids.timestamp) :
    ids.getPacketIdentifier data = data[0]? := by
  rw [getPacketIdentifier]
  cases hfirst : data[0]? with
  | none => rfl
  | some first =>
      have hne : first ≠ ids.timestamp := fun heq => h (heq ▸ hfirst)
      dsimp only
      rw [if_neg hne]

theorem getPacketIdentifier_of_timestamp (h : data[0]? = some ids.timestamp) :
    ids.getPacketIdentifier data = data[1 + 8]? := by
  rw [getPacketIdentifier, h]
  dsimp only
  rw [if_pos rfl]

/-- A complete move is recognised as one, in either frame. -/
theorem getPacketIdentifier_of_carriesMove {update : NetworkID × Position}
    (h : CarriesMove ids data update) : ids.getPacketIdentifier data = some ids.playerMove := by
  by_cases hfirst : data[0]? = some ids.timestamp
  · rw [getPacketIdentifier_of_timestamp hfirst]
    exact ((carriesMove_iff_of_timestamp hfirst).mp h).1
  · rw [getPacketIdentifier_of_bare hfirst]
    exact ((carriesMove_iff_of_bare hfirst).mp h).1

end MessageIdentifiers

namespace ServerGamestate

variable {gamestate : ServerGamestate} {ids : MessageIdentifiers} {systemAddress : SystemAddress}
  {admission : Admission} {data : List UInt8} {identifier : UInt8}

/-- A packet without an identifier is not handled as it should be. -/
theorem not_acceptsMoves_of_none (h : ids.getPacketIdentifier data = none) :
    ¬ gamestate.AcceptsMoves ids systemAddress admission data := by
  intro haccepts
  apply haccepts.readsInside
  rw [handlePacket, h]

/-- The library packets queue nothing. -/
theorem handleLibraryPacket_updatedPlayerPositions {packet : LibraryPacket}
    {next : ServerGamestate} {sent : List Send}
    (h : gamestate.handleLibraryPacket systemAddress admission packet = .ok (next, sent)) :
    next.updatedPlayerPositions = gamestate.updatedPlayerPositions := by
  have heffect : gamestate.Effect (.receive systemAddress (.library packet) admission) next :=
    effect_of_handle h
  cases heffect with
  | join _ _ _ => rfl
  | leave => exact removePlayer_updatedPlayerPositions gamestate systemAddress
  | skipLibrary _ _ => rfl

/-- Nor does any other packet that is not a move, and none of its data is read
but for the identifier. -/
theorem acceptsMoves_of_ne (h : ids.getPacketIdentifier data = some identifier)
    (hother : identifier ≠ ids.playerMove) :
    gamestate.AcceptsMoves ids systemAddress admission data := by
  have hnone (update : NetworkID × Position) :
      none = some update ↔ CarriesMove ids data update := by
    constructor
    · intro hsome
      cases hsome
    · intro hmove
      rw [MessageIdentifiers.getPacketIdentifier_of_carriesMove hmove, Option.some.injEq] at h
      exact absurd h.symm hother
  have hhandle : gamestate.handlePacket ids systemAddress admission data =
      if ids.userPacketEnum ≤ identifier then .ok (gamestate, [])
      else match gamestate.handleLibraryPacket systemAddress admission
          (ids.libraryPacket identifier) with
        | .error stop => .error (.handler stop)
        | .ok result => .ok result := by
    rw [handlePacket, h]
    dsimp only
    rw [handleCustomData, if_neg hother]
  constructor
  · intro hstop
    rw [hhandle] at hstop
    split at hstop
    · cases hstop
    · split at hstop <;> cases hstop
  · intro next sent hnext
    rw [hhandle] at hnext
    refine ⟨none, ?_, hnone⟩
    rw [Option.toList_none, List.append_nil]
    split at hnext
    · rw [(Prod.mk.inj (Except.ok.inj hnext)).1]
    · split at hnext
      · cases hnext
      · next hlibrary =>
          obtain rfl := Except.ok.inj hnext
          exact handleLibraryPacket_updatedPlayerPositions hlibrary

/-- A packet that is recognised as a move queues whatever is read at its first
byte. -/
theorem handlePacket_of_playerMove (h : ids.getPacketIdentifier data = some ids.playerMove) :
    gamestate.handlePacket ids systemAddress admission data =
      match readPlayerMove data 0 with
      | none => .error .outsidePacket
      | some update => .ok ({ gamestate with
          updatedPlayerPositions := gamestate.updatedPlayerPositions ++ [update] }, []) := by
  rw [handlePacket, h]
  dsimp only
  rw [if_pos ids.userPacketEnum_le_playerMove, handleCustomData, if_pos rfl]
  cases readPlayerMove data 0 <;> rfl

/-- That has to be what a complete move carries. -/
theorem acceptsMoves_iff_of_playerMove
    (h : ids.getPacketIdentifier data = some ids.playerMove) :
    gamestate.AcceptsMoves ids systemAddress admission data ↔
      ∃ update, readPlayerMove data 0 = some update ∧ CarriesMove ids data update := by
  have hhandle : gamestate.handlePacket ids systemAddress admission data = _ :=
    handlePacket_of_playerMove h
  cases hread : readPlayerMove data 0 with
  | none =>
      rw [hread] at hhandle
      constructor
      · intro haccepts
        exact absurd hhandle haccepts.readsInside
      · rintro ⟨update, hsome, _⟩
        cases hsome
  | some update =>
      rw [hread] at hhandle
      constructor
      · intro haccepts
        obtain ⟨queued, hqueue, hqueued⟩ := haccepts.queues _ _ hhandle
        have hsome : queued.toList = [update] := (List.append_cancel_left hqueue).symm
        refine ⟨update, rfl, (hqueued update).mp ?_⟩
        exact Option.toList_eq_singleton_iff.mp hsome
      · rintro ⟨found, hfound, hcarries⟩
        obtain rfl := Option.some.inj hfound
        refine ⟨fun hstop => ?_, fun next sent hnext => ⟨some update, ?_, ?_⟩⟩
        · cases hhandle.symm.trans hstop
        · rw [hhandle] at hnext
          obtain rfl := (Prod.mk.inj (Except.ok.inj hnext)).1
          rfl
        · intro other
          rw [Option.some.injEq]
          exact ⟨fun heq => heq ▸ hcarries, fun hother => hcarries.unique hother⟩

/-- Enough bytes for a message from the offset on are enough for its fields. -/
theorem exists_readPlayerMove {offset : ℕ} (h : offset + sizeofPlayerMove ≤ data.length) :
    ∃ update, readPlayerMove data offset = some update := by
  rw [sizeofPlayerMove] at h
  exact Option.isSome_iff_exists.mp (readPlayerMove_isSome_iff.mpr (by omega))

theorem acceptsMoves_iff_of_bare (hbare : data[0]? ≠ some ids.timestamp)
    (hdata : 0 < data.length) :
    gamestate.AcceptsMoves ids systemAddress admission data ↔
      (data[0]? = some ids.playerMove → sizeofPlayerMove ≤ data.length) := by
  have hidentifier := MessageIdentifiers.getPacketIdentifier_of_bare hbare
  by_cases hmove : data[0]? = some ids.playerMove
  · rw [acceptsMoves_iff_of_playerMove (hidentifier.trans hmove), forall_prop_of_true hmove]
    simp only [carriesMove_iff_of_bare hbare, IsMove, hmove, true_and]
    constructor
    · rintro ⟨update, _, hcomplete, _⟩
      exact hcomplete
    · intro hcomplete
      obtain ⟨update, hread⟩ := exists_readPlayerMove ((Nat.zero_add _).le.trans hcomplete)
      exact ⟨update, hread, hcomplete, hread⟩
  · have hfirst := List.getElem?_eq_getElem hdata
    have haccepts : gamestate.AcceptsMoves ids systemAddress admission data :=
      acceptsMoves_of_ne (hidentifier.trans hfirst) fun heq => hmove (heq ▸ hfirst)
    exact iff_of_true haccepts fun h => absurd h hmove

theorem acceptsMoves_iff_of_timestamp (hstamp : data[0]? = some ids.timestamp) :
    gamestate.AcceptsMoves ids systemAddress admission data ↔
      1 + 8 < data.length ∧ (data[1 + 8]? = some ids.playerMove →
        1 + 8 + sizeofPlayerMove ≤ data.length ∧
          readPlayerMove data 0 = readPlayerMove data (1 + 8)) := by
  have hidentifier := MessageIdentifiers.getPacketIdentifier_of_timestamp hstamp
  by_cases hlength : 1 + 8 < data.length
  · rw [and_iff_right hlength]
    by_cases hmove : data[1 + 8]? = some ids.playerMove
    · rw [acceptsMoves_iff_of_playerMove (hidentifier.trans hmove), forall_prop_of_true hmove]
      simp only [carriesMove_iff_of_timestamp hstamp, hmove, true_and]
      constructor
      · rintro ⟨update, hfirst, hcomplete, hbody⟩
        exact ⟨hcomplete, hfirst.trans hbody.symm⟩
      · rintro ⟨hcomplete, halike⟩
        obtain ⟨update, hbody⟩ := exists_readPlayerMove hcomplete
        exact ⟨update, halike.trans hbody, hcomplete, hbody⟩
    · have hninth := List.getElem?_eq_getElem hlength
      have haccepts : gamestate.AcceptsMoves ids systemAddress admission data :=
        acceptsMoves_of_ne (hidentifier.trans hninth) fun heq => hmove (heq ▸ hninth)
      exact iff_of_true haccepts fun h => absurd h hmove
  · have hnone : ids.getPacketIdentifier data = none := by
      rw [hidentifier, List.getElem?_eq_none_iff]
      omega
    exact iff_of_false (not_acceptsMoves_of_none hnone) fun h => hlength h.1

/-- The server handles a packet as it should exactly when the packet is well
framed. -/
theorem accepts_moves_iff (gamestate : ServerGamestate) (ids : MessageIdentifiers)
    (systemAddress : SystemAddress) (admission : Admission) (data : List UInt8)
    (hdata : 1 ≤ data.length) :
    gamestate.AcceptsMoves ids systemAddress admission data ↔ WellFramed ids data := by
  by_cases hstamp : data[0]? = some ids.timestamp
  · rw [WellFramed, or_iff_right (fun h => h.1 hstamp), and_iff_right hstamp]
    exact acceptsMoves_iff_of_timestamp hstamp
  · rw [WellFramed, or_iff_left (fun h => hstamp h.1), and_iff_right hstamp]
    exact acceptsMoves_iff_of_bare hstamp hdata

/-- What a client sends for a move is handled as the message that it is. -/
theorem handlePacket_moveData (move : PlayerMoveMessage) (padding : UInt32 × UInt32) :
    gamestate.handlePacket ids systemAddress admission (moveData ids move padding) =
      .ok (gamestate.handleCustomPacket (.playerMove move), []) := by
  have hfirst : (moveData ids move padding)[0]? = some ids.playerMove := by
    simp [moveData, toBytes]
  have hbare : (moveData ids move padding)[0]? ≠ some ids.timestamp := by
    rw [hfirst]
    exact fun heq => ids.timestamp_ne_playerMove (Option.some.inj heq).symm
  have hread : readPlayerMove (moveData ids move padding) 0 =
      some (move.playerID, move.newPos) := by
    simpa using readPlayerMove_moveData ids move padding [] []
  have hidentifier := (MessageIdentifiers.getPacketIdentifier_of_bare hbare).trans hfirst
  rw [handlePacket_of_playerMove hidentifier, hread]
  rfl

/-- Identifiers as the library numbers them. -/
def libraryIdentifiers : MessageIdentifiers where
  timestamp := 27
  userPacketEnum := 134
  libraryPacket identifier :=
    if identifier = 19 then .newIncomingConnection
    else if identifier = 22 then .connectionLost
    else .other
  timestamp_native := by decide
  messages_fit := by decide

/-- The data of a move to (1, 0), behind a timestamp. -/
def stampedMove : List UInt8 :=
  27 :: (List.replicate 8 0 ++ moveData libraryIdentifiers ⟨7, ⟨1, 0⟩⟩ (0, 0))

/-- A move that is sent without a timestamp is accepted. -/
theorem accepts_bare_move :
    (applyConfig 10 10 2).AcceptsMoves libraryIdentifiers 1 ⟨0, []⟩
      (moveData libraryIdentifiers ⟨7, ⟨1, 0⟩⟩ (0, 0)) :=
  (accepts_moves_iff _ _ _ _ _ (by decide)).mpr (Or.inl ⟨by decide, fun _ => by decide⟩)

/-- The identifier of a move alone makes the server read beyond the packet. And
behind a timestamp the move is read where the timestamp begins, so that another
player's update is queued. -/
theorem moves_misread :
    (applyConfig 10 10 2).handlePacket libraryIdentifiers 1 ⟨0, []⟩ [138] =
        .error .outsidePacket ∧
      CarriesMove libraryIdentifiers stampedMove (7, ⟨1, 0⟩) ∧
      (applyConfig 10 10 2).handlePacket libraryIdentifiers 1 ⟨0, []⟩ stampedMove =
        .ok ({ applyConfig 10 10 2 with
          updatedPlayerPositions := [(35328, ⟨1792, 0⟩)] }, []) ∧
      ¬ (applyConfig 10 10 2).AcceptsMoves libraryIdentifiers 1 ⟨0, []⟩ [138] ∧
      ¬ (applyConfig 10 10 2).AcceptsMoves libraryIdentifiers 1 ⟨0, []⟩ stampedMove := by
  have hcut : (applyConfig 10 10 2).handlePacket libraryIdentifiers 1 ⟨0, []⟩ [138] =
      .error .outsidePacket := rfl
  have hstamped : (applyConfig 10 10 2).handlePacket libraryIdentifiers 1 ⟨0, []⟩ stampedMove =
      .ok ({ applyConfig 10 10 2 with updatedPlayerPositions := [(35328, ⟨1792, 0⟩)] }, []) := rfl
  have hcarries : CarriesMove libraryIdentifiers stampedMove (7, ⟨1, 0⟩) :=
    .timestamped rfl ⟨rfl, by decide, rfl⟩
  refine ⟨hcut, hcarries, hstamped, fun haccepts => haccepts.readsInside hcut,
    fun haccepts => ?_⟩
  obtain ⟨queued, hqueue, hqueued⟩ := haccepts.queues _ _ hstamped
  rw [(hqueued _).mpr hcarries] at hqueue
  exact absurd hqueue (by decide)

end ServerGamestate

end LibBench.RakNet
