/-
# Yojimbo: the bodies of the player messages

Four messages carry a position and a player's id and are read and written in the
same way: thirty bits, three fields of ten. This module asks which of the 2 ^ 30
bodies are accepted, and whether the message that a body is accepted as is written
as that body again.

A coordinate is tested as it was read, and an accepted one is written back bit by
bit. The id is tested after it has been cut down to eight bits: the body is
accepted whatever its two highest bits are, and they are written back as zeros.
-/

import Mathlib.Data.Set.Basic
import LibBench.Yojimbo.Serialize

namespace LibBench.Yojimbo

open LibBench.Math

/-- The bits of the `x` in a body. -/
def xField (body : BitVec 30) : ℕ := bitsAt body.toNat 0 10

/-- The bits of the `y`. -/
def yField (body : BitVec 30) : ℕ := bitsAt body.toNat 10 10

/-- The bits of the player's id. -/
def playerIDField (body : BitVec 30) : ℕ := bitsAt body.toNat 20 10

/-- The three fields. -/
def bodyFields (body : BitVec 30) : List Field :=
  [⟨xField body, 10⟩, ⟨yField body, 10⟩, ⟨playerIDField body, 10⟩]

/-- A body is its fields side by side. -/
theorem pack_bodyFields (body : BitVec 30) : Field.pack (bodyFields body) = body.toNat := by
  have hthirty : bitsAt body.toNat 0 (10 + (10 + 10)) = body.toNat := by
    rw [bitsAt, Nat.pow_zero, Nat.div_one]
    exact Nat.mod_eq_of_lt body.isLt
  rw [bitsAt_add, bitsAt_add] at hthirty
  simpa [bodyFields, Field.pack, xField, yField, playerIDField] using hthirty

/-- A body that comes next is three fields that come next. -/
theorem reads_bodyFields {reader : BitReader} {body : BitVec 30}
    (h : reader.Reads [⟨body.toNat, 30⟩]) : reader.Reads (bodyFields body) := by
  refine ⟨h.valid, h.inPacket, ?_⟩
  rw [pack_bodyFields]
  exact h.next

namespace Message

/-- Somewhere in a packet the body is accepted as the message. -/
def Denotes (type : TestMessageType) (body : BitVec 30) (message : Message) : Prop :=
  ∃ reader next : BitReader, reader.Reads [⟨body.toNat, 30⟩] ∧
    read type reader = some (message, next)

/-- Wherever the message is written in a packet, the body is what is there. -/
def Reproduces (message : Message) (body : BitVec 30) : Prop :=
  ∀ before after : List Field, (∀ field ∈ before ++ after, field.Fits ∧ field.bits ≤ 32) →
    bitsAt (ofWords (message.packet before after).data) (Field.width before) 30 = body.toNat

/-- Of a set of bodies: a message that one of them is accepted as is written as that
body; no two of them are accepted as the same message; and none of them is accepted
whose id does not fit. -/
structure RoundTrips (type : TestMessageType) (bodies : Set (BitVec 30)) : Prop where
  reproduced : ∀ body ∈ bodies, ∀ message, Denotes type body message → message.Reproduces body
  injective : ∀ first ∈ bodies, ∀ second ∈ bodies, ∀ message, Denotes type first message →
    Denotes type second message → first = second
  refused : ∀ body ∈ bodies, 256 ≤ playerIDField body → ∀ message, ¬ Denotes type body message

/-- A type of message that is a position and a player's id. -/
structure IsPlayerPos (type : TestMessageType) (make : UInt16 → UInt16 → ClientID → Message) :
    Prop where
  read (reader : BitReader) : read type reader = readPlayerPos make reader
  write (x y : UInt16) (playerID : ClientID) :
    (make x y playerID).write = writePlayerPos x y playerID

theorem map_readPlayerPos {τ υ : Type} (message : UInt16 → UInt16 → ClientID → τ) (wrap : τ → υ)
    (reader : BitReader) :
    (readPlayerPos message reader).map (fun (value, next) => (wrap value, next)) =
      readPlayerPos (fun x y playerID => wrap (message x y playerID)) reader := by
  simp [readPlayerPos, Option.map_bind]

/-- All types but the config are. -/
theorem exists_isPlayerPos {type : TestMessageType} (htype : type ≠ .gameConfigMessage) :
    ∃ make, IsPlayerPos type make := by
  cases type with
  | gameConfigMessage => exact absurd rfl htype
  | playerSpawnAndIDMessage =>
      exact ⟨_, map_readPlayerPos PlayerSpawnAndIDMessage.mk playerSpawnAndID, fun _ _ _ => rfl⟩
  | newPlayerJoined =>
      exact ⟨_, map_readPlayerPos NewPlayerJoinedMessage.mk newPlayerJoined, fun _ _ _ => rfl⟩
  | playerMoveMessage =>
      exact ⟨_, map_readPlayerPos PlayerMoveMessage.mk playerMove, fun _ _ _ => rfl⟩
  | playerPositionMessage =>
      exact ⟨_, map_readPlayerPos PlayerPositionMessage.mk playerPosition, fun _ _ _ => rfl⟩

end Message

section Reading

variable {reader : BitReader} {fields : List Field} {value : ℕ}

theorem exists_serializeCoord (h : reader.Reads (⟨value, 10⟩ :: fields)) (hvalue : value < 2 ^ 10) :
    ∃ next, next.Reads fields ∧ serializeCoord reader =
      if value ≤ 512 then some (UInt16.ofNat value, next) else none := by
  have hword : (UInt32.ofNat value).toNat = value :=
    UInt32.toNat_ofNat_of_lt' (hvalue.trans (by decide))
  have hcoord : (UInt32.ofNat value).toUInt16.toNat = value := by
    rw [UInt32.toNat_toUInt16, hword, Nat.mod_eq_of_lt (hvalue.trans (by decide))]
  have hmade : (UInt32.ofNat value).toUInt16 = UInt16.ofNat value := by
    rw [← UInt16.toNat_inj, hcoord, UInt16.toNat_ofNat_of_lt' (hvalue.trans (by decide))]
  rw [← hword] at h hvalue
  obtain ⟨next, hnext, hread⟩ := exists_serializeInt UInt32.toUInt16 UInt16.toNat h hvalue
  refine ⟨next, hnext, ?_⟩
  rw [serializeCoord, hread, hcoord, hmade]

/-- The two highest bits of the id are lost. -/
theorem exists_serializeClientID (h : reader.Reads (⟨value, 10⟩ :: fields))
    (hvalue : value < 2 ^ 10) :
    ∃ next, serializeClientID reader = some (UInt8.ofNat value, next) := by
  have hword : (UInt32.ofNat value).toNat = value :=
    UInt32.toNat_ofNat_of_lt' (hvalue.trans (by decide))
  have hid : (UInt32.ofNat value).toUInt8 = UInt8.ofNat value := by
    rw [← UInt8.toNat_inj, UInt32.toNat_toUInt8, hword, UInt8.toNat_ofNat']
  rw [← hword] at h hvalue
  obtain ⟨next, _, hread⟩ := exists_serializeInt UInt32.toUInt8 UInt8.toNat h hvalue
  have hrange := (UInt32.ofNat value).toUInt8.toNat_lt
  exact ⟨next, by rw [serializeClientID, hread, if_pos (by omega), hid]⟩

/-- A body is accepted if its coordinates are in the range. -/
theorem exists_readPlayerPos {τ : Type} (message : UInt16 → UInt16 → ClientID → τ)
    {body : BitVec 30} (h : reader.Reads (bodyFields body)) :
    ∃ next, readPlayerPos message reader =
      if xField body ≤ 512 ∧ yField body ≤ 512 then
        some (message (.ofNat (xField body)) (.ofNat (yField body)) (.ofNat (playerIDField body)),
          next)
      else none := by
  obtain ⟨second, hsecond, hx⟩ := exists_serializeCoord h (bitsAt_lt _ _ _)
  obtain ⟨third, hthird, hy⟩ := exists_serializeCoord hsecond (bitsAt_lt _ _ _)
  obtain ⟨next, hid⟩ := exists_serializeClientID hthird (bitsAt_lt _ _ _)
  refine ⟨next, ?_⟩
  by_cases hxRange : xField body ≤ 512
  · by_cases hyRange : yField body ≤ 512
    · simp [readPlayerPos, hx, hy, hid, hxRange, hyRange]
    · simp [readPlayerPos, hx, hy, hxRange, hyRange]
  · simp [readPlayerPos, hx, hxRange]

end Reading

namespace Message

variable {type : TestMessageType} {make : UInt16 → UInt16 → ClientID → Message}
  {body : BitVec 30} {message : Message}

/-- Every body comes next in some packet. -/
theorem exists_reads (body : BitVec 30) :
    ∃ reader : BitReader, reader.Reads [⟨body.toNat, 30⟩] := by
  have hthirty : 30 ≤ 32 := by decide
  have hfits : ∀ field ∈ [(⟨body.toNat, 30⟩ : Field)], field.Fits ∧ field.bits ≤ 32 :=
    List.forall_mem_singleton.mpr ⟨body.isLt, hthirty⟩
  exact ⟨_, BitReader.reads_of_holds (BitWriter.holds_nil.writeFields hfits) rfl⟩

/-- A body is accepted if its coordinates are in the range, as the message with its
coordinates and what is left of its id. -/
theorem IsPlayerPos.denotes_iff (h : IsPlayerPos type make) :
    Denotes type body message ↔ xField body ≤ 512 ∧ yField body ≤ 512 ∧
      message =
        make (.ofNat (xField body)) (.ofNat (yField body)) (.ofNat (playerIDField body)) := by
  constructor
  · rintro ⟨reader, next, hreads, hread⟩
    obtain ⟨last, hlast⟩ := exists_readPlayerPos make (reads_bodyFields hreads)
    rw [h.read, hlast] at hread
    split at hread
    · next hrange =>
        exact ⟨hrange.1, hrange.2, (Prod.mk.inj (Option.some.inj hread)).1.symm⟩
    · cases hread
  · rintro ⟨hx, hy, rfl⟩
    obtain ⟨reader, hreads⟩ := exists_reads body
    obtain ⟨next, hnext⟩ := exists_readPlayerPos make (reads_bodyFields hreads)
    exact ⟨reader, next, hreads, by rw [h.read, hnext, if_pos ⟨hx, hy⟩]⟩

/-- The bits of a message with coordinates in the range, in the middle of a packet. -/
theorem IsPlayerPos.bitsAt_packet (h : IsPlayerPos type make) {x y : UInt16} {playerID : ClientID}
    (hx : x.toNat ≤ 512) (hy : y.toNat ≤ 512) {before after : List Field}
    (hfits : ∀ field ∈ before ++ after, field.Fits ∧ field.bits ≤ 32) :
    bitsAt (ofWords ((make x y playerID).packet before after).data) (Field.width before) 30 =
      Field.pack [⟨x.toNat, 10⟩, ⟨y.toNat, 10⟩, ⟨playerID.toNat, 10⟩] := by
  obtain ⟨hbefore, hafter⟩ := List.forall_mem_append.mp hfits
  have hheld : (writePlayerPos x y playerID (BitWriter.writeFields {} before)).Holds _ :=
    holds_writePlayerPos (BitWriter.holds_nil.writeFields hbefore) hx hy
  have hpacket := hheld.writeFields hafter
  rw [List.nil_append, List.append_assoc] at hpacket
  have hmiddle : ∀ field ∈ [(⟨x.toNat, 10⟩ : Field), ⟨y.toNat, 10⟩, ⟨playerID.toNat, 10⟩],
      field.Fits := fun field hfield => hheld.fits field (List.mem_append_right _ hfield)
  rw [packet, h.write, hpacket.flushBits.1]
  exact bitsAt_pack (fun field hfield => (hbefore field hfield).1) hmiddle

/-- An accepted body whose id fits is written again. -/
theorem IsPlayerPos.reproduces (h : IsPlayerPos type make) (hid : playerIDField body < 256)
    (hdenotes : Denotes type body message) : message.Reproduces body := by
  obtain ⟨hx, hy, rfl⟩ := h.denotes_iff.mp hdenotes
  have hxCoord : (UInt16.ofNat (xField body)).toNat = xField body :=
    UInt16.toNat_ofNat_of_lt' (Nat.lt_of_le_of_lt hx (by decide))
  have hyCoord : (UInt16.ofNat (yField body)).toNat = yField body :=
    UInt16.toNat_ofNat_of_lt' (Nat.lt_of_le_of_lt hy (by decide))
  have hidSlot : (UInt8.ofNat (playerIDField body)).toNat = playerIDField body :=
    UInt8.toNat_ofNat_of_lt' hid
  intro before after hfits
  rw [h.bitsAt_packet (hxCoord.trans_le hx) (hyCoord.trans_le hy) hfits, hxCoord, hyCoord, hidSlot,
    ← pack_bodyFields body, bodyFields]

/-- **Encoding undoes decoding where the id fits.** For each of the four types and every
set of bodies, wherever they stand in a packet: the bodies are written again as they
were, none of them denotes the message of another, and those whose id does not fit are
refused, if and only if each of them has an id that fits or a coordinate out of range. -/
theorem roundTrips_iff (htype : type ≠ .gameConfigMessage) (bodies : Set (BitVec 30)) :
    RoundTrips type bodies ↔
      ∀ body ∈ bodies, playerIDField body < 256 ∨ 512 < xField body ∨ 512 < yField body := by
  obtain ⟨make, hmake⟩ := exists_isPlayerPos htype
  constructor
  · intro h body hbody
    by_contra hnone
    simp only [not_or, not_lt] at hnone
    obtain ⟨hid, hx, hy⟩ := hnone
    exact h.refused body hbody hid _ (hmake.denotes_iff.mpr ⟨hx, hy, rfl⟩)
  · intro h
    have hfits {body : BitVec 30} (hbody : body ∈ bodies) {message : Message}
        (hdenotes : Denotes type body message) : playerIDField body < 256 := by
      obtain ⟨hx, hy, _⟩ := hmake.denotes_iff.mp hdenotes
      rcases h body hbody with hid | hx' | hy'
      · exact hid
      · exact absurd hx (not_le.mpr hx')
      · exact absurd hy (not_le.mpr hy')
    have hreproduced (body : BitVec 30) (hbody : body ∈ bodies) (message : Message)
        (hdenotes : Denotes type body message) : message.Reproduces body :=
      hmake.reproduces (hfits hbody hdenotes) hdenotes
    refine ⟨hreproduced, fun first hfirst second hsecond message hone hother => ?_,
      fun body hbody hid message hdenotes => ?_⟩
    · apply BitVec.toNat_inj.mp
      rw [← hreproduced first hfirst message hone [] [] (List.forall_mem_nil _),
        hreproduced second hsecond message hother [] [] (List.forall_mem_nil _)]
    · exact absurd (hfits hbody hdenotes) (not_lt.mpr hid)

/-- The moves of all players to the cells of one column. -/
theorem roundTrips_of_moves_to_one_column :
    RoundTrips .playerMoveMessage {body | playerIDField body < 64 ∧ xField body = 3} :=
  (roundTrips_iff (by decide) _).mpr fun _ hbody => Or.inl (hbody.1.trans (by decide))

/-- A move of player 300 to the cell (1, 2), as a body. -/
def moveOf300 : BitVec 30 := 1#30 + 2#30 <<< 10 + 300#30 <<< 20

/-- It is accepted as a move of player 44. -/
theorem move_of_300_is_accepted :
    Denotes .playerMoveMessage moveOf300 (.playerMove ⟨1, 2, 44⟩) ∧
      ¬ (playerMove ⟨1, 2, 44⟩).Reproduces moveOf300 ∧
      ¬ RoundTrips .playerMoveMessage Set.univ := by
  have hdenotes : Denotes .playerMoveMessage moveOf300 (.playerMove ⟨1, 2, 44⟩) := by
    refine ⟨{ data := [moveOf300.toNat.toUInt32], numBytes := 4 }, _, ⟨⟨⟨rfl, rfl⟩, ?_⟩, ?_, ?_⟩,
      rfl⟩
    · decide
    · decide
    · decide
  refine ⟨hdenotes, fun h => ?_, fun h => ?_⟩
  · exact absurd (h [] [] (List.forall_mem_nil _)) (by decide)
  · exact h.refused moveOf300 (Set.mem_univ _) (by decide) _ hdenotes

end Message

end LibBench.Yojimbo
