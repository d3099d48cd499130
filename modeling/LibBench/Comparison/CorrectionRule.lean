/-
# When the three clients count a correction

Each benchmark client tells its corrections tracker when a position message
moves a player by more than one space, and the resilience experiment compares
the numbers. The three handlers are written separately. Two of them compare only
with the position of a player that is already known. The third looks the player
up in a way that makes an entry at the origin for a player that is not, and
compares with that.

So the three count the same messages of a stream exactly as long as the first
message about every player is within one space of the origin.
-/

import LibBench.ENet.Game
import LibBench.Math.Execution
import LibBench.RakNet.RemotePlayers
import LibBench.Yojimbo.Client

namespace LibBench

open LibBench.Math

/-- A message of the stream: the player, by whatever name, and its position. -/
abbrev Sighting (ι : Type*) := ι × Position

section Rule

variable {ι : Type*} [DecidableEq ι]

/-- Where every player was seen last. -/
def see (known : ι → Option Position) (sighting : Sighting ι) : ι → Option Position :=
  Function.update known sighting.1 (some sighting.2)

/-- The rule: a known player has moved by more than one space on an axis. -/
def movesKnownPlayer (known : ι → Option Position) (sighting : Sighting ι) : Bool :=
  (known sighting.1).any fun pos => !decide (pos.OneSpace sighting.2)

/-- For each message of a stream, whether it counts as a correction, for a client
that knows nobody when the stream begins. -/
def corrections (stream : List (Sighting ι)) : List Bool :=
  verdicts see movesKnownPlayer (fun _ => none) stream

/-- The message is not the first about its player, or has it within one space of
the origin. -/
def NearOriginWhenNew (known : ι → Option Position) (sighting : Sighting ι) : Prop :=
  known sighting.1 = none → Position.OneSpace ⟨0, 0⟩ sighting.2

/-- Every player is first seen within one space of the origin. -/
def FirstSeenNearOrigin (stream : List (Sighting ι)) : Prop :=
  ∀ before sighting, before ++ [sighting] <+: stream →
    sighting.1 ∉ before.map Prod.fst → Position.OneSpace ⟨0, 0⟩ sighting.2

/-- A player is known after a stream when the stream has a message about it. -/
theorem foldl_see_eq_none_iff {stream : List (Sighting ι)} {id : ι} :
    stream.foldl see (fun _ => none) id = none ↔ id ∉ stream.map Prod.fst := by
  induction stream using List.reverseRecOn with
  | nil => simp
  | append_singleton stream sighting ih =>
      rw [List.foldl_concat, see, List.map_append, List.mem_append, not_or, ← ih]
      by_cases h : id = sighting.1
      · simp [h]
      · simp [h]

end Rule

/-- Whether a step called `correctionMade`, told by the total. -/
def correctionCounted (before after : Option CorrectionsTracker) : Bool :=
  after.map CorrectionsTracker.totalCorrections != before.map CorrectionsTracker.totalCorrections

theorem correctionCounted_ite (tracker counted other : CorrectionsTracker) (counts : Bool)
    (hcounted : counted.totalCorrections = tracker.totalCorrections + 1)
    (hother : other.totalCorrections = tracker.totalCorrections) :
    correctionCounted (some tracker) (some (if counts then counted else other)) = counts := by
  have hne : tracker.totalCorrections + 1 ≠ tracker.totalCorrections := by
    intro h
    have hone : tracker.totalCorrections + 1 - tracker.totalCorrections = 0 := by
      rw [h, Int32.sub_self]
    rw [Int32.add_comm, Int32.add_sub_cancel] at hone
    exact absurd hone (by decide)
  cases counts with
  | true => simp [correctionCounted, hcounted, hne]
  | false => simp [correctionCounted, hother]

/-- More than one apart on an axis, as the handlers write it. -/
theorem decide_far_eq (first second : Position) :
    (decide (1 < |Position.difference first.x second.x|) ||
      decide (1 < |Position.difference first.y second.y|)) =
        !decide (first.OneSpace second) := by
  have hfar : ¬ first.OneSpace second ↔ 1 < |Position.difference first.x second.x| ∨
      1 < |Position.difference first.y second.y| := by
    rw [Position.OneSpace, not_and_or, not_le, not_le]
  rw [← decide_not, ← Bool.decide_or]
  exact decide_eq_decide.mpr hfar.symm

namespace RakNet

variable {ι : Type*} [DecidableEq ι]

/-- The handler on a message of the stream. -/
def handleSighting (manager : NetworkIDManager) (name : ι → NetworkID)
    (handled : ClientGamestate × Option CorrectionsTracker) (sighting : Sighting ι) :
    Except Stop (ClientGamestate × Option CorrectionsTracker) :=
  .ok (handlePlayerPositionUpdate manager handled.1 handled.2 (name sighting.1) sighting.2)

/-- The client has one entry per known player, and counts corrections. -/
def Knows (name : ι → NetworkID) (localID : NetworkID) (ids : Set ι)
    (handled : ClientGamestate × Option CorrectionsTracker) (known : ι → Option Position) : Prop :=
  handled.1.localPlayer.networkID = localID ∧ (∃ tracker, handled.2 = some tracker) ∧
    ∃ knownIDs, Tracks knownIDs handled.1 ∧ ∀ id ∈ ids, knownIDs (name id) = known id

variable {manager : NetworkIDManager} {name : ι → NetworkID} {localID : NetworkID} {ids : Set ι}
  {handled : ClientGamestate × Option CorrectionsTracker} {known : ι → Option Position}

theorem Knows.handleSighting (h : Knows name localID ids handled known)
    (hname : Set.InjOn name ids) {sighting : Sighting ι} (hid : sighting.1 ∈ ids)
    (hremote : name sighting.1 ≠ localID) (hassigned : name sighting.1 ≠ unassignedNetworkID) :
    ∃ next, RakNet.handleSighting manager name handled sighting = .ok next ∧
      Knows name localID ids next (see known sighting) ∧
      correctionCounted handled.2 next.2 = movesKnownPlayer known sighting := by
  obtain ⟨gamestate, correctionsTracker⟩ := handled
  obtain ⟨rfl, ⟨tracker, rfl⟩, knownIDs, htracks, hknown⟩ := h
  have hcount : ((knownIDs (name sighting.1)).any fun pos => isCorrection pos sighting.2) =
      movesKnownPlayer known sighting := by
    rw [hknown _ hid, movesKnownPlayer]
    exact congrArg (Option.any · _) (funext fun pos => decide_far_eq pos sighting.2)
  have hnext : (handlePlayerPositionUpdate manager gamestate (some tracker) (name sighting.1)
      sighting.2).2 =
        some (if movesKnownPlayer known sighting then tracker.correctionMade else tracker) := by
    rw [htracks.handlePlayerPositionUpdate_tracker hremote hassigned, hcount]
    split <;> rfl
  have hadds : AddsNoDuplicate gamestate.localPlayer.networkID knownIDs
      (.playerPosition ⟨name sighting.1, sighting.2⟩) := fun heq => absurd heq hassigned
  have htracked : Tracks (hear knownIDs (.playerPosition ⟨name sighting.1, sighting.2⟩))
      (handlePlayerPositionUpdate manager gamestate (some tracker) (name sighting.1)
        sighting.2).1 := htracks.handleCustomPacket hadds
  rw [hear_of_carried rfl] at htracked
  refine ⟨_, rfl, ⟨?_, ⟨_, hnext⟩, _, htracked, fun id hmem => ?_⟩, ?_⟩
  · exact congrArg LocalPlayer.networkID (handlePlayerPositionUpdate_localPlayer hremote _)
  · rw [see]
    by_cases heq : id = sighting.1
    · subst heq
      simp
    · have hne : name id ≠ name sighting.1 := fun hsame => heq (hname hmem hid hsame)
      simp [heq, hne, hknown id hmem]
  · rw [hnext]
    exact correctionCounted_ite _ _ _ _ rfl rfl

variable (manager) in
/-- The client counts by the rule. -/
theorem reports_handleSighting {stream : List (Sighting ι)}
    (hstart : Knows name localID {id | id ∈ stream.map Prod.fst} handled fun _ => none)
    (hname : Set.InjOn name {id | id ∈ stream.map Prod.fst})
    (hremote : ∀ id ∈ stream.map Prod.fst, name id ≠ localID ∧ name id ≠ unassignedNetworkID) :
    reports (handleSighting manager name) (fun before after => correctionCounted before.2 after.2)
      handled stream = .ok (corrections stream) := by
  refine reports_eq_verdicts (fun sighting hsighting state known hknows => ?_) hstart
  have hid : sighting.1 ∈ stream.map Prod.fst := List.mem_map_of_mem hsighting
  exact hknows.handleSighting hname hid (hremote _ hid).1 (hremote _ hid).2

end RakNet

namespace Yojimbo

variable {ι : Type*} [DecidableEq ι]

/-- The handler on a message of the stream. -/
def handleSighting (name : ι → ClientID) (handled : Handling) (sighting : Sighting ι) :
    Except Stop Handling :=
  processPlayerPositionMessage handled.1 handled.2
    ⟨sighting.2.x, sighting.2.y, name sighting.1⟩

/-- The client has the known players in its map, and counts corrections. -/
def Knows (name : ι → ClientID) (ids : Set ι) (handled : Handling)
    (known : ι → Option Position) : Prop :=
  (∃ tracker, handled.2 = some tracker) ∧
    ∀ id ∈ ids, handled.1.remotePlayerPositions[name id]? = known id

variable {name : ι → ClientID} {ids : Set ι} {handled : Handling} {known : ι → Option Position}

theorem Knows.handleSighting (h : Knows name ids handled known) (hname : Set.InjOn name ids)
    {sighting : Sighting ι} (hid : sighting.1 ∈ ids) :
    ∃ next, Yojimbo.handleSighting name handled sighting = .ok next ∧
      Knows name ids next (see known sighting) ∧
      correctionCounted handled.2 next.2 = movesKnownPlayer known sighting := by
  obtain ⟨gameState, correctionsTracker⟩ := handled
  obtain ⟨⟨tracker, rfl⟩, hknown⟩ := h
  have hcount : ((gameState.remotePlayerPositions[name sighting.1]?).any fun pos =>
      isCorrection pos ⟨sighting.2.x, sighting.2.y, name sighting.1⟩) =
        movesKnownPlayer known sighting := by
    rw [hknown _ hid, movesKnownPlayer]
    exact congrArg (Option.any · _) (funext fun pos => decide_far_eq pos sighting.2)
  have hnext : Yojimbo.handleSighting name (gameState, some tracker) sighting =
      .ok (gameState.addRemotePlayer (name sighting.1) sighting.2,
        some (if movesKnownPlayer known sighting then
          tracker.correctionMade.updatesReceivedInTick else tracker.updatesReceivedInTick)) := by
    simp only [Yojimbo.handleSighting, processPlayerPositionMessage, hcount]
    cases movesKnownPlayer known sighting <;> rfl
  refine ⟨_, hnext, ⟨⟨_, rfl⟩, fun id hmem => ?_⟩, correctionCounted_ite _ _ _ _ rfl rfl⟩
  rw [ClientGameState.addRemotePlayer, Std.TreeMap.getElem?_insert, see]
  by_cases heq : id = sighting.1
  · subst heq
    simp
  · have hne : name sighting.1 ≠ name id := fun hsame => heq (hname hmem hid hsame.symm)
    simp [heq, hne, hknown id hmem]

/-- The client counts by the rule. -/
theorem reports_handleSighting {stream : List (Sighting ι)}
    (hstart : Knows name {id | id ∈ stream.map Prod.fst} handled fun _ => none)
    (hname : Set.InjOn name {id | id ∈ stream.map Prod.fst}) :
    reports (handleSighting name) (fun before after => correctionCounted before.2 after.2)
      handled stream = .ok (corrections stream) := by
  refine reports_eq_verdicts (fun sighting hsighting state known hknows => ?_) hstart
  exact hknows.handleSighting hname (List.mem_map_of_mem hsighting)

end Yojimbo

namespace ENet

variable {ι : Type*} [DecidableEq ι]

/-- The handler on a message of the stream. -/
def handleSighting (name : ι → UInt16) (game : Game) (sighting : Sighting ι) :
    Except Stop Game :=
  .ok (game.handleEvent (.receive
    { x := sighting.2.x, y := sighting.2.y, ownerId := name sighting.1 }))

/-- The client has the last message about every known player, and counts
corrections. -/
def Knows (name : ι → UInt16) (ids : Set ι) (game : Game) (known : ι → Option Position) : Prop :=
  (∃ tracker, game.correctionsTracker = some tracker) ∧
    ∀ id ∈ ids, (game.others[((name id).toNat : ℤ)]?).map PositionUpdateMessage.position = known id

variable {name : ι → UInt16} {ids : Set ι} {game : Game} {known : ι → Option Position}

/-- The test compares a player that is not known with the origin. -/
theorem isCorrection_getD (prevPosition : Option PositionUpdateMessage)
    (data : PositionUpdateMessage) :
    Game.isCorrection (prevPosition.getD .valueInitialized) data =
      !decide (((prevPosition.map PositionUpdateMessage.position).getD ⟨0, 0⟩).OneSpace
        data.position) := by
  rw [← decide_far_eq]
  cases prevPosition <;> rfl

/-- The client counts by the rule, unless it sees a player for the first time
and far from the origin. -/
theorem Knows.handleSighting (h : Knows name ids game known) (hname : Set.InjOn name ids)
    {sighting : Sighting ι} (hid : sighting.1 ∈ ids) :
    ∃ next, ENet.handleSighting name game sighting = .ok next ∧
      Knows name ids next (see known sighting) ∧
      (correctionCounted game.correctionsTracker next.correctionsTracker =
          movesKnownPlayer known sighting ↔
        NearOriginWhenNew known sighting) := by
  obtain ⟨⟨tracker, htracker⟩, hknown⟩ := h
  have hcount : Game.isCorrection
      ((game.others[((name sighting.1).toNat : ℤ)]?).getD .valueInitialized)
      { x := sighting.2.x, y := sighting.2.y, ownerId := name sighting.1 } =
        !decide (((known sighting.1).getD ⟨0, 0⟩).OneSpace sighting.2) := by
    rw [isCorrection_getD, hknown _ hid]
    rfl
  have hnext : (game.handleEvent (.receive
      { x := sighting.2.x, y := sighting.2.y, ownerId := name sighting.1 })).correctionsTracker =
        some (if (!decide (((known sighting.1).getD ⟨0, 0⟩).OneSpace sighting.2)) = true then
          tracker.updatesReceivedInTick.correctionMade else tracker.updatesReceivedInTick) := by
    simp only [Game.handleEvent, Game.receivePositionUpdate, htracker, Option.map_some, hcount]
  have hreport : correctionCounted game.correctionsTracker (game.handleEvent (.receive
      { x := sighting.2.x, y := sighting.2.y, ownerId := name sighting.1 })).correctionsTracker =
        !decide (((known sighting.1).getD ⟨0, 0⟩).OneSpace sighting.2) := by
    rw [hnext, htracker]
    exact correctionCounted_ite _ _ _ _ rfl rfl
  refine ⟨_, rfl, ⟨⟨_, hnext⟩, fun id hmem => ?_⟩, ?_⟩
  · simp only [Game.handleEvent, Game.receivePositionUpdate]
    rw [Std.TreeMap.getElem?_insert, see]
    by_cases heq : id = sighting.1
    · subst heq
      simp [PositionUpdateMessage.position]
    · have hne : (name sighting.1).toNat ≠ (name id).toNat := fun hsame =>
        heq (hname hmem hid (UInt16.toNat_inj.mp hsame.symm))
      simp [heq, hne, hknown id hmem]
  · rw [hreport, movesKnownPlayer, NearOriginWhenNew]
    cases known sighting.1 with
    | none => simp
    | some pos => simp

/-- The client counts by the rule exactly when it sees every player for the first
time near the origin. -/
theorem reports_handleSighting_iff {stream : List (Sighting ι)}
    (hstart : Knows name {id | id ∈ stream.map Prod.fst} game fun _ => none)
    (hname : Set.InjOn name {id | id ∈ stream.map Prod.fst}) :
    reports (handleSighting name)
        (fun before after => correctionCounted before.correctionsTracker after.correctionsTracker)
        game stream = .ok (corrections stream) ↔ FirstSeenNearOrigin stream := by
  have simulated : ∀ sighting ∈ stream, ∀ (state : Game) (known : ι → Option Position),
      Knows name {id | id ∈ stream.map Prod.fst} state known →
        ∃ next, ENet.handleSighting name state sighting = .ok next ∧
          Knows name {id | id ∈ stream.map Prod.fst} next (see known sighting) ∧
          (correctionCounted state.correctionsTracker next.correctionsTracker =
            movesKnownPlayer known sighting ↔ NearOriginWhenNew known sighting) :=
    fun sighting hsighting state known hknows =>
      hknows.handleSighting hname (List.mem_map_of_mem hsighting)
  apply (reports_eq_verdicts_iff simulated hstart).trans
  refine forall₂_congr fun before sighting => forall_congr' fun hpre => ?_
  rw [NearOriginWhenNew, foldl_see_eq_none_iff]

end ENet

/-- What a player is called in each of the programs. -/
structure Names where
  networkID : RakNet.NetworkID
  clientID : Yojimbo.ClientID
  ownerID : UInt16

/-- A client of each kind, with what it logs. -/
structure Clients where
  rakNet : RakNet.ClientGamestate × Option CorrectionsTracker
  yojimbo : Yojimbo.Handling
  enet : ENet.Game

namespace Clients

/-- No client knows a remote player, and all of them log corrections. -/
structure KnowNobody (clients : Clients) : Prop where
  rakNet : clients.rakNet.1.remotePlayerPositions = []
  yojimbo : clients.yojimbo.1.remotePlayerPositions = ∅
  enet : clients.enet.others = ∅
  rakNetLogs : ∃ tracker, clients.rakNet.2 = some tracker
  yojimboLogs : ∃ tracker, clients.yojimbo.2 = some tracker
  enetLogs : ∃ tracker, clients.enet.correctionsTracker = some tracker

variable {ι : Type*}

/-- The players have names of their own in each of the programs, and none of
them is the RakNet client's own. -/
structure Remote (clients : Clients) (names : ι → Names) (ids : Set ι) : Prop where
  networkIDs : Set.InjOn (fun id => (names id).networkID) ids
  clientIDs : Set.InjOn (fun id => (names id).clientID) ids
  ownerIDs : Set.InjOn (fun id => (names id).ownerID) ids
  notLocal : ∀ id ∈ ids, (names id).networkID ≠ clients.rakNet.1.localPlayer.networkID ∧
    (names id).networkID ≠ RakNet.unassignedNetworkID

variable [DecidableEq ι]

/-- All three clients get through the stream and call `correctionMade` for the
messages that the rule counts. -/
def CountByRule (clients : Clients) (manager : RakNet.NetworkIDManager) (names : ι → Names)
    (stream : List (Sighting ι)) : Prop :=
  reports (RakNet.handleSighting manager fun id => (names id).networkID)
      (fun before after => correctionCounted before.2 after.2) clients.rakNet stream =
    .ok (corrections stream) ∧
  reports (Yojimbo.handleSighting fun id => (names id).clientID)
      (fun before after => correctionCounted before.2 after.2) clients.yojimbo stream =
    .ok (corrections stream) ∧
  reports (ENet.handleSighting fun id => (names id).ownerID)
      (fun before after => correctionCounted before.correctionsTracker after.correctionsTracker)
      clients.enet stream =
    .ok (corrections stream)

/-- **Same rule.** The three clients count the same messages of a stream, those
that move a known player by more than one space, if and only if the first
message about every player is within one space of the origin. -/
theorem countByRule_iff {clients : Clients} (hnobody : clients.KnowNobody)
    (manager : RakNet.NetworkIDManager) {names : ι → Names} {stream : List (Sighting ι)}
    (hremote : clients.Remote names {id | id ∈ stream.map Prod.fst}) :
    clients.CountByRule manager names stream ↔ FirstSeenNearOrigin stream := by
  have hrakNet : RakNet.Knows (fun id => (names id).networkID)
      clients.rakNet.1.localPlayer.networkID {id | id ∈ stream.map Prod.fst} clients.rakNet
      fun _ => none := by
    refine ⟨rfl, hnobody.rakNetLogs, fun _ => none, ⟨?_, fun id pos => ?_⟩, fun _ _ => rfl⟩
    · rw [RakNet.ClientGamestate.Distinct, RakNet.ClientGamestate.objectIDs, hnobody.rakNet]
      exact List.nodup_singleton _
    · simp [hnobody.rakNet]
  have hyojimbo : Yojimbo.Knows (fun id => (names id).clientID)
      {id | id ∈ stream.map Prod.fst} clients.yojimbo fun _ => none := by
    refine ⟨hnobody.yojimboLogs, fun id _ => ?_⟩
    rw [hnobody.yojimbo]
    exact Std.TreeMap.getElem?_emptyc
  have henet : ENet.Knows (fun id => (names id).ownerID)
      {id | id ∈ stream.map Prod.fst} clients.enet fun _ => none := by
    refine ⟨hnobody.enetLogs, fun id _ => ?_⟩
    rw [hnobody.enet, Std.TreeMap.getElem?_emptyc, Option.map_none]
  have hfirst := RakNet.reports_handleSighting manager hrakNet hremote.networkIDs hremote.notLocal
  have hsecond := Yojimbo.reports_handleSighting hyojimbo hremote.clientIDs
  have hthird := ENet.reports_handleSighting_iff henet hremote.ownerIDs
  rw [CountByRule, and_iff_right hfirst, and_iff_right hsecond, hthird]

/-- Three clients that have just started. -/
def justStarted : Clients where
  rakNet := (.createLocalPlayer ⟨100, 100, 2⟩ 9 ⟨50, 50⟩, some {})
  yojimbo := ({ mapHeight := 100, mapWidth := 100, numPlayers := 2, localPlayer := ⟨⟨50, 50⟩⟩ },
    some {})
  enet := .create 100 100 false true

/-- Small numbers as names. -/
def numbered (id : Fin 8) : Names := ⟨id.val.toUInt64, id.val.toUInt8, id.val.toUInt16⟩

theorem numbered_remote (ids : Set (Fin 8)) : justStarted.Remote numbered ids where
  networkIDs := by
    have hall : ∀ first second, (numbered first).networkID = (numbered second).networkID →
        first = second := by decide
    exact fun first _ second _ => hall first second
  clientIDs := by
    have hall : ∀ first second, (numbered first).clientID = (numbered second).clientID →
        first = second := by decide
    exact fun first _ second _ => hall first second
  ownerIDs := by
    have hall : ∀ first second, (numbered first).ownerID = (numbered second).ownerID →
        first = second := by decide
    exact fun first _ second _ => hall first second
  notLocal := by
    have hall : ∀ id, (numbered id).networkID ≠ justStarted.rakNet.1.localPlayer.networkID ∧
        (numbered id).networkID ≠ RakNet.unassignedNetworkID := by decide
    exact fun id _ => hall id

/-- A player seen at the origin's corner and then further away: all three count
the second message, so the first was near the origin. -/
theorem firstSeenNearOrigin_corner :
    FirstSeenNearOrigin [((5 : Fin 8), Position.mk 1 0), (5, Position.mk 3 0)] := by
  have hnobody : justStarted.KnowNobody := ⟨rfl, rfl, rfl, ⟨_, rfl⟩, ⟨_, rfl⟩, ⟨_, rfl⟩⟩
  exact (countByRule_iff hnobody RakNet.firstRegistered (numbered_remote _)).mp ⟨rfl, rfl, rfl⟩

/-- The first message about a player, at (3, 4), moves nobody. Two clients do not
count it and the third does. -/
theorem first_message_counted_by_one :
    reports (RakNet.handleSighting RakNet.firstRegistered fun id => (numbered id).networkID)
        (fun before after => correctionCounted before.2 after.2) justStarted.rakNet
        [(5, ⟨3, 4⟩)] = .ok [false] ∧
      reports (Yojimbo.handleSighting fun id => (numbered id).clientID)
        (fun before after => correctionCounted before.2 after.2) justStarted.yojimbo
        [(5, ⟨3, 4⟩)] = .ok [false] ∧
      reports (ENet.handleSighting fun id => (numbered id).ownerID)
        (fun before after =>
          correctionCounted before.correctionsTracker after.correctionsTracker)
        justStarted.enet [(5, ⟨3, 4⟩)] = .ok [true] := by
  refine ⟨?_, ?_, ?_⟩
  · rfl
  · rfl
  · rfl

end Clients

end LibBench
