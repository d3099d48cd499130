/-
# ENet: the client

`enet/EnetClient/Game.cpp`. A tick chooses an action, performs it, sends the new
position and then handles what the library reports. The client keeps its own
position in the form of a message, and the last message about every other
player in a map.

The map is read with `[]`. A player that has no entry yet is given one at that
moment, with every coordinate zero, and the position of the message is compared
with it.
-/

import Std.Data.TreeMap.Lemmas
import LibBench.ENet.Messages
import LibBench.Game.CorrectionsTracker

namespace LibBench.ENet

/-- `Game`, with the position of its client. There is a tracker exactly when
corrections are counted. -/
structure Game where
  mapHeight : ℤ
  mapWidth : ℤ
  channel : ℕ
  clientPos : PositionUpdateMessage := { x := 1, y := 1, ownerId := 0 }
  others : Std.TreeMap ℤ PositionUpdateMessage := ∅
  correctionsTracker : Option CorrectionsTracker := none

/-- `MAX_POSITION_CORRECTION`. -/
def maxPositionCorrection : ℤ := 2

namespace Game

/-- The constructor. Channel 0 is the one for reliable messages. -/
def create (width height : ℤ) (reliableMessage logCorrections : Bool) : Game where
  mapHeight := height
  mapWidth := width
  channel := if reliableMessage then 0 else 1
  correctionsTracker := if logCorrections then some {} else none

/-- The actions a tick chooses from, in the order it lists them. -/
def possibleActions (game : Game) : List (PossibleMovements × PositionUpdateMessage) :=
  let playerPos := game.clientPos
  (if 1 ≤ (playerPos.y.toNat : ℤ) then
    [(.playerMoveUp, { x := playerPos.x, y := playerPos.y - 1, ownerId := 0 })] else []) ++
  (if (playerPos.y.toNat : ℤ) ≤ game.mapHeight - 1 then
    [(.playerMoveDown, { x := playerPos.x, y := playerPos.y + 1, ownerId := 0 })] else []) ++
  (if 1 ≤ (playerPos.x.toNat : ℤ) then
    [(.playerMoveLeft, { x := playerPos.x - 1, y := playerPos.y, ownerId := 0 })] else []) ++
  (if (playerPos.x.toNat : ℤ) ≤ game.mapWidth - 1 then
    [(.playerMoveRight, { x := playerPos.x + 1, y := playerPos.y, ownerId := 0 })] else [])

/-- `moveLocalPlayer`. -/
def moveLocalPlayer (game : Game) (newPos : PositionUpdateMessage) : Game :=
  { game with clientPos := newPos }

/-- The first half of a tick: choose an action at random, perform it and send
the position, with the channel it is sent on. -/
def performAction (game : Game) (draw : ℕ) : Except Stop (Game × ℕ × PositionUpdateMessage) :=
  let actions := game.possibleActions
  match actions[draw % max actions.length 1]? with
  | none => .error .noPossibleAction
  | some chosenAction =>
      let moved := game.moveLocalPlayer { chosenAction.2 with messageType := .positionUpdate }
      .ok (moved, moved.channel, moved.clientPos)

/-- The client's test for a correction: the previous position and the received
one are two or more apart on an axis. -/
def isCorrection (prevPosition data : PositionUpdateMessage) : Bool :=
  decide (maxPositionCorrection ≤ |Position.difference prevPosition.x data.x|) ||
    decide (maxPositionCorrection ≤ |Position.difference prevPosition.y data.y|)

/-- The position update branch of a tick. -/
def receivePositionUpdate (game : Game) (data : PositionUpdateMessage) : Game :=
  let prevPosition := (game.others[(data.ownerId.toNat : ℤ)]?).getD .valueInitialized
  { game with
    correctionsTracker := game.correctionsTracker.map fun tracker =>
      if isCorrection prevPosition data then tracker.updatesReceivedInTick.correctionMade
      else tracker.updatesReceivedInTick
    others := game.others.insert data.ownerId.toNat data }

/-- The second half of a tick, for one event. A join is printed only; after a
disconnect the client tries to connect again, which does not touch the game. -/
def handleEvent (game : Game) : HostEvent → Game
  | .receive data =>
      match data.messageType with
      | .positionUpdate => game.receivePositionUpdate data
      | .playerJoin | .receivedPosition | .gameConfig | .unknown => game
  | .disconnect | .other => game

/-- A tick: move, handle the events and write the row of the log. -/
def tick (game : Game) (draw : ℕ) (events : List HostEvent) :
    Except Stop (Game × ℕ × PositionUpdateMessage) :=
  match game.performAction draw with
  | .error stop => .error stop
  | .ok (moved, sent) =>
      let handled := events.foldl handleEvent moved
      .ok ({ handled with
        correctionsTracker := handled.correctionsTracker.map CorrectionsTracker.writeLine }, sent)

end Game

end LibBench.ENet
