/-
# ENet: the walk of the client

What `Game::tick` does tick after tick. The client starts on the cell (1, 1) and
moves by one of the actions it lists; the messages it receives are about other
players. The bounds tests are made in `int`, where the coordinates are promoted,
and what they let through is narrowed back to 16 bits.

The tests let a coordinate reach the width or the height, not pass it. On a map
with a row and a column there is always an action to choose, so the list is
never indexed while it is empty, and on a map whose size fits into 16 bits the
narrowing loses nothing.
-/

import LibBench.ENet.Game
import LibBench.Math.Execution

namespace LibBench.ENet

open LibBench.Math

/-- The cell is on the map, the far edges included. -/
def InMap (width height : ℤ) (pos : Position) : Prop :=
  (pos.x.toNat : ℤ) ≤ width ∧ (pos.y.toNat : ℤ) ≤ height

namespace Game

variable {game : Game}

/-- The client is on a map that has a row and a column and whose size is a
number of 16 bits. -/
structure OnMap (game : Game) : Prop where
  width : 1 ≤ game.mapWidth ∧ game.mapWidth ≤ 65535
  height : 1 ≤ game.mapHeight ∧ game.mapHeight ≤ 65535
  inMap : InMap game.mapWidth game.mapHeight game.clientPos.position

/-- A client in the first row can move down, any other one up. -/
theorem possibleActions_ne_nil (hheight : 1 ≤ game.mapHeight) : game.possibleActions ≠ [] := by
  intro h
  simp only [possibleActions, List.append_eq_nil_iff, ite_eq_right_iff, List.cons_ne_self,
    imp_false] at h
  obtain ⟨⟨⟨hup, hdown⟩, _⟩, _⟩ := h
  omega

/-- Each action leads to a neighbouring cell on the map: no coordinate wraps. -/
theorem OnMap.of_mem_possibleActions (h : game.OnMap)
    {action : PossibleMovements × PositionUpdateMessage} (haction : action ∈ game.possibleActions) :
    game.clientPos.position.UnitStep action.2.position ∧
      InMap game.mapWidth game.mapHeight action.2.position := by
  obtain ⟨hx, hy⟩ := h.inMap
  have hpos {n : UInt16} (hn : 1 ≤ (n.toNat : ℤ)) : 0 < n :=
    UInt16.lt_iff_toNat_lt.mpr (Int.ofNat_lt.mp hn)
  have hlt {n : UInt16} {size : ℤ} (hn : (n.toNat : ℤ) ≤ size - 1) (hsize : size ≤ 65535) :
      n < 65535 := UInt16.lt_iff_toNat_lt.mpr (show n.toNat < 65535 by omega)
  simp only [possibleActions, List.mem_append] at haction
  unfold Position.UnitStep InMap
  rcases haction with ((haction | haction) | haction) | haction <;> split at haction <;>
    simp only [List.mem_singleton, List.not_mem_nil] at haction
  · next hup =>
      subst haction
      have hy' := toNat_sub_one (hpos hup)
      simp only [PositionUpdateMessage.position] at hx hy ⊢
      exact ⟨by simp [Position.difference_sub_one (hpos hup)], hx, by omega⟩
  · next hdown =>
      subst haction
      have hy' := toNat_add_one (hlt hdown h.height.2)
      simp only [PositionUpdateMessage.position] at hx hy ⊢
      exact ⟨by simp [Position.difference_add_one (hlt hdown h.height.2)], hx, by omega⟩
  · next hleft =>
      subst haction
      have hx' := toNat_sub_one (hpos hleft)
      simp only [PositionUpdateMessage.position] at hx hy ⊢
      exact ⟨by simp [Position.difference_sub_one (hpos hleft)], by omega, hy⟩
  · next hright =>
      subst haction
      have hx' := toNat_add_one (hlt hright h.width.2)
      simp only [PositionUpdateMessage.position] at hx hy ⊢
      exact ⟨by simp [Position.difference_add_one (hlt hright h.width.2)], by omega, hy⟩

/-- A message or a lost connection touches what is known of the others and the
log, and nothing else. -/
theorem handleEvent_frame (game : Game) (event : HostEvent) : ∃ others correctionsTracker,
    game.handleEvent event = { game with others, correctionsTracker } := by
  cases event with
  | receive data =>
      cases hkind : data.messageType with
      | positionUpdate =>
          rw [handleEvent, hkind]
          exact ⟨_, _, rfl⟩
      | playerJoin | receivedPosition | gameConfig | unknown =>
          rw [handleEvent, hkind]
          exact ⟨_, _, rfl⟩
  | disconnect | other => exact ⟨_, _, rfl⟩

theorem handleEvents_frame (game : Game) (events : List HostEvent) : ∃ others correctionsTracker,
    events.foldl handleEvent game = { game with others, correctionsTracker } := by
  induction events generalizing game with
  | nil => exact ⟨_, _, rfl⟩
  | cons event events ih =>
      obtain ⟨_, _, hevent⟩ := handleEvent_frame game event
      obtain ⟨others, tracker, hevents⟩ := ih (game.handleEvent event)
      rw [List.foldl_cons, hevents, hevent]
      exact ⟨others, tracker, rfl⟩

/-- There is an action at the index that is drawn. -/
theorem exists_performAction (hactions : game.possibleActions ≠ []) (draw : ℕ) :
    ∃ action ∈ game.possibleActions, ∃ message,
      game.performAction draw = .ok (game.moveLocalPlayer message, game.channel, message) ∧
        message.position = action.2.position := by
  have hpos : 0 < game.possibleActions.length := List.length_pos_iff.mpr hactions
  have hindex : draw % max game.possibleActions.length 1 < game.possibleActions.length := by
    rw [max_eq_left hpos]
    exact Nat.mod_lt _ hpos
  refine ⟨_, List.get_mem _ ⟨_, hindex⟩,
    { (game.possibleActions.get ⟨_, hindex⟩).2 with messageType := .positionUpdate }, ?_, rfl⟩
  simp only [performAction, List.getElem?_eq_getElem hindex]
  rfl

/-- A tick takes the client to a neighbouring cell on the map, where it stays
whatever it receives, and sends that position. -/
theorem OnMap.exists_tick (h : game.OnMap) (draw : ℕ) (events : List HostEvent) :
    ∃ next message, game.tick draw events = .ok (next, game.channel, message) ∧
      next.clientPos = message ∧
      next.mapWidth = game.mapWidth ∧ next.mapHeight = game.mapHeight ∧
      game.clientPos.position.UnitStep message.position ∧
      InMap game.mapWidth game.mapHeight message.position := by
  obtain ⟨action, haction, message, hperform, hmessage⟩ :=
    exists_performAction (possibleActions_ne_nil h.height.1) draw
  obtain ⟨hunit, hinMap⟩ := h.of_mem_possibleActions haction
  obtain ⟨others, tracker, hevents⟩ := handleEvents_frame (game.moveLocalPlayer message) events
  rw [← hmessage] at hunit hinMap
  refine ⟨{ game.moveLocalPlayer message with
    others, correctionsTracker := tracker.map CorrectionsTracker.writeLine }, message, ?_,
    rfl, rfl, rfl, hunit, hinMap⟩
  simp only [tick, hperform, hevents]

end Game

/-- What a tick meets: the random number and the events of the host. -/
structure TickInput where
  draw : ℕ
  events : List HostEvent

/-- The client with the positions it has sent. -/
structure Walk where
  game : Game
  sent : List PositionUpdateMessage := []

namespace Walk

/-- The client before its first tick. -/
def start (width height : ℤ) (reliableMessage logCorrections : Bool) : Walk where
  game := .create width height reliableMessage logCorrections

/-- The loop body of `startGameLoop`. -/
def tick (walk : Walk) (input : TickInput) : Except Stop Walk :=
  match walk.game.tick input.draw input.events with
  | .error stop => .error stop
  | .ok (game, _, message) => .ok { game, sent := walk.sent ++ [message] }

/-- The cells of the walk, from the first one on. -/
def path (walk : Walk) : List Position :=
  ⟨1, 1⟩ :: walk.sent.map PositionUpdateMessage.position

/-- The client has walked from cell to neighbouring cell on the map, and is where
it last said. -/
structure Safe (width height : ℤ) (walk : Walk) : Prop where
  size : walk.game.mapWidth = width ∧ walk.game.mapHeight = height
  inMap : ∀ pos ∈ walk.path, InMap width height pos
  steps : walk.path.IsChain Position.UnitStep
  last : walk.path.getLast? = some walk.game.clientPos.position

variable {width height : ℤ} {walk : Walk}

theorem Safe.onMap (h : Safe width height walk) (hwidth : 1 ≤ width ∧ width ≤ 65535)
    (hheight : 1 ≤ height ∧ height ≤ 65535) : walk.game.OnMap := by
  obtain ⟨hgameWidth, hgameHeight⟩ := h.size
  refine ⟨hgameWidth ▸ hwidth, hgameHeight ▸ hheight, ?_⟩
  rw [hgameWidth, hgameHeight]
  exact h.inMap _ (List.mem_of_getLast? h.last)

/-- A tick returns and adds a step to the walk. -/
theorem Safe.exists_tick (h : Safe width height walk) (hwidth : 1 ≤ width ∧ width ≤ 65535)
    (hheight : 1 ≤ height ∧ height ≤ 65535) (input : TickInput) :
    ∃ next, walk.tick input = .ok next ∧ Safe width height next := by
  obtain ⟨game, message, htick, hstays, hmapWidth, hmapHeight, hunit, hinMap⟩ :=
    (h.onMap hwidth hheight).exists_tick input.draw input.events
  rw [h.size.1, h.size.2] at hinMap
  have hpath : path { game, sent := walk.sent ++ [message] } = walk.path ++ [message.position] := by
    simp [path]
  refine ⟨{ game, sent := walk.sent ++ [message] }, by rw [tick, htick], ?_, ?_, ?_, ?_⟩
  · exact ⟨hmapWidth.trans h.size.1, hmapHeight.trans h.size.2⟩
  · rw [hpath]
    exact List.forall_mem_append.mpr ⟨h.inMap, List.forall_mem_singleton.mpr hinMap⟩
  · rw [hpath, List.isChain_append]
    refine ⟨h.steps, List.isChain_singleton _, ?_⟩
    simp only [h.last, List.head?_cons, Option.mem_def, Option.some.injEq, forall_eq']
    exact hunit
  · rw [hpath, List.getLast?_concat, hstays]

/-- Every tick sends one position. -/
theorem length_sent_of_run {start : Walk} {inputs : List TickInput}
    (hrun : run tick start inputs = .ok walk) :
    walk.sent.length = start.sent.length + inputs.length := by
  induction inputs generalizing start with
  | nil => rw [← Except.ok.inj hrun, List.length_nil, Nat.add_zero]
  | cons input inputs ih =>
      obtain ⟨next, htick, hrest⟩ := run_cons_eq_ok.mp hrun
      rw [tick] at htick
      split at htick
      · cases htick
      · obtain rfl := Except.ok.inj htick
        rw [ih hrest, List.length_append, List.length_singleton, List.length_cons, Nat.add_assoc,
          Nat.add_comm 1]

/-- **The walk is safe.** On every map whose width and height are at least 1 and
fit into 16 bits, for all random numbers and all events of the host, the ticks
return, and each of them has sent a position. After them the list of actions is
not empty and none of its coordinates has wrapped; the cells of the walk are all
on the map, each one step from the one before; and the client is on the last of
them, whatever it has received. -/
theorem walk_is_safe (hwidth : 1 ≤ width ∧ width ≤ 65535) (hheight : 1 ≤ height ∧ height ≤ 65535)
    (reliableMessage logCorrections : Bool) (inputs : List TickInput) :
    ∃ walk, run tick (start width height reliableMessage logCorrections) inputs = .ok walk ∧
      walk.sent.length = inputs.length ∧
      Safe width height walk ∧
      walk.game.possibleActions ≠ [] ∧
      (∀ action ∈ walk.game.possibleActions,
        walk.game.clientPos.position.UnitStep action.2.position) ∧
      ∀ (game : Game) (event : HostEvent), (game.handleEvent event).clientPos = game.clientPos := by
  have hstart : Safe width height (start width height reliableMessage logCorrections) := by
    refine ⟨⟨rfl, rfl⟩, List.forall_mem_singleton.mpr ⟨hwidth.1, hheight.1⟩,
      List.isChain_singleton _, rfl⟩
  obtain ⟨walk, hrun, hsafe⟩ := exists_run
    (fun _ input h => Safe.exists_tick h hwidth hheight input) hstart inputs
  have honMap := hsafe.onMap hwidth hheight
  have hlength : walk.sent.length = inputs.length := by
    rw [length_sent_of_run hrun, start, List.length_nil, Nat.zero_add]
  refine ⟨walk, hrun, hlength, hsafe, Game.possibleActions_ne_nil honMap.height.1,
    fun action haction => (honMap.of_mem_possibleActions haction).1, fun game event => ?_⟩
  obtain ⟨_, _, hevent⟩ := game.handleEvent_frame event
  rw [hevent]

/-- On the map of `main`, with a message about another player in the first
tick. -/
theorem walk_of_two_ticks_is_safe :
    ∃ walk, run tick (start 100 100 true true)
        [⟨6, [.receive { x := 40, y := 2, ownerId := 3 }]⟩, ⟨5, [.disconnect]⟩] = .ok walk ∧
      walk.sent.length = 2 ∧
      Safe 100 100 walk ∧
      walk.game.possibleActions ≠ [] ∧
      (∀ action ∈ walk.game.possibleActions,
        walk.game.clientPos.position.UnitStep action.2.position) ∧
      ∀ (game : Game) (event : HostEvent), (game.handleEvent event).clientPos = game.clientPos :=
  walk_is_safe (by decide) (by decide) true true _

end Walk

end LibBench.ENet
