/-
# RakNet: what one client's moves can change

Two runs of the server that differ only in the moves received from one address.
The server reads the player to be moved from the message, not from the address
it came from, and it spawns a new player on a cell that nobody occupies. So a
client changes the position of every player that it names, and, by where its own
player stands, the cell on which a later player appears.

Nothing else changes. The entries of `connectedPlayers` are the same in both
runs, and so is every player that spawned on the same cells in both and is named
by none of these moves, with the flag that the broadcast looks at. The random
numbers may differ too: a cell that is taken in one run only makes the spawner
draw more of them there.
-/

import LibBench.RakNet.MapBounds
import LibBench.RakNet.Roster

namespace LibBench.RakNet

open LibBench.Math

/-- Whether the event is a move received from the address. -/
def ServerEvent.isMoveFrom (address : SystemAddress) : ServerEvent → Bool
  | .receive sender (.custom (.playerMove _)) _ => decide (sender = address)
  | _ => false

/-- What is received when the moves from the address are left out. -/
def withoutMovesFrom (address : SystemAddress) (events : List ServerEvent) : List ServerEvent :=
  events.filter fun event => !event.isMoveFrom address

/-- The event without the random numbers that are drawn for it. -/
def ServerEvent.withoutDraws : ServerEvent → ServerEvent
  | .receive sender packet admission => .receive sender packet ⟨admission.networkID, []⟩
  | .endTick => .endTick

/-- What is received and when, and nothing about the random numbers. -/
def upToDraws (events : List ServerEvent) : List ServerEvent :=
  events.map ServerEvent.withoutDraws

theorem ServerEvent.withoutDraws_eq_receive {sender : SystemAddress} {packet : Packet}
    {admission : Admission} {event : ServerEvent}
    (h : (ServerEvent.receive sender packet admission).withoutDraws = event.withoutDraws) :
    ∃ draws, event = .receive sender packet ⟨admission.networkID, draws⟩ := by
  cases event with
  | endTick => cases h
  | receive other received admitted =>
      obtain ⟨rfl, rfl, hadmission⟩ := ServerEvent.receive.inj h
      exact ⟨admitted.draws, by rw [(Admission.mk.inj hadmission).1]⟩

theorem ServerEvent.withoutDraws_eq_endTick {event : ServerEvent}
    (h : ServerEvent.endTick.withoutDraws = event.withoutDraws) : event = .endTick := by
  cases event with
  | endTick => rfl
  | receive => cases h

/-- None of the moves from the address names the player. -/
def NeverNames (address : SystemAddress) (id : NetworkID) (events : List ServerEvent) : Prop :=
  ∀ event ∈ events, event.isMoveFrom address = true → ∀ update ∈ event.offer, update.1 ≠ id

instance (address : SystemAddress) (id : NetworkID) (events : List ServerEvent) :
    Decidable (NeverNames address id events) :=
  inferInstanceAs (Decidable (∀ event ∈ events, event.isMoveFrom address = true →
    ∀ update ∈ event.offer, update.1 ≠ id))

theorem Roster.observe_of_isMoveFrom {address : SystemAddress} {event : ServerEvent}
    (h : event.isMoveFrom address = true) (roster : Roster) : roster.observe event = roster := by
  unfold ServerEvent.isMoveFrom at h
  split at h
  · rfl
  · cases h

/-- Moves do not change who is in the game. -/
theorem Roster.after_withoutMovesFrom (address : SystemAddress) (events : List ServerEvent) :
    Roster.after (withoutMovesFrom address events) = Roster.after events := by
  induction events using List.reverseRecOn with
  | nil => rfl
  | append_singleton events event ih =>
      rw [Roster.after, withoutMovesFrom, List.filter_append, List.foldl_append,
        List.filter_singleton, Roster.after, List.foldl_concat]
      have hrest : (events.filter fun event => !event.isMoveFrom address).foldl Roster.observe
          Roster.empty = events.foldl Roster.observe Roster.empty := ih
      rw [hrest]
      cases hmove : event.isMoveFrom address with
      | false => rfl
      | true => exact (Roster.observe_of_isMoveFrom hmove _).symm

/-- Nor do the random numbers. -/
theorem Roster.after_upToDraws (events : List ServerEvent) :
    Roster.after (upToDraws events) = Roster.after events := by
  have hobserve (roster : Roster) (event : ServerEvent) :
      roster.observe event.withoutDraws = roster.observe event := by
    cases event with
    | endTick => rfl
    | receive sender packet admission =>
        cases packet with
        | custom message => rfl
        | library identifier => cases identifier <;> rfl
  rw [Roster.after, upToDraws, List.foldl_map]
  exact congrArg (fun observe => events.foldl observe Roster.empty)
    (funext₂ hobserve)

namespace ServerGamestate

/-- The cell on which an event spawns the player. -/
def spawnCell (id : NetworkID) (gamestate : ServerGamestate) : ServerEvent → Option Position
  | .receive _ (.library .newIncomingConnection) admission =>
      if admission.networkID = id then
        (gamestate.findSpawnPosition admission.draws).toOption
      else none
  | _ => none

/-- The cells on which a run of the server spawns the player, one for each time
that the id is given. -/
def spawnCells (id : NetworkID) (start : ServerGamestate) (events : List ServerEvent) :
    List Position :=
  observations step (spawnCell id) start events

/-- Two states in which the same addresses have entries and one player and its
queued updates are the same. -/
structure AlikeFor (id : NetworkID) (first second : ServerGamestate) : Prop where
  entries : ∀ address : SystemAddress,
    first.connectedPlayers[address]? = second.connectedPlayers[address]?
  player : first.objects id = second.objects id
  queue : ownUpdates id first.updatedPlayerPositions =
    ownUpdates id second.updatedPlayerPositions

variable {id : NetworkID} {first second firstNext secondNext : ServerGamestate}

/-- The update loop treats the player alike. -/
theorem AlikeFor.midway (h : AlikeFor id first second) :
    (first.midway first.updatedPlayerPositions).objects id =
      (second.midway second.updatedPlayerPositions).objects id := by
  rw [midway_objects, midway_objects, h.player, h.queue]

theorem AlikeFor.performTick (h : AlikeFor id first second) :
    AlikeFor id first.performTick second.performTick where
  entries := h.entries
  player := by
    have hconnected : id ∈ first.connectedPlayers.toList.map Prod.snd ↔
        id ∈ second.connectedPlayers.toList.map Prod.snd := by
      simp only [mem_connectedIDs, h.entries]
    simp only [performTick_objects, h.player, h.queue, hconnected]
  queue := rfl

theorem AlikeFor.addPlayer (h : AlikeFor id first second) (address : SystemAddress)
    (networkID : NetworkID) {pos other : Position} (hpos : id = networkID → pos = other) :
    AlikeFor id (first.addPlayer address networkID pos)
      (second.addPlayer address networkID other) where
  entries there := by rw [addPlayer_getElem?, addPlayer_getElem?, h.entries, h.entries]
  player := by
    rw [addPlayer_objects, addPlayer_objects]
    split
    · next heq => rw [hpos heq]
    · exact h.player
  queue := h.queue

theorem AlikeFor.removePlayer (h : AlikeFor id first second) (address : SystemAddress) :
    AlikeFor id (first.removePlayer address) (second.removePlayer address) where
  entries there := by rw [removePlayer_getElem?, removePlayer_getElem?, h.entries]
  player := by rw [removePlayer_objects, removePlayer_objects, h.entries, h.player]
  queue := by
    rw [removePlayer_updatedPlayerPositions, removePlayer_updatedPlayerPositions, h.queue]

/-- Both runs handle one event alike, if it does not spawn the player on
different cells. -/
theorem AlikeFor.both (h : AlikeFor id first second) {event other : ServerEvent}
    (hlook : event.withoutDraws = other.withoutDraws)
    (hcell : first.spawnCell id event = second.spawnCell id other)
    (hfirst : first.step event = .ok firstNext) (hsecond : second.step other = .ok secondNext) :
    AlikeFor id firstNext secondNext := by
  cases effect_of_step hfirst with
  | @join address admission pos found _ _ =>
      obtain ⟨draws, rfl⟩ := ServerEvent.withoutDraws_eq_receive hlook
      cases effect_of_step hsecond with
      | @join _ _ other foundOther _ _ =>
          apply h.addPlayer address admission.networkID
          intro heq
          rw [spawnCell, spawnCell, if_pos heq.symm, if_pos heq.symm, found, foundOther] at hcell
          exact Option.some.inj hcell
      | skipLibrary hnew _ => exact absurd rfl hnew
  | leave =>
      obtain ⟨draws, rfl⟩ := ServerEvent.withoutDraws_eq_receive hlook
      cases effect_of_step hsecond with
      | leave => exact h.removePlayer _
      | skipLibrary _ hlost => exact absurd rfl hlost
  | queue =>
      obtain ⟨draws, rfl⟩ := ServerEvent.withoutDraws_eq_receive hlook
      cases effect_of_step hsecond with
      | queue =>
          refine ⟨h.entries, h.player, ?_⟩
          rw [ownUpdates_append, ownUpdates_append, h.queue]
      | skipCustom hmove => exact absurd rfl (hmove _)
  | skipLibrary hnew hlost =>
      obtain ⟨draws, rfl⟩ := ServerEvent.withoutDraws_eq_receive hlook
      cases effect_of_step hsecond with
      | join => exact absurd rfl hnew
      | leave => exact absurd rfl hlost
      | skipLibrary => exact h
  | skipCustom hmove =>
      obtain ⟨draws, rfl⟩ := ServerEvent.withoutDraws_eq_receive hlook
      cases effect_of_step hsecond with
      | queue => exact absurd rfl (hmove _)
      | skipCustom => exact h
  | tick _ =>
      obtain rfl := ServerEvent.withoutDraws_eq_endTick hlook
      cases effect_of_step hsecond with
      | tick _ => exact h.performTick

/-- A move that does not name the player, in one of the runs only. -/
theorem alikeFor_of_isMoveFrom {address : SystemAddress} {event : ServerEvent}
    (hmove : event.isMoveFrom address = true) (hnames : ∀ update ∈ event.offer, update.1 ≠ id)
    (hstep : first.step event = .ok firstNext) : AlikeFor id firstNext first := by
  cases effect_of_step hstep with
  | queue =>
      refine ⟨fun _ => rfl, rfl, ?_⟩
      rw [ownUpdates_append, ownUpdates_cons, if_neg (hnames _ rfl), ownUpdates_nil,
        List.append_nil]
  | join | leave | skipLibrary | tick => cases hmove
  | @skipCustom _ _ message hskip =>
      cases message with
      | playerMove move => exact absurd rfl (hskip move)
      | gameConfig | playerSpawn | playerJoin | playerLeave | playerPosition => cases hmove

theorem AlikeFor.symm (h : AlikeFor id first second) : AlikeFor id second first :=
  ⟨fun address => (h.entries address).symm, h.player.symm, h.queue.symm⟩

theorem AlikeFor.trans {third : ServerGamestate} (h : AlikeFor id first second)
    (honward : AlikeFor id second third) : AlikeFor id first third :=
  ⟨fun address => (h.entries address).trans (honward.entries address),
    h.player.trans honward.player, h.queue.trans honward.queue⟩

theorem spawnCell_of_isMoveFrom {address : SystemAddress} {event : ServerEvent}
    (hmove : event.isMoveFrom address = true) : first.spawnCell id event = none := by
  unfold ServerEvent.isMoveFrom at hmove
  split at hmove
  · rfl
  · cases hmove

/-- An event that both runs handle spawns the player in both or in neither. -/
theorem length_spawnCell {event other : ServerEvent}
    (hlook : event.withoutDraws = other.withoutDraws) (hfirst : first.step event = .ok firstNext)
    (hsecond : second.step other = .ok secondNext) :
    (first.spawnCell id event).toList.length = (second.spawnCell id other).toList.length := by
  cases effect_of_step hfirst with
  | join found =>
      obtain ⟨draws, rfl⟩ := ServerEvent.withoutDraws_eq_receive hlook
      cases effect_of_step hsecond with
      | join foundOther =>
          rw [spawnCell, spawnCell, found, foundOther]
          split <;> rfl
      | skipLibrary hnew _ => exact absurd rfl hnew
  | leave | queue | skipCustom =>
      obtain ⟨draws, rfl⟩ := ServerEvent.withoutDraws_eq_receive hlook
      rfl
  | tick =>
      obtain rfl := ServerEvent.withoutDraws_eq_endTick hlook
      rfl
  | @skipLibrary _ _ identifier hnew _ =>
      obtain ⟨draws, rfl⟩ := ServerEvent.withoutDraws_eq_receive hlook
      cases identifier with
      | newIncomingConnection => exact absurd rfl hnew
      | connectionLost | connectionRequestAccepted | connectionAttemptFailed
      | disconnectionNotification | other => rfl

/-- Runs with the same events but for the moves from one address stay alike for a
player that these moves do not name and that spawns on the same cells. -/
theorem alikeFor_run {address : SystemAddress} {start : ServerGamestate}
    {firstEvents secondEvents : List ServerEvent}
    (hsame : upToDraws (withoutMovesFrom address firstEvents) =
      upToDraws (withoutMovesFrom address secondEvents))
    (hfirst : run step start firstEvents = .ok first)
    (hsecond : run step start secondEvents = .ok second)
    (hfirstNames : NeverNames address id firstEvents)
    (hsecondNames : NeverNames address id secondEvents)
    (hcells : spawnCells id start firstEvents = spawnCells id start secondEvents) :
    AlikeFor id first second := by
  have hnames {events : List ServerEvent} {event : ServerEvent}
      (h : NeverNames address id (events ++ [event])) :
      NeverNames address id events ∧
        (event.isMoveFrom address = true → ∀ update ∈ event.offer, update.1 ≠ id) :=
    ⟨fun other hother => h other (List.mem_append_left _ hother), h event (by simp)⟩
  have hdropped {event : ServerEvent} (h : (!event.isMoveFrom address) = false) :
      event.isMoveFrom address = true := by simpa using h
  refine filter_map_eq_induction (motive := fun firstEvents secondEvents =>
    ∀ first second, run step start firstEvents = .ok first →
      run step start secondEvents = .ok second → NeverNames address id firstEvents →
      NeverNames address id secondEvents →
      spawnCells id start firstEvents = spawnCells id start secondEvents →
      AlikeFor id first second) ?_ ?_ ?_ ?_ hsame first second hfirst hsecond hfirstNames
        hsecondNames hcells
  · intro first second hfirst hsecond _ _ _
    obtain rfl := Except.ok.inj hfirst
    obtain rfl := Except.ok.inj hsecond
    exact ⟨fun _ => rfl, rfl, rfl⟩
  · intro firstEvents secondEvents event another hlook ih first second hfirst hsecond
      hfirstNames hsecondNames hcells
    obtain ⟨before, hbefore, hstep⟩ := run_concat_eq_ok.mp hfirst
    obtain ⟨other, hother, hotherStep⟩ := run_concat_eq_ok.mp hsecond
    rw [spawnCells, spawnCells, observations_concat hbefore, observations_concat hother] at hcells
    obtain ⟨hcellsBefore, hcell⟩ :=
      List.append_inj' hcells (length_spawnCell hlook hstep hotherStep)
    have hbeforeAlike := ih before other hbefore hother (hnames hfirstNames).1
      (hnames hsecondNames).1 hcellsBefore
    have hsameCell : before.spawnCell id event = other.spawnCell id another := by
      rw [← Option.head?_toList (o := before.spawnCell id event), hcell, Option.head?_toList]
    exact hbeforeAlike.both hlook hsameCell hstep hotherStep
  · intro firstEvents secondEvents event hdrop ih first second hfirst hsecond hfirstNames
      hsecondNames hcells
    have hmove := hdropped hdrop
    obtain ⟨before, hbefore, hstep⟩ := run_concat_eq_ok.mp hfirst
    rw [spawnCells, observations_concat hbefore, spawnCell_of_isMoveFrom hmove,
      Option.toList_none, List.append_nil] at hcells
    have hbeforeAlike := ih before second hbefore hsecond (hnames hfirstNames).1 hsecondNames
      hcells
    exact (alikeFor_of_isMoveFrom hmove ((hnames hfirstNames).2 hmove) hstep).trans hbeforeAlike
  · intro firstEvents secondEvents event hdrop ih first second hfirst hsecond hfirstNames
      hsecondNames hcells
    have hmove := hdropped hdrop
    obtain ⟨before, hbefore, hstep⟩ := run_concat_eq_ok.mp hsecond
    have hcellsBefore : spawnCells id start firstEvents = spawnCells id start secondEvents := by
      rw [hcells, spawnCells, observations_concat hbefore, spawnCell_of_isMoveFrom hmove,
        Option.toList_none, List.append_nil, spawnCells]
    have hbeforeAlike := ih first before hfirst hbefore hfirstNames (hnames hsecondNames).1
      hcellsBefore
    have hmoved := alikeFor_of_isMoveFrom hmove ((hnames hsecondNames).2 hmove) hstep
    exact hbeforeAlike.trans hmoved.symm

/-- **What one client cannot change.** Two runs that differ only in the moves
received from one address, and in the random numbers, have the same entries in
`connectedPlayers`, and the same player behind an entry, also while the tick's
updates are applied, if these moves do not name it and it spawned on the same cell
in both. -/
theorem others_unaffected_by_moves {address : SystemAddress}
    {mapWidth mapHeight numPlayers : UInt16} {firstEvents secondEvents : List ServerEvent}
    (hsame : upToDraws (withoutMovesFrom address firstEvents) =
      upToDraws (withoutMovesFrom address secondEvents))
    (hfirst : run step (applyConfig mapWidth mapHeight numPlayers) firstEvents = .ok first)
    (hsecond : run step (applyConfig mapWidth mapHeight numPlayers) secondEvents =
      .ok second) (other : SystemAddress) :
    first.connectedPlayers[other]? = second.connectedPlayers[other]? ∧
      ∀ id, first.connectedPlayers[other]? = some id →
        NeverNames address id firstEvents → NeverNames address id secondEvents →
        spawnCells id (applyConfig mapWidth mapHeight numPlayers) firstEvents =
          spawnCells id (applyConfig mapWidth mapHeight numPlayers) secondEvents →
        first.objects id = second.objects id ∧
          (first.midway first.updatedPlayerPositions).objects id =
            (second.midway second.updatedPlayerPositions).objects id := by
  have hroster : first.roster = second.roster := by
    rw [roster_run hfirst, roster_run hsecond, ← Roster.after_withoutMovesFrom address,
      ← Roster.after_upToDraws, hsame, Roster.after_upToDraws, Roster.after_withoutMovesFrom]
  refine ⟨congrFun (congrArg Roster.entry hroster) other, ?_⟩
  intro id _ hfirstNames hsecondNames hcells
  have halike := alikeFor_run hsame hfirst hsecond hfirstNames hsecondNames hcells
  exact ⟨halike.player, halike.midway⟩

/-- Two clients whose players stand apart; the first one moves or does not. The
numbers are drawn for the second one. -/
def apart (moves : List PlayerMoveMessage) (draws : List (ℕ × ℕ)) : List ServerEvent :=
  [.receive 1 (.library .newIncomingConnection) ⟨7, [(0, 0)]⟩] ++
    moves.map (fun move => .receive 1 (.custom (.playerMove move)) ⟨0, []⟩) ++
    [.endTick, .receive 2 (.library .newIncomingConnection) ⟨8, draws⟩,
      .receive 2 (.custom (.playerMove ⟨8, ⟨5, 6⟩⟩)) ⟨0, []⟩, .endTick]

/-- The first client's step to the cell that the second player draws first costs
one more draw, and nothing else. -/
theorem step_aside_leaves_other_alone :
    ∃ first second,
      run step (applyConfig 100 100 2) (apart [⟨7, ⟨0, 1⟩⟩] [(0, 1), (5, 5)]) = .ok first ∧
      run step (applyConfig 100 100 2) (apart [] [(5, 5)]) = .ok second ∧
      first.objects 7 ≠ second.objects 7 ∧ first.objects 8 = second.objects 8 := by
  have hfirst : run step (applyConfig 100 100 2) (apart [⟨7, ⟨0, 1⟩⟩] [(0, 1), (5, 5)]) =
      .ok _ := rfl
  have hsecond : run step (applyConfig 100 100 2) (apart [] [(5, 5)]) = .ok _ := rfl
  have hsame : upToDraws (withoutMovesFrom 1 (apart [⟨7, ⟨0, 1⟩⟩] [(0, 1), (5, 5)])) =
      upToDraws (withoutMovesFrom 1 (apart [] [(5, 5)])) := rfl
  have hunaffected := others_unaffected_by_moves hsame hfirst hsecond 2
  exact ⟨_, _, hfirst, hsecond, by decide,
    (hunaffected.2 8 rfl (by decide) (by decide) rfl).1⟩

/-- Two ways to change the other player. The first client steps onto the cell
that the second player would draw, which therefore spawns elsewhere; and a move
that the first client sends names the other player. -/
theorem moves_change_other_player :
    (∃ first second,
      run step (applyConfig 100 100 2) (apart [⟨7, ⟨1, 0⟩⟩] [(1, 0), (5, 5)]) = .ok first ∧
      run step (applyConfig 100 100 2) (apart [] [(1, 0), (5, 5)]) = .ok second ∧
      withoutMovesFrom 1 (apart [⟨7, ⟨1, 0⟩⟩] [(1, 0), (5, 5)]) =
        withoutMovesFrom 1 (apart [] [(1, 0), (5, 5)]) ∧
      second.connectedPlayers[(2 : SystemAddress)]? = some 8 ∧
      first.objects 8 ≠ second.objects 8) ∧
    ∃ first second,
      run step (applyConfig 100 100 2) (apart [] [(1, 0)] ++
        [.receive 1 (.custom (.playerMove ⟨8, ⟨2, 0⟩⟩)) ⟨0, []⟩, .endTick]) = .ok first ∧
      run step (applyConfig 100 100 2) (apart [] [(1, 0)] ++ [.endTick]) = .ok second ∧
      withoutMovesFrom 1 (apart [] [(1, 0)] ++
        [.receive 1 (.custom (.playerMove ⟨8, ⟨2, 0⟩⟩)) ⟨0, []⟩, .endTick]) =
          withoutMovesFrom 1 (apart [] [(1, 0)] ++ [.endTick]) ∧
      second.connectedPlayers[(2 : SystemAddress)]? = some 8 ∧
      first.objects 8 ≠ second.objects 8 := by
  refine ⟨⟨_, _, rfl, rfl, rfl, rfl, by decide⟩, ?_⟩
  exact ⟨_, _, rfl, rfl, rfl, rfl, by decide⟩

end ServerGamestate

end LibBench.RakNet
