/-
# Yojimbo: the client's connection object

`yojimbo/client.cpp` with the part of `yojimbo.cpp` that it drives. The library's
client has a connection object from `InsecureConnect` on, until it disconnects and
destroys it. Receiving, releasing, creating and sending a message all go through
that object.

The loop leaves after it has handled the messages, if the client is disconnected,
and after the library has advanced the time, if the connection has failed. An
orderly disconnect falls between the two: the object is gone then, but the
connection has not failed, so the loop goes on and asks a null pointer for the
next message.

What the library finds out while it advances the time is up to the network: an
error of the connection, and the state that the netcode client is in.
-/

import LibBench.Yojimbo.Client

namespace LibBench.Yojimbo

open LibBench.Math

/-- `ClientState`. -/
inductive ClientState
  | error
  | disconnected
  | connecting
  | connected
  deriving DecidableEq, Repr

/-- What `BaseClient` and `Client` hold of the connection: the state, and whether
`m_connection` and `m_client` point to an object. -/
structure LibraryClient where
  clientState : ClientState
  connection : Bool
  netcodeClient : Bool
  deriving DecidableEq, Repr

/-- What comes of the two calls of `InsecureConnect` that may fail. -/
structure Connecting where
  clientCreated : Bool
  tokenGenerated : Bool
  deriving DecidableEq, Repr

/-- What `AdvanceTime` finds: whether the connection has an error, and the state of
the netcode client after its update. -/
structure Findings where
  connectionError : Bool
  netcodeState : ℤ
  deriving DecidableEq, Repr

/-- The findings that make the library disconnect the client without an error
state. -/
def Findings.DisconnectQuietly (findings : Findings) : Prop :=
  findings.connectionError = true ∨ findings.netcodeState = 0

namespace LibraryClient

/-- `Client::Disconnect`: the netcode client and the connection are destroyed. -/
def disconnect : LibraryClient where
  clientState := .disconnected
  connection := false
  netcodeClient := false

/-- `InsecureConnect`, from a client that is disconnected. -/
def insecureConnect (connecting : Connecting) : LibraryClient :=
  if !connecting.clientCreated then disconnect
  else if !connecting.tokenGenerated then ⟨.error, true, true⟩
  else ⟨.connecting, true, true⟩

/-- `BaseClient::AdvanceTime`: a connection error disconnects the client. -/
def advanceConnection (library : LibraryClient) (findings : Findings) : LibraryClient :=
  if library.connection && findings.connectionError then disconnect else library

/-- `Client::AdvanceTime`: then the netcode client, if there still is one, is updated
and decides about the state. -/
def advanceTime (library : LibraryClient) (findings : Findings) : LibraryClient :=
  let advanced := library.advanceConnection findings
  if advanced.netcodeClient then
    if findings.netcodeState < 0 then { disconnect with clientState := .error }
    else if findings.netcodeState = 0 then disconnect
    else if findings.netcodeState = 1 ∨ findings.netcodeState = 2 then
      { advanced with clientState := .connecting }
    else { advanced with clientState := .connected }
  else advanced

/-- `IsDisconnected`, which an error counts as. -/
def isDisconnected (library : LibraryClient) : Bool :=
  library.clientState = .error || library.clientState = .disconnected

/-- `ConnectionFailed`. -/
def connectionFailed (library : LibraryClient) : Bool := library.clientState = .error

end LibraryClient

/-- Why the loop stops other than by leaving. -/
inductive ConnectionStop
  | nullConnection
  | program (stop : Stop)
  deriving DecidableEq, Repr

/-- Where the loop is: at its head, or left. -/
inductive LoopState
  | running (client : Client) (library : LibraryClient)
  | left

/-- What one iteration meets: the messages that wait in channel 0, the reliable one,
and in channel 1, the draws for the move, and what the library finds. -/
structure LoopIteration where
  reliable : List Message
  unreliable : List Message
  draws : List ℕ
  findings : Findings
  deriving DecidableEq, Repr

/-- A call that goes through the connection object. -/
def LibraryClient.call (library : LibraryClient) : Except ConnectionStop Unit :=
  if library.connection then .ok () else .error .nullConnection

namespace Client

/-- The message loop on one channel: `ReceiveMessage`, until it returns null, and
`ReleaseMessage` for each message. -/
def receiveChannel (library : LibraryClient) : Client → List Message →
    Except ConnectionStop Client
  | client, [] => do
      library.call
      return client
  | client, message :: messages => do
      library.call
      match client.receiveMessage message with
      | .error stop => .error (.program stop)
      | .ok received =>
          library.call
          receiveChannel library received messages

/-- Move and send the move: `CreateMessage` and `SendMessage`. -/
def sendMove (library : LibraryClient) (client : Client) (draws : List ℕ) :
    Except ConnectionStop Client :=
  match client.move draws with
  | .error stop => .error (.program stop)
  | .ok (moved, []) => .ok moved
  | .ok (moved, _ :: _) => do
      library.call
      library.call
      return moved

/-- The end of an iteration: leave, or advance the time and leave, or go on. -/
def advanceLoop (library : LibraryClient) (client : Client) (findings : Findings) : LoopState :=
  if library.isDisconnected then .left
  else if (library.advanceTime findings).connectionFailed then .left
  else .running client (library.advanceTime findings)

/-- One iteration of `ClientMain`. Channel 0 is emptied before channel 1. -/
def loopStep : LoopState → LoopIteration → Except ConnectionStop LoopState
  | .left, _ => .ok .left
  | .running client library, iteration =>
      match receiveChannel library client iteration.reliable with
      | .error stop => .error stop
      | .ok first =>
          match receiveChannel library first iteration.unreliable with
          | .error stop => .error stop
          | .ok second =>
              match sendMove library second iteration.draws with
              | .error stop => .error stop
              | .ok moved =>
                  match moved.writeLine with
                  | .error stop => .error (.program stop)
                  | .ok written => .ok (advanceLoop library written iteration.findings)

section Calls

variable {library : LibraryClient}

/-- Without a connection the first call of an iteration fails. -/
theorem loopStep_of_null (h : library.connection = false) (client : Client)
    (iteration : LoopIteration) :
    loopStep (.running client library) iteration = .error .nullConnection := by
  have hcall : library.call = .error .nullConnection := by simp [LibraryClient.call, h]
  have hfirst : receiveChannel library client iteration.reliable = .error .nullConnection := by
    cases iteration.reliable with
    | nil =>
        rw [receiveChannel, hcall]
        rfl
    | cons message messages =>
        rw [receiveChannel, hcall]
        rfl
  rw [loopStep, hfirst]

theorem receiveChannel_of_connection (h : library.connection = true) (client : Client)
    (messages : List Message) :
    receiveChannel library client messages =
      (client.receiveMessages messages).mapError .program := by
  have hcall : library.call = .ok () := by simp [LibraryClient.call, h]
  induction messages generalizing client with
  | nil =>
      rw [receiveChannel, hcall]
      rfl
  | cons message messages ih =>
      rw [receiveChannel, receiveMessages, hcall]
      cases hreceived : client.receiveMessage message with
      | error stop => rfl
      | ok received => exact ih received

theorem sendMove_of_connection (h : library.connection = true) (client : Client)
    (draws : List ℕ) :
    sendMove library client draws = ((client.move draws).map Prod.fst).mapError .program := by
  have hcall : library.call = .ok () := by simp [LibraryClient.call, h]
  rw [sendMove, hcall]
  cases client.move draws with
  | error stop => rfl
  | ok result =>
      obtain ⟨moved, sent⟩ := result
      cases sent <;> rfl

theorem receiveMessages_append (client : Client) (first second : List Message) :
    client.receiveMessages (first ++ second) =
      match client.receiveMessages first with
      | .error stop => .error stop
      | .ok received => received.receiveMessages second := by
  induction first generalizing client with
  | nil => rfl
  | cons message first ih =>
      rw [List.cons_append, receiveMessages, receiveMessages]
      cases client.receiveMessage message with
      | error stop => rfl
      | ok received => exact ih received

/-- With a connection the loop does what the client program does, on the messages of
both channels. -/
theorem loopStep_of_connection (h : library.connection = true) (client : Client)
    (iteration : LoopIteration) :
    loopStep (.running client library) iteration =
      match client.iterate (iteration.reliable ++ iteration.unreliable) iteration.draws with
      | .error stop => .error (.program stop)
      | .ok (written, _) => .ok (advanceLoop library written iteration.findings) := by
  simp only [loopStep, iterate, receiveMessages_append, receiveChannel_of_connection h,
    sendMove_of_connection h]
  cases client.receiveMessages iteration.reliable with
  | error stop => rfl
  | ok first =>
      simp only [Except.mapError]
      cases first.receiveMessages iteration.unreliable with
      | error stop => rfl
      | ok second =>
          simp only
          cases second.move iteration.draws with
          | error stop => rfl
          | ok result =>
              simp only [Except.map]
              cases result.1.writeLine <;> rfl

end Calls

end Client

namespace LibraryClient

variable {library : LibraryClient} {findings : Findings}

theorem advanceTime_of_quiet (hconnection : library.connection = true)
    (hnetcode : library.netcodeClient = true) (hquiet : findings.DisconnectQuietly) :
    library.advanceTime findings = disconnect := by
  cases herror : findings.connectionError with
  | true => simp [advanceTime, advanceConnection, hconnection, herror, disconnect]
  | false =>
      have hstate : findings.netcodeState = 0 :=
        hquiet.resolve_left fun h => Bool.false_ne_true (herror.symm.trans h)
      simp [advanceTime, advanceConnection, herror, hnetcode, hstate]

/-- The connection is destroyed by a quiet disconnect and by a failure only. -/
theorem connection_advanceTime (hconnection : library.connection = true)
    (hquiet : ¬ findings.DisconnectQuietly)
    (hfailed : (library.advanceTime findings).connectionFailed = false) :
    (library.advanceTime findings).connection = true := by
  obtain ⟨herror, hstate⟩ := not_or.mp hquiet
  have hadvanced : library.advanceConnection findings = library := by
    simp [advanceConnection, herror]
  rw [advanceTime, hadvanced] at hfailed ⊢
  split
  · next hnetcode =>
      rw [if_pos hnetcode] at hfailed
      split
      · next hnegative =>
          rw [if_pos hnegative] at hfailed
          simp [connectionFailed] at hfailed
      · split <;> exact hconnection
  · exact hconnection

/-- The netcode client is there as long as the connection is. -/
theorem netcodeClient_advanceTime
    (h : library.connection = true → library.netcodeClient = true) :
    (library.advanceTime findings).connection = true →
      (library.advanceTime findings).netcodeClient = true := by
  have hadvanced : (library.advanceConnection findings).connection = true →
      (library.advanceConnection findings).netcodeClient = true := by
    rw [advanceConnection]
    split
    · exact fun hconnection => by cases hconnection
    · exact h
  rw [advanceTime]
  split
  · next hnetcode =>
      split
      · exact fun hconnection => by cases hconnection
      · split
        · exact fun hconnection => by cases hconnection
        · split <;> exact fun _ => hnetcode
  · exact hadvanced

end LibraryClient

namespace Client

/-- After these iterations the loop comes to the point of the next one where it
advances the time. -/
def Advances (start : LoopState) (before : List LoopIteration) (iteration : LoopIteration) : Prop :=
  ∃ client library result, run loopStep start before = .ok (.running client library) ∧
    client.iterate (iteration.reliable ++ iteration.unreliable) iteration.draws = .ok result ∧
    library.isDisconnected = false

/-- One iteration that leaves the loop running has used a connection and advanced the
time. -/
theorem loopStep_eq_running {state : LoopState} {iteration : LoopIteration} {next : Client}
    {library : LibraryClient} (h : loopStep state iteration = .ok (.running next library)) :
    ∃ client before sent, state = .running client before ∧ before.connection = true ∧
      client.iterate (iteration.reliable ++ iteration.unreliable) iteration.draws =
        .ok (next, sent) ∧
      before.isDisconnected = false ∧ library = before.advanceTime iteration.findings ∧
      library.connectionFailed = false := by
  cases state with
  | left => cases h
  | running client before =>
      cases hconnection : before.connection with
      | false =>
          rw [loopStep_of_null hconnection] at h
          cases h
      | true =>
          rw [loopStep_of_connection hconnection] at h
          split at h
          · cases h
          · next written sent hiterate =>
              have hadvance := Except.ok.inj h
              rw [advanceLoop] at hadvance
              split at hadvance
              · cases hadvance
              · next hconnected =>
                  split at hadvance
                  · cases hadvance
                  · next hfailed =>
                      obtain ⟨rfl, rfl⟩ := LoopState.running.inj hadvance
                      exact ⟨client, before, sent, rfl, hconnection, hiterate,
                        Bool.eq_false_iff.mpr hconnected, rfl, Bool.eq_false_iff.mpr hfailed⟩

/-- What is there is there together: while the loop is running the netcode client goes
with the connection. -/
theorem netcodeClient_of_run {client last : Client} {connecting : Connecting}
    {library : LibraryClient} {iterations : List LoopIteration}
    (hrun : run loopStep (.running client (.insecureConnect connecting)) iterations =
      .ok (.running last library)) :
    library.connection = true → library.netcodeClient = true := by
  induction iterations using List.reverseRecOn generalizing last library with
  | nil =>
      obtain ⟨_, rfl⟩ := LoopState.running.inj (Except.ok.inj hrun)
      obtain ⟨created, generated⟩ := connecting
      cases created <;> cases generated <;> decide
  | append_singleton iterations iteration ih =>
      obtain ⟨state, hbefore, hstep⟩ := run_concat_eq_ok.mp hrun
      obtain ⟨_, before, _, rfl, _, _, _, rfl, _⟩ := loopStep_eq_running hstep
      exact LibraryClient.netcodeClient_advanceTime (ih hbefore)

/-- A call on a null connection is made by a client that could not be created, or in
the iteration after a quiet disconnect. -/
theorem quiet_disconnect_of_nullConnection {client last : Client} {connecting : Connecting}
    {library : LibraryClient} {before : List LoopIteration}
    (hrun : run loopStep (.running client (.insecureConnect connecting)) before =
      .ok (.running last library)) (hnull : library.connection = false) :
    (before = [] ∧ connecting.clientCreated = false) ∨
      ∃ earlier iteration, before = earlier ++ [iteration] ∧
        Advances (.running client (.insecureConnect connecting)) earlier iteration ∧
        iteration.findings.DisconnectQuietly := by
  rcases before.eq_nil_or_concat with rfl | ⟨earlier, iteration, rfl⟩
  · obtain ⟨_, rfl⟩ := LoopState.running.inj (Except.ok.inj hrun)
    obtain ⟨created, generated⟩ := connecting
    refine Or.inl ⟨rfl, ?_⟩
    cases created with
    | false => rfl
    | true => cases generated <;> cases hnull
  · rw [List.concat_eq_append] at hrun ⊢
    obtain ⟨state, hearlier, hstep⟩ := run_concat_eq_ok.mp hrun
    obtain ⟨reached, previous, sent, rfl, hconnection, hiterate, hconnected, rfl, hfailed⟩ :=
      loopStep_eq_running hstep
    refine Or.inr ⟨earlier, iteration, rfl,
      ⟨reached, previous, _, hearlier, hiterate, hconnected⟩, ?_⟩
    by_contra hquiet
    have hkept := LibraryClient.connection_advanceTime hconnection hquiet hfailed
    rw [hnull] at hkept
    cases hkept

/-- After a quiet disconnect the next iteration asks the null connection. -/
theorem nullConnection_of_quiet_disconnect {client : Client} {connecting : Connecting}
    {before : List LoopIteration} {iteration next : LoopIteration}
    (hadvances : Advances (.running client (.insecureConnect connecting)) before iteration)
    (hquiet : iteration.findings.DisconnectQuietly) :
    run loopStep (.running client (.insecureConnect connecting)) (before ++ [iteration, next]) =
      .error .nullConnection := by
  obtain ⟨reached, library, ⟨written, sent⟩, hrun, hiterate, hconnected⟩ := hadvances
  rw [run_append_of_ok hrun, run]
  cases hconnection : library.connection with
  | false => rw [loopStep_of_null hconnection]
  | true =>
      have hnetcode := netcodeClient_of_run hrun hconnection
      have hgone := LibraryClient.advanceTime_of_quiet hconnection hnetcode hquiet
      have hrunning : advanceLoop library written iteration.findings =
          .running written .disconnect := by
        rw [advanceLoop, hconnected, hgone]
        rfl
      rw [loopStep_of_connection hconnection, hiterate]
      dsimp only
      rw [hrunning, run, loopStep_of_null rfl]

/-- Every call of the loop finds the connection exactly when the library could create its
client and no quiet disconnect is followed by another iteration. -/
theorem calls_find_connection_iff (client : Client) (connecting : Connecting)
    (iterations : List LoopIteration) :
    run loopStep (.running client (.insecureConnect connecting)) iterations ≠
        .error .nullConnection ↔
      (iterations ≠ [] → connecting.clientCreated = true) ∧
      ∀ before iteration next, before ++ [iteration, next] <+: iterations →
        Advances (.running client (.insecureConnect connecting)) before iteration →
          ¬ iteration.findings.DisconnectQuietly := by
  constructor
  · refine fun hruns => ⟨fun hne => ?_, fun before iteration next hpre hadvances hquiet => ?_⟩
    · by_contra hcreated
      obtain ⟨iteration, rest, rfl⟩ := List.exists_cons_of_ne_nil hne
      have hnull : (LibraryClient.insecureConnect connecting).connection = false := by
        rw [Bool.not_eq_true] at hcreated
        simp [LibraryClient.insecureConnect, hcreated, LibraryClient.disconnect]
      apply hruns
      rw [run, loopStep_of_null hnull]
    · obtain ⟨rest, rfl⟩ := hpre
      exact hruns (run_append_of_error (nullConnection_of_quiet_disconnect hadvances hquiet))
  · rintro ⟨hcreated, hquiet⟩ hrun
    obtain ⟨before, iteration, state, hpre, hbefore, hstep⟩ := exists_step_of_run_eq_error hrun
    cases state with
    | left => cases hstep
    | running last library =>
        cases hconnection : library.connection with
        | true =>
            rw [loopStep_of_connection hconnection] at hstep
            split at hstep <;> cases hstep
        | false =>
            obtain ⟨rfl, hfalse⟩ | ⟨earlier, previous, rfl, hadvances, hdisconnect⟩ :=
              quiet_disconnect_of_nullConnection hbefore hconnection
            · have hne : iterations ≠ [] := by
                rintro rfl
                simp at hpre
              exact Bool.false_ne_true (hfalse.symm.trans (hcreated hne))
            · rw [List.append_assoc] at hpre
              exact hquiet earlier previous iteration hpre hadvances hdisconnect

/-- A client that is connected and counts corrections. The server disconnects it in
order. -/
theorem orderly_disconnect_leaves_null_connection :
    run loopStep (.running (ConnectingClient.client { clientId := 7 })
        (.insecureConnect ⟨true, true⟩))
      [⟨[], [], [], ⟨false, 3⟩⟩, ⟨[], [], [], ⟨false, 0⟩⟩, ⟨[], [], [], ⟨false, 0⟩⟩] =
        .error .nullConnection := rfl

end Client

end LibBench.Yojimbo
