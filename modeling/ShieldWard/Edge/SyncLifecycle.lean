import ShieldWard.Edge.ConfigSync
import ShieldWard.Lib.System
import Mathlib.Logic.Function.Basic

/-!
# The sessions of the synchronizer

`start`, `stop` and the two loops of `edge/src/config-sync.ts`, beside any number of other callers
of `ConfigurationClient.refresh`. Each of them stands at an await, or between two statements where
an observer of the synchronizer runs and may itself call `start` or `stop`. An `AbortController` is
the number of its creation; a session is the controller that its `start` has created. The network
settles fetches and bodies at any time and in any way, and the delays end at any time.
-/

namespace ShieldWard.Edge

namespace Lifecycle

/-- Where a call of `start` stands that has created a session. -/
inductive StartStage
  /-- `#refresh` awaits the client. -/
  | refreshing (operation : ℕ)
  /-- `#refresh` has told its observer. -/
  | observed (result : Except RefreshError RefreshResult)
  | resolved (result : RefreshResult)
  | rejected (error : RefreshError)

/-- What the observer of errors is told. -/
inductive Report
  | sync (error : SyncError)
  /-- The error of a stream that breaks off. -/
  | read (message : String)

/-- Where `#runStreamLoop` stands; `last` says that the text of the stream has ended. -/
inductive StreamStage
  /-- Awaits the fetch of the event stream. -/
  | connecting
  /-- Awaits `reader.read()`. -/
  | reading
  /-- Before the text that the text decoder still holds. -/
  | flushing
  /-- In `#processEvents`. -/
  | processing (events : List ServerSentEvent) (last : Bool)
  /-- `#refresh` awaits the client. -/
  | refreshing (operation : ℕ) (events : List ServerSentEvent) (last : Bool)
  | observed (result : Except RefreshError RefreshResult) (events : List ServerSentEvent)
      (last : Bool)
  /-- `#consumeEventStream` has settled. -/
  | consumed (outcome : Option Report)
  /-- Before the delay. -/
  | pausing
  /-- Awaits `waitForDelay`. -/
  | delaying
  /-- The promise of the loop has settled. -/
  | ended

/-- Where `#runPollingLoop` stands. -/
inductive PollStage
  | delaying
  | refreshing (operation : ℕ)
  | observed (result : Except RefreshError RefreshResult)
  /-- Before the condition of the loop. -/
  | looping
  | ended

/-- The calls of a session: of `start`, and of the loops that it has started. -/
structure Session where
  start : StartStage
  stream : Option StreamStage
  poll : Option PollStage

/-- The fields of the synchronizer. A promise of a loop is the session that the loop is of. -/
structure Fields where
  controller : Option ℕ
  streamTask : Option ℕ
  pollTask : Option ℕ
deriving DecidableEq

/-- A call of `stop` that has found a session, with the promises that it awaits. -/
structure StopCall where
  session : ℕ
  streamTask : Option ℕ
  pollTask : Option ℕ
  resolved : Bool
deriving DecidableEq

/-- The synchronizer and its sessions. -/
structure Sessions where
  fields : Fields
  /-- How many controllers have been created, of sessions and of other callers. -/
  controllers : ℕ
  aborted : ℕ → Bool
  session : ℕ → Option Session
  stops : List StopCall

/-- A call of the client's `refresh`: the signal of the caller, and the promise that it got. -/
structure Call where
  signal : Option ℕ
  operation : ℕ

structure State where
  client : ConfigurationClient
  sessions : Sessions
  calls : List Call
  reports : List Report

def StreamStage.isEnded : StreamStage → Bool
  | .ended => true
  | _ => false

def PollStage.isEnded : PollStage → Bool
  | .ended => true
  | _ => false

/-! ## Calls of the client -/

namespace State

/-- A call of `refresh` on the client. -/
def refresh (s : State) (signal : Option ℕ) : ℕ × State :=
  let (operation, client) := s.client.refresh signal
  (operation, { s with client, calls := s.calls ++ [{ signal, operation }] })

/-- What a promise of the client has settled with. -/
def settled (s : State) (operation : ℕ) : Option (Except RefreshError RefreshResult) :=
  match s.client.refreshes[operation]? with
  | some { stage := .settled result, .. } => some result
  | _ => none

/-- `#report`. -/
def report (s : State) (report : Report) : State := { s with reports := s.reports ++ [report] }

/-- What follows the refresh in the `try` of a loop: an error is reported unless the session has
been stopped. -/
def reportRefresh (s : State) (session : ℕ) (result : Except RefreshError RefreshResult) : State :=
  match afterRefresh (s.sessions.aborted session) result with
  | .reported error => s.report (.sync error)
  | _ => s

end State

/-! ## The object -/

namespace Sessions

/-- `running`. -/
def running (s : Sessions) : Bool := s.fields.controller.isSome

/-- `controller.abort()`. -/
def abort (s : Sessions) (controller : ℕ) : Sessions :=
  { s with aborted := Function.update s.aborted controller true }

def setSession (s : Sessions) (controller : ℕ) (session : Session) : Sessions :=
  { s with session := Function.update s.session controller (some session) }

/-- What `stop` does to the fields in the end, when they are still those of its session. -/
def clear (s : Sessions) (controller : ℕ) : Sessions :=
  if s.fields.controller = some controller then
    { s with fields := { controller := none, streamTask := none, pollTask := none } }
  else s

/-- The `catch` of `start`. -/
def startFailed (s : Sessions) (controller : ℕ) : Sessions :=
  let s := s.abort controller
  if s.fields.controller = some controller then
    { s with fields := { s.fields with controller := none } }
  else s

/-- The loops begin: the first one with its request, the second one with its delay. -/
def startLoops (s : Sessions) (controller : ℕ) (session : Session) : Sessions :=
  { s with
    fields := { s.fields with streamTask := some controller, pollTask := some controller }
  }.setSession controller { session with stream := some .connecting, poll := some .delaying }

/-- The rest of `start` after its await. -/
def afterStart (s : Sessions) (controller : ℕ) (session : Session) :
    Except RefreshError RefreshResult → Sessions
  | .error error => (s.startFailed controller).setSession controller
      { session with start := .rejected error }
  | .ok result =>
    let session := { session with start := .resolved result }
    if s.aborted controller ∨ s.fields.controller ≠ some controller then
      s.setSession controller session
    else s.startLoops controller session

/-- `stop` up to its await. -/
def stop (s : Sessions) : Sessions :=
  match s.fields.controller with
  | none => s
  | some controller =>
    { s.abort controller with
      stops := s.stops ++ [{ session := controller, streamTask := s.fields.streamTask,
                             pollTask := s.fields.pollTask, resolved := false }] }

/-- The promise of a stream loop has settled. -/
def streamEnded (s : Sessions) (controller : ℕ) : Bool :=
  match s.session controller with
  | some { stream := some stage, .. } => stage.isEnded
  | _ => false

def pollEnded (s : Sessions) (controller : ℕ) : Bool :=
  match s.session controller with
  | some { poll := some stage, .. } => stage.isEnded
  | _ => false

/-- `Promise.allSettled(tasks)` has settled. -/
def allSettled (s : Sessions) (call : StopCall) : Bool :=
  call.streamTask.all s.streamEnded && call.pollTask.all s.pollEnded

/-- The rest of `stop` after its await. -/
def afterStop (s : Sessions) (index : ℕ) (call : StopCall) : Sessions :=
  { s.clear call.session with stops := s.stops.set index { call with resolved := true } }

end Sessions

/-- `start` up to its await: the session that it creates, or the error that it throws. -/
def State.start (s : State) : Except SyncError ℕ × State :=
  match s.sessions.fields.controller with
  | some _ => (.error (.sync "configuration synchronization is already running"), s)
  | none =>
    let controller := s.sessions.controllers
    let (operation, s) := s.refresh (some controller)
    (.ok controller, { s with
      sessions :=
        { s.sessions with
          controllers := controller + 1
          fields := { s.sessions.fields with controller := some controller }
        }.setSession controller { start := .refreshing operation, stream := none, poll := none } })

/-- A call of `start` goes on. -/
def startStep (s : State) (controller : ℕ) (session : Session) : StartStage → Option State
  | .refreshing operation => (s.settled operation).map fun result =>
      { s with sessions := s.sessions.setSession controller
                { session with start := .observed result } }
  | .observed result =>
    some { s with sessions := s.sessions.afterStart controller session result }
  | _ => none

/-! ## The loops -/

/-- What the stream loop reads of the response. -/
structure StreamResponse where
  status : ℕ
  contentType : Option String
  hasBody : Bool

/-- The checks of the response of the event stream, from the rejection of its fetch on. -/
def checkStream : Except String StreamResponse → Option SyncError
  | .error message => some (.sync ("connect event stream: " ++ message))
  | .ok response =>
    if ¬(200 ≤ response.status ∧ response.status ≤ 299) then
      some (.sync ("event stream returned HTTP " ++ toString response.status))
    else if response.contentType.map mediaType ≠ some "text/event-stream" then
      some (.sync "control plane returned a non-SSE event stream")
    else if !response.hasBody then some (.sync "control-plane event stream has no body")
    else none

/-- What a stream loop goes on with. -/
inductive StreamInput
  /-- The fetch of the stream settles. -/
  | connected (response : Except String StreamResponse)
  /-- `reader.read()` settles: with an error, at the end of the stream, or with the events that the
  decoders find in a chunk. -/
  | read (chunk : Except String (Option (List ServerSentEvent)))
  /-- The events in the text that the text decoder still held. -/
  | flushed (events : List ServerSentEvent)
  | next

/-- The condition of the loop that reads the stream. -/
def nextRead (aborted : Bool) : StreamStage := if aborted then .flushing else .reading

/-- The stream loop goes on: its next stage, and the state up to the loop itself. -/
def streamStep (s : State) (controller : ℕ) :
    StreamStage → StreamInput → Option (StreamStage × State)
  | .connecting, .connected response =>
    match checkStream response with
    | some error => some (.consumed (some (.sync error)), s)
    | none => some (nextRead (s.sessions.aborted controller), s)
  | .reading, .read (.error message) => some (.consumed (some (.read message)), s)
  | .reading, .read (.ok none) => some (.flushing, s)
  | .reading, .read (.ok (some events)) => some (.processing events false, s)
  | .flushing, .flushed events => some (.processing events true, s)
  | .flushing, .next => some (.consumed none, s)
  | .processing [] last, .next =>
    some (if last then .consumed none else nextRead (s.sessions.aborted controller), s)
  | .processing (event :: events) last, .next =>
    match processEvent (s.sessions.aborted controller) controller s.client event with
    | (.awaiting operation, client) =>
      some (.refreshing operation events last,
        { s with client, calls := s.calls ++ [{ signal := some controller, operation }] })
    | (.reported error, _) => some (.processing events last, s.report (.sync error))
    | _ => some (.processing events last, s)
  | .refreshing operation events last, .next =>
    (s.settled operation).map fun result => (.observed result events last, s)
  | .observed result events last, .next =>
    some (.processing events last, s.reportRefresh controller result)
  | .consumed none, .next => some (.pausing, s)
  | .consumed (some error), .next =>
    some (.pausing, if s.sessions.aborted controller then s else s.report error)
  | .pausing, .next => some (if s.sessions.aborted controller then .ended else .delaying, s)
  | .delaying, .next => some (if s.sessions.aborted controller then .ended else .connecting, s)
  | _, _ => none

/-- The polling loop goes on. -/
def pollStep (s : State) (controller : ℕ) : PollStage → Option (PollStage × State)
  | .delaying =>
    if s.sessions.aborted controller then some (.ended, s)
    else
      let (operation, s) := s.refresh (some controller)
      some (.refreshing operation, s)
  | .refreshing operation => (s.settled operation).map fun result => (.observed result, s)
  | .observed result => some (.looping, s.reportRefresh controller result)
  | .looping => some (if s.sessions.aborted controller then .ended else .delaying, s)
  | .ended => none

/-! ## The machine -/

/-- What the client's requests wait for. -/
inductive Network
  | fetched (operation : ℕ) (response : Response)
  | fetchFailed (operation : ℕ) (message : String)
  /-- `response.json()` settles, after the whole body or after a failure. -/
  | bodyRead (operation : ℕ) (received : Bool)
  /-- The verification settles. -/
  | verified (operation : ℕ) (now : Ecma.Number)
  /-- The reaction that `refresh` registers runs. -/
  | clearInFlight (operation : ℕ)

def networkStep (P : Platform) (trustedKeys : TrustedKeyring) (client : ConfigurationClient) :
    Network → Option ConfigurationClient
  | .fetched operation response =>
    match client.refreshes[operation]? with
    | some refresh@{ stage := .fetching, .. } =>
      some (client.advance operation refresh (afterFetch client.snapshot response))
    | _ => none
  | .fetchFailed operation message =>
    match client.refreshes[operation]? with
    | some refresh@{ stage := .fetching, .. } =>
      some (client.advance operation refresh (afterFetchError message))
    | _ => none
  | .bodyRead operation received =>
    match client.refreshes[operation]? with
    | some refresh@{ stage := .reading response, .. } =>
      some (client.advance operation refresh
        (afterBody response (if received then response.body else none)))
    | _ => none
  | .verified operation now =>
    match client.refreshes[operation]? with
    | some refresh@{ stage := .verifying response body, .. } =>
      some (client.afterVerify P trustedKeys operation refresh response body now)
    | _ => none
  | .clearInFlight operation =>
    match client.refreshes[operation]? with
    | some { stage := .settled _, .. } => some (client.clearInFlight operation)
    | _ => none

inductive Action
  /-- Another caller creates a controller. -/
  | create
  /-- Another caller aborts a controller of its own. -/
  | abort (controller : ℕ)
  /-- Another caller calls `refresh` on the client. -/
  | refresh (signal : Option ℕ)
  | start
  | startStep (session : ℕ)
  | stop
  | stopStep (index : ℕ)
  | streamStep (session : ℕ) (input : StreamInput)
  | pollStep (session : ℕ)
  | network (settles : Network)

/-- A controller of another caller than the synchronizer. -/
def Sessions.isForeign (s : Sessions) (controller : ℕ) : Bool :=
  controller < s.controllers && (s.session controller).isNone

def step (P : Platform) (trustedKeys : TrustedKeyring) (s : State) : Action → Option State
  | .create =>
    some { s with sessions := { s.sessions with controllers := s.sessions.controllers + 1 } }
  | .abort controller =>
    if s.sessions.isForeign controller then
      some { s with sessions := s.sessions.abort controller }
    else none
  | .refresh signal => if signal.all s.sessions.isForeign then some (s.refresh signal).2 else none
  | .start => some s.start.2
  | .startStep session =>
    match s.sessions.session session with
    | some found => startStep s session found found.start
    | none => none
  | .stop => some { s with sessions := s.sessions.stop }
  | .stopStep index =>
    match s.sessions.stops[index]? with
    | some call =>
      if !call.resolved && s.sessions.allSettled call then
        some { s with sessions := s.sessions.afterStop index call }
      else none
    | none => none
  | .streamStep session input =>
    match s.sessions.session session with
    | some found@{ stream := some stage, .. } =>
      (streamStep s session stage input).map fun (stage, s) =>
        { s with sessions := s.sessions.setSession session { found with stream := some stage } }
    | _ => none
  | .pollStep session =>
    match s.sessions.session session with
    | some found@{ poll := some stage, .. } =>
      (pollStep s session stage).map fun (stage, s) =>
        { s with sessions := s.sessions.setSession session { found with poll := some stage } }
    | _ => none
  | .network settles =>
    (networkStep P trustedKeys s.client settles).map fun client => { s with client }

/-- A new synchronizer over a new client. -/
def initial : State :=
  { client := .new
    sessions :=
      { fields := { controller := none, streamTask := none, pollTask := none }
        controllers := 0
        aborted := fun _ => false
        session := fun _ => none
        stops := [] }
    calls := []
    reports := [] }

def machine (P : Platform) (trustedKeys : TrustedKeyring) : System.Machine State Action where
  init s := s = initial
  step := step P trustedKeys

end Lifecycle
end ShieldWard.Edge
