import ShieldWard.Control.Handler
import ShieldWard.Edge.ConfigClient

/-!
# Fetching a bundle over the network

The control plane publishes and serves bundles, the configuration client fetches them. A
request is answered once, by the bundle handler or by something else on the way, at a moment
of its own; its answer arrives later, or the fetch fails. Which publication was current when
the handler answered is kept with the answer.
-/

namespace ShieldWard.Delivery

open Edge

namespace Exchange

/-- Who answered a request: the bundle handler, after so many publications, or something
else. -/
inductive Answer
  | handler (publications : ℕ)
  | other (response : Response)

structure State where
  /-- The snapshots that the store has held, oldest first. -/
  published : List Control.Snapshot
  client : ConfigurationClient
  /-- The answers to the requests of the refreshes. -/
  answers : ℕ → Option Answer

namespace State

/-- The store's snapshot after so many publications. -/
def currentAt (s : State) (publications : ℕ) : Option Control.Snapshot :=
  (s.published.take publications).getLast?

/-- What the client reads of an answer of the handler. -/
def fromHandler (answer : Control.HttpAnswer) : Response :=
  { status := answer.status
    contentType := some answer.contentType
    etag := answer.etag
    body := answer.body }

/-- The response that an answer is to a request. -/
def response (s : State) (request : Request) : Answer → Response
  | .handler publications =>
    fromHandler (Control.bundle (s.currentAt publications) request.ifNoneMatch)
  | .other response => response

def refresh (s : State) (operation : ℕ) : Option Refresh := s.client.refreshes[operation]?

end State

inductive Action
  /-- `Publish`. -/
  | publish (envelope : Control.Envelope)
  /-- A call of `refresh`. -/
  | refresh (signal : Option ℕ)
  /-- The bundle handler answers the request. -/
  | handle (operation : ℕ)
  /-- Something else answers the request. -/
  | intercept (operation : ℕ) (response : Response)
  /-- The fetch settles. -/
  | fetched (operation : ℕ)
  | fetchFailed (operation : ℕ) (message : String)
  /-- `response.json()` settles, after the whole body or after a failure. -/
  | bodyRead (operation : ℕ) (received : Bool)
  /-- The verification settles. -/
  | verified (operation : ℕ) (now : Ecma.Number)
  /-- The reaction that `refresh` registers runs. -/
  | clearInFlight (operation : ℕ)

/-- An answer to a request that waits for one. The answer to a request whose fetch has failed
reaches nobody, so it is no step. -/
def answer (s : State) (operation : ℕ) (a : Answer) : Option State :=
  match s.refresh operation, s.answers operation with
  | some { stage := .fetching, .. }, none =>
    some { s with answers := Function.update s.answers operation (some a) }
  | _, _ => none

def step (P : Platform) (G : Control.GoPlatform) (trustedKeys : TrustedKeyring) (s : State) :
    Action → Option State
  | .publish envelope =>
    match Control.newSnapshot G envelope with
    | .error _ => none
    | .ok snapshot => some { s with published := s.published ++ [snapshot] }
  | .refresh signal => some { s with client := (s.client.refresh signal).2 }
  | .handle operation => answer s operation (.handler s.published.length)
  | .intercept operation response => answer s operation (.other response)
  | .fetched operation =>
    match s.refresh operation, s.answers operation with
    | some refresh@{ stage := .fetching, .. }, some a =>
      some { s with client := s.client.advance operation refresh
                      (afterFetch s.client.snapshot (s.response refresh.request a)) }
    | _, _ => none
  | .fetchFailed operation message =>
    match s.refresh operation with
    | some refresh@{ stage := .fetching, .. } =>
      some { s with client := s.client.advance operation refresh (afterFetchError message) }
    | _ => none
  | .bodyRead operation received =>
    match s.refresh operation with
    | some refresh@{ stage := .reading response, .. } =>
      some { s with client := s.client.advance operation refresh
                      (afterBody response (if received then response.body else none)) }
    | _ => none
  | .verified operation now =>
    match s.refresh operation with
    | some refresh@{ stage := .verifying response body, .. } =>
      some { s with
        client := s.client.afterVerify P trustedKeys operation refresh response body now }
    | _ => none
  | .clearInFlight operation =>
    match s.refresh operation with
    | some { stage := .settled _, .. } =>
      some { s with client := s.client.clearInFlight operation }
    | _ => none

/-- Nothing is published and nothing has been fetched. -/
def initial : State :=
  { published := [], client := .new, answers := fun _ => none }

/-- The control plane and the client. -/
def machine (P : Platform) (G : Control.GoPlatform) (trustedKeys : TrustedKeyring) :
    System.Machine State Action where
  init s := s = initial
  step := step P G trustedKeys

end Exchange
end ShieldWard.Delivery
