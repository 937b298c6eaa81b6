import ShieldWard.Delivery.Exchange
import ShieldWard.Edge.ConfigSync

/-!
# Announced updates

The synchronizer beside the exchange of bundles. The event stream hands one event at a time
to the loop; the control plane announces each publication, and an announcement may arrive at
any time after it. The polls and every other caller of `refresh` are steps of the exchange,
and so is each request that the handler answers: here nothing else answers one.
-/

namespace ShieldWard.Delivery

open Edge

namespace Sync

/-- An event that awaits a refresh: the publication that it announces, and the refresh. -/
structure Handling where
  publication : ℕ
  operation : ℕ

/-- An event that was handled without an error report: the publication that it announced, and
the client's version when the loop left it. -/
structure Handled where
  publication : ℕ
  version : Option String
deriving DecidableEq

structure State where
  exchange : Exchange.State
  /-- The number of the session, which is the identity of its signal. -/
  session : ℕ
  aborted : Bool
  handling : Option Handling
  /-- The events handled without an error report, as history. -/
  handled : List Handled

namespace State

def currentVersion (s : State) : Option String :=
  s.exchange.client.snapshot.map (·.value.bundle.version)

/-- The loop reaches a stage with the event of a publication. -/
def reach (s : State) (publication : ℕ) : EventStage → State
  | .awaiting operation => { s with handling := some { publication, operation } }
  | .finished =>
    { s with
      handling := none
      handled := s.handled ++ [{ publication, version := s.currentVersion }] }
  | .skipped => { s with handling := none }
  | .reported _ => { s with handling := none }

end State

inductive Action
  | exchange (action : Exchange.Action)
  /-- A new session. The stream of the last one has ended. -/
  | start
  | stop
  /-- The event of a publication reaches the loop. -/
  | event (publication : ℕ)
  /-- The loop goes on after its await. -/
  | resume

/-- The event that announces a snapshot. -/
def announcement (snapshot : Control.Snapshot) : ServerSentEvent :=
  let (event, data) := Control.bundleEvent snapshot.version
  { event, data := some data }

def isIntercept : Exchange.Action → Bool
  | .intercept _ _ => true
  | _ => false

def step (P : Platform) (G : Control.GoPlatform) (trustedKeys : TrustedKeyring) (s : State) :
    Action → Option State
  | .exchange action =>
    if isIntercept action then none
    else (Exchange.step P G trustedKeys s.exchange action).map fun exchange =>
      { s with exchange }
  | .start =>
    if s.aborted && s.handling.isNone then
      some { s with session := s.session + 1, aborted := false }
    else none
  | .stop => some { s with aborted := true }
  | .event publication =>
    match s.handling, s.exchange.published[publication]? with
    | none, some snapshot =>
      let (stage, client) :=
        processEvent s.aborted s.session s.exchange.client (announcement snapshot)
      some ({ s with exchange := { s.exchange with client } }.reach publication stage)
    | _, _ => none
  | .resume =>
    match s.handling with
    | none => none
    | some handling =>
      match s.exchange.refresh handling.operation with
      | some { stage := .settled result, .. } =>
        some (s.reach handling.publication (afterRefresh s.aborted result))
      | _ => none

/-- No session has been started. -/
def initial : State :=
  { exchange := Exchange.initial, session := 0, aborted := true, handling := none, handled := [] }

def machine (P : Platform) (G : Control.GoPlatform) (trustedKeys : TrustedKeyring) :
    System.Machine State Action where
  init s := s = initial
  step := step P G trustedKeys

end Sync
end ShieldWard.Delivery
