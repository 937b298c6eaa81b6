import ShieldWard.Lib.Ecma

/-!
# The admission gate

`AdmissionGate` and `releaseWhenConsumed` of `edge/src/gateway.ts`, with the counters of
`edge/src/metrics.ts` that the gateway moves. The promises that `waitForIdle` has returned and
whether a stream is over are kept as history.
-/

namespace ShieldWard.Edge

open Ecma

/-! ## The gate -/

/-- A promise that `waitForIdle` has returned. -/
structure IdlePromise where
  resolved : Bool
  /-- It was asked for after `beginDrain`. -/
  sinceDrain : Bool
deriving DecidableEq

/-- How many requests are in flight, and who waits for there to be none. -/
structure AdmissionGate where
  maximum : ℕ
  active : ℤ
  accepting : Bool
  /-- The promises that wait, by their places in the history. -/
  idleWaiters : List ℕ
  promises : List IdlePromise
deriving DecidableEq

/-- A place, or the reason why there is none. -/
inductive AdmissionResult
  | accepted (gate : AdmissionGate)
  | overloaded
  | draining

namespace AdmissionGate

/-- The constructor. -/
def new (maximum : Number) : Except String AdmissionGate :=
  if !isSafeInteger maximum || maximum ≤ 0 then
    .error "maximum in-flight request count must be a positive integer"
  else
    .ok { maximum := maximum.num.toNat, active := 0, accepting := true, idleWaiters := [],
          promises := [] }

/-- A gate that drains refuses before it counts. -/
def tryAcquire (gate : AdmissionGate) : AdmissionResult :=
  if !gate.accepting then .draining
  else if gate.maximum ≤ gate.active then .overloaded
  else .accepted { gate with active := gate.active + 1 }

/-- The promises after the one at a place has been resolved. -/
def resolve (promises : List IdlePromise) (place : ℕ) : List IdlePromise :=
  promises.modify place fun promise => { promise with resolved := true }

/-- What the first call of `release` does. -/
def release (gate : AdmissionGate) : AdmissionGate :=
  let gate := { gate with active := gate.active - 1 }
  if gate.active = 0 then
    { gate with idleWaiters := [], promises := gate.idleWaiters.foldl resolve gate.promises }
  else gate

/-- `beginDrain`: whether this call began the drain, and the gate. -/
def beginDrain (gate : AdmissionGate) : Bool × AdmissionGate :=
  if !gate.accepting then (false, gate) else (true, { gate with accepting := false })

def waitForIdle (gate : AdmissionGate) (sinceDrain : Bool) : AdmissionGate :=
  if gate.active = 0 then
    { gate with promises := gate.promises ++ [{ resolved := true, sinceDrain }] }
  else
    { gate with
      idleWaiters := gate.idleWaiters ++ [gate.promises.length]
      promises := gate.promises ++ [{ resolved := false, sinceDrain }] }

end AdmissionGate

/-! ## Counters -/

/-- The counters that this model follows. -/
structure GatewayMetrics where
  activeGatewayRequests : ℤ
  gatewayAcceptingRequests : Bool
  gatewayOverloadRejections : ℕ
  gatewayDrainRejections : ℕ
  upstreamCircuitRejections : ℕ
deriving DecidableEq

namespace GatewayMetrics

def new : GatewayMetrics where
  activeGatewayRequests := 0
  gatewayAcceptingRequests := true
  gatewayOverloadRejections := 0
  gatewayDrainRejections := 0
  upstreamCircuitRejections := 0

def recordGatewayRequestStarted (metrics : GatewayMetrics) : GatewayMetrics :=
  { metrics with activeGatewayRequests := metrics.activeGatewayRequests + 1 }

/-- The gauge never goes below zero. -/
def recordGatewayRequestFinished (metrics : GatewayMetrics) : GatewayMetrics :=
  { metrics with activeGatewayRequests := max 0 (metrics.activeGatewayRequests - 1) }

def recordGatewayOverload (metrics : GatewayMetrics) : GatewayMetrics :=
  { metrics with gatewayOverloadRejections := metrics.gatewayOverloadRejections + 1 }

def recordGatewayDrainStarted (metrics : GatewayMetrics) : GatewayMetrics :=
  { metrics with gatewayAcceptingRequests := false }

def recordGatewayDrainRejection (metrics : GatewayMetrics) : GatewayMetrics :=
  { metrics with gatewayDrainRejections := metrics.gatewayDrainRejections + 1 }

def recordUpstreamCircuitRejection (metrics : GatewayMetrics) : GatewayMetrics :=
  { metrics with upstreamCircuitRejections := metrics.upstreamCircuitRejections + 1 }

end GatewayMetrics

/-! ## The stream of a response -/

/-- The stream around the body of a response. -/
structure WrappedBody where
  /-- The stream is neither closed nor errored. -/
  readable : Bool
  /-- A `pull` awaits its read. -/
  pulling : Bool
  /-- A `cancel` awaits the cancellation of the body. -/
  cancelling : Bool
  /-- A callback has seen the body end or fail, or its cancellation settle. -/
  finished : Bool
deriving DecidableEq

def WrappedBody.new : WrappedBody where
  readable := true
  pulling := false
  cancelling := false
  finished := false

/-- What a read of the body settles with. -/
inductive ReadOutcome
  | done
  | chunk
  | failed

end ShieldWard.Edge
