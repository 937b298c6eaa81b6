import ShieldWard.Edge.Platform
import ShieldWard.Lib.OrderedMap

/-!
# The circuit breaker

`edge/src/circuit-breaker.ts`. Each function that reads the clock reads it once; the reading
is an argument. What the observer of transitions is told is kept as history.
-/

namespace ShieldWard.Edge

open Ecma

/-- A circuit is opened by failures, and half-open while a probe is underway. -/
inductive UpstreamCircuitState
  | closed
  | opened
  | halfOpen
deriving DecidableEq

/-- What is kept for an origin that has failed or is called. -/
structure Circuit where
  state : UpstreamCircuitState
  consecutiveFailures : ℕ
  openedUntil : Number
  lastTouched : Number
deriving DecidableEq

structure UpstreamCircuitBreaker where
  failureThreshold : ℕ
  openDurationMs : Number
  maximumUpstreams : ℕ
  circuits : OrderedMap String Circuit
  transitions : List (UpstreamCircuitState × UpstreamCircuitState)

/-- A permit with the flag that lets it complete once. -/
structure CircuitBreakerPermit where
  key : String
  halfOpenProbe : Bool
  completed : Bool
deriving DecidableEq

/-- A permit, or the seconds after which another attempt makes sense. -/
inductive CircuitBreakerAcquisition
  | permit (permit : CircuitBreakerPermit)
  | rejection (retryAfterSeconds : Number)

/-- How a permit is completed. -/
inductive Completion
  | success
  | failure
  | abandonment
deriving DecidableEq

/-- The key of a circuit. -/
def upstreamOrigin (P : Platform) (upstream : String) : String :=
  match P.parseUrl upstream with
  | some url => url.origin
  | none => upstream

namespace UpstreamCircuitBreaker

def DEFAULT_FAILURE_THRESHOLD : ℕ := 5

def DEFAULT_OPEN_DURATION_MS : Number := 30000

def DEFAULT_MAXIMUM_UPSTREAMS : ℕ := 1024

/-- A breaker without circuits. -/
def create (failureThreshold : ℕ) (openDurationMs : Number) (maximumUpstreams : ℕ) :
    UpstreamCircuitBreaker where
  failureThreshold := failureThreshold
  openDurationMs := openDurationMs
  maximumUpstreams := maximumUpstreams
  circuits := .empty
  transitions := []

def validatePositiveInteger (value : Number) (name : String) : Except String Number :=
  if !isSafeInteger value || value ≤ 0 then .error (name ++ " must be a positive integer")
  else .ok value

/-- The constructor. -/
def new (failureThreshold openDurationMs maximumUpstreams : Option Number) :
    Except String UpstreamCircuitBreaker := do
  let failureThreshold ←
    validatePositiveInteger (failureThreshold.getD DEFAULT_FAILURE_THRESHOLD)
      "circuit failure threshold"
  let openDurationMs ←
    validatePositiveInteger (openDurationMs.getD DEFAULT_OPEN_DURATION_MS) "circuit open duration"
  let maximumUpstreams ←
    validatePositiveInteger (maximumUpstreams.getD DEFAULT_MAXIMUM_UPSTREAMS)
      "maximum upstream circuit count"
  .ok (create failureThreshold.num.toNat openDurationMs maximumUpstreams.num.toNat)

/-- Stores a circuit that may have changed its state. -/
def transition (breaker : UpstreamCircuitBreaker) (key : String) (circuit : Circuit)
    (next : UpstreamCircuitState) : UpstreamCircuitBreaker :=
  { breaker with
    circuits := breaker.circuits.set key { circuit with state := next }
    transitions :=
      if circuit.state = next then breaker.transitions
      else breaker.transitions ++ [(circuit.state, next)] }

/-- The closed circuit that was touched first; among equals the first of the table. -/
def evictionCandidate (breaker : UpstreamCircuitBreaker) : Option (String × Circuit) :=
  breaker.circuits.entries.foldl (fun candidate entry =>
    if entry.2.state ≠ .closed then candidate
    else
      match candidate with
      | none => some entry
      | some oldest => if entry.2.lastTouched < oldest.2.lastTouched then some entry else candidate)
    none

/-- Only a closed circuit may be dropped for another one. -/
def evictClosedCircuit (breaker : UpstreamCircuitBreaker) : Option UpstreamCircuitBreaker :=
  breaker.evictionCandidate.map fun candidate =>
    { breaker with circuits := breaker.circuits.delete candidate.1 }

/-- The circuit of a key, created when there is room for it. -/
def findOrCreate (breaker : UpstreamCircuitBreaker) (key : String) (now : Number) :
    UpstreamCircuitBreaker × Option Circuit :=
  match breaker.circuits.get key with
  | some existing => (breaker, some existing)
  | none =>
    let room :=
      if breaker.maximumUpstreams ≤ breaker.circuits.size then breaker.evictClosedCircuit
      else some breaker
    match room with
    | none => (breaker, none)
    | some breaker =>
      let circuit :=
        { state := .closed, consecutiveFailures := 0, openedUntil := 0, lastTouched := now }
      ({ breaker with circuits := breaker.circuits.set key circuit }, some circuit)

def rejection (remainingMilliseconds : Number) : CircuitBreakerAcquisition :=
  .rejection (max 1 ⌈remainingMilliseconds / 1000⌉)

/-- The first call after the open period becomes the probe. -/
def acquire (P : Platform) (breaker : UpstreamCircuitBreaker) (upstream : String)
    (now : Number) : UpstreamCircuitBreaker × CircuitBreakerAcquisition :=
  let key := upstreamOrigin P upstream
  match breaker.findOrCreate key now with
  | (breaker, none) => (breaker, .rejection 1)
  | (breaker, some found) =>
    let circuit := { found with lastTouched := now }
    let breaker := { breaker with circuits := breaker.circuits.set key circuit }
    match circuit.state with
    | .opened =>
      if now < circuit.openedUntil then (breaker, rejection (circuit.openedUntil - now))
      else
        (breaker.transition key circuit .halfOpen,
          .permit { key, halfOpenProbe := true, completed := false })
    | .halfOpen => (breaker, .rejection 1)
    | .closed => (breaker, .permit { key, halfOpenProbe := false, completed := false })

/-- Any success forgets the circuit, in whatever state it is. -/
def success (breaker : UpstreamCircuitBreaker) (key : String) : UpstreamCircuitBreaker :=
  match breaker.circuits.get key with
  | none => breaker
  | some circuit =>
    let breaker := breaker.transition key circuit .closed
    { breaker with circuits := breaker.circuits.delete key }

/-- A failure counts, opens the circuit, or opens it again. -/
def failure (breaker : UpstreamCircuitBreaker) (key : String) (now : Number) :
    UpstreamCircuitBreaker :=
  match breaker.findOrCreate key now with
  | (breaker, none) => breaker
  | (breaker, some found) =>
    let circuit := { found with lastTouched := now }
    match circuit.state with
    | .halfOpen =>
      breaker.transition key { circuit with openedUntil := now + breaker.openDurationMs } .opened
    | .opened =>
      breaker.transition key
        { circuit with openedUntil := max circuit.openedUntil (now + breaker.openDurationMs) }
        .opened
    | .closed =>
      let circuit := { circuit with consecutiveFailures := circuit.consecutiveFailures + 1 }
      if breaker.failureThreshold ≤ circuit.consecutiveFailures then
        breaker.transition key { circuit with openedUntil := now + breaker.openDurationMs } .opened
      else { breaker with circuits := breaker.circuits.set key circuit }

/-- A call that was given up says nothing about the upstream. -/
def abandonment (breaker : UpstreamCircuitBreaker) (key : String) (halfOpenProbe : Bool)
    (now : Number) : UpstreamCircuitBreaker :=
  match breaker.circuits.get key with
  | none => breaker
  | some circuit =>
    if halfOpenProbe && circuit.state = .halfOpen then
      breaker.transition key { circuit with openedUntil := now } .opened
    else if circuit.state = .closed && circuit.consecutiveFailures = 0 then
      { breaker with circuits := breaker.circuits.delete key }
    else breaker

end UpstreamCircuitBreaker

namespace CircuitBreakerPermit

/-- `finish`: only the first completion of a permit acts. -/
def finish (permit : CircuitBreakerPermit) (breaker : UpstreamCircuitBreaker)
    (action : UpstreamCircuitBreaker → UpstreamCircuitBreaker) :
    CircuitBreakerPermit × UpstreamCircuitBreaker :=
  if permit.completed then (permit, breaker)
  else ({ permit with completed := true }, action breaker)

def recordSuccess (permit : CircuitBreakerPermit) (breaker : UpstreamCircuitBreaker) :
    CircuitBreakerPermit × UpstreamCircuitBreaker :=
  permit.finish breaker (·.success permit.key)

def recordFailure (permit : CircuitBreakerPermit) (breaker : UpstreamCircuitBreaker)
    (now : Number) : CircuitBreakerPermit × UpstreamCircuitBreaker :=
  permit.finish breaker (·.failure permit.key now)

def abandon (permit : CircuitBreakerPermit) (breaker : UpstreamCircuitBreaker) (now : Number) :
    CircuitBreakerPermit × UpstreamCircuitBreaker :=
  permit.finish breaker (·.abandonment permit.key permit.halfOpenProbe now)

/-- A permit is completed once; a later completion does nothing. -/
def complete (permit : CircuitBreakerPermit) (completion : Completion)
    (breaker : UpstreamCircuitBreaker) (now : Number) :
    CircuitBreakerPermit × UpstreamCircuitBreaker :=
  match completion with
  | .success => permit.recordSuccess breaker
  | .failure => permit.recordFailure breaker now
  | .abandonment => permit.abandon breaker now

end CircuitBreakerPermit
end ShieldWard.Edge
