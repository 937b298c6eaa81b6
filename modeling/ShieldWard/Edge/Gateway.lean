import ShieldWard.Edge.Admission
import ShieldWard.Edge.CircuitBreaker
import ShieldWard.Edge.LivePolicy
import ShieldWard.Edge.Proxy
import ShieldWard.Edge.Verify
import ShieldWard.Lib.System

/-!
# The gateway

`edge/src/gateway.ts`. A call of `handle` is a record with the stage that it has reached. In
its turn a call runs from one await to the next, together with the gateway that it shares with
the other calls, so the calls interleave with each other, with the installation of bundles and
with the clients that read or cancel the responses. What a call has asked of the verifier, the
limiter, the circuit breaker and the upstream, and what was written about it, is kept as
history.
-/

namespace ShieldWard.Edge

open Ecma Bytes

/-! ## The parts of a call -/

structure GatewayRequestError where
  status : ℕ
  code : String

structure BufferedBody where
  bytes : Option Bytes
  text : Option String

/-- What the body stream of a request delivers: its chunks, and then its end or an error. -/
structure BodyStream where
  chunks : List Bytes
  fails : Bool

/-- What reading a body rejects with: an error of the gateway, or one of the stream. -/
inductive BodyError
  | request (error : GatewayRequestError)
  | unreadable

/-- `/^\d+$/`. -/
def isDigits (value : List Char) : Bool := value ≠ [] && value.all isDigit

def validateDeclaredBodyLength (header : Option String) (maximumBytes : ℕ) :
    Except BodyError Unit :=
  match header with
  | none => .ok ()
  | some header =>
    let value := (trim header).toList
    let invalid := BodyError.request { status := 400, code := "invalid_content_length" }
    if !isDigits value then .error invalid
    else
      let length := digitsValue value
      if !isSafeInteger length then .error invalid
      else if maximumBytes < length then
        .error (.request { status := 413, code := "request_body_too_large" })
      else .ok ()

/-- The loop over the chunks. -/
def readChunks (maximumBytes : ℕ) (fails : Bool) : Bytes → List Bytes → Except BodyError Bytes
  | bytes, [] => if fails then .error .unreadable else .ok bytes
  | bytes, chunk :: chunks =>
    if maximumBytes < bytes.length + chunk.length then
      .error (.request { status := 413, code := "request_body_too_large" })
    else readChunks maximumBytes fails (bytes ++ chunk) chunks

def readRequestBody (P : Platform) (request : IncomingRequest) (maximumBytes : ℕ)
    (stream : BodyStream) : Except BodyError BufferedBody :=
  let method := P.toUpperCase request.method
  if method = "GET" ∨ method = "HEAD" then .ok { bytes := none, text := none }
  else do
    validateDeclaredBodyLength (request.headers.get "content-length") maximumBytes
    if !request.hasBody then .ok { bytes := none, text := none }
    else
      let bytes ← readChunks maximumBytes stream.fails [] stream.chunks
      .ok { bytes := some bytes, text := some (P.decodeText bytes) }

/-- The body of a response to the client. -/
inductive ResponseBody
  | error (code : String)
  | upstream
  | empty

structure ClientResponse where
  status : ℕ
  headers : Headers
  body : ResponseBody

def errorResponse (status : ℕ) (code : String) (additionalHeaders : Headers) :
    ClientResponse where
  status := status
  headers :=
    (additionalHeaders.set "content-type" "application/json; charset=UTF-8").set
      "cache-control" "no-store"
  body := .error code

def deniedResponse (P : Platform) (decision : DeniedPolicyDecision) : ClientResponse :=
  let headers : Headers :=
    if decision.status = 401 then [("www-authenticate", "Bearer")] else []
  let headers : Headers :=
    match decision.status, decision.retryAfterSeconds with
    | 429, some seconds => headers.set "retry-after" (P.numberText seconds)
    | _, _ => headers
  errorResponse decision.status decision.code.text headers

inductive SecurityAuditOutcome
  | allowed
  | denied
  | error
deriving DecidableEq

/-- What the audit log is told of a finished call. -/
structure SecurityAuditRecord where
  requestId : String
  method : String
  path : String
  outcome : SecurityAuditOutcome
  status : ℕ
  durationMs : Number
  policyVersion : Option String
  routeId : Option String
  reason : Option String
  upstreamStatus : Option ℕ

/-- What the metrics are told of a finished call. -/
structure GatewayMetricRecord where
  outcome : SecurityAuditOutcome
  status : ℕ
  durationMs : Number

structure AuditCompletion where
  outcome : SecurityAuditOutcome
  reason : Option String
  routeId : Option String
  upstreamStatus : Option ℕ

/-! ## Calls -/

/-- The two clocks of the gateway: that of durations and that of the circuit breaker. -/
structure Clocks where
  performance : Number
  date : Number

/-- Where a call of `handle` stands. -/
inductive CallStage
  /-- Awaits `readRequestBody`. -/
  | readingBody
  /-- Awaits the verifier or the limiter, as the evaluation says. -/
  | evaluating (body : BufferedBody) (evaluation : Evaluation)
  /-- The evaluation has settled with a decision. -/
  | decided (body : BufferedBody) (decision : PolicyDecision)
  /-- The evaluation was rejected. -/
  | undecided
  /-- Awaits the fetcher. -/
  | fetching (route : CompiledRoute) (permit : CircuitBreakerPermit)
  | responded (response : ClientResponse)
  /-- `handle` was rejected. -/
  | rejected

/-- A call of the verifier and how it settled. -/
structure Verification where
  authorization : Option String
  policy : JwtPolicy
  outcome : Option VerifiedJwt

/-- A call of the limiter and how it settled. -/
structure LimiterCheck where
  routeId : String
  identity : String
  policy : RateLimitPolicy
  outcome : Option RateLimitResult

/-- How the upstream call of a request went. -/
inductive UpstreamSettlement
  | answered (status : ℕ)
  /-- It failed or timed out; whether the client had aborted. -/
  | failed (aborted : Bool)

/-- What `handle` is called with, its request ID and its start. -/
structure Arrival where
  request : IncomingRequest
  clientIp : Option String
  requestId : String
  startedAt : Number

/-- What a call has done. -/
structure CallHistory where
  /-- The configuration when the evaluation started, and the body. -/
  snapshot : Option Bundle
  body : Option BufferedBody
  /-- The bundle of the engine that evaluates the request. -/
  evaluatedBy : Option Bundle
  decision : Option PolicyDecision
  verifications : List Verification
  checks : List LimiterCheck
  /-- The permits that the circuit breaker has granted, by the upstream asked for. -/
  permits : List (String × CircuitBreakerPermit)
  /-- What the fetcher was called with. -/
  fetches : List UpstreamRequest
  settlement : Option UpstreamSettlement
  /-- The completions of permits that acted. -/
  completions : List Completion
  records : List SecurityAuditRecord
  measurements : List GatewayMetricRecord
  /-- How often the place of the call was given back to the admission gate. -/
  releases : ℕ

def CallHistory.new : CallHistory where
  snapshot := none
  body := none
  evaluatedBy := none
  decision := none
  verifications := []
  checks := []
  permits := []
  fetches := []
  settlement := none
  completions := []
  records := []
  measurements := []
  releases := 0

/-- A call of `handle`. -/
structure Call where
  arrival : Arrival
  stage : CallStage
  /-- `request.signal.aborted`. -/
  aborted : Bool
  /-- The admission gate has accepted the request. -/
  admitted : Bool
  /-- It had been closed by `beginDrain` before. -/
  sinceDrain : Bool
  /-- `requestReleased` of `handle`, and `released` of the admission. -/
  requestReleased : Bool
  released : Bool
  /-- The stream around the body of the response, when there is one. -/
  wrapped : Option WrappedBody
  history : CallHistory

/-- What the engine is given. -/
def Arrival.policyRequest (arrival : Arrival) (body : BufferedBody) : PolicyRequest where
  method := arrival.request.method
  url := arrival.request.url
  headers := arrival.request.headers
  body := body.text
  clientIp := arrival.clientIp

/-! ## The gateway and its turns -/

/-- What the calls share. -/
structure Gateway (P : Platform) where
  /-- The bundle of the configuration's snapshot. -/
  configuration : Option Bundle
  policyEvaluator : LivePolicyEvaluator P
  maxRequestBodyBytes : ℕ
  upstreamTimeoutMs : Number
  admissionGate : AdmissionGate
  circuitBreaker : UpstreamCircuitBreaker
  metrics : GatewayMetrics

/-- A call in its turn. -/
structure Turn (P : Platform) where
  gateway : Gateway P
  call : Call

/-- What the fetcher settles with; a rejection says whether the timeout had passed. -/
inductive UpstreamOutcome
  | response (response : UpstreamResponse)
  | rejection (timedOut : Bool)

namespace Turn

variable {P : Platform}

def goTo (t : Turn P) (stage : CallStage) : Turn P := { t with call := { t.call with stage } }

/-- `releaseRequest`; the `release` of the admission has a flag of its own. -/
def releaseRequest (t : Turn P) : Turn P :=
  if t.call.requestReleased then t
  else
    let gate :=
      if t.call.released then t.gateway.admissionGate else t.gateway.admissionGate.release
    let releases := t.call.history.releases + if t.call.released then 0 else 1
    { gateway := { t.gateway with
        admissionGate := gate
        metrics := t.gateway.metrics.recordGatewayRequestFinished }
      call := { t.call with
        requestReleased := true
        released := true
        history := { t.call.history with releases } } }

/-- `handle` throws; after the admission it releases the request first. -/
def reject (t : Turn P) : Turn P :=
  (if t.call.admitted then t.releaseRequest else t).goTo .rejected

/-- `#complete`: the record and the metric, and the response with its request ID; `none` when
the request ID is not a header value. -/
def complete (t : Turn P) (now : Number) (response : ClientResponse)
    (completion : AuditCompletion) : Option (Turn P × ClientResponse) :=
  let arrival := t.call.arrival
  let requestId := normalizeHeaderValue arrival.requestId
  if !isHeaderValue requestId then none
  else
    let durationMs := max 0 (now - arrival.startedAt)
    let record :=
      { requestId := arrival.requestId
        method := P.toUpperCase arrival.request.method
        path := arrival.request.url.pathname
        outcome := completion.outcome
        status := response.status
        durationMs
        policyVersion := t.gateway.policyEvaluator.activeVersion
        routeId := completion.routeId
        reason := completion.reason
        upstreamStatus := completion.upstreamStatus }
    let history := { t.call.history with
      records := t.call.history.records ++ [record]
      measurements := t.call.history.measurements ++
        [{ outcome := completion.outcome, status := response.status, durationMs }] }
    some ({ t with call := { t.call with history } },
      { response with headers := response.headers.set "x-request-id" requestId })

/-- `releaseWhenConsumed` and the end of `handle`. A request that was not admitted has its
response as it is. -/
def respond (t : Turn P) (response : ClientResponse) : Turn P :=
  if !t.call.admitted then t.goTo (.responded response)
  else
    match response.body with
    | .empty => t.releaseRequest.goTo (.responded response)
    | _ => { t with call := { t.call with stage := .responded response, wrapped := some .new } }

/-- A return of `#complete`. -/
def finish (t : Turn P) (now : Number) (response : ClientResponse)
    (completion : AuditCompletion) : Turn P :=
  match t.complete now response completion with
  | none => t.reject
  | some (t, response) => t.respond response

/-- A return of `#complete` with an error response. -/
def fail (t : Turn P) (now : Number) (status : ℕ) (code : String) (headers : Headers)
    (outcome : SecurityAuditOutcome) (routeId : Option String) : Turn P :=
  t.finish now (errorResponse status code headers)
    { outcome, reason := some code, routeId, upstreamStatus := none }

/-- A completion of the permit of the call. -/
def completePermit (t : Turn P) (permit : CircuitBreakerPermit) (completion : Completion)
    (now : Number) : Turn P × CircuitBreakerPermit :=
  let (completed, circuitBreaker) := permit.complete completion t.gateway.circuitBreaker now
  let completions :=
    if permit.completed then t.call.history.completions
    else t.call.history.completions ++ [completion]
  ({ gateway := { t.gateway with circuitBreaker }
     call := { t.call with history := { t.call.history with completions } } }, completed)

/-- How the upstream call went, as far as it was not known. -/
def settle (t : Turn P) (settlement : UpstreamSettlement) : Turn P :=
  { t with call := { t.call with
      history := { t.call.history with
        settlement := t.call.history.settlement.or (some settlement) } } }

/-- The `catch` around the upstream call. -/
def catchUpstream (t : Turn P) (route : CompiledRoute) (permit : CircuitBreakerPermit)
    (timedOut : Bool) (now : Clocks) : Turn P :=
  let t := t.settle (.failed t.call.aborted)
  if t.call.aborted then (t.completePermit permit .abandonment now.date).1.reject
  else
    let t := (t.completePermit permit .failure now.date).1
    if timedOut then t.fail now.performance 504 "upstream_timeout" [] .error (some route.id)
    else t.fail now.performance 502 "upstream_unavailable" [] .error (some route.id)

/-- The return of `#complete` with the response of the upstream, which the `catch` surrounds. -/
def respondUpstream (t : Turn P) (route : CompiledRoute) (permit : CircuitBreakerPermit)
    (response : UpstreamResponse) (now : Clocks) : Turn P :=
  let body := if response.hasBody then ResponseBody.upstream else .empty
  match t.complete now.performance
      { status := response.status, headers := response.headers, body }
      { outcome := .allowed, reason := none, routeId := some route.id,
        upstreamStatus := some response.status } with
  | some (t, response) => t.respond response
  | none => t.catchUpstream route permit false now

/-- After the fetcher. -/
def afterFetch (t : Turn P) (route : CompiledRoute) (permit : CircuitBreakerPermit)
    (outcome : UpstreamOutcome) (now : Clocks) : Turn P :=
  match outcome with
  | .rejection timedOut => t.catchUpstream route permit timedOut now
  | .response received =>
    match createClientResponse received with
    | .error _ => t.catchUpstream route permit false now
    | .ok response =>
      let t := t.settle (.answered response.status)
      let (t, permit) :=
        t.completePermit permit (if 500 ≤ response.status then .failure else .success) now.date
      t.respondUpstream route permit response now

/-- The call of the fetcher. -/
def send (t : Turn P) (route : CompiledRoute) (permit : CircuitBreakerPermit)
    (sent : UpstreamRequest) : Turn P :=
  let fetches := t.call.history.fetches ++ [sent]
  { t with call := { t.call with
      stage := .fetching route permit
      history := { t.call.history with fetches } } }

/-- `proxyToUpstream` up to the await of the fetcher. -/
def sendUpstream (t : Turn P) (route : CompiledRoute) (permit : CircuitBreakerPermit)
    (body : BufferedBody) (now : Clocks) : Turn P :=
  let arrival := t.call.arrival
  match createUpstreamRequest P arrival.request route body.bytes arrival.clientIp
      arrival.requestId t.gateway.upstreamTimeoutMs with
  | .error _ => t.catchUpstream route permit false now
  | .ok sent => t.send route permit sent

/-- The evaluation has settled with a decision. -/
def decide (t : Turn P) (decision : PolicyDecision) : Turn P :=
  { t with call := { t.call with history := { t.call.history with decision := some decision } } }

/-- The circuit breaker has refused the call. -/
def refuse (t : Turn P) (circuitBreaker : UpstreamCircuitBreaker) : Turn P :=
  let metrics := t.gateway.metrics.recordUpstreamCircuitRejection
  { t with gateway := { t.gateway with circuitBreaker, metrics } }

/-- The circuit breaker has granted the call a permit. -/
def grant (t : Turn P) (circuitBreaker : UpstreamCircuitBreaker) (upstream : String)
    (permit : CircuitBreakerPermit) : Turn P :=
  let permits := t.call.history.permits ++ [(upstream, permit)]
  { gateway := { t.gateway with circuitBreaker }
    call := { t.call with history := { t.call.history with permits } } }

/-- After the evaluation: the denial, or everything up to the await of the fetcher. -/
def afterEvaluation (t : Turn P) (body : BufferedBody) (decision : PolicyDecision)
    (now : Clocks) : Turn P :=
  match decision with
  | .denied decision =>
    t.finish now.performance (deniedResponse P decision)
      { outcome := .denied, reason := some decision.code.text,
        routeId := decision.route.map (·.id), upstreamStatus := none }
  | .allowed decision =>
    match decision.route with
    | none => t.fail now.performance 404 "route_not_found" [] .denied none
    | some route =>
      match t.gateway.circuitBreaker.acquire P route.upstream now.date with
      | (circuitBreaker, .rejection seconds) =>
        (t.refuse circuitBreaker).fail now.performance 503 "upstream_circuit_open"
          [("retry-after", P.numberText seconds)] .error (some route.id)
      | (circuitBreaker, .permit permit) =>
        (t.grant circuitBreaker route.upstream permit).sendUpstream route permit body now

/-- The stage of a call whose evaluation has got so far. -/
def evaluated (body : BufferedBody) : Evaluation → CallStage
  | .decided decision => .decided body decision
  | .rejected => .undecided
  | evaluation => .evaluating body evaluation

/-- The evaluation has got to its first await. -/
def evaluate (t : Turn P) (body : BufferedBody) : Turn P :=
  let configuration := t.gateway.configuration
  let (policyEvaluator, evaluation) :=
    t.gateway.policyEvaluator.evaluate configuration (t.call.arrival.policyRequest body)
  let stage :=
    match evaluation with
    | none => .undecided
    | some evaluation => evaluated body evaluation
  let history := { t.call.history with
    snapshot := configuration
    body := some body
    evaluatedBy := policyEvaluator.activeBundle }
  { gateway := { t.gateway with policyEvaluator }, call := { t.call with stage, history } }

/-- After the await of the body. -/
def startEvaluation (t : Turn P) (stream : BodyStream) (now : Number) : Turn P :=
  match readRequestBody P t.call.arrival.request t.gateway.maxRequestBodyBytes stream with
  | .error (.request error) => t.fail now error.status error.code [] .denied none
  | .error .unreadable => t.fail now 400 "request_body_unreadable" [] .error none
  | .ok body => t.evaluate body

/-- The verifier settles. -/
def afterVerification (t : Turn P) (body : BufferedBody) (route : CompiledRoute)
    (wafMatches : List WafRuleMatch) (authorization : Option String) (policy : JwtPolicy)
    (outcome : Option VerifiedJwt) : Turn P :=
  let verification : Verification := { authorization, policy, outcome }
  let verifications := t.call.history.verifications ++ [verification]
  { t with call := { t.call with
      stage := evaluated body (afterJwt t.call.arrival.clientIp route wafMatches outcome)
      history := { t.call.history with verifications } } }

/-- The limiter settles. -/
def afterCheck (t : Turn P) (body : BufferedBody) (route : CompiledRoute)
    (wafMatches : List WafRuleMatch) (jwt : Option VerifiedJwt) (identity : String)
    (policy : RateLimitPolicy) (outcome : Option RateLimitResult) : Turn P :=
  let check : LimiterCheck := { routeId := route.id, identity, policy, outcome }
  let checks := t.call.history.checks ++ [check]
  { t with call := { t.call with
      stage := evaluated body (afterRateLimit route wafMatches jwt outcome)
      history := { t.call.history with checks } } }

/-- The rest of `pull` after the read. An `enqueue` or a `close` of a stream that has been
cancelled throws. -/
def pulled (t : Turn P) (wrapped : WrappedBody) (outcome : ReadOutcome) : Turn P :=
  let ended := fun t : Turn P => { t with call := { t.call with
    wrapped := some { wrapped with readable := false, pulling := false, finished := true } } }
  match outcome with
  | .done => ended (if wrapped.readable then t.releaseRequest else t.releaseRequest.releaseRequest)
  | .failed => ended t.releaseRequest
  | .chunk =>
    if wrapped.readable then
      { t with call := { t.call with wrapped := some { wrapped with pulling := false } } }
    else ended t.releaseRequest

/-- The rest of `cancel` after the cancellation of the body, however it settles. -/
def canceled (t : Turn P) (wrapped : WrappedBody) : Turn P :=
  let t := t.releaseRequest
  { t with call := { t.call with
      wrapped := some { wrapped with cancelling := false, finished := true } } }

end Turn

/-- `handle` up to the await of the body. -/
def Gateway.handle {P : Platform} (gateway : Gateway P) (request : IncomingRequest)
    (clientIp : Option String) (requestId : String) (now : Number) (sinceDrain : Bool) :
    Turn P :=
  let call : Call :=
    { arrival := { request, clientIp, requestId, startedAt := now }
      stage := .readingBody
      aborted := false
      admitted := false
      sinceDrain
      requestReleased := false
      released := false
      wrapped := none
      history := .new }
  match gateway.admissionGate.tryAcquire with
  | .draining =>
    let metrics := gateway.metrics.recordGatewayDrainRejection
    Turn.fail { gateway := { gateway with metrics }, call } now 503 "gateway_draining"
      [("connection", "close"), ("retry-after", "1")] .error none
  | .overloaded =>
    let metrics := gateway.metrics.recordGatewayOverload
    Turn.fail { gateway := { gateway with metrics }, call } now 503 "gateway_overloaded"
      [("retry-after", "1")] .error none
  | .accepted admissionGate =>
    let metrics := gateway.metrics.recordGatewayRequestStarted
    { gateway := { gateway with admissionGate, metrics }, call := { call with admitted := true } }

/-! ## Runs -/

/-- What happens to one call. -/
inductive CallAction
  | bodyRead (stream : BodyStream) (now : Number)
  | verified (outcome : Option VerifiedJwt)
  | checked (outcome : Option RateLimitResult)
  /-- The call goes on after its evaluation. -/
  | proceed (now : Clocks)
  | fetched (outcome : UpstreamOutcome) (now : Clocks)
  /-- The client goes away. -/
  | abort
  /-- The stream of the response calls `pull`, and the read settles. -/
  | pull
  | pulled (outcome : ReadOutcome)
  /-- The client cancels the response, and the cancellation of the body settles. -/
  | cancel
  | canceled

def Turn.step {P : Platform} (t : Turn P) : CallAction → Option (Turn P)
  | .bodyRead stream now =>
    match t.call.stage with
    | .readingBody => some (t.startEvaluation stream now)
    | _ => none
  | .verified outcome =>
    match t.call.stage with
    | .evaluating body (.verifyingJwt route wafMatches authorization policy) =>
      some (t.afterVerification body route wafMatches authorization policy outcome)
    | _ => none
  | .checked outcome =>
    match t.call.stage with
    | .evaluating body (.checkingRateLimit route wafMatches jwt identity policy) =>
      some (t.afterCheck body route wafMatches jwt identity policy outcome)
    | _ => none
  | .proceed now =>
    match t.call.stage with
    | .decided body decision => some ((t.decide decision).afterEvaluation body decision now)
    | .undecided => some (t.fail now.performance 503 "policy_evaluation_failed" [] .error none)
    | _ => none
  | .fetched outcome now =>
    match t.call.stage with
    | .fetching route permit => some (t.afterFetch route permit outcome now)
    | _ => none
  | .abort => some { t with call := { t.call with aborted := true } }
  | .pull => t.call.wrapped.bind fun wrapped =>
    if wrapped.readable && !wrapped.pulling then
      some { t with call := { t.call with wrapped := some { wrapped with pulling := true } } }
    else none
  | .pulled outcome => t.call.wrapped.bind fun wrapped =>
    if wrapped.pulling then some (t.pulled wrapped outcome) else none
  | .cancel => t.call.wrapped.bind fun wrapped =>
    if wrapped.readable then
      some { t with call := { t.call with
        wrapped := some { wrapped with readable := false, cancelling := true } } }
    else none
  | .canceled => t.call.wrapped.bind fun wrapped =>
    if wrapped.cancelling then some (t.canceled wrapped) else none

structure GatewayState (P : Platform) where
  gateway : Gateway P
  calls : List Call
  /-- The bundles installed so far. -/
  installed : List Bundle
  /-- `beginDrain` has been called. -/
  drained : Bool

inductive GatewayAction
  | handle (request : IncomingRequest) (clientIp : Option String) (requestId : String)
      (now : Number)
  | turn (index : ℕ) (action : CallAction)
  | beginDrain
  | waitForIdle
  /-- A bundle that verifies becomes the configuration's snapshot. -/
  | install (value : Json)

structure GatewayOptions where
  maxRequestBodyBytes : Option Number
  upstreamTimeoutMs : Option Number
  maxInFlightRequests : Option Number
  circuitFailureThreshold : Option Number
  circuitOpenDurationMs : Option Number
  circuitMaximumUpstreams : Option Number

namespace Gateway

variable {P : Platform}

def DEFAULT_MAX_REQUEST_BODY_BYTES : Number := 1024 * 1024

def DEFAULT_UPSTREAM_TIMEOUT_MS : Number := 10000

def DEFAULT_MAX_IN_FLIGHT_REQUESTS : Number := 1024

/-- The constructor. -/
def new (P : Platform) (options : GatewayOptions) : Except String (Gateway P) := do
  let maxRequestBodyBytes := options.maxRequestBodyBytes.getD DEFAULT_MAX_REQUEST_BODY_BYTES
  let upstreamTimeoutMs := options.upstreamTimeoutMs.getD DEFAULT_UPSTREAM_TIMEOUT_MS
  let admissionGate ←
    AdmissionGate.new (options.maxInFlightRequests.getD DEFAULT_MAX_IN_FLIGHT_REQUESTS)
  let circuitBreaker ← UpstreamCircuitBreaker.new options.circuitFailureThreshold
    options.circuitOpenDurationMs options.circuitMaximumUpstreams
  if !isSafeInteger maxRequestBodyBytes || maxRequestBodyBytes ≤ 0 then
    .error "maximum request body size must be a positive integer"
  else if !isSafeInteger upstreamTimeoutMs || upstreamTimeoutMs ≤ 0 then
    .error "upstream timeout must be a positive integer"
  else
    .ok { configuration := none, policyEvaluator := .new,
          maxRequestBodyBytes := maxRequestBodyBytes.num.toNat, upstreamTimeoutMs,
          admissionGate, circuitBreaker, metrics := .new }

def beginDrain (gateway : Gateway P) : Gateway P :=
  match gateway.admissionGate.beginDrain with
  | (true, admissionGate) =>
    { gateway with admissionGate, metrics := gateway.metrics.recordGatewayDrainStarted }
  | (false, admissionGate) => { gateway with admissionGate }

def step (trustedKeys : TrustedKeyring) (s : GatewayState P) :
    GatewayAction → Option (GatewayState P)
  | .handle request clientIp requestId now =>
    let t := s.gateway.handle request clientIp requestId now s.drained
    some { s with gateway := t.gateway, calls := s.calls ++ [t.call] }
  | .turn index action => do
    let call ← s.calls[index]?
    let t ← Turn.step { gateway := s.gateway, call } action
    some { s with gateway := t.gateway, calls := s.calls.set index t.call }
  | .beginDrain => some { s with gateway := s.gateway.beginDrain, drained := true }
  | .waitForIdle =>
    let admissionGate := s.gateway.admissionGate.waitForIdle s.drained
    some { s with gateway := { s.gateway with admissionGate } }
  | .install value =>
    match verifyBundleEnvelope P value trustedKeys with
    | .error _ => none
    | .ok verified =>
      some { s with
        gateway := { s.gateway with configuration := some verified.bundle }
        installed := s.installed ++ [verified.bundle] }

def initial (gateway : Gateway P) : GatewayState P where
  gateway := gateway
  calls := []
  installed := []
  drained := false

def machine (P : Platform) (options : GatewayOptions) (trustedKeys : TrustedKeyring) :
    System.Machine (GatewayState P) GatewayAction where
  init s := ∃ gateway, new P options = .ok gateway ∧ s = initial gateway
  step := step trustedKeys

end Gateway
end ShieldWard.Edge
