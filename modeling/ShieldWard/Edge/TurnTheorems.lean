import ShieldWard.Edge.CircuitBreakerTheorems
import ShieldWard.Edge.Gateway

/-!
# What a turn does

The calls of `handle` end in one of two ways: with a response, about which a record and a metric
were written, or with an exception. What else an ending leaves alone is said once, for the
return of `#complete` and for the `catch` around the upstream call. Then a step of the gateway
is a step of one call or one of four others.
-/

namespace ShieldWard.Edge

open Ecma

/-- `handle` has returned or thrown. -/
def CallStage.settled : CallStage → Bool
  | .responded _ | .rejected => true
  | _ => false

/-- The request ID of the call can be set as a header. -/
def Arrival.hasHeaderId (arrival : Arrival) : Bool :=
  isHeaderValue (normalizeHeaderValue arrival.requestId)

/-- What becomes of the permit of an upstream call. -/
def UpstreamSettlement.completion : UpstreamSettlement → Completion
  | .answered status => if 500 ≤ status then .failure else .success
  | .failed aborted => if aborted then .abandonment else .failure

namespace Turn

variable {P : Platform}

/-! ## Releases and endings -/

theorem releaseRequest_eq (t : Turn P) :
    ∃ admissionGate metrics requestReleased released releases, t.releaseRequest =
      { gateway := { t.gateway with admissionGate, metrics }
        call := { t.call with
          requestReleased, released, history := { t.call.history with releases } } } := by
  unfold releaseRequest
  split
  · exact ⟨_, _, _, _, _, rfl⟩
  · exact ⟨_, _, _, _, _, rfl⟩

theorem reject_eq (t : Turn P) :
    ∃ admissionGate metrics requestReleased released releases, t.reject =
      { gateway := { t.gateway with admissionGate, metrics }
        call := { t.call with
          stage := .rejected
          requestReleased, released, history := { t.call.history with releases } } } := by
  unfold reject goTo
  split
  · have ⟨_, _, _, _, _, heq⟩ := t.releaseRequest_eq
    rw [heq]
    exact ⟨_, _, _, _, _, rfl⟩
  · exact ⟨_, _, _, _, _, rfl⟩

theorem respond_eq (t : Turn P) (response : ClientResponse) :
    ∃ admissionGate metrics requestReleased released wrapped releases, t.respond response =
      { gateway := { t.gateway with admissionGate, metrics }
        call := { t.call with
          stage := .responded response
          requestReleased, released, wrapped, history := { t.call.history with releases } } } := by
  unfold respond goTo
  split
  · exact ⟨_, _, _, _, _, _, rfl⟩
  · split
    · have ⟨_, _, _, _, _, heq⟩ := t.releaseRequest_eq
      rw [heq]
      exact ⟨_, _, _, _, _, _, rfl⟩
    · exact ⟨_, _, _, _, _, _, rfl⟩

/-- What an ending does not touch. -/
structure Keeps (t t' : Turn P) : Prop where
  configuration : t'.gateway.configuration = t.gateway.configuration
  policyEvaluator : t'.gateway.policyEvaluator = t.gateway.policyEvaluator
  circuitBreaker : t'.gateway.circuitBreaker = t.gateway.circuitBreaker
  arrival : t'.call.arrival = t.call.arrival
  history : ∃ records measurements releases, t'.call.history =
    { t.call.history with records, measurements, releases }

/-- `handle` has returned a response, with one record and one metric about it. -/
structure Writes (t t' : Turn P) : Prop where
  written : ∃ response record measurement, t'.call.stage = .responded response ∧
    t'.call.history.records = t.call.history.records ++ [record] ∧
    t'.call.history.measurements = t.call.history.measurements ++ [measurement] ∧
    record.outcome = measurement.outcome ∧ record.status = measurement.status ∧
    record.status = response.status ∧
    record.policyVersion = t.gateway.policyEvaluator.activeVersion

/-- `handle` has thrown, and nothing was written. -/
structure Throws (t t' : Turn P) : Prop where
  stage : t'.call.stage = .rejected
  records : t'.call.history.records = t.call.history.records
  measurements : t'.call.history.measurements = t.call.history.measurements

theorem reject_spec (t : Turn P) : Keeps t t.reject ∧ Throws t t.reject := by
  have ⟨_, _, _, _, _, heq⟩ := t.reject_eq
  rw [heq]
  exact ⟨⟨rfl, rfl, rfl, rfl, _, _, _, rfl⟩, rfl, rfl, rfl⟩

theorem complete_none {t : Turn P} {now : Number} {response : ClientResponse}
    {completion : AuditCompletion} :
    t.complete now response completion = none ↔ t.call.arrival.hasHeaderId = false := by
  unfold complete Arrival.hasHeaderId
  simp only
  split
  · next h => simpa using h
  · next h => simpa using h

theorem complete_some {t t' : Turn P} {now : Number} {response response' : ClientResponse}
    {completion : AuditCompletion} (h : t.complete now response completion = some (t', response')) :
    t'.gateway = t.gateway ∧ response'.status = response.status ∧ ∃ record measurement,
      t'.call = { t.call with history := { t.call.history with
        records := t.call.history.records ++ [record]
        measurements := t.call.history.measurements ++ [measurement] } } ∧
      record.outcome = measurement.outcome ∧ record.status = measurement.status ∧
      record.status = response.status ∧
      record.policyVersion = t.gateway.policyEvaluator.activeVersion := by
  simp only [complete] at h
  split at h
  · cases h
  · have ⟨hturn, hresponse⟩ := Prod.mk.inj (Option.some.inj h)
    rw [← hturn, ← hresponse]
    exact ⟨rfl, rfl, _, _, rfl, rfl, rfl, rfl, rfl⟩

/-- The response after a `#complete` that has not thrown. -/
theorem respond_spec {t t₁ : Turn P} {now : Number} {response response' : ClientResponse}
    {completion : AuditCompletion} (h : t.complete now response completion = some (t₁, response')) :
    Keeps t (t₁.respond response') ∧ Writes t (t₁.respond response') := by
  have ⟨hgateway, hstatus, record, measurement, hcall, houtcome, hsame, hrecord, hversion⟩ :=
    complete_some h
  have ⟨_, _, _, _, _, _, heq⟩ := t₁.respond_eq response'
  rw [heq, hgateway, hcall]
  refine ⟨⟨rfl, rfl, rfl, rfl, _, _, _, rfl⟩, response', record, measurement, rfl, rfl, rfl,
    houtcome, hsame, ?_, hversion⟩
  rw [hrecord, hstatus]

/-- A return of `#complete` throws exactly for a request ID that is not a header value. -/
theorem finish_spec (t : Turn P) (now : Number) (response : ClientResponse)
    (completion : AuditCompletion) :
    Keeps t (t.finish now response completion) ∧
      (t.call.arrival.hasHeaderId = true ∧ Writes t (t.finish now response completion) ∨
        t.call.arrival.hasHeaderId = false ∧ t.finish now response completion = t.reject) := by
  unfold finish
  split
  · next h =>
    exact ⟨t.reject_spec.1, .inr ⟨complete_none.mp h, rfl⟩⟩
  · next t₁ response' h =>
    have ⟨hkeeps, hwrites⟩ := respond_spec h
    refine ⟨hkeeps, .inl ⟨?_, hwrites⟩⟩
    by_contra hid
    rw [complete_none.mpr (Bool.not_eq_true _ ▸ hid)] at h
    cases h

/-! ## The permit of a call -/

/-- The first completion of the permit of a call. -/
theorem completePermit_eq (t : Turn P) {permit : CircuitBreakerPermit}
    (hopen : permit.completed = false) (completion : Completion) (now : Number) :
    t.completePermit permit completion now =
      ({ gateway := { t.gateway with
          circuitBreaker := (permit.complete completion t.gateway.circuitBreaker now).2 }
         call := { t.call with history := { t.call.history with
          completions := t.call.history.completions ++ [completion] } } },
        { permit with completed := true }) := by
  have hdone := (UpstreamCircuitBreaker.complete_spec hopen completion t.gateway.circuitBreaker
    now).1
  simp only [completePermit, hopen, Bool.false_eq_true, if_false, hdone]

/-! ## The upstream call -/

/-- A further completion does nothing. -/
theorem completePermit_of_completed (t : Turn P) {permit : CircuitBreakerPermit}
    (hdone : permit.completed = true) (completion : Completion) (now : Number) :
    t.completePermit permit completion now = (t, permit) := by
  have hfinish : permit.complete completion t.gateway.circuitBreaker now =
      (permit, t.gateway.circuitBreaker) := by
    unfold CircuitBreakerPermit.complete CircuitBreakerPermit.recordSuccess
      CircuitBreakerPermit.recordFailure CircuitBreakerPermit.abandon CircuitBreakerPermit.finish
    cases completion <;> simp only [hdone, if_true]
  simp only [completePermit, hfinish, hdone, if_true]

/-- The turn once the upstream call has settled and its permit has been completed. -/
def afterUpstream (t : Turn P) (permit : CircuitBreakerPermit) (settlement : UpstreamSettlement)
    (now : Number) : Turn P :=
  ((t.settle settlement).completePermit permit settlement.completion now).1

theorem afterUpstream_eq {t : Turn P} {permit : CircuitBreakerPermit}
    (hopen : permit.completed = false) (hnew : t.call.history.settlement = none)
    (settlement : UpstreamSettlement) (now : Number) :
    t.afterUpstream permit settlement now =
      { gateway := { t.gateway with
          circuitBreaker :=
            (permit.complete settlement.completion t.gateway.circuitBreaker now).2 }
        call := { t.call with history := { t.call.history with
          settlement := some settlement
          completions := t.call.history.completions ++ [settlement.completion] } } } := by
  rw [afterUpstream, completePermit_eq _ hopen]
  simp only [settle, hnew, Option.none_or]

/-- An upstream call ends its request: with a response, or with an exception when the client
has aborted or the request ID is not a header value. -/
structure EndsUpstream (t : Turn P) (permit : CircuitBreakerPermit) (now : Number)
    (settlement : UpstreamSettlement) (t' : Turn P) : Prop where
  aborted : ∀ aborted, settlement = .failed aborted → aborted = t.call.aborted
  keeps : Keeps (t.afterUpstream permit settlement now) t'
  ends : Writes (t.afterUpstream permit settlement now) t' ∨
    t' = (t.afterUpstream permit settlement now).reject ∧
      (settlement = .failed true ∨ t.call.arrival.hasHeaderId = false)

/-- The `catch` after an upstream call that has failed. -/
theorem catchUpstream_spec (t : Turn P) (route : CompiledRoute) (permit : CircuitBreakerPermit)
    (timedOut : Bool) (now : Clocks) :
    EndsUpstream t permit now.date (.failed t.call.aborted)
      (t.catchUpstream route permit timedOut now) := by
  have haborted : ∀ aborted, UpstreamSettlement.failed t.call.aborted = .failed aborted →
      aborted = t.call.aborted := fun aborted h => (UpstreamSettlement.failed.inj h).symm
  unfold catchUpstream
  simp only
  split
  · next h =>
    have h : t.call.aborted = true := h
    have heq : ((t.settle (.failed t.call.aborted)).completePermit permit .abandonment
        now.date).1 = t.afterUpstream permit (.failed t.call.aborted) now.date := by
      simp only [afterUpstream, UpstreamSettlement.completion, h, if_true]
    refine ⟨haborted, ?_, ?_⟩
    · rw [heq]
      exact (reject_spec _).1
    · exact .inr ⟨by rw [heq], .inl (by rw [h])⟩
  · next h =>
    have h : ¬t.call.aborted = true := h
    have heq : ((t.settle (.failed t.call.aborted)).completePermit permit .failure
        now.date).1 = t.afterUpstream permit (.failed t.call.aborted) now.date := by
      simp only [afterUpstream, UpstreamSettlement.completion, h, Bool.false_eq_true, if_false]
    have hfail : ∀ status code, EndsUpstream t permit now.date (.failed t.call.aborted)
        (((t.settle (.failed t.call.aborted)).completePermit permit .failure now.date).1.fail
          now.performance status code [] .error (some route.id)) := by
      intro status code
      rw [heq]
      have ⟨hkeeps, hends⟩ := finish_spec (t.afterUpstream permit (.failed t.call.aborted)
        now.date) now.performance (errorResponse status code [])
          { outcome := .error, reason := some code, routeId := some route.id,
            upstreamStatus := none }
      refine ⟨haborted, hkeeps, ?_⟩
      rcases hends with ⟨_, hwrites⟩ | ⟨hid, hreject⟩
      · exact .inl hwrites
      · exact .inr ⟨hreject, .inr hid⟩
    split
    · exact hfail 504 "upstream_timeout"
    · exact hfail 502 "upstream_unavailable"

/-- A second `catch` finds the call settled and its permit completed. -/
theorem catchUpstream_again {t : Turn P} {settlement : UpstreamSettlement}
    (hsettled : t.call.history.settlement = some settlement) {permit : CircuitBreakerPermit}
    (hdone : permit.completed = true) (hid : t.call.arrival.hasHeaderId = false)
    (route : CompiledRoute) (timedOut : Bool) (now : Clocks) :
    t.catchUpstream route permit timedOut now = t.reject := by
  have hsettle : ∀ again, t.settle again = t := by
    intro again
    simp only [settle, hsettled, Option.some_or]
    rw [← hsettled]
  have hfail : ∀ status code,
      t.fail now.performance status code [] .error (some route.id) = t.reject := by
    intro status code
    have ⟨_, hends⟩ := finish_spec t now.performance (errorResponse status code [])
      { outcome := .error, reason := some code, routeId := some route.id, upstreamStatus := none }
    rcases hends with ⟨hvalid, _⟩ | ⟨_, hreject⟩
    · rw [hid] at hvalid
      cases hvalid
    · exact hreject
  unfold catchUpstream
  simp only [hsettle, completePermit_of_completed t hdone, hfail, ite_self]

theorem respondUpstream_spec {t : Turn P} {settlement : UpstreamSettlement}
    (hsettled : t.call.history.settlement = some settlement) {permit : CircuitBreakerPermit}
    (hdone : permit.completed = true) (route : CompiledRoute) (response : UpstreamResponse)
    (now : Clocks) :
    Keeps t (t.respondUpstream route permit response now) ∧
      (Writes t (t.respondUpstream route permit response now) ∨
        t.respondUpstream route permit response now = t.reject ∧
          t.call.arrival.hasHeaderId = false) := by
  unfold respondUpstream
  simp only
  split
  · next t₁ response' hcomplete =>
    have ⟨hkeeps, hwrites⟩ := respond_spec hcomplete
    exact ⟨hkeeps, .inl hwrites⟩
  · next hcomplete =>
    have hid := complete_none.mp hcomplete
    rw [catchUpstream_again hsettled hdone hid]
    exact ⟨t.reject_spec.1, .inr ⟨rfl, hid⟩⟩

/-- After the fetcher. -/
theorem afterFetch_spec {t : Turn P} {permit : CircuitBreakerPermit}
    (hopen : permit.completed = false) (hnew : t.call.history.settlement = none)
    (route : CompiledRoute) (outcome : UpstreamOutcome) (now : Clocks) :
    ∃ settlement, EndsUpstream t permit now.date settlement
      (t.afterFetch route permit outcome now) := by
  unfold afterFetch
  split
  · exact ⟨_, t.catchUpstream_spec route permit _ now⟩
  · split
    · exact ⟨_, t.catchUpstream_spec route permit _ now⟩
    · next response _ =>
      have hsettled : (t.afterUpstream permit (.answered response.status)
          now.date).call.history.settlement = some (.answered response.status) := by
        rw [afterUpstream_eq hopen hnew]
      have hcompleted : ((t.settle (.answered response.status)).completePermit permit
          (UpstreamSettlement.answered response.status).completion now.date).2.completed =
            true := by
        rw [completePermit_eq _ hopen]
      have ⟨hkeeps, hends⟩ := respondUpstream_spec hsettled hcompleted route response now
      have haborted : ∀ aborted, UpstreamSettlement.answered response.status = .failed aborted →
          aborted = t.call.aborted := fun _ h => by cases h
      refine ⟨.answered response.status, haborted, hkeeps, ?_⟩
      rcases hends with hwrites | ⟨hreject, hid⟩
      · exact .inl hwrites
      · exact .inr ⟨hreject, .inr hid⟩

/-! ## Steps of a call -/

/-- Where a call may end before it has asked for a permit. -/
inductive Prepares (t : Turn P) : Turn P → Prop
  | reading : t.call.stage = .readingBody → Prepares t t
  | undecided : t.call.stage = .undecided → Prepares t t
  | decided {body : BufferedBody} {decision : PolicyDecision} :
      t.call.stage = .decided body decision → Prepares t (t.decide decision)
  | refused {body : BufferedBody} {decision : AllowedPolicyDecision} {route : CompiledRoute}
      {circuitBreaker : UpstreamCircuitBreaker} {seconds : Number} {now : Number} :
      t.call.stage = .decided body (.allowed decision) → decision.route = some route →
      t.gateway.circuitBreaker.acquire P route.upstream now =
        (circuitBreaker, .rejection seconds) →
      Prepares t ((t.decide (.allowed decision)).refuse circuitBreaker)

/-- What a step does to its call. Only the start of an evaluation says which action it is. -/
inductive Moves (t : Turn P) : CallAction → Turn P → Prop
  | evaluates {stream : BodyStream} {now : Number} {body : BufferedBody} :
      t.call.stage = .readingBody →
      readRequestBody P t.call.arrival.request t.gateway.maxRequestBodyBytes stream = .ok body →
      Moves t (.bodyRead stream now) (t.evaluate body)
  | verified {a : CallAction} {body : BufferedBody} {route : CompiledRoute}
      {wafMatches : List WafRuleMatch}
      {authorization : Option String} {policy : JwtPolicy} {outcome : Option VerifiedJwt} :
      t.call.stage = .evaluating body (.verifyingJwt route wafMatches authorization policy) →
      Moves t a (t.afterVerification body route wafMatches authorization policy outcome)
  | checked {a : CallAction} {body : BufferedBody} {route : CompiledRoute}
      {wafMatches : List WafRuleMatch}
      {jwt : Option VerifiedJwt} {identity : String} {policy : RateLimitPolicy}
      {outcome : Option RateLimitResult} :
      t.call.stage = .evaluating body (.checkingRateLimit route wafMatches jwt identity policy) →
      Moves t a (t.afterCheck body route wafMatches jwt identity policy outcome)
  /-- The call ends without an upstream call. -/
  | ends {a : CallAction} {t₁ t' : Turn P} : Prepares t t₁ → Keeps t₁ t' →
      (Writes t₁ t' ∨ t' = t₁.reject ∧ t₁.call.arrival.hasHeaderId = false) → Moves t a t'
  /-- The call has its permit and sends its request. -/
  | sends {a : CallAction} {body : BufferedBody} {decision : AllowedPolicyDecision}
      {route : CompiledRoute}
      {circuitBreaker : UpstreamCircuitBreaker} {permit : CircuitBreakerPermit}
      {sent : UpstreamRequest} {now : Clocks} :
      t.call.stage = .decided body (.allowed decision) → decision.route = some route →
      t.gateway.circuitBreaker.acquire P route.upstream now.date =
        (circuitBreaker, .permit permit) →
      createUpstreamRequest P t.call.arrival.request route body.bytes t.call.arrival.clientIp
        t.call.arrival.requestId t.gateway.upstreamTimeoutMs = .ok sent →
      Moves t a (((t.decide (.allowed decision)).grant circuitBreaker route.upstream permit).send
        route permit sent)
  /-- The call has its permit and no request can be made of it. -/
  | unsendable {a : CallAction} {body : BufferedBody} {decision : AllowedPolicyDecision}
      {route : CompiledRoute}
      {circuitBreaker : UpstreamCircuitBreaker} {permit : CircuitBreakerPermit} {now : Clocks}
      {settlement : UpstreamSettlement} {t' : Turn P} :
      t.call.stage = .decided body (.allowed decision) → decision.route = some route →
      t.gateway.circuitBreaker.acquire P route.upstream now.date =
        (circuitBreaker, .permit permit) →
      EndsUpstream ((t.decide (.allowed decision)).grant circuitBreaker route.upstream permit)
        permit now.date settlement t' → Moves t a t'
  | fetched {a : CallAction} {route : CompiledRoute} {permit : CircuitBreakerPermit} {outcome : UpstreamOutcome}
      {now : Clocks} : t.call.stage = .fetching route permit →
      Moves t a (t.afterFetch route permit outcome now)
  | aborted {a : CallAction} : Moves t a { t with call := { t.call with aborted := true } }
  /-- The client reads or cancels the response. -/
  | streams {a : CallAction} {admissionGate : AdmissionGate} {metrics : GatewayMetrics}
      {requestReleased released : Bool} {wrapped : Option WrappedBody} {releases : ℕ} :
      t.call.wrapped.isSome = true →
      Moves t a {
        gateway := { t.gateway with admissionGate, metrics }
        call := { t.call with
          requestReleased, released, wrapped, history := { t.call.history with releases } } }

/-- A return of `#complete` ends the call. -/
theorem Prepares.finish {t t₁ : Turn P} {a : CallAction} (h : Prepares t t₁) (now : Number)
    (response : ClientResponse) (completion : AuditCompletion) :
    Moves t a (t₁.finish now response completion) := by
  have ⟨hkeeps, hends⟩ := t₁.finish_spec now response completion
  apply Moves.ends h hkeeps
  rcases hends with ⟨_, hwrites⟩ | ⟨hid, hreject⟩
  · exact .inl hwrites
  · exact .inr ⟨hreject, hid⟩

theorem moves_startEvaluation {t : Turn P} (hstage : t.call.stage = .readingBody)
    (stream : BodyStream) (now : Number) :
    Moves t (.bodyRead stream now) (t.startEvaluation stream now) := by
  unfold startEvaluation
  split
  · exact (Prepares.reading hstage).finish _ _ _
  · exact (Prepares.reading hstage).finish _ _ _
  · next hread => exact .evaluates hstage hread

theorem moves_afterEvaluation {t : Turn P} {a : CallAction} {body : BufferedBody} {decision : PolicyDecision}
    (hstage : t.call.stage = .decided body decision) (now : Clocks) :
    Moves t a ((t.decide decision).afterEvaluation body decision now) := by
  unfold afterEvaluation
  split
  · exact (Prepares.decided hstage).finish _ _ _
  · next decision =>
    split
    · exact (Prepares.decided hstage).finish _ _ _
    · next route hroute =>
      split
      · next hacquire => exact (Prepares.refused hstage hroute hacquire).finish _ _ _
      · next circuitBreaker permit hacquire =>
        unfold sendUpstream
        simp only
        split
        · exact .unsendable hstage hroute hacquire (catchUpstream_spec _ route permit false now)
        · next hsent => exact .sends hstage hroute hacquire hsent

/-- A release and another state of the stream leave the rest as it was. -/
theorem moves_wrapped {t t₁ : Turn P} {a : CallAction} (hwrapped : t.call.wrapped.isSome = true)
    {admissionGate : AdmissionGate} {metrics : GatewayMetrics} {requestReleased released : Bool}
    {releases : ℕ} (heq : t₁ = {
      gateway := { t.gateway with admissionGate, metrics }
      call := { t.call with
        requestReleased, released, history := { t.call.history with releases } } })
    (wrapped : Option WrappedBody) :
    Moves t a { t₁ with call := { t₁.call with wrapped } } := by
  rw [heq]
  exact .streams hwrapped

theorem moves_pulled {t : Turn P} {a : CallAction} (hwrapped : t.call.wrapped.isSome = true)
    (wrapped : WrappedBody) (outcome : ReadOutcome) : Moves t a (t.pulled wrapped outcome) := by
  have ⟨_, _, _, _, _, heq⟩ := t.releaseRequest_eq
  unfold pulled
  simp only
  split
  · split
    · exact moves_wrapped hwrapped heq _
    · have ⟨_, _, _, _, _, hagain⟩ := t.releaseRequest.releaseRequest_eq
      rw [hagain, heq]
      exact .streams hwrapped
  · exact moves_wrapped hwrapped heq _
  · split
    · exact .streams hwrapped
    · exact moves_wrapped hwrapped heq _

theorem moves_of_step {t t' : Turn P} {a : CallAction} (h : t.step a = some t') :
    Moves t a t' := by
  cases a with
  | bodyRead stream now =>
    simp only [step] at h
    split at h
    · next hstage =>
      rw [← Option.some.inj h]
      exact moves_startEvaluation hstage stream now
    · cases h
  | verified outcome =>
    simp only [step] at h
    split at h
    · next hstage =>
      rw [← Option.some.inj h]
      exact .verified hstage
    · cases h
  | checked outcome =>
    simp only [step] at h
    split at h
    · next hstage =>
      rw [← Option.some.inj h]
      exact .checked hstage
    · cases h
  | proceed now =>
    simp only [step] at h
    split at h
    · next hstage =>
      rw [← Option.some.inj h]
      exact moves_afterEvaluation hstage now
    -- the rejection of the evaluation ends the call with an error
    · next hstage =>
      rw [← Option.some.inj h]
      exact (Prepares.undecided hstage).finish _ _ _
    · cases h
  | fetched outcome now =>
    simp only [step] at h
    split at h
    · next hstage =>
      rw [← Option.some.inj h]
      exact .fetched hstage
    · cases h
  | abort =>
    simp only [step] at h
    rw [← Option.some.inj h]
    exact .aborted
  | pull =>
    have ⟨wrapped, hwrapped, hnext⟩ := Option.bind_eq_some_iff.mp h
    have hsome : t.call.wrapped.isSome = true := Option.isSome_iff_exists.mpr ⟨_, hwrapped⟩
    split at hnext
    · rw [← Option.some.inj hnext]
      exact .streams hsome
    · cases hnext
  | pulled outcome =>
    have ⟨wrapped, hwrapped, hnext⟩ := Option.bind_eq_some_iff.mp h
    have hsome : t.call.wrapped.isSome = true := Option.isSome_iff_exists.mpr ⟨_, hwrapped⟩
    split at hnext
    · rw [← Option.some.inj hnext]
      exact moves_pulled hsome wrapped outcome
    · cases hnext
  | cancel =>
    have ⟨wrapped, hwrapped, hnext⟩ := Option.bind_eq_some_iff.mp h
    have hsome : t.call.wrapped.isSome = true := Option.isSome_iff_exists.mpr ⟨_, hwrapped⟩
    split at hnext
    · rw [← Option.some.inj hnext]
      exact .streams hsome
    · cases hnext
  | canceled =>
    have ⟨wrapped, hwrapped, hnext⟩ := Option.bind_eq_some_iff.mp h
    have hsome : t.call.wrapped.isSome = true := Option.isSome_iff_exists.mpr ⟨_, hwrapped⟩
    split at hnext
    · rw [← Option.some.inj hnext]
      have ⟨_, _, _, _, _, heq⟩ := t.releaseRequest_eq
      exact moves_wrapped hsome heq _
    · cases hnext

end Turn

/-! ## Steps of the gateway -/

/-- A call that has just arrived: it reads its body, or it was turned away. -/
inductive Arrives {P : Platform} (gateway : Gateway P) (arrival : Arrival) : Turn P → Prop
  | admitted {admissionGate : AdmissionGate} {metrics : GatewayMetrics} {call : Call} :
      call.arrival = arrival → call.stage = .readingBody → call.history = .new →
      Arrives gateway arrival { gateway := { gateway with admissionGate, metrics }, call }
  | turnedAway {metrics : GatewayMetrics} {call : Call} {t' : Turn P} :
      call.arrival = arrival → call.history = .new →
      Turn.Keeps { gateway := { gateway with metrics }, call } t' →
      (Turn.Writes { gateway := { gateway with metrics }, call } t' ∨
        t' = Turn.reject { gateway := { gateway with metrics }, call } ∧
          arrival.hasHeaderId = false) → Arrives gateway arrival t'

namespace Gateway

variable {P : Platform} {options : GatewayOptions} {trustedKeys : TrustedKeyring}
  {s s' : GatewayState P}

/-- A gateway that has been made. -/
structure Fresh (options : GatewayOptions) (gateway : Gateway P) : Prop where
  configuration : gateway.configuration = none
  policyEvaluator : gateway.policyEvaluator = .new
  circuits : gateway.circuitBreaker.circuits = .empty
  metrics : gateway.metrics = .new
  maximum : (gateway.admissionGate.maximum : Number) =
    options.maxInFlightRequests.getD DEFAULT_MAX_IN_FLIGHT_REQUESTS
  admissionGate : gateway.admissionGate =
    { maximum := gateway.admissionGate.maximum, active := 0, accepting := true,
      idleWaiters := [], promises := [] }

theorem new_ok {gateway : Gateway P} (h : new P options = .ok gateway) :
    Fresh options gateway := by
  unfold new at h
  have ⟨admissionGate, hgate, hbreaker⟩ := Except.bind_eq_ok_iff.mp h
  have ⟨circuitBreaker, hnew, hrest⟩ := Except.bind_eq_ok_iff.mp hbreaker
  have hempty := (UpstreamCircuitBreaker.new_ok hnew).2
  have hmade : (admissionGate.maximum : Number) =
      options.maxInFlightRequests.getD DEFAULT_MAX_IN_FLIGHT_REQUESTS ∧ admissionGate =
      { maximum := admissionGate.maximum, active := 0, accepting := true, idleWaiters := [],
        promises := [] } := by
    unfold AdmissionGate.new at hgate
    split at hgate
    · cases hgate
    · next hvalid =>
      rw [← Except.ok.inj hgate]
      exact ⟨natCast_toNat_num hvalid, rfl⟩
  split at hrest
  · cases hrest
  · split at hrest
    · cases hrest
    · rw [← Except.ok.inj hrest]
      exact ⟨rfl, rfl, hempty, rfl, hmade.1, hmade.2⟩

theorem arrives_handle (gateway : Gateway P) (request : IncomingRequest)
    (clientIp : Option String) (requestId : String) (now : Number) (sinceDrain : Bool) :
    Arrives gateway { request, clientIp, requestId, startedAt := now }
      (gateway.handle request clientIp requestId now sinceDrain) := by
  have hfail : ∀ metrics call status code headers,
      call.arrival = { request, clientIp, requestId, startedAt := now } → call.history = .new →
      Arrives gateway { request, clientIp, requestId, startedAt := now }
        (Turn.fail { gateway := { gateway with metrics }, call } now status code headers .error
          none) := by
    intro metrics call status code headers harrival hnew
    have ⟨hkeeps, hends⟩ := Turn.finish_spec { gateway := { gateway with metrics }, call } now
      (errorResponse status code headers)
      { outcome := .error, reason := some code, routeId := none, upstreamStatus := none }
    apply Arrives.turnedAway harrival hnew hkeeps
    rcases hends with ⟨_, hwrites⟩ | ⟨hid, hreject⟩
    · exact .inl hwrites
    · exact .inr ⟨hreject, harrival ▸ hid⟩
  unfold Gateway.handle
  simp only
  split
  · exact hfail _ _ _ _ _ rfl rfl
  · exact hfail _ _ _ _ _ rfl rfl
  · exact .admitted rfl rfl rfl

/-- What a step is: the arrival of a call, a step of a call, or one of three others. -/
inductive Steps (trustedKeys : TrustedKeyring) (s : GatewayState P) :
    GatewayAction → GatewayState P → Prop
  | arrives {a : GatewayAction} {arrival : Arrival} {t : Turn P} :
      Arrives s.gateway arrival t →
      Steps trustedKeys s a { s with gateway := t.gateway, calls := s.calls ++ [t.call] }
  | moves {index : ℕ} {action : CallAction} {call : Call} {t : Turn P} :
      s.calls[index]? = some call → Turn.Moves { gateway := s.gateway, call } action t →
      Steps trustedKeys s (.turn index action)
        { s with gateway := t.gateway, calls := s.calls.set index t.call }
  /-- A drain begins, or somebody waits for its end. -/
  | gate {a : GatewayAction} {admissionGate : AdmissionGate} {metrics : GatewayMetrics}
      {drained : Bool} :
      Steps trustedKeys s a
        { s with gateway := { s.gateway with admissionGate, metrics }, drained }
  | installs {a : GatewayAction} {value : Json} {verified : SignedBundleEnvelope} :
      verifyBundleEnvelope P value trustedKeys = .ok verified →
      Steps trustedKeys s a
        { s with
          gateway := { s.gateway with configuration := some verified.bundle }
          installed := s.installed ++ [verified.bundle] }

theorem steps_of_step {a : GatewayAction} (h : step trustedKeys s a = some s') :
    Steps trustedKeys s a s' := by
  cases a with
  | handle request clientIp requestId now =>
    rw [← Option.some.inj h]
    exact .arrives (arrives_handle _ _ _ _ _ _)
  | turn index action =>
    have ⟨call, hcall, hnext⟩ := Option.bind_eq_some_iff.mp h
    have ⟨t, ht, heq⟩ := Option.bind_eq_some_iff.mp hnext
    rw [← Option.some.inj heq]
    exact .moves hcall (Turn.moves_of_step ht)
  | beginDrain =>
    rw [← Option.some.inj h]
    unfold beginDrain
    split
    · exact .gate
    · exact .gate
  | waitForIdle =>
    rw [← Option.some.inj h]
    exact .gate
  | install value =>
    simp only [step] at h
    split at h
    · cases h
    · next hverified =>
      rw [← Option.some.inj h]
      exact .installs hverified

theorem step_install {value : Json} {verified : SignedBundleEnvelope}
    (h : verifyBundleEnvelope P value trustedKeys = .ok verified) (s : GatewayState P) :
    step trustedKeys s (.install value) = some
      { s with
        gateway := { s.gateway with configuration := some verified.bundle }
        installed := s.installed ++ [verified.bundle] } := by
  simp only [step, h]

/-- A bundle that verifies may be installed in any state of a run. -/
theorem reachable_install {ok : GatewayState P → GatewayAction → Prop} {value : Json}
    {verified : SignedBundleEnvelope}
    (h : verifyBundleEnvelope P value trustedKeys = .ok verified) (hok : ok s (.install value))
    (hreachable : (machine P options trustedKeys).ReachableBy ok s) :
    (machine P options trustedKeys).ReachableBy ok
      { s with
        gateway := { s.gateway with configuration := some verified.bundle }
        installed := s.installed ++ [verified.bundle] } :=
  .step (a := .install value) hreachable hok (step_install h s)

/-- What every arrival establishes for its call and every step of a call keeps holds of all
calls. -/
theorem calls_invariant {Q : Call → Prop} {ok : GatewayState P → GatewayAction → Prop}
    (harrives : ∀ (gateway : Gateway P) arrival t, Arrives gateway arrival t → Q t.call)
    (hmoves : ∀ (t t' : Turn P) a, Q t.call → Turn.Moves t a t' → Q t'.call)
    (h : (machine P options trustedKeys).ReachableBy ok s) : ∀ call ∈ s.calls, Q call := by
  refine h.invariant (I := fun s => ∀ call ∈ s.calls, Q call) (fun s hinit => ?_)
    fun s a s' hI _ hstep => ?_
  · have ⟨gateway, _, heq⟩ := hinit
    intro call hcall
    rw [heq] at hcall
    cases hcall
  · cases steps_of_step hstep with
    | arrives harrival =>
      intro call hcall
      rcases List.mem_append.mp hcall with hmem | hmem
      · exact hI call hmem
      · rw [List.mem_singleton.mp hmem]
        exact harrives _ _ _ harrival
    | moves hget hmove =>
      intro call hcall
      rcases List.mem_or_eq_of_mem_set hcall with hmem | heq
      · exact hI call hmem
      · rw [heq]
        exact hmoves _ _ _ (hI _ (List.mem_of_getElem? hget)) hmove
    | gate => exact hI
    | installs => exact hI

end Gateway
end ShieldWard.Edge
