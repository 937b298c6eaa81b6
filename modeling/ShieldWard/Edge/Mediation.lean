import ShieldWard.Edge.AuditedVersions
import ShieldWard.Edge.PolicyEngineTheorems
import ShieldWard.Edge.VerifyTheorems

/-!
# Complete mediation

What a call has passed is said for every stage that it can stand at, and each step of a call
takes it from what holds at one stage to what holds at the next. The other calls, and the
bundles that are installed meanwhile, do not touch it. The engine that has evaluated a call was
built from a bundle of the version that was current, and verified bundles of one version are one
bundle.
-/

namespace ShieldWard.Edge

open Turn PolicyEngine

variable {P : Platform}

/-! ## What a call has asked -/

/-- Which bundle a call was evaluated with, and what it has asked the others. -/
structure Asked where
  snapshot : Option Bundle
  evaluatedBy : Option Bundle
  body : Option BufferedBody
  verifications : List Verification
  checks : List LimiterCheck
  permits : List (String × CircuitBreakerPermit)
  fetches : List UpstreamRequest

def CallHistory.asked (history : CallHistory) : Asked where
  snapshot := history.snapshot
  evaluatedBy := history.evaluatedBy
  body := history.body
  verifications := history.verifications
  checks := history.checks
  permits := history.permits
  fetches := history.fetches

/-- The engine of the bundle has evaluated the call, and the bundle has the version of the one that
was current when the evaluation started. -/
def Asked.EvaluatedBy (asked : Asked) (bundle : Bundle) : Prop :=
  asked.evaluatedBy = some bundle ∧
    ∃ current, asked.snapshot = some current ∧ bundle.version = current.version

/-- The bundle resolves the request to the route, and its firewall lets the request pass. -/
def Asked.Routed (P : Platform) (arrival : Arrival) (asked : Asked) (bundle : Bundle)
    (body : BufferedBody) (route : CompiledRoute) : Prop :=
  asked.EvaluatedBy bundle ∧ asked.body = some body ∧
    Resolves P bundle (arrival.policyRequest body) route

/-- The verifier was asked once, if the route has a token policy, and has accepted the header of
the request under this policy. -/
def Asked.Authenticated (arrival : Arrival) (asked : Asked) (route : CompiledRoute)
    (jwt : Option VerifiedJwt) : Prop :=
  match route.jwt with
  | none => jwt = none ∧ asked.verifications = []
  | some policy => ∃ verified, jwt = some verified ∧ asked.verifications = [{
      authorization := arrival.request.headers.get "authorization"
      policy
      outcome := some verified }]

/-- The limiter was asked once, if the route has a limit, and has allowed the route and the
identity. -/
def Asked.WithinLimit (arrival : Arrival) (asked : Asked) (route : CompiledRoute)
    (jwt : Option VerifiedJwt) : Prop :=
  match route.rateLimit with
  | none => asked.checks = []
  | some policy => ∃ identity result, Identifies arrival.clientIp jwt policy identity ∧
      result.allowed = true ∧
      asked.checks = [{ routeId := route.id, identity, policy, outcome := some result }]

/-- The call has not got as far as the circuit breaker. -/
def Asked.Unsent (asked : Asked) : Prop := asked.permits = [] ∧ asked.fetches = []

/-- What a call has passed by its stage. -/
def PassedStage (P : Platform) (arrival : Arrival) (asked : Asked) : CallStage → Prop
  | .readingBody => asked.Unsent ∧ asked.verifications = [] ∧ asked.checks = []
  | .evaluating body evaluation => asked.Unsent ∧ asked.checks = [] ∧ ∃ bundle,
      match evaluation with
      | .decided _ | .rejected => False
      | .verifyingJwt route _ authorization policy =>
        asked.Routed P arrival bundle body route ∧ route.jwt = some policy ∧
          authorization = arrival.request.headers.get "authorization" ∧
          asked.verifications = []
      | .checkingRateLimit route _ jwt identity policy =>
        asked.Routed P arrival bundle body route ∧ asked.Authenticated arrival route jwt ∧
          route.rateLimit = some policy ∧ Identifies arrival.clientIp jwt policy identity
  | .decided body decision => asked.Unsent ∧
      match decision with
      | .denied _ => True
      | .allowed decision => ∀ route, decision.route = some route → ∃ bundle,
        asked.Routed P arrival bundle body route ∧
          asked.Authenticated arrival route decision.jwt ∧
          asked.WithinLimit arrival route decision.jwt
  | .undecided => asked.Unsent
  | _ => True

/-- The limiter is consulted only for a request that has passed the firewall of its route and, if
the route has a token policy, the verifier. -/
structure Consulted (P : Platform) (arrival : Arrival) (asked : Asked) (bundle : Bundle)
    (route : CompiledRoute) (check : LimiterCheck) : Prop where
  routed : ∃ body, asked.Routed P arrival bundle body route
  identified : ∃ jwt, asked.Authenticated arrival route jwt ∧
    Identifies arrival.clientIp jwt check.policy check.identity
  routeId : check.routeId = route.id
  policy : route.rateLimit = some check.policy

/-- What comes after the limiter does not change what came before it. -/
theorem Consulted.later {arrival : Arrival} {asked : Asked} {bundle : Bundle}
    {route : CompiledRoute} {check : LimiterCheck}
    (h : Consulted P arrival asked bundle route check)
    (permits : List (String × CircuitBreakerPermit)) (fetches : List UpstreamRequest) :
    Consulted P arrival { asked with permits, fetches } bundle route check :=
  ⟨h.routed, h.identified, h.routeId, h.policy⟩

/-- What the fetcher is called with has passed every control of one bundle. -/
structure Mediated (P : Platform) (arrival : Arrival) (asked : Asked) (bundle : Bundle)
    (route : CompiledRoute) (sent : UpstreamRequest) : Prop where
  routed : ∃ body, asked.Routed P arrival bundle body route
  controls : ∃ jwt, asked.Authenticated arrival route jwt ∧ asked.WithinLimit arrival route jwt
  granted : ∃ permit, asked.permits = [(route.upstream, permit)]
  origin : ∃ upstream, P.parseUrl route.upstream = some upstream ∧
    sent.url.origin = upstream.origin

/-- Whatever a call has done so far it was allowed to do. -/
structure Passed (P : Platform) (arrival : Arrival) (asked : Asked) : Prop where
  fetched : ∀ sent ∈ asked.fetches, ∃ bundle route, Mediated P arrival asked bundle route sent
  fetchedOnce : asked.fetches.length ≤ 1
  consulted : ∀ check ∈ asked.checks, ∃ bundle route,
    Consulted P arrival asked bundle route check
  consultedOnce : asked.checks.length ≤ 1

structure CallPassed (P : Platform) (call : Call) : Prop where
  stage : PassedStage P call.arrival call.history.asked call.stage
  passed : Passed P call.arrival call.history.asked

/-! ## From one stage to the next -/

section

variable {arrival : Arrival} {asked : Asked} {bundle : Bundle} {body : BufferedBody}
  {route : CompiledRoute}

/-- A call that has neither asked the limiter nor fetched. -/
theorem passed_of_unsent (hunsent : asked.Unsent) (hchecks : asked.checks = []) :
    Passed P arrival asked where
  fetched := by simp [hunsent.2]
  fetchedOnce := by simp [hunsent.2]
  consulted := by simp [hchecks]
  consultedOnce := by simp [hchecks]

/-- The only call of the limiter. -/
theorem passed_of_checked (hunsent : asked.Unsent) {check : LimiterCheck}
    (hchecks : asked.checks = [check]) (h : Consulted P arrival asked bundle route check) :
    Passed P arrival asked where
  fetched := by simp [hunsent.2]
  fetchedOnce := by simp [hunsent.2]
  consulted := by
    intro other hother
    rw [hchecks, List.mem_singleton] at hother
    rw [hother]
    exact ⟨bundle, route, h⟩
  consultedOnce := by simp [hchecks]

/-- A denial sends nothing. -/
theorem passedStage_denied (h : asked.Unsent) (denial : DeniedPolicyDecision) :
    PassedStage P arrival asked (evaluated body (.decided (.denied denial))) :=
  ⟨h, trivial⟩

/-- From the verified token on. -/
theorem passedStage_limitRate (hunsent : asked.Unsent) (hchecks : asked.checks = [])
    (hrouted : asked.Routed P arrival bundle body route) {jwt : Option VerifiedJwt}
    (hjwt : asked.Authenticated arrival route jwt) (wafMatches : List WafRuleMatch) :
    PassedStage P arrival asked
      (evaluated body (limitRate arrival.clientIp route wafMatches jwt)) := by
  rcases limitRate_cases arrival.clientIp route wafMatches jwt with
    ⟨denial, heq⟩ | heq | ⟨hnone, heq⟩ | ⟨identity, policy, hpolicy, hidentity, heq⟩
  · rw [heq]
    exact passedStage_denied hunsent denial
  · rw [heq]
    exact hunsent
  · rw [heq]
    refine ⟨hunsent, fun route' hroute' => ?_⟩
    have hsame : route = route' := Option.some.inj hroute'
    rw [← hsame]
    refine ⟨bundle, hrouted, hjwt, ?_⟩
    unfold Asked.WithinLimit
    rw [hnone]
    exact hchecks
  · rw [heq]
    exact ⟨hunsent, hchecks, bundle, hrouted, hjwt, hpolicy, hidentity⟩

/-- After the await of the verifier. -/
theorem passedStage_afterJwt (hunsent : asked.Unsent) (hchecks : asked.checks = [])
    (hrouted : asked.Routed P arrival bundle body route) {policy : JwtPolicy}
    (hpolicy : route.jwt = some policy) {outcome : Option VerifiedJwt}
    (hverifications : asked.verifications = [{
      authorization := arrival.request.headers.get "authorization", policy, outcome }])
    (wafMatches : List WafRuleMatch) :
    PassedStage P arrival asked
      (evaluated body (afterJwt arrival.clientIp route wafMatches outcome)) := by
  cases outcome with
  | none => exact passedStage_denied hunsent _
  | some jwt =>
    have hjwt : asked.Authenticated arrival route (some jwt) := by
      unfold Asked.Authenticated
      rw [hpolicy]
      exact ⟨jwt, rfl, hverifications⟩
    exact passedStage_limitRate hunsent hchecks hrouted hjwt wafMatches

/-- After the await of the limiter. -/
theorem passedStage_afterRateLimit (hunsent : asked.Unsent)
    (hrouted : asked.Routed P arrival bundle body route) {jwt : Option VerifiedJwt}
    (hjwt : asked.Authenticated arrival route jwt) {identity : String}
    {policy : RateLimitPolicy} (hpolicy : route.rateLimit = some policy)
    (hidentity : Identifies arrival.clientIp jwt policy identity)
    {outcome : Option RateLimitResult}
    (hchecks : asked.checks = [{ routeId := route.id, identity, policy, outcome }])
    (wafMatches : List WafRuleMatch) :
    PassedStage P arrival asked (evaluated body (afterRateLimit route wafMatches jwt outcome)) := by
  cases outcome with
  | none => exact passedStage_denied hunsent _
  | some result =>
    unfold afterRateLimit
    simp only
    split
    · exact passedStage_denied hunsent _
    · next hallowed =>
      refine ⟨hunsent, fun route' hroute' => ?_⟩
      have hsame : route = route' := Option.some.inj hroute'
      rw [← hsame]
      refine ⟨bundle, hrouted, hjwt, ?_⟩
      unfold Asked.WithinLimit
      rw [hpolicy]
      exact ⟨identity, result, hidentity, by simpa using hallowed, hchecks⟩

/-- Before its evaluation a call has asked nothing, and how far the engine gets at once decides
where the call stands next. -/
theorem passedStage_evaluated {engine : PolicyEngine P}
    (hnew : PolicyEngine.new P bundle = .ok engine) {evaluation : Evaluation}
    (hevaluate : engine.evaluate (arrival.policyRequest body) = .ok evaluation)
    (hbundle : asked.EvaluatedBy bundle) (hbody : asked.body = some body)
    (hunsent : asked.Unsent) (hverifications : asked.verifications = [])
    (hchecks : asked.checks = []) :
    PassedStage P arrival asked (evaluated body evaluation) := by
  rcases evaluate_cases hnew hevaluate with
    ⟨denial, heq⟩ | heq | ⟨route, wafMatches, hresolves, hnext⟩
  · rw [heq]
    exact passedStage_denied hunsent denial
  · rw [heq]
    exact ⟨hunsent, fun _ h => by cases h⟩
  · have hrouted : asked.Routed P arrival bundle body route := ⟨hbundle, hbody, hresolves⟩
    rcases hnext with ⟨policy, hpolicy, heq⟩ | ⟨hnone, heq⟩
    · rw [heq]
      exact ⟨hunsent, hchecks, bundle, hrouted, hpolicy, rfl, hverifications⟩
    · rw [heq]
      have hjwt : asked.Authenticated arrival route none := by
        unfold Asked.Authenticated
        rw [hnone]
        exact ⟨rfl, hverifications⟩
      exact passedStage_limitRate hunsent hchecks hrouted hjwt wafMatches

end

/-! ## Steps of a call -/

/-- Only the path, the query and the fragment of the upstream URL are replaced. -/
theorem origin_of_buildUpstreamUrl {upstream : String} {incomingUrl url : Url}
    (h : buildUpstreamUrl P upstream incomingUrl = .ok url) :
    ∃ target, P.parseUrl upstream = some target ∧ url.origin = target.origin := by
  unfold buildUpstreamUrl at h
  split at h
  · cases h
  · next target htarget =>
    refine ⟨target, htarget, ?_⟩
    split at h
    · cases h
    · split at h
      · cases h
      · split at h
        · cases h
        · rw [← Except.ok.inj h]
          rfl

theorem origin_of_createUpstreamRequest {request : IncomingRequest} {route : CompiledRoute}
    {body : Option Bytes} {clientIp : Option String} {requestId : String}
    {timeoutMs : Ecma.Number} {sent : UpstreamRequest}
    (h : createUpstreamRequest P request route body clientIp requestId timeoutMs = .ok sent) :
    ∃ target, P.parseUrl route.upstream = some target ∧ sent.url.origin = target.origin := by
  have ⟨url, hurl, hrest⟩ := Except.bind_eq_ok_iff.mp h
  have ⟨headers, _, hsent⟩ := Except.bind_eq_ok_iff.mp hrest
  split at hsent
  · cases hsent
  · split at hsent
    · cases hsent
    · rw [← Except.ok.inj hsent]
      exact origin_of_buildUpstreamUrl hurl

/-- An ending asks nobody anything. -/
theorem Turn.Keeps.asked {t t' : Turn P} (h : Keeps t t') :
    t'.call.history.asked = t.call.history.asked := by
  have ⟨_, _, _, hhistory⟩ := h.history
  rw [hhistory]
  rfl

theorem CallPassed.ended {t t' : Turn P}
    (h : Passed P t.call.arrival t.call.history.asked) (hkeeps : Keeps t t')
    (hends : Writes t t' ∨ t' = t.reject) : CallPassed P t'.call := by
  have hpassed : Passed P t'.call.arrival t'.call.history.asked := by
    rw [hkeeps.arrival, hkeeps.asked]
    exact h
  refine ⟨?_, hpassed⟩
  rcases hends with hwrites | hreject
  · have ⟨_, _, _, hstage, _⟩ := hwrites.written
    rw [hstage]
    trivial
  · rw [hreject, t.reject_spec.2.stage]
    trivial

theorem CallPassed.endsUpstream {t t' : Turn P} {permit : CircuitBreakerPermit}
    {now : Ecma.Number} {settlement : UpstreamSettlement}
    (h : Passed P t.call.arrival t.call.history.asked)
    (hends : EndsUpstream t permit now settlement t') : CallPassed P t'.call :=
  .ended (t := t.afterUpstream permit settlement now) h hends.keeps (hends.ends.imp_right And.left)

/-- The evaluation starts with the engine of a bundle of the current version. -/
theorem CallPassed.evaluate {t : Turn P} (hconsistent : t.gateway.policyEvaluator.Consistent)
    (hstage : t.call.stage = .readingBody) (h : CallPassed P t.call) (body : BufferedBody) :
    CallPassed P (t.evaluate body).call := by
  have hpassed := h.stage
  rw [hstage] at hpassed
  have ⟨hunsent, hverifications, hchecks⟩ := hpassed
  refine ⟨?_, passed_of_unsent hunsent hchecks⟩
  have ⟨_, _, hstarts⟩ := LivePolicyEvaluator.evaluate_cases hconsistent t.gateway.configuration
    (t.call.arrival.policyRequest body)
  unfold Turn.evaluate
  simp only
  split
  · exact hunsent
  · next evaluation hevaluation =>
    have ⟨current, active, engine, hcurrent, hversion, hengine, hrunning, hevaluate⟩ :=
      hstarts evaluation hevaluation
    refine passedStage_evaluated hengine hevaluate ⟨?_, current, hcurrent, hversion⟩ rfl hunsent
      hverifications hchecks
    show (LivePolicyEvaluator.evaluate _ _ _).1.activeBundle = some active
    rw [hrunning]
    rfl

theorem CallPassed.moves {t t' : Turn P} {a : CallAction}
    (hconsistent : t.gateway.policyEvaluator.Consistent) (horderly : Orderly t.call)
    (h : CallPassed P t.call) (hmoves : Moves t a t') : CallPassed P t'.call := by
  have hpassed := h.stage
  cases hmoves with
  | @evaluates _ _ body hstage => exact h.evaluate hconsistent hstage body
  | @verified _ body route wafMatches authorization policy outcome hstage =>
    rw [hstage] at hpassed
    have ⟨hunsent, hchecks, bundle, hrouted, hpolicy, hauthorization, hnone⟩ := hpassed
    let asked := (t.afterVerification body route wafMatches authorization policy
      outcome).call.history.asked
    have hunsent : asked.Unsent := hunsent
    have hchecks : asked.checks = [] := hchecks
    have hrouted : asked.Routed P t.call.arrival bundle body route := hrouted
    -- no verification was asked for before this one
    have hverifications : asked.verifications = [{
        authorization := t.call.arrival.request.headers.get "authorization", policy, outcome }] := by
      show t.call.history.asked.verifications ++ [_] = [_]
      rw [hnone, hauthorization, List.nil_append]
    exact ⟨passedStage_afterJwt hunsent hchecks hrouted hpolicy hverifications wafMatches,
      passed_of_unsent hunsent hchecks⟩
  | @checked _ body route wafMatches jwt identity policy outcome hstage =>
    rw [hstage] at hpassed
    have ⟨hunsent, hnone, bundle, hrouted, hjwt, hpolicy, hidentity⟩ := hpassed
    let asked := (t.afterCheck body route wafMatches jwt identity policy
      outcome).call.history.asked
    have hunsent : asked.Unsent := hunsent
    have hrouted : asked.Routed P t.call.arrival bundle body route := hrouted
    have hjwt : asked.Authenticated t.call.arrival route jwt := hjwt
    -- nor a check of the limit
    have hchecks : asked.checks = [{ routeId := route.id, identity, policy, outcome }] := by
      show t.call.history.asked.checks ++ [_] = [_]
      rw [hnone, List.nil_append]
    exact ⟨passedStage_afterRateLimit hunsent hrouted hjwt hpolicy hidentity hchecks wafMatches,
      passed_of_checked hunsent hchecks
        ⟨⟨body, hrouted⟩, ⟨jwt, hjwt, hidentity⟩, rfl, hpolicy⟩⟩
  | ends hprepares hkeeps hends =>
    refine .ended ?_ hkeeps (hends.imp_right And.left)
    cases hprepares <;> exact ⟨h.passed.fetched, h.passed.fetchedOnce, h.passed.consulted,
      h.passed.consultedOnce⟩
  | @sends _ body decision route circuitBreaker permit sent now hstage hroute hacquire hsent =>
    rw [hstage] at hpassed
    have ⟨⟨hpermits, hfetches⟩, hcontrols⟩ := hpassed
    have ⟨bundle, hrouted, hjwt, hlimit⟩ := hcontrols route hroute
    let asked := (((t.decide (.allowed decision)).grant circuitBreaker route.upstream permit).send
      route permit sent).call.history.asked
    -- the controls have passed; the permit is the call's only one
    have hgranted : asked.permits = [(route.upstream, permit)] := by
      show t.call.history.asked.permits ++ [_] = [_]
      rw [hpermits, List.nil_append]
    -- and so is the fetch
    have hsends : asked.fetches = [sent] := by
      show t.call.history.asked.fetches ++ [_] = [_]
      rw [hfetches, List.nil_append]
    have hmediated : Mediated P t.call.arrival asked bundle route sent :=
      ⟨⟨body, hrouted⟩, ⟨decision.jwt, hjwt, hlimit⟩, ⟨permit, hgranted⟩,
        origin_of_createUpstreamRequest hsent⟩
    refine ⟨trivial, fun other hother => ?_, ?_, fun check hcheck => ?_, h.passed.consultedOnce⟩
    · have hother : other ∈ asked.fetches := hother
      rw [hsends, List.mem_singleton] at hother
      rw [hother]
      exact ⟨bundle, route, hmediated⟩
    · show asked.fetches.length ≤ 1
      rw [hsends]
      rfl
    · have ⟨bundle, route, hconsulted⟩ := h.passed.consulted check hcheck
      exact ⟨bundle, route, hconsulted.later _ _⟩
  | @unsendable _ body decision route circuitBreaker permit now settlement t' hstage hroute hacquire
      hends =>
    rw [hstage] at hpassed
    have hfetches : t.call.history.asked.fetches = [] := hpassed.1.2
    let granted := (t.decide (.allowed decision)).grant circuitBreaker route.upstream permit
    have hgranted : Passed P granted.call.arrival granted.call.history.asked := by
      refine ⟨fun other hother => ?_, h.passed.fetchedOnce, fun check hcheck => ?_,
        h.passed.consultedOnce⟩
      · have hother : other ∈ t.call.history.asked.fetches := hother
        rw [hfetches] at hother
        cases hother
      · have ⟨bundle, route, hconsulted⟩ := h.passed.consulted check hcheck
        exact ⟨bundle, route, hconsulted.later _ _⟩
    exact .endsUpstream hgranted hends
  | @fetched _ route permit outcome now hstage =>
    have ⟨settlement, hends⟩ := horderly.afterFetch hstage outcome now
    exact .endsUpstream h.passed hends
  | aborted => exact ⟨h.stage, h.passed⟩
  | streams => exact ⟨h.stage, h.passed⟩

theorem CallPassed.arrives {gateway : Gateway P} {arrival : Arrival} {t : Turn P}
    (h : Arrives gateway arrival t) : CallPassed P t.call := by
  have hnew : ∀ arrival, Passed P arrival CallHistory.new.asked := fun arrival =>
    passed_of_unsent ⟨rfl, rfl⟩ rfl
  cases h with
  | @admitted _ _ call harrival hstage hhistory =>
    refine ⟨?_, hhistory ▸ hnew _⟩
    show PassedStage P call.arrival call.history.asked call.stage
    rw [hstage, hhistory]
    exact ⟨⟨rfl, rfl⟩, rfl, rfl⟩
  | turnedAway harrival hhistory hkeeps hends =>
    exact .ended (hhistory ▸ hnew _) hkeeps (hends.imp_right And.left)

/-! ## The bundles of a run -/

section

variable {options : GatewayOptions} {trustedKeys : TrustedKeyring} {s : GatewayState P}

/-- The bundles that a call remembers were installed. -/
def Call.Sourced (installed : List Bundle) (call : Call) : Prop :=
  ∀ bundle, call.history.snapshot = some bundle ∨ call.history.evaluatedBy = some bundle →
    bundle ∈ installed

/-- Bundles are evaluated only after they were installed, and only verified bundles are
installed. -/
structure Sourced (s : GatewayState P) : Prop where
  verified : ∀ bundle ∈ s.installed, bundle.Valid P ∧ verifyBundleVersion P bundle = .ok ()
  consistent : s.gateway.policyEvaluator.Consistent
  configuration : ∀ bundle, s.gateway.configuration = some bundle → bundle ∈ s.installed
  active : ∀ bundle, s.gateway.policyEvaluator.activeBundle = some bundle → bundle ∈ s.installed
  calls : ∀ call ∈ s.calls, call.Sourced s.installed

theorem Sourced.initial {gateway : Gateway P} (hnew : Gateway.new P options = .ok gateway) :
    Sourced (Gateway.initial gateway) := by
  have hfresh := Gateway.new_ok hnew
  refine ⟨fun _ h => (by cases h), .inl hfresh.policyEvaluator, fun bundle h => ?_,
    fun bundle h => ?_, fun _ h => (by cases h)⟩
  · have hnone : gateway.configuration = some bundle := h
    rw [hfresh.configuration] at hnone
    cases hnone
  · have hnone : gateway.policyEvaluator.activeBundle = some bundle := h
    rw [hfresh.policyEvaluator] at hnone
    cases hnone

theorem Sourced.arrives (h : Sourced s) {arrival : Arrival} {t : Turn P}
    (harrives : Arrives s.gateway arrival t) :
    Sourced { s with gateway := t.gateway, calls := s.calls ++ [t.call] } := by
  have hsame : t.gateway.policyEvaluator = s.gateway.policyEvaluator ∧
      t.gateway.configuration = s.gateway.configuration ∧
      t.call.history.snapshot = none ∧ t.call.history.evaluatedBy = none := by
    cases harrives with
    | admitted _ _ hnew =>
      rw [hnew]
      exact ⟨rfl, rfl, rfl, rfl⟩
    | turnedAway _ hnew hkeeps _ =>
      have hsame := hkeeps.sameEvaluation
      refine ⟨hsame.policyEvaluator, hsame.configuration, hsame.snapshot.trans ?_,
        hsame.evaluatedBy.trans ?_⟩
      · rw [hnew]
        rfl
      · rw [hnew]
        rfl
  have ⟨hevaluator, hconfiguration, hsnapshot, hby⟩ := hsame
  refine ⟨h.verified, hevaluator ▸ h.consistent, hconfiguration ▸ h.configuration,
    hevaluator ▸ h.active, fun call hcall => ?_⟩
  rcases List.mem_append.mp hcall with hmem | hmem
  · exact h.calls call hmem
  · rw [List.mem_singleton.mp hmem]
    intro bundle hbundle
    rw [hsnapshot, hby, or_self] at hbundle
    cases hbundle

/-- The start of an evaluation takes its bundles from the gateway. -/
theorem Sourced.evaluate (h : Sourced s) (call : Call) (body : BufferedBody) :
    let t := Turn.evaluate { gateway := s.gateway, call } body
    t.gateway.policyEvaluator.Consistent ∧
      (∀ bundle, t.gateway.policyEvaluator.activeBundle = some bundle → bundle ∈ s.installed) ∧
      t.call.Sourced s.installed := by
  have ⟨hconsistent, _, _⟩ := LivePolicyEvaluator.evaluate_cases h.consistent
    s.gateway.configuration (call.arrival.policyRequest body)
  have hactive : ∀ bundle, (s.gateway.policyEvaluator.evaluate s.gateway.configuration
      (call.arrival.policyRequest body)).1.activeBundle = some bundle → bundle ∈ s.installed := by
    intro bundle hbundle
    rcases LivePolicyEvaluator.evaluate_running h.consistent s.gateway.configuration
      (call.arrival.policyRequest body) with hkept | ⟨current, engine, hcurrent, hrunning⟩
    · rw [hkept] at hbundle
      exact h.active bundle hbundle
    · rw [hrunning] at hbundle
      rw [← Option.some.inj hbundle]
      exact h.configuration current hcurrent
  refine ⟨hconsistent, hactive, fun bundle hbundle => ?_⟩
  rcases hbundle with hsnapshot | hby
  · exact h.configuration bundle hsnapshot
  · exact hactive bundle hby

theorem Sourced.moves (h : Sourced s) (horderly : ∀ call ∈ s.calls, Orderly call)
    {index : ℕ} {action : CallAction} {call : Call} {t : Turn P}
    (hcall : s.calls[index]? = some call)
    (hmoves : Moves { gateway := s.gateway, call } action t) :
    Sourced { s with gateway := t.gateway, calls := s.calls.set index t.call } := by
  have hmem := List.mem_of_getElem? hcall
  have hothers : t.call.Sourced s.installed →
      ∀ other ∈ s.calls.set index t.call, other.Sourced s.installed := by
    intro hsourced other hother
    rcases List.mem_or_eq_of_mem_set hother with hold | hnew
    · exact h.calls other hold
    · rw [hnew]
      exact hsourced
  rcases hmoves.sameEvaluation (horderly call hmem) with
    hsame | ⟨stream, now, body, _, _, _, heq⟩
  · have hevaluator : t.gateway.policyEvaluator = s.gateway.policyEvaluator :=
      hsame.policyEvaluator
    have hconfiguration : t.gateway.configuration = s.gateway.configuration :=
      hsame.configuration
    refine ⟨h.verified, hevaluator ▸ h.consistent, hconfiguration ▸ h.configuration,
      hevaluator ▸ h.active, hothers fun bundle hbundle => ?_⟩
    rw [hsame.snapshot, hsame.evaluatedBy] at hbundle
    exact h.calls call hmem bundle hbundle
  · have ⟨hconsistent, hactive, hsourced⟩ := h.evaluate call body
    rw [heq] at hothers ⊢
    exact ⟨h.verified, hconsistent, h.configuration, hactive, hothers hsourced⟩

theorem Sourced.installs (h : Sourced s) {value : Json} {verified : SignedBundleEnvelope}
    (hverified : verifyBundleEnvelope P value trustedKeys = .ok verified) :
    Sourced { s with
      gateway := { s.gateway with configuration := some verified.bundle }
      installed := s.installed ++ [verified.bundle] } := by
  have hold : ∀ {bundle}, bundle ∈ s.installed → bundle ∈ s.installed ++ [verified.bundle] :=
    List.mem_append_left _
  refine ⟨fun bundle hbundle => ?_, h.consistent, fun bundle hbundle => ?_,
    fun bundle hbundle => hold (h.active bundle hbundle),
    fun call hcall bundle hbundle => hold (h.calls call hcall bundle hbundle)⟩
  · rcases List.mem_append.mp hbundle with hmem | hmem
    · exact h.verified bundle hmem
    · rw [List.mem_singleton.mp hmem]
      have ⟨_, _, _, htrusted⟩ := verifyBundleEnvelope_ok_iff.mp hverified
      exact ⟨(verifyBundleEnvelope_valid hverified).bundle,
        verifyBundleVersion_ok_iff.mpr htrusted.version⟩
  · rw [← Option.some.inj hbundle]
    exact List.mem_append_right _ (List.mem_singleton.mpr rfl)

theorem sourced_of_reachable {ok : GatewayState P → GatewayAction → Prop}
    (h : (Gateway.machine P options trustedKeys).ReachableBy ok s) : Sourced s := by
  induction h with
  | @init s hinit =>
    have ⟨gateway, hnew, heq⟩ := hinit
    rw [heq]
    exact .initial hnew
  | step hreachable _ hstep ih =>
    cases Gateway.steps_of_step hstep with
    | arrives harrives => exact ih.arrives harrives
    | moves hcall hmoves => exact ih.moves (orderly_of_reachable hreachable) hcall hmoves
    | gate => exact ⟨ih.verified, ih.consistent, ih.configuration, ih.active, ih.calls⟩
    | installs hverified => exact ih.installs hverified

/-! ## Runs -/

theorem callPassed_of_reachable (h : (Gateway.machine P options trustedKeys).Reachable s) :
    ∀ call ∈ s.calls, CallPassed P call := by
  induction h with
  | init hinit =>
    have ⟨_, _, heq⟩ := hinit
    intro call hcall
    rw [heq] at hcall
    cases hcall
  | step hreachable _ hstep ih =>
    cases Gateway.steps_of_step hstep with
    | arrives harrives =>
      intro call hcall
      rcases List.mem_append.mp hcall with hmem | hmem
      · exact ih call hmem
      · rw [List.mem_singleton.mp hmem]
        exact .arrives harrives
    | @moves index action call t hget hmoves =>
      have hmem := List.mem_of_getElem? hget
      have hmoved := (ih call hmem).moves (sourced_of_reachable hreachable).consistent
        (orderly_of_reachable hreachable call hmem) hmoves
      intro other hother
      rcases List.mem_or_eq_of_mem_set hother with hold | hnew
      · exact ih other hold
      · rw [hnew]
        exact hmoved
    | gate => exact ih
    | installs => exact ih

/-- What the fetcher is called with has passed the controls of the bundle that was current when
the evaluation of its request started. The fetcher and the limiter are called at most once for a
request, and the limiter only after the firewall and the verifier. -/
theorem complete_mediation (h : (Gateway.machine P options trustedKeys).Reachable s)
    (hdistinguished : Distinguished P s.installed) :
    ∀ call ∈ s.calls,
      (∀ sent ∈ call.history.fetches, ∃ bundle route, call.history.snapshot = some bundle ∧
        Mediated P call.arrival call.history.asked bundle route sent) ∧
      call.history.fetches.length ≤ 1 ∧
      (∀ check ∈ call.history.checks, ∃ bundle route, call.history.snapshot = some bundle ∧
        Consulted P call.arrival call.history.asked bundle route check) ∧
      call.history.checks.length ≤ 1 := by
  intro call hcall
  have hpassed := (callPassed_of_reachable h call hcall).passed
  have hsourced := sourced_of_reachable h
  -- the bundle that has evaluated the request is the one that was current
  have hcurrent : ∀ bundle, call.history.asked.EvaluatedBy bundle →
      call.history.snapshot = some bundle := by
    rintro bundle ⟨hby, current, hsnapshot, hversion⟩
    have hsame : bundle = current := hdistinguished.eq_of_version hsourced.verified
      (hsourced.calls call hcall bundle (.inr hby))
      (hsourced.calls call hcall current (.inl hsnapshot)) hversion
    rw [hsame]
    exact hsnapshot
  refine ⟨fun sent hsent => ?_, hpassed.fetchedOnce, fun check hcheck => ?_,
    hpassed.consultedOnce⟩
  · have ⟨bundle, route, hmediated⟩ := hpassed.fetched sent hsent
    have ⟨body, hby, _⟩ := hmediated.routed
    exact ⟨bundle, route, hcurrent bundle hby, hmediated⟩
  · have ⟨bundle, route, hconsulted⟩ := hpassed.consulted check hcheck
    have ⟨body, hby, _⟩ := hconsulted.routed
    exact ⟨bundle, route, hcurrent bundle hby, hconsulted⟩

end

/-! ## A request under a bundle that was replaced -/

namespace Orders

open Delivery.Orders

theorem distinguished_revised :
    Distinguished platform [received.bundle, revisedReceived.bundle] := by
  have hroutes : ∀ bundle ∈ [received.bundle, revisedReceived.bundle],
      bundle.routes = received.bundle.routes := by
    intro bundle hbundle
    rcases List.mem_pair.mp hbundle with h | h
    · rw [h]
    · rw [h]
      rfl
  have hdigests : ∀ bundle ∈ [received.bundle, revisedReceived.bundle],
      ∀ bundle' ∈ [received.bundle, revisedReceived.bundle],
        platform.crypto.sha256 (canonicalBytes platform bundle.toUnversionedBundle.toJson) =
            platform.crypto.sha256 (canonicalBytes platform bundle'.toUnversionedBundle.toJson) →
          bundle.toUnversionedBundle = bundle'.toUnversionedBundle := by
    decide +kernel
  constructor
  · intro bundle hbundle route hroute rateLimit hlimit n hn
    rw [hroutes bundle hbundle] at hroute
    have hhundred : rateLimit.requests = 100 := by
      rw [List.mem_singleton.mp hroute] at hlimit
      rw [← Option.some.inj hlimit]
    rw [hhundred] at hn
    have heq : n = 100 := by exact_mod_cast hn.symm
    rw [heq]
    rfl
  · intro bundle hbundle bundle' hbundle' hdigest
    exact congrArg (fun unversioned : UnversionedBundle =>
      canonicalBytes platform unversioned.toJson) (hdigests bundle hbundle bundle' hbundle' hdigest)

/-- A request passes all controls, and before they have settled another policy is installed. -/
theorem complete_mediation_orders :
    ∃ s, (Gateway.machine platform options keyring).Reachable s ∧
      s.installed = [received.bundle, revisedReceived.bundle] ∧
      s.calls.map (fun call => (call.history.snapshot, call.history.fetches.length,
        call.history.checks.length)) = [(some received.bundle, 1, 1)] ∧
      ∀ call ∈ s.calls,
        (∀ sent ∈ call.history.fetches, ∃ bundle route, call.history.snapshot = some bundle ∧
          Mediated platform call.arrival call.history.asked bundle route sent) ∧
        call.history.fetches.length ≤ 1 ∧
        (∀ check ∈ call.history.checks, ∃ bundle route, call.history.snapshot = some bundle ∧
          Consulted platform call.arrival call.history.asked bundle route check) ∧
        call.history.checks.length ≤ 1 := by
  let M := Gateway.machine platform options keyring
  have hruns : ((M.run serving ((sending 0 1000).take 2)).bind fun s => (M.run { s with
      gateway := { s.gateway with configuration := some revisedReceived.bundle }
      installed := s.installed ++ [revisedReceived.bundle] } ((sending 0 1000).drop 2)).map
        fun s => (s.installed, s.calls.map fun call => (call.history.snapshot,
          call.history.fetches.length, call.history.checks.length))) =
      some ([received.bundle, revisedReceived.bundle], [(some received.bundle, 1, 1)]) := by
    decide +kernel
  have ⟨before, hbefore, hrest⟩ := Option.bind_eq_some_iff.mp hruns
  have ⟨s, hs, heq⟩ := Option.map_eq_some_iff.mp hrest
  have hverified := verify_signed sign_revised trusts_key parse_revised
  have hinstalled := Gateway.reachable_install hverified trivial
    (serving_reachable.of_run _ hbefore)
  have hreachable : M.Reachable s := hinstalled.of_run _ (fun _ _ _ => trivial) hs
  have hbundles : s.installed = [received.bundle, revisedReceived.bundle] := congrArg (·.1) heq
  exact ⟨s, hreachable, hbundles, congrArg (·.2) heq,
    complete_mediation hreachable (hbundles ▸ distinguished_revised)⟩

end Orders

end ShieldWard.Edge
