import ShieldWard.Edge.RateLimit
import ShieldWard.Edge.Waf

/-!
# The policy engine

`edge/src/policy-engine.ts`. `evaluate` awaits the JWT verifier and the rate limiter: it is
given as the statements up to each await, with what the rest of the call still uses, and a
settled promise of the verifier or the limiter is an option, `none` when it was rejected.
-/

namespace ShieldWard.Edge

open Ecma

structure PolicyRequest where
  method : String
  url : Url
  headers : Headers
  body : Option String
  clientIp : Option String

/-- What the verifier returns. The subject is whatever JSON value the token has as `sub`. -/
structure VerifiedJwt where
  subject : Option Json
  payload : Json
  protectedHeader : Json

inductive DenialCode
  | defaultDeny
  | wafBlocked
  | jwtInvalid
  | clientIdentityUnavailable
  | jwtSubjectUnavailable
  | rateLimiterUnavailable
  | rateLimited
deriving DecidableEq

def DenialCode.text : DenialCode → String
  | .defaultDeny => "default_deny"
  | .wafBlocked => "waf_blocked"
  | .jwtInvalid => "jwt_invalid"
  | .clientIdentityUnavailable => "client_identity_unavailable"
  | .jwtSubjectUnavailable => "jwt_subject_unavailable"
  | .rateLimiterUnavailable => "rate_limiter_unavailable"
  | .rateLimited => "rate_limited"

structure AllowedPolicyDecision where
  route : Option CompiledRoute
  jwt : Option VerifiedJwt
  rateLimit : Option RateLimitResult
  wafMatches : List WafRuleMatch

structure DeniedPolicyDecision where
  status : ℕ
  code : DenialCode
  route : Option CompiledRoute
  wafMatches : List WafRuleMatch
  retryAfterSeconds : Option Number

inductive PolicyDecision
  | allowed (decision : AllowedPolicyDecision)
  | denied (decision : DeniedPolicyDecision)

/-- Where a call of `evaluate` stands. -/
inductive Evaluation
  | decided (decision : PolicyDecision)
  /-- `evaluate` was rejected after an await. -/
  | rejected
  /-- Awaits `verifyAuthorization(authorization, policy)`. -/
  | verifyingJwt (route : CompiledRoute) (wafMatches : List WafRuleMatch)
      (authorization : Option String) (policy : JwtPolicy)
  /-- Awaits `check(route.id, identity, policy)`. -/
  | checkingRateLimit (route : CompiledRoute) (wafMatches : List WafRuleMatch)
      (jwt : Option VerifiedJwt) (identity : String) (policy : RateLimitPolicy)

def deny (status : ℕ) (code : DenialCode) (route : Option CompiledRoute)
    (wafMatches : List WafRuleMatch) (retryAfterSeconds : Option Number) : Evaluation :=
  .decided (.denied { status, code, route, wafMatches, retryAfterSeconds })

/-- The end of `evaluate`. -/
def allow (route : Option CompiledRoute) (jwt : Option VerifiedJwt)
    (rateLimit : Option RateLimitResult) (wafMatches : List WafRuleMatch) : Evaluation :=
  .decided (.allowed { route, jwt, rateLimit, wafMatches })

/-- From the verified token on: the identity, up to the await of the limiter. -/
def limitRate (clientIp : Option String) (route : CompiledRoute) (wafMatches : List WafRuleMatch)
    (jwt : Option VerifiedJwt) : Evaluation :=
  match route.rateLimit with
  | none => allow (some route) jwt none wafMatches
  | some policy =>
    match policy.key with
    | .jwtSub =>
      match jwt.bind (·.subject) with
      | none => deny 401 .jwtSubjectUnavailable (some route) wafMatches none
      | some (.string identity) =>
        if isBlank identity then deny 401 .jwtSubjectUnavailable (some route) wafMatches none
        else .checkingRateLimit route wafMatches jwt identity policy
      -- no other JSON value has a method `trim`, and nothing catches the exception
      | some _ => .rejected
    | .clientIp =>
      match clientIp with
      | none => deny 503 .clientIdentityUnavailable (some route) wafMatches none
      | some identity =>
        if isBlank identity then
          deny 503 .clientIdentityUnavailable (some route) wafMatches none
        else .checkingRateLimit route wafMatches jwt identity policy

/-- After the await of the verifier. -/
def afterJwt (clientIp : Option String) (route : CompiledRoute) (wafMatches : List WafRuleMatch)
    (outcome : Option VerifiedJwt) : Evaluation :=
  match outcome with
  | none => deny 401 .jwtInvalid (some route) wafMatches none
  | some jwt => limitRate clientIp route wafMatches (some jwt)

/-- After the await of the limiter. -/
def afterRateLimit (route : CompiledRoute) (wafMatches : List WafRuleMatch)
    (jwt : Option VerifiedJwt) (outcome : Option RateLimitResult) : Evaluation :=
  match outcome with
  | none => deny 503 .rateLimiterUnavailable (some route) wafMatches none
  | some result =>
    if !result.allowed then
      deny 429 .rateLimited (some route) wafMatches (some result.retryAfterSeconds)
    else allow (some route) jwt (some result) wafMatches

/-- The parts of a request that the firewall tests. -/
def wafInput (input : PolicyRequest) : WafRequestInput where
  path := input.url.pathname
  query :=
    if input.url.search.toList.head? = some '?' then String.ofList input.url.search.toList.tail
    else input.url.search
  headers := input.headers
  body := input.body

structure PolicyEngine (P : Platform) where
  matcher : RouteMatcher P
  wafByRoute : OrderedMap String (WafEvaluator P)

namespace PolicyEngine

def addWaf (P : Platform) (wafByRoute : OrderedMap String (WafEvaluator P))
    (route : CompiledRoute) : Except PolicyError (OrderedMap String (WafEvaluator P)) := do
  let waf ← WafEvaluator.new P route
  .ok (wafByRoute.set route.id waf)

/-- The constructor. The verifier and the limiter of its options are met at the awaits. -/
def new (P : Platform) (bundle : Bundle) : Except PolicyError (PolicyEngine P) := do
  let matcher ← RouteMatcher.new P bundle
  let wafByRoute ← bundle.routes.foldlM (addWaf P) .empty
  .ok { matcher, wafByRoute }

variable {P : Platform}

/-- `evaluate` up to its first await. -/
def evaluate (engine : PolicyEngine P) (input : PolicyRequest) :
    Except PolicyError Evaluation := do
  let resolution ← engine.matcher.resolve input.method input.url.pathname
  match resolution with
  | .default .allow => .ok (allow none none none [])
  | .default .deny => .ok (deny 403 .defaultDeny none [] none)
  | .matched route =>
    match engine.wafByRoute.get route.id with
    | none => .ok (deny 503 .rateLimiterUnavailable (some route) [] none)
    | some waf =>
      let wafResult := waf.evaluate (wafInput input)
      if wafResult.blocked then
        .ok (deny 403 .wafBlocked (some route) wafResult.matched none)
      else
        match route.jwt with
        | some policy =>
          .ok (.verifyingJwt route wafResult.matched (input.headers.get "authorization") policy)
        | none => .ok (limitRate input.clientIp route wafResult.matched none)

/-- The verifier settles, if the call awaits it. -/
def settleJwt (verifyAuthorization : Option String → JwtPolicy → Option VerifiedJwt)
    (clientIp : Option String) : Evaluation → Evaluation
  | .verifyingJwt route wafMatches authorization policy =>
    afterJwt clientIp route wafMatches (verifyAuthorization authorization policy)
  | evaluation => evaluation

/-- The limiter settles, if the call awaits it. -/
def settleRateLimit (check : String → String → RateLimitPolicy → Option RateLimitResult) :
    Evaluation → Evaluation
  | .checkingRateLimit route wafMatches jwt identity policy =>
    afterRateLimit route wafMatches jwt (check route.id identity policy)
  | evaluation => evaluation

/-- A whole call of `evaluate` with a verifier and a limiter. -/
def outcome (engine : PolicyEngine P)
    (verifyAuthorization : Option String → JwtPolicy → Option VerifiedJwt)
    (check : String → String → RateLimitPolicy → Option RateLimitResult)
    (input : PolicyRequest) : Except PolicyError Evaluation :=
  (engine.evaluate input).map fun evaluation =>
    settleRateLimit check (settleJwt verifyAuthorization input.clientIp evaluation)

end PolicyEngine
end ShieldWard.Edge
