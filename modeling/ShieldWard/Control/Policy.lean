import ShieldWard.Control.Platform

/-!
# Policy documents

`internal/policy`: the document that an operator writes (`model.go`) and its validation
(`validate.go`), with the texts of the errors. A pointer is an option; the Go `int` of a
request count is an integer.
-/

namespace ShieldWard.Control

def APIVersionV1Alpha1 : String := "shieldward.dev/v1alpha1"

def KindSecurityPolicy : String := "SecurityPolicy"

def DecisionAllow : String := "allow"

def DecisionDeny : String := "deny"

def WAFActionBlock : String := "block"

def WAFActionLog : String := "log"

structure Metadata where
  name : String
deriving DecidableEq, Repr

structure RouteMatch where
  methods : List String
  path : String
deriving DecidableEq, Repr

structure JWTPolicy where
  required : Bool
  issuer : String
  audience : List String
  jwksURL : String
deriving DecidableEq, Repr

structure RateLimitPolicy where
  requests : ℤ
  window : String
  key : String
deriving DecidableEq, Repr

structure WAFRule where
  id : String
  target : String
  pattern : String
  flags : String
  action : String
deriving DecidableEq, Repr

structure Route where
  id : String
  routeMatch : RouteMatch
  upstream : String
  jwt : Option JWTPolicy
  rateLimit : Option RateLimitPolicy
  waf : List WAFRule
deriving DecidableEq, Repr

structure Spec where
  defaultDecision : String
  routes : List Route
deriving DecidableEq, Repr

structure Document where
  apiVersion : String
  kind : String
  metadata : Metadata
  spec : Spec
deriving DecidableEq, Repr

/-! ## Validation -/

/-- `^[a-z][a-z0-9-]{0,62}$`. -/
def isIdentifier (s : String) : Bool :=
  match s.toList with
  | [] => false
  | c :: cs =>
    ('a' ≤ c && c ≤ 'z') && cs.length ≤ 62 &&
      cs.all fun d => ('a' ≤ d && d ≤ 'z') || ('0' ≤ d && d ≤ '9') || d = '-'

def allowedMethods : List String := ["DELETE", "GET", "HEAD", "OPTIONS", "PATCH", "POST", "PUT"]

/-- `strings.EqualFold(text, "localhost")`: the long s folds to an s. -/
def equalFoldLocalhost (text : List Char) : Bool :=
  text.map (fun c => if c.toNat = 0x17f then 's' else c.toLower) = "localhost".toList

def isLoopbackHostname (G : GoPlatform) (hostname : String) : Bool :=
  let trimmed :=
    if hostname.toList.getLast? = some '.' then hostname.toList.dropLast else hostname.toList
  equalFoldLocalhost trimmed || G.isLoopbackAddress hostname

def validateHTTPURL (G : GoPlatform) (rawURL : String) (requireHTTPS : Bool) :
    Except String Unit :=
  match G.parseUrl rawURL with
  | none => .error "must be an absolute HTTP URL"
  | some parsed =>
    if parsed.host = "" then .error "must be an absolute HTTP URL"
    else if parsed.hasUser then .error "must not contain embedded credentials"
    else if requireHTTPS then
      if parsed.scheme ≠ "https" then .error "must use HTTPS" else .ok ()
    else if parsed.scheme ≠ "http" ∧ parsed.scheme ≠ "https" then
      .error "must use HTTP or HTTPS"
    else if parsed.scheme = "http" ∧ !isLoopbackHostname G parsed.hostname then
      .error "must use HTTPS unless it targets loopback"
    else .ok ()

/-- An error with the place that it is about. -/
def located (location : String) (result : Except String Unit) : Except String Unit :=
  result.mapError fun message => location ++ ": " ++ message

/-- The loop over the methods of a route; `seen` are those before. -/
def validateMethods (G : GoPlatform) (location : String) (seen : List String) :
    List String → Except String Unit
  | [] => .ok ()
  | method :: methods =>
    let quoted := quote G method
    if method ≠ G.toUpper method then
      .error s!"{location}.match.methods contains non-uppercase method {quoted}"
    else if method ∉ allowedMethods then
      .error s!"{location}.match.methods contains unsupported method {quoted}"
    else if method ∈ seen then
      .error s!"{location}.match.methods contains duplicate method {quoted}"
    else validateMethods G location (method :: seen) methods

def validateJWT (G : GoPlatform) (location : String) (jwt : JWTPolicy) : Except String Unit := do
  if !jwt.required then .error s!"{location}.jwt.required must be true when jwt is configured"
  else
    located s!"{location}.jwt.issuer" (validateHTTPURL G jwt.issuer true)
    if jwt.audience = [] then .error s!"{location}.jwt.audience must not be empty"
    else located s!"{location}.jwt.jwksUrl" (validateHTTPURL G jwt.jwksURL true)

/-- Whether `time.ParseDuration` accepts the text and the duration is positive. -/
def isPositiveDuration (text : String) : Bool :=
  match parseDuration text with
  | none => false
  | some window => 0 < window

def validateRateLimit (location : String) (hasJWT : Bool) (rateLimit : RateLimitPolicy) :
    Except String Unit :=
  if rateLimit.requests ≤ 0 then .error s!"{location}.rateLimit.requests must be positive"
  else if !isPositiveDuration rateLimit.window then
    .error s!"{location}.rateLimit.window must be a positive duration"
  else if rateLimit.key = "client-ip" then .ok ()
  else if rateLimit.key = "jwt.sub" then
    if hasJWT then .ok ()
    else .error s!"{location}.rateLimit.key jwt.sub requires jwt configuration"
  else .error s!"{location}.rateLimit.key is unsupported"

/-- `strings.Contains(pattern, "(?")`. -/
def containsGroupExtension : List Char → Bool
  | '(' :: '?' :: _ => true
  | _ :: cs => containsGroupExtension cs
  | [] => false

/-- The expression that a rule is validated with. -/
def validationPattern (rule : WAFRule) : String :=
  if rule.flags = "i" then "(?i:" ++ rule.pattern ++ ")" else rule.pattern

def validateWAFRule (G : GoPlatform) (location : String) (seen : List String) (rule : WAFRule) :
    Except String Unit :=
  let quotedId := quote G rule.id
  let quotedI := quote G "i"
  let quotedBlock := quote G WAFActionBlock
  let quotedLog := quote G WAFActionLog
  if !isIdentifier rule.id then .error s!"{location}.id must be a lowercase DNS-style identifier"
  else if rule.id ∈ seen then .error s!"{location}.id {quotedId} is duplicated"
  else if rule.target ∉ ["path", "query", "headers", "body"] then
    .error s!"{location}.target is unsupported"
  else if rule.flags ∉ ["", "i"] then .error s!"{location}.flags must be empty or {quotedI}"
  else if containsGroupExtension rule.pattern.toList then
    .error s!"{location}.pattern must use the portable regular-expression subset"
  else
    match G.compileRegexp (validationPattern rule) with
    | .error e => .error s!"{location}.pattern is invalid: {e}"
    | .ok () =>
      if rule.action ≠ WAFActionBlock ∧ rule.action ≠ WAFActionLog then
        .error s!"{location}.action must be {quotedBlock} or {quotedLog}"
      else .ok ()

/-- The loop over the WAF rules of a route; `seen` are the IDs before. -/
def validateWAFRules (G : GoPlatform) (location : String) (seen : List String) :
    ℕ → List WAFRule → Except String Unit
  | _, [] => .ok ()
  | index, rule :: rules => do
    validateWAFRule G s!"{location}.waf[{index}]" seen rule
    validateWAFRules G location (rule.id :: seen) (index + 1) rules

def validateRoute (G : GoPlatform) (location : String) (route : Route) : Except String Unit := do
  if route.routeMatch.methods = [] then .error s!"{location}.match.methods must not be empty"
  else
    validateMethods G location [] route.routeMatch.methods
    if route.routeMatch.path.toList.head? ≠ some '/' then
      .error s!"{location}.match.path must begin with /"
    else
      located s!"{location}.upstream" (validateHTTPURL G route.upstream false)
      match route.jwt with
      | none => .ok ()
      | some jwt => validateJWT G location jwt
      match route.rateLimit with
      | none => .ok ()
      | some rateLimit => validateRateLimit location route.jwt.isSome rateLimit
      validateWAFRules G location [] 0 route.waf

/-- The loop over the routes; `seen` are the IDs before. -/
def validateRoutes (G : GoPlatform) (seen : List String) : ℕ → List Route → Except String Unit
  | _, [] => .ok ()
  | index, route :: routes => do
    let quotedId := quote G route.id
    let location := s!"spec.routes[{index}]"
    if !isIdentifier route.id then .error s!"{location}.id must be a lowercase DNS-style identifier"
    else if route.id ∈ seen then .error s!"{location}.id {quotedId} is duplicated"
    else
      validateRoute G location route
      validateRoutes G (route.id :: seen) (index + 1) routes

def validate (G : GoPlatform) (document : Document) : Except String Unit :=
  let quotedVersion := quote G APIVersionV1Alpha1
  let quotedKind := quote G KindSecurityPolicy
  let quotedAllow := quote G DecisionAllow
  let quotedDeny := quote G DecisionDeny
  if document.apiVersion ≠ APIVersionV1Alpha1 then .error s!"apiVersion must be {quotedVersion}"
  else if document.kind ≠ KindSecurityPolicy then .error s!"kind must be {quotedKind}"
  else if !isIdentifier document.metadata.name then
    .error "metadata.name must be a lowercase DNS-style identifier"
  else if document.spec.defaultDecision ≠ DecisionAllow ∧
      document.spec.defaultDecision ≠ DecisionDeny then
    .error s!"spec.defaultDecision must be {quotedAllow} or {quotedDeny}"
  else if document.spec.routes = [] then
    .error "spec.routes must contain at least one route"
  else validateRoutes G [] 0 document.spec.routes

end ShieldWard.Control
