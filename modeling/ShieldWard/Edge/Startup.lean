import ShieldWard.Edge.ConfigClient
import ShieldWard.Edge.RuntimeConfig
import ShieldWard.Edge.Tls
import ShieldWard.Lib.Fallible

/-!
# The start of the edge

What `main` of `edge/src/index.ts` makes of the settings. Every setting is in force as it was set;
the constructors check their arguments again, and settings that were accepted pass; and they keep
every connection private. Whether the host of the listener can be listened on is not looked at.
-/

namespace ShieldWard.Edge

open Ecma

variable {P : Platform} {N : HostPlatform}

/-! ## What is started -/

/-- The options of the gateway. -/
def RuntimeConfiguration.gatewayOptions (runtime : RuntimeConfiguration) : GatewayOptions where
  maxRequestBodyBytes := some runtime.maxRequestBodyBytes
  upstreamTimeoutMs := some runtime.upstreamTimeoutMs
  maxInFlightRequests := some runtime.maxInFlightRequests
  circuitFailureThreshold := some runtime.circuitFailureThreshold
  circuitOpenDurationMs := some runtime.circuitOpenDurationMs
  circuitMaximumUpstreams := some runtime.circuitMaximumUpstreams

/-- A URL may be parsed again: `href` is a text of the URL that it was taken from. -/
structure StandardHref (P : Platform) (N : HostPlatform) : Prop where
  href : ∀ text url, P.parseUrl text = some url → P.parseUrl (N.href text) = some url
  hrefWithoutHash : ∀ text url, P.parseUrl text = some url →
    url.protocol = "http:" ∨ url.protocol = "https:" →
    P.parseUrl (N.hrefWithoutHash text) = some { url with hash := "" }

/-! ## What is accepted -/

/-- A positive integer up to the maximum. -/
def Positive (maximum n : Number) : Prop := isSafeInteger n = true ∧ 0 < n ∧ n ≤ maximum

instance (maximum n : Number) : Decidable (Positive maximum n) :=
  inferInstanceAs (Decidable (_ ∧ _ ∧ _))

theorem Positive.valid {maximum n : Number} (h : Positive maximum n) :
    ¬(!isSafeInteger n || n ≤ 0) = true := by
  simp [h.1, h.2.1]

theorem parsePositiveInteger_ok {value : Option String} {fallback maximum n : Number}
    {name : String} (hfallback : Positive maximum fallback)
    (h : parsePositiveInteger P value fallback name maximum = .ok n) : Positive maximum n := by
  unfold parsePositiveInteger at h
  split at h
  · rw [← Except.ok.inj h]
    exact hfallback
  · dsimp only at h
    split at h
    · cases h
    · split at h
      · cases h
      · next hbounds =>
        rw [← Except.ok.inj h]
        simp only [Bool.or_eq_true, Bool.not_eq_true', decide_eq_true_eq, not_or, not_le, not_lt,
          Bool.not_eq_false] at hbounds
        exact ⟨hbounds.1.1, hbounds.1.2, hbounds.2⟩

/-- The number of a setting: its digits, or the default where it is not set. -/
def ReadsNumber (setting : Option String) (fallback n : Number) : Prop :=
  match setting with
  | none => n = fallback
  | some text => isDigits (trim text).toList = true ∧ n = digitsValue (trim text).toList

theorem parsePositiveInteger_reads {value : Option String} {fallback maximum n : Number}
    {name : String} (h : parsePositiveInteger P value fallback name maximum = .ok n) :
    ReadsNumber value fallback n := by
  unfold parsePositiveInteger at h
  cases value with
  | none => exact (Except.ok.inj h).symm
  | some text =>
    dsimp only at h
    split at h
    · cases h
    · next hdigits =>
      split at h
      · cases h
      · exact ⟨by simpa using hdigits, (Except.ok.inj h).symm⟩

/-- The path of a setting. -/
def pathOf (N : HostPlatform) (setting : Option String) : Option String :=
  setting.map fun text => N.resolve (trim text)

theorem parseOptionalPath_ok {value path : Option String} {name : String}
    (h : parseOptionalPath N value name = .ok path) : path = pathOf N value := by
  unfold parseOptionalPath at h
  split at h
  · exact (Except.ok.inj h).symm
  · split at h
    · cases h
    · exact (Except.ok.inj h).symm

theorem parsePublicKeyFile_ok {value : Option String} {path : String}
    (h : parsePublicKeyFile N value = .ok path) :
    path = (pathOf N value).getD N.DEFAULT_PUBLIC_KEY_FILE := by
  unfold parsePublicKeyFile at h
  split at h
  · exact (Except.ok.inj h).symm
  · split at h
    · cases h
    · exact (Except.ok.inj h).symm

theorem parseOptionalText_ok {value text : Option String} {name : String} {maximumLength : ℕ}
    (h : parseOptionalText P value name maximumLength = .ok text) : text = value.map trim := by
  unfold parseOptionalText at h
  split at h
  · exact (Except.ok.inj h).symm
  · dsimp only at h
    split at h
    · cases h
    · exact (Except.ok.inj h).symm

/-- No name, no password: what the URL says about the other side is where it is. -/
def Url.Plain (url : Url) : Prop := url.username = "" ∧ url.password = "" ∧ url.hash = ""

theorem parseControlPlaneUrl_ok (hhref : StandardHref P N) {value result : String}
    (h : parseControlPlaneUrl P N value = .ok result) :
    result = N.hrefWithoutHash (trim value) ∧ ∃ url, P.parseUrl result = some url ∧ url.Plain ∧
      (url.protocol = "https:" ∨
        url.protocol = "http:" ∧ isLoopbackHostname url.hostname = true) := by
  unfold parseControlPlaneUrl at h
  split at h
  · cases h
  · next url hurl =>
    split at h
    · cases h
    · next hprotocol =>
      split at h
      · cases h
      · next hcredentials =>
        split at h
        · cases h
        · next hsecure =>
          rw [← Except.ok.inj h]
          rw [not_or, not_not, not_not] at hcredentials
          have hhttp : url.protocol = "http:" ∨ url.protocol = "https:" := by
            by_contra hneither
            exact hprotocol (not_or.mp hneither)
          refine ⟨rfl, _, hhref.hrefWithoutHash _ url hurl hhttp,
            ⟨hcredentials.1, hcredentials.2, rfl⟩, ?_⟩
          exact Decidable.or_iff_not_imp_left.mpr (by simpa [usesSecureTransport] using hsecure)

theorem parseRedisUrl_ok (hhref : StandardHref P N) {value : Option String} {result : String}
    (h : parseRedisUrl P N value = .ok result) :
    (∃ text, value = some text ∧ result = N.href (trim text)) ∧
      ∃ url, P.parseUrl result = some url ∧ url.Plain ∧ url.search = "" ∧
        (url.protocol = "rediss:" ∨
          url.protocol = "redis:" ∧ isLoopbackHostname url.hostname = true) := by
  unfold parseRedisUrl at h
  split at h
  · cases h
  · next text =>
    split at h
    · cases h
    · split at h
      · cases h
      · next url hurl =>
        split at h
        · cases h
        · next hprotocol =>
          split at h
          · cases h
          · next hcredentials =>
            split at h
            · cases h
            · next hquery =>
              split at h
              · cases h
              · next hloopback =>
                rw [← Except.ok.inj h]
                rw [not_or, not_not, not_not] at hcredentials hquery
                refine ⟨⟨text, rfl, rfl⟩, url, hhref.href _ url hurl,
                  ⟨hcredentials.1, hcredentials.2, hquery.2⟩, hquery.1, ?_⟩
                by_cases hredis : url.protocol = "redis:"
                · right
                  refine ⟨hredis, ?_⟩
                  by_contra hremote
                  exact hloopback ⟨hredis, by simpa using hremote⟩
                · left
                  by_contra hneither
                  exact hprotocol ⟨hredis, hneither⟩

/-- The files of the listener are those of the environment, both or none. -/
structure ListenerFiles (N : HostPlatform) (environment : RuntimeEnvironment)
    (tls : Option TlsRuntimeConfiguration) : Prop where
  certificateFile : tls.map (·.certificateFile) = pathOf N (environment "SHIELDWARD_TLS_CERT_FILE")
  privateKeyFile : tls.map (·.privateKeyFile) = pathOf N (environment "SHIELDWARD_TLS_KEY_FILE")

theorem parseTlsConfiguration_ok {environment : RuntimeEnvironment}
    {tls : Option TlsRuntimeConfiguration} (h : parseTlsConfiguration N environment = .ok tls) :
    ListenerFiles N environment tls := by
  unfold parseTlsConfiguration at h
  obtain ⟨certificate, hcertificate, h⟩ := Except.bind_eq_ok_iff.mp h
  obtain ⟨key, hkey, h⟩ := Except.bind_eq_ok_iff.mp h
  rw [parseOptionalPath_ok hcertificate, parseOptionalPath_ok hkey] at h
  split at h
  · next hnone hnone' =>
    rw [← Except.ok.inj h]
    exact ⟨hnone.symm, hnone'.symm⟩
  · next hsome hsome' =>
    rw [← Except.ok.inj h]
    exact ⟨hsome.symm, hsome'.symm⟩
  · cases h

/-- The files for the control plane are those of the environment, all or none. -/
structure ControlPlaneFiles (N : HostPlatform) (environment : RuntimeEnvironment)
    (tls : Option MutualTlsRuntimeConfiguration) : Prop where
  certificateAuthorityFile : tls.map (·.certificateAuthorityFile) =
    pathOf N (environment "SHIELDWARD_CONTROL_PLANE_CA_FILE")
  certificateFile : tls.map (·.certificateFile) =
    pathOf N (environment "SHIELDWARD_CONTROL_PLANE_CLIENT_CERT_FILE")
  privateKeyFile : tls.map (·.privateKeyFile) =
    pathOf N (environment "SHIELDWARD_CONTROL_PLANE_CLIENT_KEY_FILE")

theorem controlPlaneTlsOf_ok {secure : Bool} {ca certificate key : Option String}
    {tls : Option MutualTlsRuntimeConfiguration}
    (h : controlPlaneTlsOf secure ca certificate key = .ok tls) :
    tls.isSome = secure ∧ tls.map (·.certificateAuthorityFile) = ca ∧
      tls.map (·.certificateFile) = certificate ∧ tls.map (·.privateKeyFile) = key := by
  unfold controlPlaneTlsOf at h
  split at h
  · split at h
    · cases h
    · next hsecure =>
      rw [← Except.ok.inj h]
      exact ⟨(Bool.eq_false_iff.mpr hsecure).symm, rfl, rfl, rfl⟩
  · split at h
    · cases h
    · next hsecure =>
      rw [← Except.ok.inj h]
      exact ⟨by simpa using hsecure, rfl, rfl, rfl⟩
  · cases h

theorem parseControlPlaneTls_ok {environment : RuntimeEnvironment} {controlPlaneUrl : String}
    {tls : Option MutualTlsRuntimeConfiguration} {url : Url}
    (hurl : P.parseUrl controlPlaneUrl = some url)
    (h : parseControlPlaneTlsConfiguration P N environment controlPlaneUrl = .ok tls) :
    tls.isSome = decide (url.protocol = "https:") ∧ ControlPlaneFiles N environment tls := by
  unfold parseControlPlaneTlsConfiguration at h
  obtain ⟨ca, hca, h⟩ := Except.bind_eq_ok_iff.mp h
  obtain ⟨certificate, hcertificate, h⟩ := Except.bind_eq_ok_iff.mp h
  obtain ⟨key, hkey, h⟩ := Except.bind_eq_ok_iff.mp h
  rw [hurl] at h
  obtain ⟨hsecure, hca', hcertificate', hkey'⟩ := controlPlaneTlsOf_ok h
  exact ⟨hsecure, hca'.trans (parseOptionalPath_ok hca),
    hcertificate'.trans (parseOptionalPath_ok hcertificate), hkey'.trans (parseOptionalPath_ok hkey)⟩

theorem checkRedisAuthority_ok {url : String} {authority : Option String} {parsed : Url}
    (hurl : P.parseUrl url = some parsed) (h : checkRedisAuthority P url authority = .ok ()) :
    authority = none ∨ parsed.protocol = "rediss:" := by
  unfold checkRedisAuthority at h
  split at h
  · rw [hurl] at h
    dsimp only at h
    split at h
    · cases h
    · next hprotocol => exact .inr (not_not.mp hprotocol)
  · next hnone => exact .inl (by simpa using hnone)

theorem parseRedisKeyPrefix_ok {value : Option String} {keyPrefix : String}
    (h : parseRedisKeyPrefix value = .ok keyPrefix) :
    isKeyPrefix keyPrefix = true ∧ keyPrefix = trimmedOr value DEFAULT_REDIS_KEY_PREFIX := by
  unfold parseRedisKeyPrefix at h
  dsimp only at h
  split at h
  · cases h
  · next hvalid =>
    rw [← Except.ok.inj h]
    exact ⟨by simpa using hvalid, rfl⟩

/-- What is accepted for Redis: the server is near or behind TLS, and the prefix is one. -/
structure RedisRateLimitRuntimeConfiguration.Safe (P : Platform)
    (redis : RedisRateLimitRuntimeConfiguration) : Prop where
  url : ∃ url, P.parseUrl redis.url = some url ∧ url.Plain ∧ url.search = "" ∧
    (url.protocol = "rediss:" ∨ url.protocol = "redis:" ∧
      isLoopbackHostname url.hostname = true ∧ redis.certificateAuthorityFile = none)
  keyPrefix : isKeyPrefix redis.keyPrefix = true
  connectTimeoutMs : Positive 30000 redis.connectTimeoutMs
  commandTimeoutMs : Positive 30000 redis.commandTimeoutMs

/-- The settings of Redis are those of the environment. -/
structure RedisRateLimitRuntimeConfiguration.ReadFrom (N : HostPlatform)
    (environment : RuntimeEnvironment) (redis : RedisRateLimitRuntimeConfiguration) : Prop where
  url : ∃ text, environment "SHIELDWARD_REDIS_URL" = some text ∧ redis.url = N.href (trim text)
  username : redis.username = (environment "SHIELDWARD_REDIS_USERNAME").map trim
  passwordFile : redis.passwordFile = pathOf N (environment "SHIELDWARD_REDIS_PASSWORD_FILE")
  certificateAuthorityFile : redis.certificateAuthorityFile =
    pathOf N (environment "SHIELDWARD_REDIS_CA_FILE")
  keyPrefix : redis.keyPrefix =
    trimmedOr (environment "SHIELDWARD_REDIS_PREFIX") DEFAULT_REDIS_KEY_PREFIX
  connectTimeoutMs : ReadsNumber (environment "SHIELDWARD_REDIS_CONNECT_TIMEOUT_MS") 3000
    redis.connectTimeoutMs
  commandTimeoutMs : ReadsNumber (environment "SHIELDWARD_REDIS_COMMAND_TIMEOUT_MS") 1000
    redis.commandTimeoutMs

theorem parseRedisConfiguration_ok (hhref : StandardHref P N) {environment : RuntimeEnvironment}
    {redis : RedisRateLimitRuntimeConfiguration}
    (h : parseRedisConfiguration P N environment = .ok redis) :
    redis.Safe P ∧ redis.ReadFrom N environment := by
  unfold parseRedisConfiguration at h
  obtain ⟨url, hurl, h⟩ := Except.bind_eq_ok_iff.mp h
  obtain ⟨authority, hfile, h⟩ := Except.bind_eq_ok_iff.mp h
  obtain ⟨_, hauthority, h⟩ := Except.bind_eq_ok_iff.mp h
  obtain ⟨username, husername, h⟩ := Except.bind_eq_ok_iff.mp h
  obtain ⟨passwordFile, hpassword, h⟩ := Except.bind_eq_ok_iff.mp h
  obtain ⟨keyPrefix, hprefix, h⟩ := Except.bind_eq_ok_iff.mp h
  obtain ⟨connect, hconnect, h⟩ := Except.bind_eq_ok_iff.mp h
  obtain ⟨command, hcommand, h⟩ := Except.bind_eq_ok_iff.mp h
  obtain rfl := Except.ok.inj h
  obtain ⟨htext, parsed, hparsed, hplain, hsearch, htransport⟩ := parseRedisUrl_ok hhref hurl
  refine ⟨⟨⟨parsed, hparsed, hplain, hsearch, ?_⟩, (parseRedisKeyPrefix_ok hprefix).1,
    parsePositiveInteger_ok (by decide +kernel) hconnect,
    parsePositiveInteger_ok (by decide +kernel) hcommand⟩,
    ⟨htext, parseOptionalText_ok husername, parseOptionalPath_ok hpassword,
      parseOptionalPath_ok hfile, (parseRedisKeyPrefix_ok hprefix).2,
      parsePositiveInteger_reads hconnect, parsePositiveInteger_reads hcommand⟩⟩
  -- a plain URL with an authority file is refused
  rcases htransport with htls | ⟨hredis, hloopback⟩
  · exact .inl htls
  · refine .inr ⟨hredis, hloopback, ?_⟩
    rcases checkRedisAuthority_ok hparsed hauthority with hnone | htls
    · exact hnone
    · rw [hredis] at htls
      exact absurd htls (by decide)

/-- The backend is the one that the environment names, no setting of Redis is ignored, and a
password is never taken from the environment. -/
structure RateLimitRuntimeConfiguration.ReadFrom (N : HostPlatform)
    (environment : RuntimeEnvironment) (rateLimit : RateLimitRuntimeConfiguration) : Prop where
  password : environment "SHIELDWARD_REDIS_PASSWORD" = none
  memory : rateLimit = .memory → backendName environment = "memory".toList ∧
    ∀ name ∈ REDIS_SETTING_NAMES, environment name = none
  redis : ∀ redis, rateLimit = .redis redis → backendName environment = "redis".toList ∧
    redis.ReadFrom N environment

theorem parseRateLimitConfiguration_ok (hhref : StandardHref P N)
    {environment : RuntimeEnvironment} {rateLimit : RateLimitRuntimeConfiguration}
    (h : parseRateLimitConfiguration P N environment = .ok rateLimit) :
    rateLimit.ReadFrom N environment ∧ ∀ redis, rateLimit = .redis redis → redis.Safe P := by
  unfold parseRateLimitConfiguration at h
  split at h
  · cases h
  · next hpassword =>
    have hnone : environment "SHIELDWARD_REDIS_PASSWORD" = none := by simpa using hpassword
    split at h
    · next hbackend =>
      split at h
      · cases h
      · next hfind =>
        obtain rfl := Except.ok.inj h
        refine ⟨⟨hnone, fun _ => ⟨hbackend, fun name hname => ?_⟩, (fun _ hredis => nomatch hredis)⟩,
          (fun _ hredis => nomatch hredis)⟩
        have hunset := List.find?_eq_none.mp hfind name hname
        simpa using hunset
    · split at h
      · next hbackend =>
        obtain ⟨redis, hredis, rfl⟩ := Except.map_eq_ok_iff.mp h
        obtain ⟨hsafe, hread⟩ := parseRedisConfiguration_ok hhref hredis
        refine ⟨⟨hnone, (fun hmemory => nomatch hmemory), ?_⟩, ?_⟩
        · rintro _ ⟨⟩
          exact ⟨hbackend, hread⟩
        · rintro _ ⟨⟩
          exact hsafe
      · cases h

/-! ## What is in force -/

open RuntimeConfiguration in
/-- Every setting is in force as it is set, and one that is not set has its default. -/
structure RuntimeConfiguration.ReadFrom (N : HostPlatform) (environment : RuntimeEnvironment)
    (runtime : RuntimeConfiguration) : Prop where
  hostname : runtime.hostname = trimmedOr (environment "HOST") "127.0.0.1"
  port : ReadsNumber (environment "PORT") 8787 runtime.port
  controlPlaneUrl : runtime.controlPlaneUrl = N.hrefWithoutHash
    (trim ((environment "CONTROL_PLANE_URL").getD "http://127.0.0.1:18080"))
  publicKeyFile : runtime.publicKeyFile =
    (pathOf N (environment "SHIELDWARD_PUBLIC_KEY_FILE")).getD N.DEFAULT_PUBLIC_KEY_FILE
  tls : ListenerFiles N environment runtime.tls
  controlPlaneTls : ControlPlaneFiles N environment runtime.controlPlaneTls
  maxRequestBodyBytes : ReadsNumber (environment "MAX_REQUEST_BODY_BYTES")
    DEFAULT_MAX_REQUEST_BODY_BYTES runtime.maxRequestBodyBytes
  upstreamTimeoutMs : ReadsNumber (environment "SHIELDWARD_UPSTREAM_TIMEOUT_MS")
    DEFAULT_UPSTREAM_TIMEOUT_MS runtime.upstreamTimeoutMs
  maxInFlightRequests : ReadsNumber (environment "SHIELDWARD_MAX_IN_FLIGHT_REQUESTS")
    DEFAULT_MAX_IN_FLIGHT_REQUESTS runtime.maxInFlightRequests
  circuitFailureThreshold : ReadsNumber (environment "SHIELDWARD_CIRCUIT_FAILURE_THRESHOLD")
    DEFAULT_CIRCUIT_FAILURE_THRESHOLD runtime.circuitFailureThreshold
  circuitOpenDurationMs : ReadsNumber (environment "SHIELDWARD_CIRCUIT_OPEN_MS")
    DEFAULT_CIRCUIT_OPEN_MS runtime.circuitOpenDurationMs
  circuitMaximumUpstreams : ReadsNumber (environment "SHIELDWARD_CIRCUIT_MAX_UPSTREAMS")
    DEFAULT_CIRCUIT_MAX_UPSTREAMS runtime.circuitMaximumUpstreams
  shutdownGracePeriodMs : ReadsNumber (environment "SHIELDWARD_SHUTDOWN_GRACE_MS")
    DEFAULT_SHUTDOWN_GRACE_MS runtime.shutdownGracePeriodMs
  tlsReloadIntervalMs : ReadsNumber (environment "SHIELDWARD_TLS_RELOAD_INTERVAL_MS")
    DEFAULT_TLS_RELOAD_INTERVAL_MS runtime.tlsReloadIntervalMs
  rateLimit : runtime.rateLimit.ReadFrom N environment

/-- A gateway has the bounds of the settings. -/
structure Gateway.Bounded (runtime : RuntimeConfiguration) (gateway : Gateway P) : Prop where
  maxRequestBodyBytes : (gateway.maxRequestBodyBytes : Number) = runtime.maxRequestBodyBytes
  upstreamTimeoutMs : gateway.upstreamTimeoutMs = runtime.upstreamTimeoutMs
  maxInFlightRequests : (gateway.admissionGate.maximum : Number) = runtime.maxInFlightRequests
  failureThreshold :
    (gateway.circuitBreaker.failureThreshold : Number) = runtime.circuitFailureThreshold
  openDurationMs : gateway.circuitBreaker.openDurationMs = runtime.circuitOpenDurationMs
  maximumUpstreams :
    (gateway.circuitBreaker.maximumUpstreams : Number) = runtime.circuitMaximumUpstreams

/-- No setting makes a constructor throw, and the gateway has the bounds that were set. -/
structure Constructs (P : Platform) (runtime : RuntimeConfiguration) : Prop where
  gateway : ∃ gateway, Gateway.new P runtime.gatewayOptions = .ok gateway ∧
    gateway.Bounded runtime
  gracePeriod : validateGracePeriod runtime.shutdownGracePeriodMs = .ok ()
  reloadInterval : TlsMaterialReloader.checkInterval runtime.tlsReloadIntervalMs = .ok ()
  baseUrl : ∃ url, ConfigurationClient.checkBaseUrl P runtime.controlPlaneUrl = .ok url
  limiter : ∀ redis, runtime.rateLimit = .redis redis → ∀ sha256 numberOfText,
    ∃ limiter, RedisFixedWindowRateLimiter.create (some redis.keyPrefix) sha256 numberOfText =
      .ok limiter ∧ limiter.keyPrefix = redis.keyPrefix

/-- What leaves the host is behind TLS. -/
structure Private (P : Platform) (runtime : RuntimeConfiguration) : Prop where
  listener : runtime.tls = none → isLoopbackHostname runtime.hostname = true
  controlPlane : ∃ url, P.parseUrl runtime.controlPlaneUrl = some url ∧ url.Plain ∧
    (url.protocol = "https:" ∧ runtime.controlPlaneTls.isSome = true ∨
      url.protocol = "http:" ∧ isLoopbackHostname url.hostname = true ∧
        runtime.controlPlaneTls = none)
  redis : ∀ redis, runtime.rateLimit = .redis redis → redis.Safe P

theorem gateway_constructs {runtime : RuntimeConfiguration} {body timeout inFlight threshold duration
    upstreams : Number} (hbody : Positive body runtime.maxRequestBodyBytes)
    (htimeout : Positive timeout runtime.upstreamTimeoutMs)
    (hinFlight : Positive inFlight runtime.maxInFlightRequests)
    (hthreshold : Positive threshold runtime.circuitFailureThreshold)
    (hduration : Positive duration runtime.circuitOpenDurationMs)
    (hupstreams : Positive upstreams runtime.circuitMaximumUpstreams) :
    ∃ gateway, Gateway.new P runtime.gatewayOptions = .ok gateway ∧ gateway.Bounded runtime := by
  let breaker := UpstreamCircuitBreaker.create runtime.circuitFailureThreshold.num.toNat
    runtime.circuitOpenDurationMs runtime.circuitMaximumUpstreams.num.toNat
  have hbreaker : UpstreamCircuitBreaker.new (some runtime.circuitFailureThreshold)
      (some runtime.circuitOpenDurationMs) (some runtime.circuitMaximumUpstreams) =
        .ok breaker :=
    Except.bind_eq_ok_iff.mpr ⟨_, if_neg hthreshold.valid,
      Except.bind_eq_ok_iff.mpr ⟨_, if_neg hduration.valid,
        Except.bind_eq_ok_iff.mpr ⟨_, if_neg hupstreams.valid, rfl⟩⟩⟩
  have hnew : Gateway.new P runtime.gatewayOptions = .ok {
      configuration := none, policyEvaluator := .new
      maxRequestBodyBytes := runtime.maxRequestBodyBytes.num.toNat
      upstreamTimeoutMs := runtime.upstreamTimeoutMs
      admissionGate := {
        maximum := runtime.maxInFlightRequests.num.toNat, active := 0, accepting := true
        idleWaiters := [], promises := [] }
      circuitBreaker := breaker, metrics := .new } := by
    refine Except.bind_eq_ok_iff.mpr ⟨_, if_neg hinFlight.valid,
      Except.bind_eq_ok_iff.mpr ⟨breaker, hbreaker, ?_⟩⟩
    exact (if_neg hbody.valid).trans (if_neg htimeout.valid)
  exact ⟨_, hnew, natCast_toNat_num hbody.valid, rfl, natCast_toNat_num hinFlight.valid,
    natCast_toNat_num hthreshold.valid, rfl, natCast_toNat_num hupstreams.valid⟩

theorem checkListener_ok {hostname : String} {tls : Option TlsRuntimeConfiguration}
    (h : checkListener hostname tls = .ok ()) (hnone : tls = none) :
    isLoopbackHostname hostname = true := by
  unfold checkListener at h
  split at h
  · cases h
  · next hlistener =>
    rw [hnone] at hlistener
    simpa using hlistener

/-- Settings that are accepted are in force as they are set, every constructor takes them, and
nothing that leaves the host is sent in the clear. -/
theorem settings_accepted (hhref : StandardHref P N) {environment : RuntimeEnvironment}
    {runtime : RuntimeConfiguration}
    (h : readRuntimeConfiguration P N environment = .ok runtime) :
    runtime.ReadFrom N environment ∧ Positive 65535 runtime.port ∧ Constructs P runtime ∧
      Private P runtime := by
  unfold readRuntimeConfiguration at h
  -- the settings in the order in which they are read
  obtain ⟨port, hport, h⟩ := Except.bind_eq_ok_iff.mp h
  obtain ⟨controlPlaneUrl, hcontrolPlane, h⟩ := Except.bind_eq_ok_iff.mp h
  obtain ⟨publicKeyFile, hpublicKey, h⟩ := Except.bind_eq_ok_iff.mp h
  obtain ⟨tls, htls, h⟩ := Except.bind_eq_ok_iff.mp h
  obtain ⟨controlPlaneTls, hcontrolPlaneTls, h⟩ := Except.bind_eq_ok_iff.mp h
  obtain ⟨_, hlistener, h⟩ := Except.bind_eq_ok_iff.mp h
  obtain ⟨body, hbody, h⟩ := Except.bind_eq_ok_iff.mp h
  obtain ⟨timeout, htimeout, h⟩ := Except.bind_eq_ok_iff.mp h
  obtain ⟨inFlight, hinFlight, h⟩ := Except.bind_eq_ok_iff.mp h
  obtain ⟨threshold, hthreshold, h⟩ := Except.bind_eq_ok_iff.mp h
  obtain ⟨duration, hduration, h⟩ := Except.bind_eq_ok_iff.mp h
  obtain ⟨upstreams, hupstreams, h⟩ := Except.bind_eq_ok_iff.mp h
  obtain ⟨grace, hgrace, h⟩ := Except.bind_eq_ok_iff.mp h
  obtain ⟨reload, hreload, h⟩ := Except.bind_eq_ok_iff.mp h
  obtain ⟨rateLimit, hrateLimit, h⟩ := Except.bind_eq_ok_iff.mp h
  obtain rfl := Except.ok.inj h
  -- the text of the URL that is kept parses again, to the URL that was checked
  obtain ⟨htext, url, hurl, hplain, htransport⟩ := parseControlPlaneUrl_ok hhref hcontrolPlane
  obtain ⟨hsecure, hfiles⟩ := parseControlPlaneTls_ok hurl hcontrolPlaneTls
  obtain ⟨hread, hredis⟩ := parseRateLimitConfiguration_ok hhref hrateLimit
  have hgraceful := parsePositiveInteger_ok (by decide +kernel) hgrace
  have hreloads := parsePositiveInteger_ok (by decide +kernel) hreload
  refine ⟨⟨rfl, parsePositiveInteger_reads hport, htext, parsePublicKeyFile_ok hpublicKey,
    parseTlsConfiguration_ok htls, hfiles, parsePositiveInteger_reads hbody,
    parsePositiveInteger_reads htimeout, parsePositiveInteger_reads hinFlight,
    parsePositiveInteger_reads hthreshold, parsePositiveInteger_reads hduration,
    parsePositiveInteger_reads hupstreams, parsePositiveInteger_reads hgrace,
    parsePositiveInteger_reads hreload, hread⟩,
    parsePositiveInteger_ok (by decide +kernel) hport, ⟨?_, if_neg hgraceful.valid,
    if_neg hreloads.valid, ⟨url, ?_⟩, fun redis heq sha256 numberOfText => ?_⟩,
    ⟨checkListener_ok hlistener, ⟨url, hurl, hplain, ?_⟩, hredis⟩⟩
  · exact gateway_constructs (parsePositiveInteger_ok (by decide +kernel) hbody)
      (parsePositiveInteger_ok (by decide +kernel) htimeout)
      (parsePositiveInteger_ok (by decide +kernel) hinFlight)
      (parsePositiveInteger_ok (by decide +kernel) hthreshold)
      (parsePositiveInteger_ok (by decide +kernel) hduration)
      (parsePositiveInteger_ok (by decide +kernel) hupstreams)
  · simp only [ConfigurationClient.checkBaseUrl, hurl]
    apply if_neg
    rintro ⟨hnotHttp, hnotHttps⟩
    rcases htransport with hhttps | ⟨hhttp, _⟩
    · exact hnotHttps hhttps
    · exact hnotHttp hhttp
  · have hvalid := (hredis redis heq).keyPrefix
    refine ⟨{ keyPrefix := redis.keyPrefix, sha256, numberOfText }, ?_, rfl⟩
    simp [RedisFixedWindowRateLimiter.create, hvalid]
  · rcases htransport with hhttps | ⟨hhttp, hloopback⟩
    · exact .inl ⟨hhttps, hsecure.trans (decide_eq_true hhttps)⟩
    · have hnone : controlPlaneTls.isSome = false :=
        hsecure.trans (decide_eq_false (by rw [hhttp]; decide))
      exact .inr ⟨hhttp, hloopback, by simpa using hnone⟩

/-! ## An edge with TLS and Redis -/

namespace Orders

def serverUrls : List (String × Url) :=
  [("https://control.internal/",
      ⟨"https:", "", "", "control.internal", "", "/", "", "", printable_root⟩),
    ("rediss://limits.internal:6379",
      ⟨"rediss:", "", "", "limits.internal", "6379", "", "", "", printable_of_all (by decide)⟩)]

/-- A platform that knows the two servers. -/
def serverPlatform : Platform := { platform with parseUrl := fun text => serverUrls.lookup text }

/-- The texts of the two servers are what `href` makes of them, and the paths are absolute. -/
def node : HostPlatform where
  resolve := id
  href := id
  hrefWithoutHash := id
  DEFAULT_PUBLIC_KEY_FILE := "/srv/.shieldward/public.pem"

theorem standardHref_node : StandardHref serverPlatform node := by
  have hhash : ∀ entry ∈ serverUrls, entry.2.hash = "" := by decide
  refine ⟨fun _ _ h => h, fun text url h _ => ?_⟩
  have hmem : (text, url) ∈ serverUrls := by
    obtain ⟨before, after, heq, _⟩ := List.lookup_eq_some_iff.mp h
    rw [heq]
    exact List.mem_append_right _ List.mem_cons_self
  have hsame : { url with hash := "" } = url := by
    rw [← hhash _ hmem]
  rw [hsame]
  exact h

def environment : RuntimeEnvironment := fun name => List.lookup name
  [("HOST", "0.0.0.0"), ("PORT", " 8443 "), ("CONTROL_PLANE_URL", "https://control.internal/ "),
    ("SHIELDWARD_TLS_CERT_FILE", "/etc/edge/tls.crt"),
    ("SHIELDWARD_TLS_KEY_FILE", "/etc/edge/tls.key"),
    ("SHIELDWARD_CONTROL_PLANE_CA_FILE", "/etc/edge/ca.crt"),
    ("SHIELDWARD_CONTROL_PLANE_CLIENT_CERT_FILE", "/etc/edge/client.crt"),
    ("SHIELDWARD_CONTROL_PLANE_CLIENT_KEY_FILE", "/etc/edge/client.key"),
    ("SHIELDWARD_RATE_LIMIT_BACKEND", "Redis"),
    ("SHIELDWARD_REDIS_URL", "rediss://limits.internal:6379")]

theorem settings_accepted_orders :
    ∃ runtime, readRuntimeConfiguration serverPlatform node environment = .ok runtime ∧
      (runtime.hostname, runtime.port) = ("0.0.0.0", 8443) ∧ runtime.rateLimit ≠ .memory ∧
      runtime.ReadFrom node environment ∧ Positive 65535 runtime.port ∧
      Constructs serverPlatform runtime ∧ Private serverPlatform runtime := by
  have hread : (readRuntimeConfiguration serverPlatform node environment).toOption.map
      (fun runtime => ((runtime.hostname, runtime.port), decide (runtime.rateLimit ≠ .memory))) =
        some (("0.0.0.0", 8443), true) := by
    decide +kernel
  obtain ⟨runtime, hruntime, heq⟩ := Option.map_eq_some_iff.mp hread
  cases hresult : readRuntimeConfiguration serverPlatform node environment with
  | error error =>
    rw [hresult] at hruntime
    cases hruntime
  | ok result =>
    rw [hresult] at hruntime
    obtain rfl := Option.some.inj hruntime
    obtain ⟨hlistens, hredis⟩ := Prod.mk.inj heq
    exact ⟨result, rfl, hlistens, of_decide_eq_true hredis,
      settings_accepted standardHref_node hresult⟩

end Orders

end ShieldWard.Edge
