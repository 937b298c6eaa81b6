import ShieldWard.Edge.Shutdown
import ShieldWard.Edge.RedisRateLimit

/-!
# The settings of the edge

`edge/src/runtime-config.ts`. A setting is a text of the environment, and what is read of it is
checked before anything is started with it.
-/

namespace ShieldWard.Edge

open Ecma

abbrev RuntimeEnvironment := String → Option String

/-- What the reading of the settings uses of Node beside the URL parser. -/
structure HostPlatform where
  /-- `resolve` of `node:path`. -/
  resolve : String → String
  /-- `new URL(text).href`. -/
  href : String → String
  /-- The same after `url.hash = ''`. -/
  hrefWithoutHash : String → String
  DEFAULT_PUBLIC_KEY_FILE : String

structure TlsRuntimeConfiguration where
  certificateFile : String
  privateKeyFile : String
deriving DecidableEq

structure MutualTlsRuntimeConfiguration extends TlsRuntimeConfiguration where
  certificateAuthorityFile : String
deriving DecidableEq

structure RedisRateLimitRuntimeConfiguration where
  url : String
  username : Option String
  passwordFile : Option String
  certificateAuthorityFile : Option String
  keyPrefix : String
  connectTimeoutMs : Number
  commandTimeoutMs : Number
deriving DecidableEq

inductive RateLimitRuntimeConfiguration
  | memory
  | redis (configuration : RedisRateLimitRuntimeConfiguration)
deriving DecidableEq

structure RuntimeConfiguration where
  hostname : String
  port : Number
  controlPlaneUrl : String
  publicKeyFile : String
  maxRequestBodyBytes : Number
  upstreamTimeoutMs : Number
  maxInFlightRequests : Number
  circuitFailureThreshold : Number
  circuitOpenDurationMs : Number
  circuitMaximumUpstreams : Number
  shutdownGracePeriodMs : Number
  tls : Option TlsRuntimeConfiguration
  controlPlaneTls : Option MutualTlsRuntimeConfiguration
  tlsReloadIntervalMs : Number
  rateLimit : RateLimitRuntimeConfiguration
deriving DecidableEq

inductive RuntimeConfigurationError
  | message (text : String)
  /-- The `TypeError` of `new URL`. -/
  | invalidUrl
deriving DecidableEq

def REDIS_SETTING_NAMES : List String :=
  ["SHIELDWARD_REDIS_URL", "SHIELDWARD_REDIS_USERNAME", "SHIELDWARD_REDIS_PASSWORD_FILE",
    "SHIELDWARD_REDIS_CA_FILE", "SHIELDWARD_REDIS_PREFIX", "SHIELDWARD_REDIS_CONNECT_TIMEOUT_MS",
    "SHIELDWARD_REDIS_COMMAND_TIMEOUT_MS"]

def DEFAULT_REDIS_KEY_PREFIX : String := "shieldward:rate-limit:v1"

namespace RuntimeConfiguration

def DEFAULT_MAX_REQUEST_BODY_BYTES : Number := 1024 * 1024

def DEFAULT_UPSTREAM_TIMEOUT_MS : Number := 10000

def DEFAULT_MAX_IN_FLIGHT_REQUESTS : Number := 1024

def DEFAULT_CIRCUIT_FAILURE_THRESHOLD : Number := 5

def DEFAULT_CIRCUIT_OPEN_MS : Number := 30000

def DEFAULT_CIRCUIT_MAX_UPSTREAMS : Number := 1024

def DEFAULT_SHUTDOWN_GRACE_MS : Number := 10000

def DEFAULT_TLS_RELOAD_INTERVAL_MS : Number := 30000

end RuntimeConfiguration

/-! ## Settings -/

variable (P : Platform) (N : HostPlatform)

/-- `Number(trimmed)` is taken exactly: what is not a safe integer is not rounded to one. -/
def parsePositiveInteger (value : Option String) (fallback : Number) (name : String)
    (maximum : Number) : Except RuntimeConfigurationError Number :=
  match value with
  | none => .ok fallback
  | some value =>
    let trimmed := (trim value).toList
    if !isDigits trimmed then .error (.message (name ++ " must be a positive integer"))
    else
      let parsed : Number := digitsValue trimmed
      if !isSafeInteger parsed || parsed ≤ 0 || maximum < parsed then
        .error (.message (name ++ " must be between 1 and " ++ P.numberText maximum))
      else .ok parsed

def parseOptionalPath (value : Option String) (name : String) :
    Except RuntimeConfigurationError (Option String) :=
  match value with
  | none => .ok none
  | some value =>
    if isBlank value then .error (.message (name ++ " must not be empty"))
    else .ok (some (N.resolve (trim value)))

def parsePublicKeyFile (value : Option String) : Except RuntimeConfigurationError String :=
  match value with
  | none => .ok N.DEFAULT_PUBLIC_KEY_FILE
  | some value =>
    if isBlank value then .error (.message "SHIELDWARD_PUBLIC_KEY_FILE must not be empty")
    else .ok (N.resolve (trim value))

def parseOptionalText (value : Option String) (name : String) (maximumLength : ℕ) :
    Except RuntimeConfigurationError (Option String) :=
  match value with
  | none => .ok none
  | some value =>
    let trimmed := trim value
    if trimmed = "" ∨ maximumLength < length trimmed then
      .error (.message
        (name ++ " must contain 1 to " ++ P.numberText maximumLength ++ " characters"))
    else .ok (some trimmed)

def parseControlPlaneUrl (value : String) : Except RuntimeConfigurationError String :=
  match P.parseUrl (trim value) with
  | none => .error (.message "CONTROL_PLANE_URL must be a valid URL")
  | some url =>
    if url.protocol ≠ "http:" ∧ url.protocol ≠ "https:" then
      .error (.message "CONTROL_PLANE_URL must use HTTP or HTTPS")
    else if url.username ≠ "" ∨ url.password ≠ "" then
      .error (.message "CONTROL_PLANE_URL must not contain credentials")
    else if !usesSecureTransport url then
      .error (.message "CONTROL_PLANE_URL must use HTTPS unless it targets loopback")
    else .ok (N.hrefWithoutHash (trim value))

def parseTlsConfiguration (environment : RuntimeEnvironment) :
    Except RuntimeConfigurationError (Option TlsRuntimeConfiguration) := do
  let certificateFile ←
    parseOptionalPath N (environment "SHIELDWARD_TLS_CERT_FILE") "SHIELDWARD_TLS_CERT_FILE"
  let privateKeyFile ←
    parseOptionalPath N (environment "SHIELDWARD_TLS_KEY_FILE") "SHIELDWARD_TLS_KEY_FILE"
  match certificateFile, privateKeyFile with
  | none, none => .ok none
  | some certificateFile, some privateKeyFile => .ok (some { certificateFile, privateKeyFile })
  | _, _ => .error (.message
      "SHIELDWARD_TLS_CERT_FILE and SHIELDWARD_TLS_KEY_FILE must be configured together")

/-- The three files, after they have been read. -/
def controlPlaneTlsOf (secure : Bool)
    (certificateAuthorityFile certificateFile privateKeyFile : Option String) :
    Except RuntimeConfigurationError (Option MutualTlsRuntimeConfiguration) :=
  match certificateAuthorityFile, certificateFile, privateKeyFile with
  | none, none, none =>
    if secure then
      .error (.message "control-plane mutual TLS files are required for HTTPS")
    else .ok none
  | some certificateAuthorityFile, some certificateFile, some privateKeyFile =>
    if !secure then
      .error (.message "control-plane mutual TLS files require an HTTPS CONTROL_PLANE_URL")
    else .ok (some { certificateAuthorityFile, certificateFile, privateKeyFile })
  | _, _, _ => .error (.message ("SHIELDWARD_CONTROL_PLANE_CA_FILE, " ++
      "SHIELDWARD_CONTROL_PLANE_CLIENT_CERT_FILE, and " ++
      "SHIELDWARD_CONTROL_PLANE_CLIENT_KEY_FILE must be configured together"))

def parseControlPlaneTlsConfiguration (environment : RuntimeEnvironment)
    (controlPlaneUrl : String) :
    Except RuntimeConfigurationError (Option MutualTlsRuntimeConfiguration) := do
  let certificateAuthorityFile ← parseOptionalPath N
    (environment "SHIELDWARD_CONTROL_PLANE_CA_FILE") "SHIELDWARD_CONTROL_PLANE_CA_FILE"
  let certificateFile ← parseOptionalPath N
    (environment "SHIELDWARD_CONTROL_PLANE_CLIENT_CERT_FILE")
    "SHIELDWARD_CONTROL_PLANE_CLIENT_CERT_FILE"
  let privateKeyFile ← parseOptionalPath N
    (environment "SHIELDWARD_CONTROL_PLANE_CLIENT_KEY_FILE")
    "SHIELDWARD_CONTROL_PLANE_CLIENT_KEY_FILE"
  match P.parseUrl controlPlaneUrl with
  | none => .error .invalidUrl
  | some url =>
    controlPlaneTlsOf (url.protocol = "https:") certificateAuthorityFile certificateFile
      privateKeyFile

def parseRedisUrl (value : Option String) : Except RuntimeConfigurationError String :=
  match value with
  | none => .error (.message "SHIELDWARD_REDIS_URL is required for the Redis rate-limit backend")
  | some value =>
    if isBlank value then
      .error (.message "SHIELDWARD_REDIS_URL is required for the Redis rate-limit backend")
    else
      match P.parseUrl (trim value) with
      | none => .error (.message "SHIELDWARD_REDIS_URL must be a valid URL")
      | some url =>
        if url.protocol ≠ "redis:" ∧ url.protocol ≠ "rediss:" then
          .error (.message "SHIELDWARD_REDIS_URL must use redis or rediss")
        else if url.username ≠ "" ∨ url.password ≠ "" then
          .error (.message "SHIELDWARD_REDIS_URL must not contain credentials")
        else if url.search ≠ "" ∨ url.hash ≠ "" then
          .error (.message "SHIELDWARD_REDIS_URL must not contain a query or fragment")
        else if url.protocol = "redis:" ∧ isLoopbackHostname url.hostname = false then
          .error (.message "SHIELDWARD_REDIS_URL must use rediss unless it targets loopback")
        else .ok (N.href (trim value))

/-- `value?.trim() || fallback`. -/
def trimmedOr (value : Option String) (fallback : String) : String :=
  match value with
  | none => fallback
  | some value => if isBlank value then fallback else trim value

def parseRedisKeyPrefix (value : Option String) : Except RuntimeConfigurationError String :=
  let keyPrefix := trimmedOr value DEFAULT_REDIS_KEY_PREFIX
  if !isKeyPrefix keyPrefix then
    .error (.message ("SHIELDWARD_REDIS_PREFIX must contain 1 to 128 letters, numbers, colons, " ++
      "underscores, or hyphens"))
  else .ok keyPrefix

/-- `backend.trim().toLowerCase()`. Only the letters of ASCII become letters of ASCII that occur in
the two names. -/
def backendName (environment : RuntimeEnvironment) : List Char :=
  (trim ((environment "SHIELDWARD_RATE_LIMIT_BACKEND").getD "memory")).toList.map Char.toLower

/-- The check of `parseRateLimitConfiguration` on the authority of the Redis server. -/
def checkRedisAuthority (url : String) (certificateAuthorityFile : Option String) :
    Except RuntimeConfigurationError Unit :=
  if certificateAuthorityFile.isSome then
    match P.parseUrl url with
    | none => .error .invalidUrl
    | some parsed =>
      if parsed.protocol ≠ "rediss:" then
        .error (.message "SHIELDWARD_REDIS_CA_FILE requires a rediss URL")
      else .ok ()
  else .ok ()

/-- The settings of `parseRateLimitConfiguration` for Redis. -/
def parseRedisConfiguration (environment : RuntimeEnvironment) :
    Except RuntimeConfigurationError RedisRateLimitRuntimeConfiguration := do
  let url ← parseRedisUrl P N (environment "SHIELDWARD_REDIS_URL")
  let certificateAuthorityFile ←
    parseOptionalPath N (environment "SHIELDWARD_REDIS_CA_FILE") "SHIELDWARD_REDIS_CA_FILE"
  checkRedisAuthority P url certificateAuthorityFile
  let username ← parseOptionalText P (environment "SHIELDWARD_REDIS_USERNAME")
    "SHIELDWARD_REDIS_USERNAME" 256
  let passwordFile ← parseOptionalPath N (environment "SHIELDWARD_REDIS_PASSWORD_FILE")
    "SHIELDWARD_REDIS_PASSWORD_FILE"
  let keyPrefix ← parseRedisKeyPrefix (environment "SHIELDWARD_REDIS_PREFIX")
  let connectTimeoutMs ← parsePositiveInteger P
    (environment "SHIELDWARD_REDIS_CONNECT_TIMEOUT_MS") 3000
    "SHIELDWARD_REDIS_CONNECT_TIMEOUT_MS" 30000
  let commandTimeoutMs ← parsePositiveInteger P
    (environment "SHIELDWARD_REDIS_COMMAND_TIMEOUT_MS") 1000
    "SHIELDWARD_REDIS_COMMAND_TIMEOUT_MS" 30000
  return { url, username, passwordFile, certificateAuthorityFile, keyPrefix, connectTimeoutMs,
           commandTimeoutMs }

def parseRateLimitConfiguration (environment : RuntimeEnvironment) :
    Except RuntimeConfigurationError RateLimitRuntimeConfiguration :=
  if (environment "SHIELDWARD_REDIS_PASSWORD").isSome then
    .error (.message ("SHIELDWARD_REDIS_PASSWORD is not supported; " ++
      "use SHIELDWARD_REDIS_PASSWORD_FILE"))
  else if backendName environment = "memory".toList then
    match REDIS_SETTING_NAMES.find? fun name => (environment name).isSome with
    | some ignoredSetting =>
      .error (.message (ignoredSetting ++ " requires SHIELDWARD_RATE_LIMIT_BACKEND=redis"))
    | none => .ok .memory
  else if backendName environment = "redis".toList then
    (parseRedisConfiguration P N environment).map .redis
  else .error (.message "SHIELDWARD_RATE_LIMIT_BACKEND must be memory or redis")

/-- The check of `readRuntimeConfiguration` on the listener. -/
def checkListener (hostname : String) (tls : Option TlsRuntimeConfiguration) :
    Except RuntimeConfigurationError Unit :=
  if tls.isNone && !isLoopbackHostname hostname then
    .error (.message "TLS certificate and key are required when HOST is not loopback")
  else .ok ()

open RuntimeConfiguration in
def readRuntimeConfiguration (environment : RuntimeEnvironment) :
    Except RuntimeConfigurationError RuntimeConfiguration := do
  let hostname := trimmedOr (environment "HOST") "127.0.0.1"
  let port ← parsePositiveInteger P (environment "PORT") 8787 "PORT" 65535
  let controlPlaneUrl ← parseControlPlaneUrl P N
    ((environment "CONTROL_PLANE_URL").getD "http://127.0.0.1:18080")
  let publicKeyFile ← parsePublicKeyFile N (environment "SHIELDWARD_PUBLIC_KEY_FILE")
  let tls ← parseTlsConfiguration N environment
  let controlPlaneTls ← parseControlPlaneTlsConfiguration P N environment controlPlaneUrl
  checkListener hostname tls
  let maxRequestBodyBytes ← parsePositiveInteger P (environment "MAX_REQUEST_BODY_BYTES")
    DEFAULT_MAX_REQUEST_BODY_BYTES "MAX_REQUEST_BODY_BYTES" maxSafeInteger
  let upstreamTimeoutMs ← parsePositiveInteger P (environment "SHIELDWARD_UPSTREAM_TIMEOUT_MS")
    DEFAULT_UPSTREAM_TIMEOUT_MS "SHIELDWARD_UPSTREAM_TIMEOUT_MS" 120000
  let maxInFlightRequests ← parsePositiveInteger P
    (environment "SHIELDWARD_MAX_IN_FLIGHT_REQUESTS") DEFAULT_MAX_IN_FLIGHT_REQUESTS
    "SHIELDWARD_MAX_IN_FLIGHT_REQUESTS" 100000
  let circuitFailureThreshold ← parsePositiveInteger P
    (environment "SHIELDWARD_CIRCUIT_FAILURE_THRESHOLD") DEFAULT_CIRCUIT_FAILURE_THRESHOLD
    "SHIELDWARD_CIRCUIT_FAILURE_THRESHOLD" 100
  let circuitOpenDurationMs ← parsePositiveInteger P (environment "SHIELDWARD_CIRCUIT_OPEN_MS")
    DEFAULT_CIRCUIT_OPEN_MS "SHIELDWARD_CIRCUIT_OPEN_MS" 300000
  let circuitMaximumUpstreams ← parsePositiveInteger P
    (environment "SHIELDWARD_CIRCUIT_MAX_UPSTREAMS") DEFAULT_CIRCUIT_MAX_UPSTREAMS
    "SHIELDWARD_CIRCUIT_MAX_UPSTREAMS" 100000
  let shutdownGracePeriodMs ← parsePositiveInteger P (environment "SHIELDWARD_SHUTDOWN_GRACE_MS")
    DEFAULT_SHUTDOWN_GRACE_MS "SHIELDWARD_SHUTDOWN_GRACE_MS" 120000
  let tlsReloadIntervalMs ← parsePositiveInteger P
    (environment "SHIELDWARD_TLS_RELOAD_INTERVAL_MS") DEFAULT_TLS_RELOAD_INTERVAL_MS
    "SHIELDWARD_TLS_RELOAD_INTERVAL_MS" 300000
  let rateLimit ← parseRateLimitConfiguration P N environment
  return {
    hostname, port, controlPlaneUrl, publicKeyFile, maxRequestBodyBytes, upstreamTimeoutMs
    maxInFlightRequests, circuitFailureThreshold, circuitOpenDurationMs, circuitMaximumUpstreams
    shutdownGracePeriodMs, tls, controlPlaneTls, tlsReloadIntervalMs, rateLimit }

end ShieldWard.Edge
