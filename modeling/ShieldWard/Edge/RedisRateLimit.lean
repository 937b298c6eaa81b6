import ShieldWard.Edge.RateLimit
import ShieldWard.Lib.Bytes

/-!
# The distributed rate limiter

`edge/src/redis-rate-limit.ts`: a limiter whose buckets are hashes of a Redis server. The
script runs there as one step, so the state is the server's. Redis keeps numbers as decimal
texts, which lose nothing of a safe integer; the fields and the arguments of the script are
numbers here.
-/

namespace ShieldWard.Edge

open Ecma Bytes

/-! ## The server -/

/-- What the command `TIME` answers. -/
structure RedisTime where
  seconds : ℕ
  microseconds : ℕ
deriving DecidableEq, Repr

/-- The hash of a bucket. -/
structure RedisHash where
  start : Number
  count : ℕ
  limit : Number
  window : Number
deriving DecidableEq, Repr

/-- A hash with the time at which its key disappears. -/
structure RedisEntry where
  hash : RedisHash
  deadline : Number
deriving DecidableEq, Repr

abbrev RedisServer := OrderedMap String RedisEntry

/-- A value of a reply, by its type in the client. -/
inductive RedisValue
  | bigint (value : ℤ)
  | number (value : Number)
  | text (value : String)
  | other

inductive RedisReply
  | array (values : List RedisValue)
  | other

/-- A Lua number in a reply: Redis drops its fraction. -/
def luaInteger (value : Number) : RedisValue := .number ⌊value⌋

/-- `now_ms` of the script. -/
def RedisTime.nowMs (time : RedisTime) : Number :=
  time.seconds * 1000 + ⌊(time.microseconds : Number) / 1000⌋

namespace RedisServer

/-- `HMGET` of the four fields: a key whose deadline has passed is missing, and a missing key
has no fields. -/
def hmget (server : RedisServer) (key : String) (now : Number) : Option RedisHash :=
  ((server.get key).filter fun entry => now < entry.deadline).map (·.hash)

/-- Whether the stored fields are not those of the requested window. -/
def isOther (existing : Option RedisHash) (window_start requested_limit window_ms : Number) :
    Bool :=
  match existing with
  | none => true
  | some hash =>
    hash.start ≠ window_start || hash.limit ≠ requested_limit || hash.window ≠ window_ms

/-- `FIXED_WINDOW_SCRIPT` for its key and its two arguments. -/
def fixedWindowScript (server : RedisServer) (current : RedisTime) (key : String)
    (requested_limit window_ms : Number) : RedisServer × RedisReply :=
  let now_ms := current.nowMs
  let window_start := now_ms - (now_ms - ⌊now_ms / window_ms⌋ * window_ms)
  let reset_at := window_start + window_ms
  let existing := server.hmget key now_ms
  let fresh : RedisHash :=
    { start := window_start, count := 0, limit := requested_limit, window := window_ms }
  let hash :=
    if isOther existing window_start requested_limit window_ms then fresh
    else existing.getD fresh
  let allowed := decide (hash.count < requested_limit)
  let hash := if allowed then { hash with count := hash.count + 1 } else hash
  let deadline := now_ms + max 1 (reset_at - now_ms)
  let remaining := max 0 (requested_limit - hash.count)
  let retry_after := max 1 ⌈(reset_at - now_ms) / 1000⌉
  (server.set key { hash, deadline },
    .array
      [luaInteger (if allowed then 1 else 0), luaInteger requested_limit, luaInteger remaining,
        luaInteger reset_at, luaInteger retry_after])

end RedisServer

/-! ## The limiter -/

/-- `/^[A-Za-z0-9:_-]{1,128}$/`. -/
def isKeyPrefix (text : String) : Bool :=
  1 ≤ text.toList.length && text.toList.length ≤ 128 && text.toList.all fun c =>
    c.isDigit || ('A' ≤ c && c ≤ 'Z') || ('a' ≤ c && c ≤ 'z') || c ∈ [':', '_', '-']

/-- The limiter without its client: the key prefix, and what it uses of the platform. -/
structure RedisFixedWindowRateLimiter where
  keyPrefix : String
  /-- The digest of `createHash('sha256')`. -/
  sha256 : Bytes → Bytes
  /-- `Number` of a text; `none` for `NaN`. -/
  numberOfText : String → Option Number

namespace RedisFixedWindowRateLimiter

def create (keyPrefix : Option String) (sha256 : Bytes → Bytes)
    (numberOfText : String → Option Number) :
    Except RateLimiterError RedisFixedWindowRateLimiter :=
  let keyPrefix := keyPrefix.getD "shieldward:rate-limit:v1"
  if !isKeyPrefix keyPrefix then
    .error ⟨"Redis key prefix must contain 1 to 128 safe characters"⟩
  else .ok { keyPrefix, sha256, numberOfText }

/-- What `hashIdentity` feeds to the digest. -/
def identityBytes (routeId identity : String) : Bytes := utf8 routeId ++ utf8 "\x00" ++ utf8 identity

def hashIdentity (limiter : RedisFixedWindowRateLimiter) (routeId identity : String) : String :=
  hex (limiter.sha256 (identityBytes routeId identity))

def redisKey (limiter : RedisFixedWindowRateLimiter) (routeId identity : String) : String :=
  limiter.keyPrefix ++ ":" ++ limiter.hashIdentity routeId identity

def parseInteger (limiter : RedisFixedWindowRateLimiter) (value : RedisValue) : Option Number :=
  let parsed :=
    match value with
    | .bigint value => some (value : Number)
    | .number value => some value
    | .text value => limiter.numberOfText value
    | .other => none
  parsed.filter isSafeInteger

def parseReply (limiter : RedisFixedWindowRateLimiter) (reply : RedisReply) :
    Except RateLimiterError RateLimitResult :=
  let invalid := RateLimiterError.mk "distributed rate limiter returned an invalid response"
  match reply with
  | .other => .error invalid
  | .array values =>
    match values.map limiter.parseInteger with
    | [some allowed, some limit, some remaining, some resetAt, some retryAfterSeconds] =>
      if (allowed ≠ 0 ∧ allowed ≠ 1) ∨ limit ≤ 0 ∨ remaining < 0 ∨ limit < remaining ∨
          resetAt < 0 ∨ retryAfterSeconds ≤ 0 then .error invalid
      else
        .ok { allowed := allowed = 1, limit, remaining, resetAt, retryAfterSeconds }
    | _ => .error invalid

/-- After the await of the client; `none` when it rejects. -/
def afterEval (limiter : RedisFixedWindowRateLimiter) :
    Option RedisReply → Except RateLimiterError RateLimitResult
  | none => .error ⟨"distributed rate limiter request failed"⟩
  | some reply => limiter.parseReply reply

/-- `check` with a client that reaches the server. -/
def check (limiter : RedisFixedWindowRateLimiter) (server : RedisServer) (time : RedisTime)
    (routeId identity : String) (policy : RateLimitPolicy) :
    RedisServer × Except RateLimiterError RateLimitResult :=
  match validateRateLimitInput routeId identity policy with
  | .error e => (server, .error e)
  | .ok windowMs =>
    if !isSafeInteger windowMs then
      (server, .error ⟨"Redis rate-limit windows must resolve to whole milliseconds"⟩)
    else
      let key := limiter.redisKey routeId identity
      let (server, reply) := server.fixedWindowScript time key policy.requests windowMs
      (server, limiter.afterEval (some reply))

end RedisFixedWindowRateLimiter
end ShieldWard.Edge
